import NetRun.Proofs.Route.Leaf
import NetRun.Proofs.Route.Symmetry

/-!
# Hosts behind their routers

In a topology whose first nodes are routers and whose other nodes are hosts,
each on one link from a router, the routes between hosts are made of three
parts: the two access links and the route between their routers.  The routes
between routers do not depend on the hosts, neither on their number nor on
their links.
-/

namespace NetRun

namespace Topology

/--
The nodes below `core` are routers.  The others are hosts: each is the second
end of one link, which starts at a router, or of none.
-/
structure Homed
    (topology : Topology)
    (core : Nat) :
    Prop where
  inRange : topology.InRange
  core_le : core ≤ topology.nodes.toNat
  first_lt : ∀ link ∈ topology.links, link.first.toNat < core
  unique :
    ∀ link ∈ topology.links, ∀ other ∈ topology.links,
      core ≤ link.second.toNat → other.second = link.second → other = link

namespace Homed

variable
    {topology : Topology}
    {core node other : Nat}
    {link : Link}

/-- The neighbours of a host are the routers at the first ends of its links. -/
theorem adj_iff
    (homed : topology.Homed core)
    (isHost : core ≤ node) :
    topology.graph.Adj node other ↔
      ∃ link ∈ topology.links, link.second.toNat = node ∧ link.first.toNat = other := by
  constructor
  · rintro ⟨-, link, listed, joins⟩
    rcases Link.joins_iff.1 joins with ⟨rfl, rfl⟩ | ⟨rfl, rfl⟩
    · exact absurd (homed.first_lt link listed) (Nat.not_lt_of_le isHost)
    · exact ⟨link, listed, rfl, rfl⟩
  · rintro ⟨link, listed, rfl, rfl⟩
    refine ⟨?_, link, listed, Link.joins_iff.2 (Or.inr ⟨rfl, rfl⟩)⟩
    exact Nat.ne_of_gt (Nat.lt_of_lt_of_le (homed.first_lt link listed) isHost)

/-- The link of a host is its only one. -/
theorem eq_of_toNat_second_eq
    (homed : topology.Homed core)
    (listed : link ∈ topology.links)
    (isHost : core ≤ link.second.toNat)
    {copy : Link}
    (copyListed : copy ∈ topology.links)
    (same : copy.second.toNat = link.second.toNat) :
    copy = link :=
  homed.unique link listed copy copyListed isHost (UInt32.toNat_inj.1 same)

theorem leaf
    (homed : topology.Homed core)
    (isHost : core ≤ node) :
    topology.Leaf node := by
  intro a b toA toB
  rcases (homed.adj_iff isHost).1 toA with ⟨link, listed, rfl, rfl⟩
  rcases (homed.adj_iff isHost).1 toB with ⟨copy, copyListed, same, rfl⟩
  rw [homed.eq_of_toNat_second_eq listed isHost copyListed same]

theorem hangs
    (homed : topology.Homed core)
    (listed : link ∈ topology.links)
    (isHost : core ≤ link.second.toNat) :
    topology.Hangs link.second.toNat link.first.toNat link := by
  have adjacent := (homed.adj_iff isHost).2 ⟨link, listed, rfl, rfl⟩
  refine ⟨adjacent, ?_, ?_⟩
  · rcases adj_iff_lastLink.1 adjacent with ⟨-, copy, last⟩
    rcases joins_of_lastLink last with ⟨copyListed, joins⟩
    rcases Link.joins_iff.1 joins with ⟨first, -⟩ | ⟨-, same⟩
    · have firstLt := homed.first_lt copy copyListed
      rw [first] at firstLt
      exact absurd firstLt (Nat.not_lt_of_le isHost)
    · rw [last, homed.eq_of_toNat_second_eq listed isHost copyListed same]
  · intro next toNext
    exact homed.leaf isHost next _ toNext adjacent

end Homed

end Topology

namespace RouteTable

open NetRun.Topology

variable
    {topology : Topology}
    {table : RouteTable}
    {core i j : Nat}

/-! ## Routes between hosts -/

theorem symmetric_of_compute
    (computed : (compute topology).outcome = .ok table) :
    table.Symmetric := by
  rcases exists_after_of_compute computed with ⟨base, built, rfl⟩
  apply (symmetric_of_ofTopology built).after (selfDiagonal_of_ofTopology built)
  rw [size_of_ofTopology built]

section Computed

variable
    (homed : topology.Homed core)
    (computed : (compute topology).outcome = .ok table)

include homed computed

/-- Between two hosts the route takes both their links and the route of their routers. -/
theorem cell_eq_past_past
    {linkA linkB : Link}
    (listedA : linkA ∈ topology.links)
    (listedB : linkB ∈ topology.links)
    (isHostA : core ≤ linkA.second.toNat)
    (isHostB : core ≤ linkB.second.toNat)
    (apart : linkA.second.toNat ≠ linkB.second.toNat) :
    table.cell linkA.second.toNat linkB.second.toNat =
      .past linkA (.past linkB (table.cell linkA.first.toNat linkB.first.toNat)) := by
  have inside := inRange_iff.1 homed.inRange
  have symmetric := symmetric_of_compute computed
  have size := size_of_compute computed
  rcases inside linkA listedA with ⟨firstALt, secondALt⟩
  rcases inside linkB listedB with ⟨firstBLt, secondBLt⟩
  have routerA := homed.first_lt linkA listedA
  rw [cell_eq_past_of_hangs computed (homed.hangs listedA isHostA) secondBLt apart]
  rw [symmetric _ (by rwa [size]) _ (by rwa [size])]
  rw [cell_eq_past_of_hangs computed (homed.hangs listedB isHostB) firstALt (by omega)]
  rw [symmetric _ (by rwa [size]) _ (by rwa [size])]

/-- A host without a link has no route to another node. -/
theorem cell_eq_unreached_of_unlinked
    (isHost : core ≤ i)
    (unlinked : ∀ link ∈ topology.links, link.second.toNat ≠ i)
    (iLt : i < topology.nodes.toNat)
    (jLt : j < topology.nodes.toNat)
    (apart : i ≠ j) :
    table.cell i j = .unreached ∧ table.cell j i = .unreached := by
  have symmetric := symmetric_of_compute computed
  have size := size_of_compute computed
  have missing : table.cell i j = .unreached := by
    apply cell_eq_unreached_of_isolated computed _ iLt jLt apart
    intro node adjacent
    rcases (homed.adj_iff isHost).1 adjacent with ⟨link, listed, second, -⟩
    exact unlinked link listed second
  rw [symmetric j (by rwa [size]) i (by rwa [size])]
  exact ⟨missing, missing⟩

end Computed

/-! ## Routes between routers -/

variable
    {wide : Topology}
    {wideTable : RouteTable}

/-- After the same pivots, the routers' cells agree if the routers' links do. -/
theorem cell_after_eq_of_lastLink_eq
    {base wideBase : RouteTable}
    (built : (ofTopology topology).outcome = .ok base)
    (wideBuilt : (ofTopology wide).outcome = .ok wideBase)
    (coreLe : core ≤ topology.nodes.toNat)
    (wideCoreLe : core ≤ wide.nodes.toNat)
    (sameLinks : ∀ i < core, ∀ j < core, wide.lastLink i j = topology.lastLink i j)
    {k : Nat}
    (kLe : k ≤ core)
    (iLt : i < core)
    (jLt : j < core) :
    (wideBase.after k).cell i j = (base.after k).cell i j := by
  have size := size_of_ofTopology built
  have wideSize := size_of_ofTopology wideBuilt
  induction k generalizing i j with
  | zero =>
      rw [after_zero, after_zero]
      by_cases same : i = j
      · subst same
        rw [cell_self_of_ofTopology built (by omega),
          cell_self_of_ofTopology wideBuilt (by omega)]
      · rw [cell_of_ofTopology built (by omega) (by omega) same,
          cell_of_ofTopology wideBuilt (by omega) (by omega) same, sameLinks i iLt j jLt]
  | succ k induction =>
      have kLt : k < core := kLe
      rw [(selfDiagonal_of_ofTopology built).cell_after_succ (by omega) (by omega) (by omega),
        (selfDiagonal_of_ofTopology wideBuilt).cell_after_succ (by omega) (by omega) (by omega)]
      rw [induction (Nat.le_of_lt kLt) iLt jLt, induction (Nat.le_of_lt kLt) iLt kLt,
        induction (Nat.le_of_lt kLt) kLt jLt]

/-- Routers with the same links have the same routes, whatever hosts they have. -/
theorem cell_eq_of_lastLink_eq
    (homed : topology.Homed core)
    (wideHomed : wide.Homed core)
    (computed : (compute topology).outcome = .ok table)
    (wideComputed : (compute wide).outcome = .ok wideTable)
    (sameLinks : ∀ i < core, ∀ j < core, wide.lastLink i j = topology.lastLink i j)
    (iLt : i < core)
    (jLt : j < core) :
    wideTable.cell i j = table.cell i j := by
  rcases exists_after_of_compute computed with ⟨base, built, rfl⟩
  rcases exists_after_of_compute wideComputed with ⟨wideBase, wideBuilt, rfl⟩
  rw [← cell_after_eq_of_leaves built homed.core_le (fun _ => homed.leaf) iLt jLt,
    ← cell_after_eq_of_leaves wideBuilt wideHomed.core_le (fun _ => wideHomed.leaf) iLt jLt]
  exact cell_after_eq_of_lastLink_eq built wideBuilt homed.core_le wideHomed.core_le sameLinks
    (Nat.le_refl core) iLt jLt

end RouteTable

end NetRun
