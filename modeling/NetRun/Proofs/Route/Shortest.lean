import NetRun.Proofs.Route.Walks

/-!
# Relaxed tables

Once every node has been a pivot, the hops of a cell are the length of a
shortest walk, and a cell is unreached exactly when there is no walk.  Hops,
delay and bottleneck of a reached cell are all read off one and the same walk.
-/

namespace NetRun.RouteTable

open SimpleGraph
open NetRun.Log
open NetRun.Topology

variable
    {topology : Topology}
    {base table : RouteTable}
    {i j k : Nat}

/-- The hops of a reached cell are fewer than the network has nodes. -/
theorem length?_after_lt
    (built : (ofTopology topology).outcome = .ok base)
    (kLe : k ≤ topology.nodes.toNat)
    (iLt : i < topology.nodes.toNat)
    (jLt : j < topology.nodes.toNat)
    {n : Nat}
    (reached : ((base.after k).cell i j).length? = some n) :
    n < topology.nodes.toNat := by
  have inRange := inRange_of_ofTopology built
  obtain ⟨walk, below, -⟩ := exists_walk_of_length?_after built kLe iLt jLt reached
  obtain ⟨m, sameReached, mLe⟩ := length?_after_le built kLe iLt jLt walk.bypass below.bypass
  rw [reached] at sameReached
  cases sameReached
  exact Nat.lt_of_le_of_lt mLe (inRange.length_lt_of_isPath walk.bypass_isPath iLt)

/-- Halves that are both reached do join: the sum of their hops fits its word. -/
theorem exists_join_halves
    {pivot source target : Nat}
    (built : (ofTopology topology).outcome = .ok base)
    (pivotLt : pivot < topology.nodes.toNat)
    (sourceLt : source < topology.nodes.toNat)
    (targetLt : target < topology.nodes.toNat)
    (firstReached : (base.halves pivot source target).1.isReached = true)
    (secondReached : (base.halves pivot source target).2.isReached = true) :
    ∃ joined,
      (base.halves pivot source target).1.join (base.halves pivot source target).2 =
        some joined := by
  have size := size_of_ofTopology built
  have pivotLe := Nat.le_of_lt pivotLt
  rw [(selfDiagonal_of_ofTopology built).halves_eq
    (by omega) (by omega) (by omega)] at firstReached secondReached ⊢
  obtain ⟨m, firstLength⟩ := Route.isReached_iff.1 firstReached
  obtain ⟨n, secondLength⟩ := Route.isReached_iff.1 secondReached
  have mLt := length?_after_lt built pivotLe sourceLt pivotLt firstLength
  have nLt := length?_after_lt built pivotLe pivotLt targetLt secondLength
  -- A table that fits the address space has far fewer than 2^31 nodes.
  have small : topology.nodes.toNat < 2147483648 := by
    have fits := (outcome_ofTopology_eq_ok_iff.1 built).1
    unfold Fits routeBytes addressable at fits
    by_contra large
    have square := Nat.mul_le_mul (Nat.le_of_not_lt large) (Nat.le_of_not_lt large)
    omega
  obtain ⟨joined, joins, -⟩ := Route.exists_join firstLength secondLength (by omega)
  exact ⟨joined, joins⟩

/-- Computing a table is building it from the links and taking every node as a pivot. -/
theorem outcome_compute_eq_ok_iff :
    (compute topology).outcome = .ok table ↔
      ∃ base, (ofTopology topology).outcome = .ok base ∧ table = base.relax.1 := by
  unfold compute
  rw [Logged.outcome_bind]
  cases building : (ofTopology topology).outcome with
  | error cause => simp [Except.bind]
  | ok base => simp [Except.bind, Except.map, eq_comm]

section Computed

variable
    (computed : (compute topology).outcome = .ok table)

include computed

theorem exists_after_of_compute :
    ∃ base,
      (ofTopology topology).outcome = .ok base ∧
        table = base.after topology.nodes.toNat := by
  obtain ⟨base, built, rfl⟩ := outcome_compute_eq_ok_iff.1 computed
  exact ⟨base, built, by rw [fst_relax, size_of_ofTopology built]⟩

theorem inRange_of_compute :
    topology.InRange := by
  obtain ⟨base, built, -⟩ := exists_after_of_compute computed
  exact inRange_of_ofTopology built

theorem size_of_compute :
    table.size = topology.nodes.toNat := by
  obtain ⟨base, built, rfl⟩ := exists_after_of_compute computed
  rw [size_after, size_of_ofTopology built]

theorem cell_self_of_compute
    (iLt : i < topology.nodes.toNat) :
    table.cell i i = .self := by
  obtain ⟨base, built, rfl⟩ := exists_after_of_compute computed
  have size := size_of_ofTopology built
  exact (selfDiagonal_of_ofTopology built).after (by omega) i (by rwa [size_after, size])

/-- Every cell is unreached or follows some walk. -/
theorem follows_of_compute
    (iLt : i < topology.nodes.toNat)
    (jLt : j < topology.nodes.toNat) :
    table.cell i j = .unreached ∨
      Follows topology topology.nodes.toNat i j (table.cell i j) := by
  obtain ⟨base, built, rfl⟩ := exists_after_of_compute computed
  exact follows_after built (Nat.le_refl _) iLt jLt

/-- A cell that is not reached is the missing route. -/
theorem cell_eq_unreached_of_compute
    (iLt : i < topology.nodes.toNat)
    (jLt : j < topology.nodes.toNat)
    (missing : (table.cell i j).length? = none) :
    table.cell i j = .unreached := by
  rcases follows_of_compute computed iLt jLt with unreached | ⟨walk, -, fits, equal⟩
  · exact unreached
  · rw [equal, Route.length?_along (by simpa using fits)] at missing
    cases missing

/-- Where there is a walk, the cell is reached over no more links. -/
theorem length?_le_of_compute
    (iLt : i < topology.nodes.toNat)
    (jLt : j < topology.nodes.toNat)
    (walk : topology.graph.Walk i j) :
    ∃ n, (table.cell i j).length? = some n ∧ n ≤ walk.length := by
  obtain ⟨base, built, rfl⟩ := exists_after_of_compute computed
  exact length?_after_le built (Nat.le_refl _) iLt jLt walk
    ((inRange_of_ofTopology built).below iLt walk)

/-- The hops of a cell are `n` exactly when a shortest walk has `n` steps. -/
theorem length?_eq_some_iff_of_compute
    (iLt : i < topology.nodes.toNat)
    (jLt : j < topology.nodes.toNat)
    {n : Nat} :
    (table.cell i j).length? = some n ↔
      (∃ walk : topology.graph.Walk i j, walk.length = n) ∧
        ∀ walk : topology.graph.Walk i j, n ≤ walk.length := by
  constructor
  · intro reached
    constructor
    · obtain ⟨walk, -, length⟩ :=
        exists_walk_of_follows (follows_of_compute computed iLt jLt) reached
      exact ⟨walk, length⟩
    · intro walk
      obtain ⟨m, sameReached, mLe⟩ := length?_le_of_compute computed iLt jLt walk
      rw [reached] at sameReached
      cases sameReached
      exact mLe
  · rintro ⟨⟨walk, rfl⟩, shortest⟩
    obtain ⟨m, reached, mLe⟩ := length?_le_of_compute computed iLt jLt walk
    obtain ⟨other, -, rfl⟩ :=
      exists_walk_of_follows (follows_of_compute computed iLt jLt) reached
    rw [reached, Nat.le_antisymm mLe (shortest other)]

/-- A cell is unreached exactly when there is no walk. -/
theorem length?_eq_none_iff_of_compute
    (iLt : i < topology.nodes.toNat)
    (jLt : j < topology.nodes.toNat) :
    (table.cell i j).length? = none ↔ ¬ topology.graph.Reachable i j := by
  constructor
  · rintro missing ⟨walk⟩
    obtain ⟨n, reached, -⟩ := length?_le_of_compute computed iLt jLt walk
    rw [missing] at reached
    cases reached
  · intro separate
    rcases follows_of_compute computed iLt jLt with missing | ⟨walk, -⟩
    · rw [missing, Route.length?_unreached]
    · exact absurd ⟨walk⟩ separate

end Computed

/-! ## What a relaxed table says -/

/--
Two ways around of equal length from 0 to 3, the second link between 1 and 3
overriding the first, a link from a node to itself, and a node on its own.
-/
def diamond :
    Topology :=
  .ofLinks 5
    [⟨0, 1, 10, 1⟩, ⟨1, 3, 70, 5⟩, ⟨0, 2, 50, 9⟩, ⟨2, 3, 50, 9⟩, ⟨3, 1, 8, 2⟩, ⟨4, 4, 1, 1⟩]

/--
The hops between two nodes are the length of a shortest walk, and there are
none exactly when there is no walk.  On the way there, no offer is lost to an
overflow of the hops.
-/
theorem hops_are_shortest
    (computed : (compute topology).outcome = .ok table) :
    (∀ i < topology.nodes.toNat, ∀ j < topology.nodes.toNat,
      (∀ hops : UInt32,
        (table.cell i j).hops = some hops ↔
          (∃ walk : topology.graph.Walk i j, walk.length = hops.toNat) ∧
            ∀ walk : topology.graph.Walk i j, hops.toNat ≤ walk.length) ∧
        ((table.cell i j).hops = none ↔ ¬ topology.graph.Reachable i j)) ∧
      ∃ base,
        (ofTopology topology).outcome = .ok base ∧ table = base.relax.1 ∧
          ∀ pivot < topology.nodes.toNat,
            ∀ source < topology.nodes.toNat,
              ∀ target < topology.nodes.toNat,
                (base.halves pivot source target).1.isReached = true →
                  (base.halves pivot source target).2.isReached = true →
                    ∃ joined,
                      (base.halves pivot source target).1.join
                        (base.halves pivot source target).2 = some joined := by
  constructor
  · intro i iLt j jLt
    constructor
    · intro hops
      rw [← length?_eq_some_iff_of_compute computed iLt jLt, Route.length?_eq_some_iff]
      constructor
      · intro reached
        exact ⟨hops, reached, rfl⟩
      · rintro ⟨others, reached, equal⟩
        rwa [← UInt32.toNat_inj.1 equal]
    · rw [← Route.length?_eq_none_iff]
      exact length?_eq_none_iff_of_compute computed iLt jLt
  · obtain ⟨base, built, rfl⟩ := outcome_compute_eq_ok_iff.1 computed
    refine ⟨base, built, rfl, ?_⟩
    intro pivot pivotLt source sourceLt target targetLt
    exact exists_join_halves built pivotLt sourceLt targetLt

theorem diamond_hops_are_shortest :
    ∃ table,
      (compute diamond).outcome = .ok table ∧
        (table.cell 0 3).hops = some 2 ∧
          (∃ walk : diamond.graph.Walk 0 3, walk.length = 2) ∧
            (∀ walk : diamond.graph.Walk 0 3, 2 ≤ walk.length) ∧
              ¬ diamond.graph.Reachable 0 4 := by
  refine ⟨_, rfl, rfl, ?_⟩
  have shortest := hops_are_shortest (show (compute diamond).outcome = .ok _ from rfl)
  obtain ⟨reached, -⟩ := shortest.1 0 (by decide) 3 (by decide)
  obtain ⟨-, missing⟩ := shortest.1 0 (by decide) 4 (by decide)
  obtain ⟨walk, least⟩ := (reached 2).1 rfl
  exact ⟨walk, least, missing.1 rfl⟩

/--
The cell of a node and itself is the empty route, a cell that is not reached is
the missing route, and any other cell is read off one walk: its hops are the
steps of the walk, its delay is the sum of the delays of the links that the
walk runs over, up to the largest word, and its bottleneck is the smallest of
their bandwidths.
-/
theorem one_walk_explains_a_cell
    (computed : (compute topology).outcome = .ok table)
    (iLt : i < topology.nodes.toNat)
    (jLt : j < topology.nodes.toNat) :
    table.cell i i = .self ∧
      ((table.cell i j).isReached = false → table.cell i j = .unreached) ∧
        (i ≠ j → (table.cell i j).isReached = true →
          ∃ walk : topology.graph.Walk i j,
            (table.cell i j).hops.map UInt32.toNat = some walk.length ∧
              (table.cell i j).delay.toNat =
                min (2 ^ 64 - 1)
                  ((topology.linksAlong walk).map fun link => link.delay.toNat).sum ∧
                ∃ bandwidth,
                  ((topology.linksAlong walk).map Link.bandwidth).min? = some bandwidth ∧
                    (table.cell i j).bottleneck = .limited bandwidth) := by
  refine ⟨cell_self_of_compute computed iLt, ?_, ?_⟩
  · intro missing
    exact cell_eq_unreached_of_compute computed iLt jLt
      (Route.isReached_eq_false_iff.1 missing)
  · intro distinct reached
    rcases follows_of_compute computed iLt jLt with unreached | ⟨walk, -, fits, equal⟩
    · rw [unreached] at reached
      cases reached
    · have links : ((topology.linksAlong walk).map Link.bandwidth) ≠ [] := by
        intro empty
        have noSteps : walk.length = 0 := by
          rw [← length_linksAlong, List.map_eq_nil_iff.1 empty, List.length_nil]
        exact distinct (Walk.eq_of_length_eq_zero noSteps)
      obtain ⟨bandwidth, smallest⟩ :=
        Option.ne_none_iff_exists'.1 fun none => links (List.min?_eq_none_iff.1 none)
      refine ⟨walk, ?_, ?_, bandwidth, smallest, ?_⟩
      · rw [equal]
        exact (Route.length?_along (by simpa using fits)).trans
          (by rw [length_linksAlong])
      · rw [equal, Route.toNat_delay_along, Nat.min_comm]
        rfl
      · rw [equal]
        exact Route.narrowest_eq_limited smallest

theorem diamond_one_walk_explains_a_cell :
    ∃ table,
      (compute diamond).outcome = .ok table ∧
        table.cell 0 3 = ⟨some 2, 3, .limited 8⟩ ∧
          ∃ walk : diamond.graph.Walk 0 3,
            walk.length = 2 ∧
              ((diamond.linksAlong walk).map fun link => link.delay.toNat).sum = 3 ∧
                ((diamond.linksAlong walk).map Link.bandwidth).min? = some 8 := by
  refine ⟨_, rfl, rfl, ?_⟩
  obtain ⟨-, -, explained⟩ :=
    one_walk_explains_a_cell (show (compute diamond).outcome = .ok _ from rfl)
      (show 0 < diamond.nodes.toNat by decide) (show 3 < diamond.nodes.toNat by decide)
  obtain ⟨walk, hops, delay, bandwidth, smallest, bottleneck⟩ := explained (by decide) rfl
  have steps : some 2 = some walk.length := hops
  have total :
      3 = min (2 ^ 64 - 1) ((diamond.linksAlong walk).map fun link => link.delay.toNat).sum :=
    delay
  have narrow : Bottleneck.limited 8 = .limited bandwidth := bottleneck
  cases narrow
  exact ⟨walk, (Option.some.inj steps).symm, by omega, smallest⟩

end NetRun.RouteTable
