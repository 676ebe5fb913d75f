import NetRun.Proofs.Pairs.Collect
import NetRun.Proofs.Topology.Replicas

/-!
# Pairs of replicas

Fanning out a topology of single-homed hosts does not change the ways its
packets go: two replicas of different hosts have the hops and the delay of
their hosts, and only their access links are narrower.
-/

namespace NetRun

open NetRun.Topology

variable
    {topology expanded : Topology}
    {fanout : UInt32}
    {table wide : RouteTable}
    {a b : NodeId}
    {i j : Nat}

namespace RouteTable

section Expanded

variable
    (singleHomed : topology.SingleHomed)
    (expands : topology.expandFanout fanout = .ok expanded)
    (computed : (compute topology).outcome = .ok table)
    (wideComputed : (compute expanded).outcome = .ok wide)

include singleHomed expands computed wideComputed

/-- Between replicas of hosts with links, only the bandwidths of the two links differ. -/
theorem cell_of_moved
    {linkA linkB : Link}
    (listedA : linkA ∈ topology.links)
    (listedB : linkB ∈ topology.links)
    (accessA : topology.core ≤ linkA.second)
    (accessB : topology.core ≤ linkB.second)
    (iLt : i < fanout.toNat)
    (jLt : j < fanout.toNat)
    (apart : linkA.second ≠ linkB.second) :
    table.cell linkA.second.toNat linkB.second.toNat =
        .past linkA (.past linkB (table.cell linkA.first.toNat linkB.first.toNat)) ∧
      wide.cell (linkA.moved topology.core fanout i).second.toNat
          (linkB.moved topology.core fanout j).second.toNat =
        .past (linkA.moved topology.core fanout i)
          (.past (linkB.moved topology.core fanout j)
            (table.cell linkA.first.toNat linkB.first.toNat)) := by
  have homed := singleHomed.homed
  have wideHomed := singleHomed.homed_of_expandFanout expands
  have replicaA := isReplica_moved expands singleHomed.inRange listedA accessA iLt
  have replicaB := isReplica_moved expands singleHomed.inRange listedB accessB jLt
  constructor
  · apply cell_eq_past_past homed computed listedA listedB replicaA.core_le replicaB.core_le
    intro same
    exact apart (UInt32.toNat_inj.1 same)
  · rw [← cell_eq_of_lastLink_eq homed wideHomed computed wideComputed
      (fun _ iLt _ jLt => lastLink_of_expandFanout expands iLt jLt)
      (homed.first_lt linkA listedA) (homed.first_lt linkB listedB)]
    apply cell_eq_past_past wideHomed wideComputed (moved_mem_links expands listedA accessA iLt)
      (moved_mem_links expands listedB accessB jLt) (replicaA.bounds singleHomed.nodes_eq).1
      (replicaB.bounds singleHomed.nodes_eq).1
    intro same
    rw [UInt32.toNat_inj.1 same] at replicaA
    exact apart (replicaA.unique singleHomed.nodes_eq replicaB).1

variable
    {source target : NodeId}
    (first : topology.IsReplica fanout a i source)
    (second : topology.IsReplica fanout b j target)
    (apart : a ≠ b)

include first second apart

/-- Like a host without a link, its replicas have no routes, from them or to them. -/
theorem cell_of_unlinked
    (unlinked : ¬ ∃ link ∈ topology.links, link.second = a) :
    (table.cell a.toNat b.toNat = .unreached ∧ table.cell b.toNat a.toNat = .unreached) ∧
      wide.cell source.toNat target.toNat = .unreached ∧
        wide.cell target.toNat source.toNat = .unreached := by
  have nodes := nodes_of_expandFanout expands
  have wideHomed := singleHomed.homed_of_expandFanout expands
  rcases first.bounds singleHomed.nodes_eq with ⟨sourceAbove, sourceLt⟩
  rcases second.bounds singleHomed.nodes_eq with ⟨-, targetLt⟩
  constructor
  · apply cell_eq_unreached_of_unlinked singleHomed.homed computed first.core_le _
      first.host_lt second.host_lt
    · intro same
      exact apart (UInt32.toNat_inj.1 same)
    · intro link listed same
      exact unlinked ⟨link, listed, UInt32.toNat_inj.1 same⟩
  · apply cell_eq_unreached_of_unlinked wideHomed wideComputed sourceAbove _
      (by rwa [nodes]) (by rwa [nodes])
    · intro same
      rw [UInt32.toNat_inj.1 same] at first
      exact apart (first.unique singleHomed.nodes_eq second).1
    · intro copy listed same
      rw [← UInt32.toNat_inj.1 same] at first
      rcases exists_eq_moved expands singleHomed listed first with ⟨link, original, atHost, -⟩
      exact unlinked ⟨link, original, atHost⟩

/--
Two replicas of different hosts have the hops and the delay of their hosts.  If
they reach each other, their bottleneck is the narrowest of their shares of the
two access links and the route between the routers.
-/
theorem cell_of_isReplica :
    (wide.cell source.toNat target.toNat).hops = (table.cell a.toNat b.toNat).hops ∧
      (wide.cell source.toNat target.toNat).delay = (table.cell a.toNat b.toNat).delay ∧
        ((wide.cell source.toNat target.toNat).isReached = true →
          ∃ linkA ∈ topology.links, linkA.second = a ∧
            ∃ linkB ∈ topology.links, linkB.second = b ∧
              (wide.cell source.toNat target.toNat).bottleneck =
                (Bottleneck.limited (linkA.bandwidth / fanout.toUInt64)).narrower
                  ((Bottleneck.limited (linkB.bandwidth / fanout.toUInt64)).narrower
                    (table.cell linkA.first.toNat linkB.first.toNat).bottleneck)) := by
  by_cases linkedA : ∃ linkA ∈ topology.links, linkA.second = a
  case neg =>
    rcases cell_of_unlinked singleHomed expands computed wideComputed first second apart
      linkedA with ⟨⟨missing, -⟩, wideMissing, -⟩
    rw [missing, wideMissing]
    refine ⟨rfl, rfl, ?_⟩
    intro reached
    cases reached
  by_cases linkedB : ∃ linkB ∈ topology.links, linkB.second = b
  case neg =>
    rcases cell_of_unlinked singleHomed expands computed wideComputed second first apart.symm
      linkedB with ⟨⟨-, missing⟩, -, wideMissing⟩
    rw [missing, wideMissing]
    refine ⟨rfl, rfl, ?_⟩
    intro reached
    cases reached
  rcases linkedA with ⟨linkA, listedA, rfl⟩
  rcases linkedB with ⟨linkB, listedB, rfl⟩
  have accessA := UInt32.le_iff_toNat_le.2 first.core_le
  have accessB := UInt32.le_iff_toNat_le.2 second.core_le
  have endA := toNat_second_moved expands listedA accessA first.index_lt
  have endB := toNat_second_moved expands listedB accessB second.index_lt
  rcases cell_of_moved singleHomed expands computed wideComputed listedA listedB accessA accessB
    first.index_lt second.index_lt apart with ⟨hostsCell, replicasCell⟩
  rw [endA, endB, ← first.toNat_eq, ← second.toNat_eq] at replicasCell
  rw [hostsCell, replicasCell]
  have inner :=
    @Route.past_congr (linkB.moved topology.core fanout j) linkB
      (table.cell linkA.first.toNat linkB.first.toNat) _ rfl rfl rfl
  have outer :=
    @Route.past_congr (linkA.moved topology.core fanout i) linkA _ _ rfl inner.1 inner.2
  refine ⟨outer.1, outer.2, ?_⟩
  intro reached
  rcases Route.bottleneck_past reached with ⟨innerReached, bottleneck⟩
  refine ⟨linkA, listedA, rfl, linkB, listedB, rfl, ?_⟩
  rw [bottleneck, (Route.bottleneck_past innerReached).2]
  rfl

end Expanded

end RouteTable

/-- Two replicas are at different sites exactly if they are replicas of different hosts. -/
theorem PairFilter.admits_iff_of_isReplica
    (singleHomed : topology.SingleHomed)
    {source target : NodeId}
    (first : topology.IsReplica fanout a i source)
    (second : topology.IsReplica fanout b j target) :
    (PairFilter.mk (some topology.core)).admits source target = true ↔ a ≠ b := by
  have sites : source % topology.core = target % topology.core ↔ a = b := by
    rw [← UInt32.toNat_inj, UInt32.toNat_mod, UInt32.toNat_mod,
      first.toNat_mod singleHomed.nodes_eq, second.toNat_mod singleHomed.nodes_eq,
      ← UInt32.toNat_inj]
    have aboveA := first.core_le
    have aboveB := second.core_le
    omega
  have positive : topology.core ≠ 0 := by
    intro zero
    have noCore := singleHomed.core_pos
    rw [zero] at noCore
    cases noCore
  rw [admits, ne_eq, ← sites]
  split
  case isTrue same =>
    rw [beq_iff_eq.1 same]
    simp
  case isFalse => simp [positive]

namespace PairRoute

open NetRun.Log

/--
Fanout preserves routes.  The pairs at different sites are those of replicas of
different hosts, each listed once.  Such a pair has the hops and the delay of
its hosts before fanout.  If it is reached, its bottleneck is the smallest of
the shares of the two access links and the bottleneck between their routers
before fanout.
-/
theorem fanout_preserves_routes
    (singleHomed : topology.SingleHomed)
    (expands : topology.expandFanout fanout = .ok expanded)
    (computed : (RouteTable.compute topology).outcome = .ok table)
    (wideComputed : (RouteTable.compute expanded).outcome = .ok wide)
    {hosts : HostSet}
    (hosts_iff :
      ∀ node : NodeId,
        node ∈ hosts ↔
          topology.core.toNat ≤ node.toNat ∧
            node.toNat < topology.core.toNat + topology.core.toNat * fanout.toNat) :
    ∃ pairs,
      (collect wide hosts ⟨some topology.core⟩).outcome = .ok pairs ∧
        (pairs.map fun pair => (pair.source, pair.target)).Pairwise
          (Prod.Lex (· < ·) (· < ·)) ∧
        (∀ source target,
          (∃ pair ∈ pairs, pair.source = source ∧ pair.target = target) ↔
            ∃ a b i j,
              a ≠ b ∧ topology.IsReplica fanout a i source ∧
                topology.IsReplica fanout b j target) ∧
        ∀ pair ∈ pairs, ∀ a b i j,
          topology.IsReplica fanout a i pair.source →
            topology.IsReplica fanout b j pair.target →
              pair.hops = (table.cell a.toNat b.toNat).hops ∧
                pair.delay = (table.cell a.toNat b.toNat).reachedDelay ∧
                (pair.hops.isSome = true →
                  ∃ linkA ∈ topology.links, linkA.second = a ∧
                    ∃ linkB ∈ topology.links, linkB.second = b ∧
                      pair.bottleneck =
                        (Bottleneck.limited (linkA.bandwidth / fanout.toUInt64)).narrower
                          ((Bottleneck.limited (linkB.bandwidth / fanout.toUInt64)).narrower
                            (table.cell linkA.first.toNat linkB.first.toNat).bottleneck)) := by
  have known {node : NodeId} :
      node ∈ hosts.members.filter wide.contains ↔
        ∃ host index, topology.IsReplica fanout host index node := by
    have size := RouteTable.size_of_compute wideComputed
    rw [nodes_of_expandFanout expands] at size
    rw [List.mem_filter, RouteTable.contains_iff, size, exists_isReplica_iff singleHomed,
      ← hosts_iff]
    apply and_iff_left_of_imp
    intro listed
    exact ((hosts_iff node).1 listed).2
  refine ⟨_, outcome_collect wide hosts ⟨some topology.core⟩, ?_, ?_, ?_⟩
  · rw [List.map_map]
    change ((admitted _ _).map id).Pairwise _
    rw [List.map_id]
    exact pairwise_admitted (hosts.ascending.filter wide.contains)
  · intro source target
    constructor
    · rintro ⟨pair, listed, rfl, rfl⟩
      rcases List.mem_map.1 listed with ⟨⟨source, target⟩, isAdmitted, rfl⟩
      rcases mem_admitted_iff.1 isAdmitted with ⟨sourceKnown, targetKnown, admits⟩
      rcases known.1 sourceKnown with ⟨a, i, first⟩
      rcases known.1 targetKnown with ⟨b, j, second⟩
      have apart := (PairFilter.admits_iff_of_isReplica singleHomed first second).1 admits
      exact ⟨a, b, i, j, apart, first, second⟩
    · rintro ⟨a, b, i, j, apart, first, second⟩
      refine ⟨_, List.mem_map.2 ⟨(source, target), ?_, rfl⟩, rfl, rfl⟩
      apply mem_admitted_iff.2
      refine ⟨known.2 ⟨a, i, first⟩, known.2 ⟨b, j, second⟩, ?_⟩
      exact (PairFilter.admits_iff_of_isReplica singleHomed first second).2 apart
  · intro pair listed a b i j first second
    rcases List.mem_map.1 listed with ⟨⟨source, target⟩, isAdmitted, rfl⟩
    have admits := (mem_admitted_iff.1 isAdmitted).2.2
    have apart := (PairFilter.admits_iff_of_isReplica singleHomed first second).1 admits
    rcases RouteTable.cell_of_isReplica singleHomed expands computed wideComputed first second
      apart with ⟨sameHops, sameDelay, bottleneck⟩
    exact ⟨sameHops, Route.reachedDelay_congr sameHops sameDelay, bottleneck⟩

/-- Two routers with one host each. -/
def dumbbell :
    Topology :=
  .ofLinks 4 [⟨0, 1, 100, 10⟩, ⟨0, 2, 90, 1⟩, ⟨1, 3, 60, 2⟩]

theorem dumbbell_singleHomed :
    dumbbell.SingleHomed where
  nodes_eq := rfl
  core_pos := by decide
  inRange := by
    rw [InRange]
    decide
  once := by
    have apart :
        ∀ here ∈ endpoints dumbbell.links, ∀ there ∈ endpoints dumbbell.links,
          dumbbell.core ≤ here.1 → there.1 = here.1 → here.2 = there.2 := by
      decide
    intro host above _ place other here there
    exact apart _ here _ there above rfl
  first_lt := by decide

theorem dumbbell_fanout_preserves_routes :
    ∃ expanded wide pairs,
      dumbbell.expandFanout 2 = .ok expanded ∧
        (RouteTable.compute expanded).outcome = .ok wide ∧
          (collect wide (.ofList [2, 3, 4, 5]) ⟨some 2⟩).outcome = .ok pairs ∧
            (∃ pair ∈ pairs, pair.source = 2 ∧ pair.target = 5) ∧
              ∀ pair ∈ pairs, pair.source = 2 → pair.target = 5 →
                pair.hops = some 3 ∧ pair.delay = some 13 ∧ pair.bottleneck = .limited 30 := by
  have hosts_iff (node : NodeId) :
      node ∈ (Ordered.SortedSet.ofList [2, 3, 4, 5] : HostSet) ↔
        dumbbell.core.toNat ≤ node.toNat ∧
          node.toNat < dumbbell.core.toNat + dumbbell.core.toNat * (2 : UInt32).toNat := by
    rw [Ordered.SortedSet.mem_ofList]
    simp only [List.mem_cons, List.not_mem_nil, or_false, ← UInt32.toNat_inj]
    change _ ↔ 2 ≤ node.toNat ∧ node.toNat < 2 + 2 * 2
    simp only [UInt32.reduceToNat]
    omega
  rcases fanout_preserves_routes dumbbell_singleHomed
    (show dumbbell.expandFanout 2 = .ok _ from rfl)
    (show (RouteTable.compute dumbbell).outcome = .ok _ from rfl)
    (show (RouteTable.compute _).outcome = .ok _ from rfl) hosts_iff with
    ⟨pairs, collected, -, listed, preserved⟩
  have source : dumbbell.IsReplica 2 2 0 2 := ⟨by decide, by decide, by decide, rfl⟩
  have target : dumbbell.IsReplica 2 3 1 5 := ⟨by decide, by decide, by decide, rfl⟩
  refine ⟨_, _, pairs, rfl, rfl, collected, ?_, ?_⟩
  · exact (listed 2 5).2 ⟨2, 3, 0, 1, by decide, source, target⟩
  · intro pair pairListed pairSource pairTarget
    rcases preserved pair pairListed 2 3 0 1 (by rwa [pairSource]) (by rwa [pairTarget]) with
      ⟨hops, delay, bottleneck⟩
    have reached : pair.hops.isSome = true := by
      rw [hops]
      rfl
    rcases bottleneck reached with ⟨linkA, listedA, atA, linkB, listedB, atB, narrowest⟩
    have onlyA : ∀ link ∈ dumbbell.links, link.second = 2 → link = ⟨0, 2, 90, 1⟩ := by decide
    have onlyB : ∀ link ∈ dumbbell.links, link.second = 3 → link = ⟨1, 3, 60, 2⟩ := by decide
    rw [onlyA linkA listedA atA, onlyB linkB listedB atB] at narrowest
    exact ⟨hops, delay, narrowest⟩

end PairRoute

end NetRun
