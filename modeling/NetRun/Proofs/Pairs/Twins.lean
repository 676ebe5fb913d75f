import NetRun.Proofs.Pairs.Counts
import NetRun.Proofs.Route.Shortest
import NetRun.Proofs.Route.Symmetry

/-!
# Pairs and their twins

A filter admits a pair in both directions or in neither.  Over a symmetric
table, the two directions have the same route, so collected pairs come in
twins, and every count that an analysis makes of them is even.
-/

namespace NetRun

theorem PairFilter.admits_comm
    (filter : PairFilter)
    (source target : NodeId) :
    filter.admits source target = filter.admits target source := by
  unfold admits
  rw [Bool.beq_comm]
  split
  · rfl
  · cases filter.excludeSameSite with
    | none => rfl
    | some modulus =>
        dsimp only
        rw [bne_comm]

theorem PairFilter.ne_of_admits
    {filter : PairFilter}
    {source target : NodeId}
    (admits : filter.admits source target = true) :
    source ≠ target := by
  rintro rfl
  rw [PairFilter.admits, beq_self_eq_true, if_pos rfl] at admits
  exact Bool.noConfusion admits

namespace PairRoute

/-- The pair in the other direction, with the same route. -/
def twin
    (pair : PairRoute) :
    PairRoute :=
  { pair with source := pair.target, target := pair.source }

@[simp]
theorem twin_twin
    (pair : PairRoute) :
    pair.twin.twin = pair :=
  rfl

/-! ## Collected pairs -/

/-- The pairs come in twins, each pair once. -/
structure Mirrored
    (pairs : List PairRoute) :
    Prop where
  nodup : pairs.Nodup
  twin_mem : ∀ pair ∈ pairs, pair.twin ∈ pairs
  twin_ne : ∀ pair ∈ pairs, pair.twin ≠ pair

/-- What does not tell the directions apart holds of an even number of pairs. -/
theorem Mirrored.even_countP
    {pairs : List PairRoute}
    (mirrored : Mirrored pairs)
    {chosen : PairRoute → Bool}
    (alike : ∀ pair, chosen pair.twin = chosen pair) :
    Even (pairs.countP chosen) :=
  even_countP_of_twins mirrored.nodup twin mirrored.twin_mem (fun pair _ => pair.twin_twin)
    (fun pair listed _ => mirrored.twin_ne pair listed) fun pair _ => alike pair

/-- Over a symmetric table, pairs are collected in both directions with one route. -/
theorem mirrored_collect
    {table : RouteTable}
    (symmetric : table.Symmetric)
    (hosts : HostSet)
    (filter : PairFilter) :
    Mirrored ((admitted filter (hosts.members.filter table.contains)).map (inTable table)) where
  nodup := by
    apply (nodup_admitted (hosts.ascending.filter table.contains)).map
    intro first second same
    exact Prod.ext (congrArg PairRoute.source same) (congrArg PairRoute.target same)
  twin_mem := by
    intro pair listed
    rcases List.mem_map.1 listed with ⟨⟨source, target⟩, isAdmitted, rfl⟩
    rcases mem_admitted_iff.1 isAdmitted with ⟨sourceListed, targetListed, admits⟩
    apply List.mem_map.2
    refine ⟨(target, source), ?_, ?_⟩
    · rw [PairFilter.admits_comm] at admits
      exact mem_admitted_iff.2 ⟨targetListed, sourceListed, admits⟩
    · have sourceLt := RouteTable.contains_iff.1 (List.mem_filter.1 sourceListed).2
      have targetLt := RouteTable.contains_iff.1 (List.mem_filter.1 targetListed).2
      rw [inTable, symmetric _ targetLt _ sourceLt]
      rfl
  twin_ne := by
    intro pair listed same
    rcases List.mem_map.1 listed with ⟨⟨source, target⟩, isAdmitted, rfl⟩
    rcases mem_admitted_iff.1 isAdmitted with ⟨-, -, admits⟩
    exact PairFilter.ne_of_admits admits (congrArg PairRoute.target same)

end PairRoute

namespace PathAnalysis

theorem even_unreached
    {pairs : List PairRoute}
    (mirrored : PairRoute.Mirrored pairs) :
    Even (ofPairs pairs).unreached := by
  rw [unreached_ofPairs]
  apply mirrored.even_countP
  intro pair
  rfl

theorem even_of_mem_histogram
    {pairs : List PairRoute}
    (mirrored : PairRoute.Mirrored pairs)
    {entry : UInt64 × Nat}
    (listed : entry ∈ (ofPairs pairs).histogram.entries) :
    Even entry.2 := by
  rw [count_eq_countP_of_mem_entries listed]
  apply mirrored.even_countP
  intro pair
  rfl

end PathAnalysis

namespace RouteTable

/--
Before the first relaxation and after any number of them, the routes between
two nodes are the same in both directions.  Hence the next relaxation makes an
even number of updates, and an analysis lists every pair together with its twin,
so that its counts are even.
-/
theorem routes_are_symmetric
    {topology : Topology}
    {base : RouteTable}
    (built : (ofTopology topology).outcome = .ok base)
    (times : Nat) :
    (∀ source < topology.nodes, ∀ target < topology.nodes,
      ∃ route,
        (base.relaxed times).route source target = .ok route ∧
          (base.relaxed times).route target source = .ok route) ∧
      Even (base.relaxed times).relax.2 ∧
      ∀ hosts filter,
        ∃ analysis,
          (PathAnalysis.ofHosts (base.relaxed times) hosts filter).outcome = .ok analysis ∧
            analysis.pairs.Nodup ∧
            (∀ pair ∈ analysis.pairs, pair.twin ∈ analysis.pairs ∧ pair.twin ≠ pair) ∧
            Even analysis.unreached ∧
            ∀ entry ∈ analysis.histogram.entries, Even entry.2 := by
  have diagonal := (selfDiagonal_of_ofTopology built).relaxed times
  have symmetric :=
    (symmetric_of_ofTopology built).relaxed
      (selfDiagonal_of_ofTopology built) times
  have size : (base.relaxed times).size = topology.nodes.toNat := by
    rw [size_relaxed, size_of_ofTopology built]
  refine ⟨?_, symmetric.even_relax diagonal, ?_⟩
  · intro source sourceIn target targetIn
    have sourceLt := UInt32.lt_iff_toNat_lt.1 sourceIn
    have targetLt := UInt32.lt_iff_toNat_lt.1 targetIn
    rw [← size] at sourceLt targetLt
    have sourceKnown := contains_iff.2 sourceLt
    have targetKnown := contains_iff.2 targetLt
    refine ⟨(base.relaxed times).cell source.toNat target.toNat, ?_, ?_⟩
    · exact route_eq_ok_iff.2 ⟨⟨sourceKnown, targetKnown⟩, rfl⟩
    · rw [symmetric _ sourceLt _ targetLt]
      exact route_eq_ok_iff.2 ⟨⟨targetKnown, sourceKnown⟩, rfl⟩
  · intro hosts filter
    have mirrored := PairRoute.mirrored_collect symmetric hosts filter
    refine ⟨_, ?_, mirrored.nodup, ?_, PathAnalysis.even_unreached mirrored, ?_⟩
    · rw [PathAnalysis.outcome_ofHosts, PairRoute.outcome_collect]
      rfl
    · intro pair listed
      exact ⟨mirrored.twin_mem pair listed, mirrored.twin_ne pair listed⟩
    · intro entry listed
      exact PathAnalysis.even_of_mem_histogram mirrored listed

theorem diamond_routes_are_symmetric :
    ∃ base analysis,
      (ofTopology diamond).outcome = .ok base ∧
        (base.relaxed 1).route 0 3 = .ok ⟨some 2, 3, .limited 8⟩ ∧
          (base.relaxed 1).route 3 0 = .ok ⟨some 2, 3, .limited 8⟩ ∧
            (PathAnalysis.ofHosts (base.relaxed 1) (.ofList [0, 3, 4]) ⟨none⟩).outcome =
              .ok analysis ∧
              ⟨3, 0, some 2, some 3, .limited 8⟩ ∈ analysis.pairs ∧
                analysis.unreached = 4 ∧ Even analysis.unreached := by
  rcases routes_are_symmetric (show (ofTopology diamond).outcome = .ok _ from rfl) 1 with
    ⟨same, -, mirrored⟩
  rcases same 0 (by decide) 3 (by decide) with ⟨route, there, back⟩
  rcases mirrored (.ofList [0, 3, 4]) ⟨none⟩ with ⟨analysis, analysed, -, twins, even, -⟩
  have isRoute : .ok ⟨some 2, 3, .limited 8⟩ = (Except.ok route : Except Crash Route) := there
  have isAnalysis : .ok _ = (Except.ok analysis : Except Crash PathAnalysis) := analysed
  cases isRoute
  cases isAnalysis
  have listed := (twins ⟨0, 3, some 2, some 3, .limited 8⟩ (List.Mem.head _)).1
  exact ⟨_, _, rfl, there, back, analysed, listed, rfl, even⟩

end RouteTable

end NetRun
