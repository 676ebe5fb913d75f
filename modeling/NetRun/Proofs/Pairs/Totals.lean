import NetRun.Proofs.Pairs.Twins
import NetRun.Proofs.Route.Capacity
import NetRun.Proofs.Topology.EndHosts

/-!
# Totals of an analysis

An analysis says how many pairs have no path, how the reached delays extend,
and how many pairs have each bottleneck.  The three are read off different
fields of the pairs: the first two off the delays, the last off the capacities.
They agree because between different nodes exactly the reached routes have a
capacity, so every pair is counted as unreached or under one capacity.
-/

namespace NetRun

open NetRun.Log
open NetRun.Ordered

/-! ## The extent of a list of delays -/

instance lawfulOrderMaxUInt64 : Std.LawfulOrderMax UInt64 := by
  apply Std.LawfulOrderMax.of_max_le_iff
  · intro a b c
    change (if a ≤ b then b else a) ≤ c ↔ a ≤ c ∧ b ≤ c
    simp only [UInt64.le_iff_toNat_le]
    split
    case isTrue le => omega
    case isFalse gt => omega
  · intro a b
    change (if a ≤ b then b else a) = a ∨ (if a ≤ b then b else a) = b
    split
    case isTrue => exact Or.inr rfl
    case isFalse => exact Or.inl rfl

theorem totalDelay_eq_sum
    (delays : List UInt64) :
    totalDelay delays = (delays.map UInt64.toNat).sum := by
  rw [totalDelay, ← List.foldl_map (f := UInt64.toNat) (g := (· + ·)), ← List.sum_eq_foldl]

/-- The summary says of the delays how many they are, how far they extend and their mean. -/
structure DelaySummary.Describes
    (summary : DelaySummary)
    (delays : List UInt64) :
    Prop where
  count_eq : summary.count = delays.length
  max_mem : summary.max ∈ delays
  le_max : ∀ delay ∈ delays, delay ≤ summary.max
  min_mem : summary.min ∈ delays
  min_le : ∀ delay ∈ delays, summary.min ≤ delay
  mean_eq :
    summary.mean =
      Float.ofNat (delays.map UInt64.toNat).sum / Float.ofNat delays.length

/-- Delays are summed up unless there are none. -/
theorem DelaySummary.ofDelays_eq_none_iff
    {delays : List UInt64} :
    ofDelays delays = none ↔ delays = [] := by
  cases delays with
  | nil => simp [ofDelays]
  | cons delay delays => simp [ofDelays]

theorem DelaySummary.describes_of_ofDelays
    {delays : List UInt64}
    {summary : DelaySummary}
    (made : ofDelays delays = some summary) :
    summary.Describes delays := by
  simp only [ofDelays, Option.bind_eq_bind, Option.bind_eq_some_iff, Option.pure_def,
    Option.some.injEq] at made
  rcases made with ⟨max, isMax, min, isMin, rfl⟩
  rcases List.max?_eq_some_iff.1 isMax with ⟨maxListed, maxBounds⟩
  rcases List.min?_eq_some_iff.1 isMin with ⟨minListed, minBounds⟩
  exact
    { count_eq := rfl
      max_mem := maxListed
      le_max := maxBounds
      min_mem := minListed
      min_le := minBounds
      mean_eq := by rw [totalDelay_eq_sum] }

/-! ## Pairs with a capacity -/

namespace PairRoute

/-- The pair has a capacity if it is reached, and none if it is not. -/
def CapacityIffReached
    (pair : PairRoute) :
    Prop :=
  pair.bottleneck.capacity?.isSome = pair.delay.isSome

/-- A collected pair lies between different nodes, so it has a capacity if it is reached. -/
theorem capacityIffReached_of_mem_collected
    {table : RouteTable}
    (capacitated : table.Capacitated)
    {hosts : HostSet}
    {filter : PairFilter}
    {pair : PairRoute}
    (listed :
      pair ∈ (admitted filter (hosts.members.filter table.contains)).map (inTable table)) :
    pair.CapacityIffReached := by
  rcases List.mem_map.1 listed with ⟨⟨source, target⟩, isAdmitted, rfl⟩
  rcases mem_admitted_iff.1 isAdmitted with ⟨sourceListed, targetListed, admits⟩
  have sourceLt := RouteTable.contains_iff.1 (List.mem_filter.1 sourceListed).2
  have targetLt := RouteTable.contains_iff.1 (List.mem_filter.1 targetListed).2
  have distinct : source.toNat ≠ target.toNat := fun same =>
    PairFilter.ne_of_admits admits (UInt32.toNat_inj.1 same)
  have route := capacitated source.toNat sourceLt target.toNat targetLt distinct
  rw [Route.CapacityIffReached, Route.isReached] at route
  rw [CapacityIffReached, inTable, ofRoute, Route.reachedDelay, Option.isSome_map]
  exact route

/-- Hosts that the table has are different nodes below its size. -/
theorem length_known_le
    (table : RouteTable)
    (hosts : HostSet) :
    (hosts.members.filter table.contains).length ≤ table.size := by
  apply length_le_of_nodup (hosts.ascending.filter table.contains).nodup
  intro node listed
  exact RouteTable.contains_iff.1 (List.mem_filter.1 listed).2

theorem length_admitted_le
    (filter : PairFilter)
    (hosts : List NodeId) :
    (admitted filter hosts).length ≤ hosts.length * hosts.length := by
  rw [admitted, List.length_flatMap]
  have perSource :
      ∀ count ∈ hosts.map fun source =>
          ((hosts.filter (filter.admits source)).map fun target => (source, target)).length,
        count ≤ hosts.length := by
    intro count listed
    rcases List.mem_map.1 listed with ⟨source, -, rfl⟩
    rw [List.length_map]
    exact List.length_filter_le _ _
  have total := List.sum_le_card_nsmul _ hosts.length perSource
  rwa [List.length_map, smul_eq_mul] at total

end PairRoute

/-! ## The totals -/

namespace PathAnalysis

/-- The delays of the reached pairs. -/
def delays
    (analysis : PathAnalysis) :
    List UInt64 :=
  analysis.pairs.filterMap PairRoute.delay

/-- The number of pairs with a delay. -/
def reached
    (analysis : PathAnalysis) :
    Nat :=
  analysis.pairs.countP fun pair => pair.delay.isSome

theorem length_delays
    (analysis : PathAnalysis) :
    analysis.delays.length = analysis.reached :=
  List.length_filterMap_eq_countP

/--
What an analysis says in numbers accounts for every pair: each pair is
unreached or counted under its capacity, and the summary is that of exactly
the reached delays, whose sum leaves a word of 128 bits unfilled.
-/
structure Accounted
    (analysis : PathAnalysis) :
    Prop where
  length_pairs : analysis.pairs.length = analysis.unreached + analysis.reached
  sum_histogram : (analysis.histogram.entries.map Prod.snd).sum = analysis.reached
  count_eq :
    ∀ capacity,
      (analysis.histogram.get? capacity).getD 0 =
        analysis.pairs.countP fun pair =>
          pair.delay.isSome ∧ pair.bottleneck = .limited capacity
  count_pos : ∀ entry ∈ analysis.histogram.entries, 0 < entry.2
  summary_eq_none_iff : analysis.summary = none ↔ ∀ pair ∈ analysis.pairs, pair.delay = none
  summary_describes :
    ∀ summary, analysis.summary = some summary →
      summary.count = analysis.reached ∧ summary.Describes analysis.delays
  total_lt : (analysis.delays.map UInt64.toNat).sum < 2 ^ 128

/--
An analysis accounts for its pairs if exactly the reached ones have a capacity
and there are not more of them than two words can number.
-/
theorem accounted_ofPairs
    {pairs : List PairRoute}
    (alike : ∀ pair ∈ pairs, pair.CapacityIffReached)
    (few : pairs.length ≤ 2 ^ 64) :
    (ofPairs pairs).Accounted where
  length_pairs := by
    change pairs.length = pairs.length - (ofPairs pairs).delays.length + (ofPairs pairs).reached
    rw [length_delays, Nat.sub_add_cancel]
    exact List.countP_le_length
  sum_histogram := by
    apply (sum_bottleneckHistogram pairs).trans
    apply List.countP_congr
    intro pair listed
    rw [alike pair listed]
  count_eq := by
    intro capacity
    apply (getD_get?_bottleneckHistogram pairs capacity).trans
    apply List.countP_congr
    intro pair listed
    have same := alike pair listed
    rw [PairRoute.CapacityIffReached] at same
    rw [decide_eq_true_eq, decide_eq_true_eq, ← same]
    cases pair.bottleneck with
    | unconstrained => simp [Bottleneck.capacity?]
    | limited own => simp [Bottleneck.capacity?]
  count_pos := fun _ listed => pos_of_mem_entries listed
  summary_eq_none_iff :=
    DelaySummary.ofDelays_eq_none_iff.trans List.filterMap_eq_nil_iff
  summary_describes := by
    intro summary made
    have described := DelaySummary.describes_of_ofDelays made
    exact ⟨described.count_eq.trans (length_delays (ofPairs pairs)), described⟩
  total_lt := by
    have bounded :
        ∀ delay ∈ (ofPairs pairs).delays.map UInt64.toNat, delay ≤ 2 ^ 64 - 1 := by
      intro delay listed
      rcases List.mem_map.1 listed with ⟨word, -, rfl⟩
      exact Nat.le_pred_of_lt word.toNat_lt
    have total := List.sum_le_card_nsmul _ _ bounded
    have fewer : (ofPairs pairs).delays.length ≤ 2 ^ 64 :=
      (List.length_filterMap_le _ _).trans few
    rw [List.length_map, smul_eq_mul] at total
    calc
      ((ofPairs pairs).delays.map UInt64.toNat).sum ≤
          (ofPairs pairs).delays.length * (2 ^ 64 - 1) := total
      _ ≤ 2 ^ 64 * (2 ^ 64 - 1) := Nat.mul_le_mul_right _ fewer
      _ < 2 ^ 128 := by decide

/-- Hosts are always analysed, and the analysis is that of the pairs collected from them. -/
theorem outcome_ofHosts_eq_ok
    (table : RouteTable)
    (hosts : HostSet)
    (filter : PairFilter) :
    (ofHosts table hosts filter).outcome =
      .ok
        (ofPairs
          ((PairRoute.admitted filter (hosts.members.filter table.contains)).map
            (PairRoute.inTable table))) := by
  rw [outcome_ofHosts, PairRoute.outcome_collect]
  rfl

section Analysed

variable
    {table : RouteTable}
    {hosts : HostSet}
    {filter : PairFilter}
    {analysis : PathAnalysis}
    (capacitated : table.Capacitated)
    (analysed : (ofHosts table hosts filter).outcome = .ok analysis)

include capacitated analysed

theorem capacityIffReached_of_ofHosts :
    ∀ pair ∈ analysis.pairs, pair.CapacityIffReached := by
  rw [outcome_ofHosts_eq_ok] at analysed
  cases analysed
  intro pair listed
  exact PairRoute.capacityIffReached_of_mem_collected capacitated listed

/-- Over a table with capacities, the analysis of any hosts accounts for its pairs. -/
theorem accounted_of_ofHosts
    (small : table.size < 2 ^ 32) :
    analysis.Accounted := by
  have alike := capacityIffReached_of_ofHosts capacitated analysed
  rw [outcome_ofHosts_eq_ok] at analysed
  cases analysed
  apply accounted_ofPairs alike
  have known := PairRoute.length_known_le table hosts
  apply (List.length_map _).trans_le
  calc
    (PairRoute.admitted filter (hosts.members.filter table.contains)).length ≤ _ :=
      PairRoute.length_admitted_le filter _
    _ ≤ 2 ^ 32 * 2 ^ 32 := Nat.mul_le_mul (by omega) (by omega)
    _ = 2 ^ 64 := (Nat.pow_add 2 32 32).symm

end Analysed

/--
Before the first relaxation and after any number of them, the aggregates of
any hosts account for every pair that is collected from them: as unreached, or
under its capacity and in the summary of the delays.
-/
theorem aggregates_account_for_every_pair
    {topology : Topology}
    {base : RouteTable}
    (built : (RouteTable.ofTopology topology).outcome = .ok base)
    (times : Nat)
    (hosts : HostSet)
    (filter : PairFilter) :
    ∃ analysis,
      (ofHosts (base.relaxed times) hosts filter).outcome = .ok analysis ∧
        (PairRoute.collect (base.relaxed times) hosts filter).outcome = .ok analysis.pairs ∧
          analysis.Accounted := by
  have capacitated :=
    (RouteTable.capacitated_of_ofTopology built).relaxed
      (RouteTable.selfDiagonal_of_ofTopology built) times
  have analysed := outcome_ofHosts_eq_ok (base.relaxed times) hosts filter
  refine ⟨_, analysed, ?_, accounted_of_ofHosts capacitated analysed ?_⟩
  · exact PairRoute.outcome_collect (base.relaxed times) hosts filter
  · rw [RouteTable.size_relaxed, RouteTable.size_of_ofTopology built]
    exact topology.nodes.toNat_lt

/-- Of the six pairs of three hosts two are reached, over the same capacity. -/
theorem diamond_aggregates_account_for_every_pair :
    ∃ base analysis,
      (RouteTable.ofTopology RouteTable.diamond).outcome = .ok base ∧
        (ofHosts (base.relaxed 1) (.ofList [0, 3, 4]) ⟨none⟩).outcome = .ok analysis ∧
          analysis.Accounted ∧
            analysis.pairs.length = 6 ∧ analysis.unreached = 4 ∧
              analysis.histogram.entries = [(8, 2)] ∧ analysis.delays = [3, 3] := by
  rcases aggregates_account_for_every_pair
      (show (RouteTable.ofTopology RouteTable.diamond).outcome = .ok _ from rfl) 1
      (.ofList [0, 3, 4]) ⟨none⟩ with
    ⟨analysis, analysed, -, accounted⟩
  have isAnalysis : .ok _ = (Except.ok analysis : Except Crash PathAnalysis) := analysed
  cases isAnalysis
  exact ⟨_, _, rfl, analysed, accounted, rfl, rfl, rfl, rfl⟩

end PathAnalysis

end NetRun
