import NetRun.Proofs.Completion.Summary

/-!
# Flows that the tables count

No flow is dropped on the way from a comparison to its tables.  The row of a size
counts the common flows of this size, and the rows of all sizes count together
what the two rows over all flows count each: the flows compared.  Without a common
flow there is nothing to sum up in either run.
-/

namespace NetRun

open NetRun.Ordered

/-! ## One run -/

/-- The tables have one row for each of the sizes, and each table counts all flows. -/
structure Summary.AccountsFor
    (summary : Summary)
    (sizes : List UInt64)
    (count : Nat) :
    Prop where
  keys : summary.bySize.map StatsRow.key = sizes.map toString
  sum_bySize : (summary.bySize.map StatsRow.count).sum = count
  flows : summary.flows.count = count
  bytes : summary.bytes.count = count

namespace Samples

variable
    {samples : Samples}
    {timeOf : CommonFlow → Float}
    {flows : List CommonFlow}
    {totalBytes : Float}
    {summary : Summary}

/-- The number of flows of each size, by the sizes of the samples. -/
def sizeCounts
    (samples : Samples)
    (flows : List CommonFlow) :
    List Nat :=
  samples.bySize.keys.map fun size => (flows.filter fun flow => flow.size = size).length

/-- Under every size stand as many times as there are flows of this size. -/
theorem Shows.lengths_bySize
    (shows : samples.Shows timeOf flows) :
    (samples.bySize.entries.map fun entry => entry.2.length) = samples.sizeCounts flows := by
  rw [sizeCounts, SortedMap.keys, List.map_map]
  apply List.map_congr_left
  rintro ⟨size, times⟩ listed
  rw [(shows.ofSize size times (SortedMap.mem_entries_iff.1 listed)).2, List.length_map]
  rfl

/-- The flows of the sizes are all flows. -/
theorem Shows.sum_sizeCounts
    (shows : samples.Shows timeOf flows) :
    (samples.sizeCounts flows).sum = flows.length := by
  rw [← shows.lengths_bySize, ← List.length_flatMap, shows.joined, shows.times, List.length_map]

/-- A row of the first table counts the flows of its size: no size has no row. -/
theorem Shows.counts_bySize
    (shows : samples.Shows timeOf flows)
    (made : samples.summarize totalBytes = .ok (some summary)) :
    summary.bySize.map StatsRow.count = samples.sizeCounts flows := by
  rw [← shows.lengths_bySize, ← List.forall₂_eq_eq_eq, List.forall₂_map_left_iff,
    List.forall₂_map_right_iff]
  exact ((shows.rows_bySize made).imp fun entry row madeRow =>
    (StatsRow.values_of_ofValues? madeRow).2.2).flip

/-- A summary of flows accounts for all of them. -/
theorem Shows.accountsFor
    (shows : samples.Shows timeOf flows)
    (made : samples.summarize totalBytes = .ok (some summary)) :
    summary.AccountsFor samples.bySize.keys flows.length := by
  have keys := shows.keys_of_summarize made
  simp only [Summary.tables, Summary.tableKeys, List.map_cons, List.cons.injEq] at keys
  rcases sumsUpTo_of_summarize made with ⟨-, madeFlows, madeBytes⟩
  constructor
  case keys => exact keys.1
  case sum_bySize => rw [shows.counts_bySize made, shows.sum_sizeCounts]
  case flows => rw [(StatsRow.values_of_ofValues? madeFlows).2.2, shows.times, List.length_map]
  case bytes =>
    rw [(StatsRow.values_of_withAverage? madeBytes).2.2, shows.weighted, List.length_map]

/-- Samples that show no flow have no summary. -/
theorem Shows.summarize_eq_none
    (shows : samples.Shows timeOf [])
    (totalBytes : Float) :
    samples.summarize totalBytes = .ok none := by
  have noTimes : samples.times = [] := shows.times
  have noSizes : samples.bySize.entries = [] := by
    apply List.eq_nil_iff_forall_not_mem.2
    intro entry listed
    rcases (shows.sizes entry.1).1 (List.mem_map_of_mem listed) with ⟨_, impossible, -⟩
    cases impossible
  rw [summarize, noTimes, noSizes]
  rfl

/-- The samples are summed up by tables that account for all flows, or are found to have no order. -/
inductive IsAccounted
    (samples : Samples)
    (totalBytes : Float)
    (sizes : List UInt64)
    (count : Nat)
    (lacksOrder : Prop) :
    Prop
  | summedUp
      {summary : Summary}
      (made : samples.summarize totalBytes = .ok (some summary))
      (accounts : summary.AccountsFor sizes count) :
      IsAccounted samples totalBytes sizes count lacksOrder
  | unordered
      (stops : samples.summarize totalBytes = .error .unorderedValues)
      (lacks : lacksOrder) :
      IsAccounted samples totalBytes sizes count lacksOrder

theorem Shows.isAccounted
    (shows : samples.Shows timeOf flows)
    (common : flows ≠ [])
    (totalBytes : Float) :
    samples.IsAccounted totalBytes samples.bySize.keys flows.length
      (CommonFlow.MayLackOrder timeOf flows) := by
  rcases shows.summarize_cases common totalBytes with ⟨summary, made⟩ | ⟨stops, lacks⟩
  · exact .summedUp made (shows.accountsFor made)
  · exact .unordered stops lacks

end Samples

/-! ## Both runs -/

namespace Comparison

/--
Runs with a common flow are both summed up, over the same sizes and with the same
counts, unless there are many flows and a run has a time among them that leaves
the order open; runs without a common flow are not summed up.
-/
structure SummedUp
    (regular alternative : CompletionRun)
    (totalBytes : Float) :
    Prop where
  of_common :
    (ofRuns regular alternative).count ≠ 0 →
      ∃ sizes : List UInt64,
        sizes.Pairwise (· < ·) ∧
          (∀ size,
            size ∈ sizes ↔
              ∃ flow,
                (regular.time? size flow).isSome = true ∧
                  (alternative.time? size flow).isSome = true) ∧
            (ofRuns regular alternative).regular.IsAccounted totalBytes sizes
                (ofRuns regular alternative).count
                (CommonFlow.MayLackOrder CommonFlow.regular (commonFlows regular alternative)) ∧
              (ofRuns regular alternative).alternative.IsAccounted totalBytes sizes
                (ofRuns regular alternative).count
                (CommonFlow.MayLackOrder CommonFlow.alternative
                  (commonFlows regular alternative))
  same_counts :
    ∀ before after,
      (ofRuns regular alternative).regular.summarize totalBytes = .ok (some before) →
        (ofRuns regular alternative).alternative.summarize totalBytes = .ok (some after) →
          before.bySize.map StatsRow.count = after.bySize.map StatsRow.count
  of_none :
    (ofRuns regular alternative).count = 0 →
      (ofRuns regular alternative).regular.summarize totalBytes = .ok none ∧
        (ofRuns regular alternative).alternative.summarize totalBytes = .ok none

variable
    {regular alternative : CompletionRun}

/-- A size has a common flow if some flow of this size has a time in both runs. -/
theorem exists_commonFlow_iff
    {size : UInt64} :
    (∃ flow ∈ commonFlows regular alternative, flow.size = size) ↔
      ∃ flow,
        (regular.time? size flow).isSome = true ∧
          (alternative.time? size flow).isSome = true := by
  constructor
  · rintro ⟨flow, listed, rfl⟩
    rcases mem_commonFlows_iff.1 listed with ⟨inRegular, inAlternative⟩
    exact ⟨flow.flow, Option.isSome_iff_exists.2 ⟨_, inRegular⟩,
      Option.isSome_iff_exists.2 ⟨_, inAlternative⟩⟩
  · rintro ⟨flow, inRegular, inAlternative⟩
    rcases Option.isSome_iff_exists.1 inRegular with ⟨regularTime, isRegular⟩
    rcases Option.isSome_iff_exists.1 inAlternative with ⟨alternativeTime, isAlternative⟩
    exact ⟨⟨size, flow, regularTime, alternativeTime⟩,
      mem_commonFlows_iff.2 ⟨isRegular, isAlternative⟩, rfl⟩

theorem summedUp
    (regular alternative : CompletionRun)
    (totalBytes : Float) :
    SummedUp regular alternative totalBytes := by
  have before := regular_shows regular alternative
  have after := alternative_shows regular alternative
  have sameKeys := before.keys_eq after
  constructor
  case of_common =>
    intro common
    have some := commonFlows_ne_nil common
    rw [count_ofRuns]
    refine ⟨_, (ofRuns regular alternative).regular.bySize.pairwise_keys, fun size => ?_,
      before.isAccounted some totalBytes, ?_⟩
    · rw [before.sizes, exists_commonFlow_iff]
    · rw [sameKeys]
      exact after.isAccounted some totalBytes
  case same_counts =>
    -- The counts depend on the sizes and on the common flows alone, which the runs share.
    intro summary other made madeOther
    rw [before.counts_bySize made, after.counts_bySize madeOther, Samples.sizeCounts,
      Samples.sizeCounts, sameKeys]
  case of_none =>
    intro none
    rw [count_ofRuns, List.length_eq_zero_iff] at none
    rw [none] at before after
    exact ⟨before.summarize_eq_none totalBytes, after.summarize_eq_none totalBytes⟩

end Comparison

end NetRun
