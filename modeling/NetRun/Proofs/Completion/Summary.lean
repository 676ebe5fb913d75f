import NetRun.Completion.Summary
import NetRun.Proofs.Completion.Comparison
import NetRun.Proofs.Statistics.Numbers
import NetRun.Proofs.Statistics.Percentile
import NetRun.Proofs.Table.Rows

/-!
# Summaries of comparisons

Runs with a common flow are summed up, unless there are many flows and one of
them has a time that does not compare.  The first table of a summary has one row
for every size with a common flow, in ascending order, and the rows of both runs
have the same keys.
-/

namespace NetRun

open NetRun.Ordered

/-- The keys of a table. -/
abbrev StatsRow.keys
    (table : List (StatsRow Float)) :
    List String :=
  table.map StatsRow.key

/-- The three tables of a summary. -/
def Summary.tables
    (summary : Summary) :
    List (List (StatsRow Float)) :=
  [summary.bySize, [summary.flows], [summary.bytes]]

/-- The files of the three tables. -/
def SummaryPaths.toList
    (paths : SummaryPaths) :
    List String :=
  [paths.bySize, paths.flows, paths.bytes]

/-- The keys of the three tables over some sizes. -/
def Summary.tableKeys
    (sizes : List UInt64) :
    List (List String) :=
  [sizes.map toString, ["avg_over_flows"], ["avg_over_bytes"]]

/-- The table over all flows never reads like one over sizes. -/
theorem Summary.flows_text_ne_bySize_text
    {before after : Summary}
    {sizes otherSizes : List UInt64}
    (keysBefore : before.tables.map StatsRow.keys = Summary.tableKeys sizes)
    (keysAfter : after.tables.map StatsRow.keys = Summary.tableKeys otherSizes) :
    Table.render [before.flows.fields] ≠ Table.render (after.bySize.map StatsRow.fields) := by
  intro same
  simp only [Summary.tables, Summary.tableKeys, List.map_cons, List.map_nil, List.cons.injEq,
    and_true] at keysBefore keysAfter
  have flowsStart : (Table.render [before.flows.fields]).toList.head? = some 'a' := by
    rw [StatsRow.fields, keysBefore.2.1]
    exact Table.head?_render (by decide)
  rw [same] at flowsStart
  cases rows : after.bySize with
  | nil =>
      rw [rows] at flowsStart
      cases flowsStart
  | cons row rest =>
      have listed : row.key ∈ otherSizes.map toString := by
        rw [← keysAfter.1, rows]
        exact List.mem_cons_self
      rcases List.mem_map.1 listed with ⟨size, -, isKey⟩
      rw [rows, List.map_cons, StatsRow.fields, Table.head?_render, ← isKey] at flowsStart
      · exact absurd (Decimal.isDigit_of_mem_toString (List.mem_of_mem_head? flowsStart))
          (by decide)
      · rw [← isKey]
        exact (Table.isField_toString size.toNat).nonempty

namespace Samples

variable
    {samples : Samples}
    {totalBytes : Float}
    {summary : Summary}

/-! ## What is summed up -/

/-- The rows of a summary sum up the lists of samples; a size without times has no row. -/
structure SumsUpTo
    (samples : Samples)
    (totalBytes : Float)
    (summary : Summary) :
    Prop where
  bySize :
    ∃ rows,
      List.Forall₂ (fun entry row => StatsRow.ofValues? (toString entry.1) entry.2 = .ok row)
          samples.bySize.entries rows ∧
        summary.bySize = rows.filterMap id
  flows : StatsRow.ofValues? "avg_over_flows" samples.times = .ok (some summary.flows)
  bytes :
    StatsRow.withAverage? "avg_over_bytes" (total samples.weighted / totalBytes)
      samples.weighted = .ok (some summary.bytes)

theorem sumsUpTo_of_summarize
    (made : samples.summarize totalBytes = .ok (some summary)) :
    samples.SumsUpTo totalBytes summary := by
  rcases bind_eq_ok_iff.1 made with ⟨rows, areRows, made⟩
  rcases bind_eq_ok_iff.1 made with ⟨flows?, madeFlows, made⟩
  cases flows? with
  | none => cases made
  | some flows =>
      rcases bind_eq_ok_iff.1 made with ⟨bytes?, madeBytes, made⟩
      rcases Option.map_eq_some_iff.1 (pure_eq_ok_iff.1 made) with ⟨bytes, rfl, rfl⟩
      exact ⟨⟨rows, (mapM_eq_ok_iff_forall₂ fun _ _ => Iff.rfl).1 areRows, rfl⟩,
        madeFlows, madeBytes⟩

/-- Samples that are not summed up have no flow. -/
theorem eq_nil_of_summarize
    (none : samples.summarize totalBytes = .ok none) :
    samples.times = [] ∨ samples.weighted = [] := by
  rcases bind_eq_ok_iff.1 none with ⟨rows, -, none⟩
  rcases bind_eq_ok_iff.1 none with ⟨flows?, madeFlows, none⟩
  cases flows? with
  | none => exact Or.inl (StatsRow.eq_nil_of_ofValues? madeFlows)
  | some flows =>
      rcases bind_eq_ok_iff.1 none with ⟨bytes?, madeBytes, none⟩
      rw [Option.map_eq_none_iff.1 (pure_eq_ok_iff.1 none)] at madeBytes
      exact Or.inr (StatsRow.eq_nil_of_withAverage? madeBytes)

/-- To sum up samples stops only where one of their lists has no order. -/
theorem exists_ascending_of_summarize
    {crash : Crash}
    (fails : samples.summarize totalBytes = .error crash) :
    (∃ size times, samples.bySize.get? size = some times ∧ ascending times = .error crash) ∨
      ascending samples.times = .error crash ∨ ascending samples.weighted = .error crash := by
  rcases bind_eq_error_iff.1 fails with fails | ⟨rows, -, fails⟩
  · rcases mapM_eq_error_iff.1 fails with ⟨before, ⟨size, times⟩, behind, split, -, fails⟩
    have listed : (size, times) ∈ samples.bySize.entries := by
      rw [split]
      exact List.mem_append_right before List.mem_cons_self
    exact Or.inl ⟨size, times, SortedMap.mem_entries_iff.1 listed,
      StatsRow.ascending_of_ofValues? fails⟩
  · rcases bind_eq_error_iff.1 fails with fails | ⟨flows?, -, fails⟩
    · exact Or.inr (Or.inl (StatsRow.ascending_of_ofValues? fails))
    · cases flows? with
      | none => cases fails
      | some flows =>
          rcases bind_eq_error_iff.1 fails with fails | ⟨bytes?, -, fails⟩
          · exact Or.inr (Or.inr (StatsRow.ascending_of_withAverage? fails))
          · cases fails

/-- The averages that stand in the tables of samples. -/
def averages
    (samples : Samples)
    (totalBytes : Float) :
    List Float :=
  (samples.bySize.entries.filterMap fun entry => mean? entry.2) ++
    ((mean? samples.times).toList ++ [total samples.weighted / totalBytes])

theorem average_mem_averages
    (made : samples.summarize totalBytes = .ok (some summary))
    {table : List (StatsRow Float)}
    (isTable : table ∈ summary.tables)
    {row : StatsRow Float}
    (listed : row ∈ table) :
    row.average ∈ samples.averages totalBytes := by
  rcases sumsUpTo_of_summarize made with ⟨⟨rows, areRows, bySize⟩, madeFlows, madeBytes⟩
  simp only [Summary.tables, List.mem_cons, List.not_mem_nil, or_false] at isTable
  rw [averages, List.mem_append, List.mem_append]
  rcases isTable with rfl | rfl | rfl
  · rw [bySize, List.mem_filterMap] at listed
    rcases listed with ⟨_, isRow, rfl⟩
    rcases exists_related_of_mem areRows isRow with ⟨entry, isEntry, madeRow⟩
    exact Or.inl (List.mem_filterMap.2
      ⟨entry, isEntry, (StatsRow.values_of_ofValues? madeRow).2.1⟩)
  · rw [List.mem_singleton.1 listed, (StatsRow.values_of_ofValues? madeFlows).2.1]
    exact Or.inr (Or.inl List.mem_cons_self)
  · rw [List.mem_singleton.1 listed, (StatsRow.values_of_withAverage? madeBytes).2.1]
    exact Or.inr (Or.inr List.mem_cons_self)

end Samples

/-! ## Flows that are summed up -/

/--
There are more flows than values are sorted by insertion, and one of them has a
time that is no number, or else one without bytes has an infinite time while
another one has bytes.
-/
structure CommonFlow.MayLackOrder
    (timeOf : CommonFlow → Float)
    (flows : List CommonFlow) :
    Prop where
  many : Sorting.insertedValues < flows.length
  odd :
    (∃ flow ∈ flows, (timeOf flow).isNaN = true) ∨
      (∃ flow ∈ flows, flow.size = 0 ∧ (timeOf flow).isInf = true) ∧
        ∃ flow ∈ flows, flow.size ≠ 0

namespace Samples

variable
    {samples : Samples}
    {timeOf : CommonFlow → Float}
    {flows : List CommonFlow}
    {totalBytes : Float}
    {summary : Summary}

/-- Times of some of the flows that lack an order. -/
theorem mayLackOrder_of_times
    {some : List CommonFlow}
    (sublist : some.Sublist flows)
    (lacks : Doubles.MayLackOrder (some.map timeOf)) :
    CommonFlow.MayLackOrder timeOf flows := by
  rcases lacks with ⟨many, ⟨_, listed, isNaN⟩, -⟩
  rcases List.mem_map.1 listed with ⟨flow, isFlow, rfl⟩
  rw [List.length_map] at many
  exact ⟨many.trans_le sublist.length_le, Or.inl ⟨flow, sublist.subset isFlow, isNaN⟩⟩

/-- Weighed times of the flows that lack an order: not all of them are weighed with zero. -/
theorem mayLackOrder_of_weighted
    (lacks :
      Doubles.MayLackOrder (flows.map fun flow => timeOf flow * flow.size.toFloat)) :
    CommonFlow.MayLackOrder timeOf flows := by
  rcases lacks with ⟨many, ⟨_, listed, isNaN⟩, _, otherListed, notNought⟩
  rcases List.mem_map.1 listed with ⟨flow, isFlow, rfl⟩
  rcases List.mem_map.1 otherListed with ⟨other, isOther, rfl⟩
  rw [List.length_map] at many
  refine ⟨many, ?_⟩
  rcases Doubles.isNaN_of_isNaN_mul_toFloat isNaN with isNaN | ⟨isInf, empty⟩
  · exact Or.inl ⟨flow, isFlow, isNaN⟩
  · refine Or.inr ⟨⟨flow, isFlow, empty, isInf⟩, other, isOther, fun otherEmpty => ?_⟩
    rw [otherEmpty] at notNought
    exact notNought (Doubles.isZero_toFloat_zero.isNought_mul (timeOf other))

/-- Samples that show some flow are summed up unless they are found to have no order. -/
theorem Shows.summarize_cases
    (shows : samples.Shows timeOf flows)
    (common : flows ≠ [])
    (totalBytes : Float) :
    (∃ summary, samples.summarize totalBytes = .ok (some summary)) ∨
      samples.summarize totalBytes = .error .unorderedValues ∧
        CommonFlow.MayLackOrder timeOf flows := by
  cases outcome : samples.summarize totalBytes with
  | ok summary? =>
      cases summary? with
      | some summary => exact Or.inl ⟨summary, rfl⟩
      | none =>
          rcases eq_nil_of_summarize outcome with none | none
          · rw [shows.times, List.map_eq_nil_iff] at none
            exact absurd none common
          · rw [shows.weighted, List.map_eq_nil_iff] at none
            exact absurd none common
  | error crash =>
      have stops (values : List Float) (fails : ascending values = .error crash)
          (lacks : Doubles.MayLackOrder values → CommonFlow.MayLackOrder timeOf flows) :
          crash = .unorderedValues ∧ CommonFlow.MayLackOrder timeOf flows :=
        ⟨eq_unorderedValues_of_ascending fails, lacks (Doubles.mayLackOrder_of_ascending fails)⟩
      rw [Except.error.injEq]
      right
      rcases exists_ascending_of_summarize outcome with ⟨size, times, listed, fails⟩ | fails | fails
      · rw [(shows.ofSize size times listed).2] at fails
        exact stops _ fails (mayLackOrder_of_times List.filter_sublist)
      · rw [shows.times] at fails
        exact stops _ fails (mayLackOrder_of_times (List.Sublist.refl flows))
      · rw [shows.weighted] at fails
        exact stops _ fails mayLackOrder_of_weighted

/-- The first table of a summary has a row for every size, as no size is without times. -/
theorem Shows.rows_bySize
    (shows : samples.Shows timeOf flows)
    (made : samples.summarize totalBytes = .ok (some summary)) :
    List.Forall₂
      (fun entry row => StatsRow.ofValues? (toString entry.1) entry.2 = .ok (some row))
      samples.bySize.entries summary.bySize := by
  rcases (sumsUpTo_of_summarize made).bySize with ⟨rows, areRows, bySize⟩
  have given : ∀ entry ∈ samples.bySize.entries, entry.2 ≠ [] :=
    fun entry listed => (shows.ofSize entry.1 entry.2 (SortedMap.mem_entries_iff.1 listed)).1
  rw [bySize]
  clear bySize
  generalize samples.bySize.entries = entries at areRows given
  induction areRows with
  | nil => exact .nil
  | @cons entry row entries rows isRow areRows induction =>
      rcases List.forall_mem_cons.1 given with ⟨first, rest⟩
      cases row with
      | none => exact absurd (StatsRow.eq_nil_of_ofValues? isRow) first
      | some row => exact .cons isRow (induction rest)

/-- The rows of a summary have the sizes for keys. -/
theorem Shows.keys_of_summarize
    (shows : samples.Shows timeOf flows)
    (made : samples.summarize totalBytes = .ok (some summary)) :
    summary.tables.map StatsRow.keys = Summary.tableKeys samples.bySize.keys := by
  rcases sumsUpTo_of_summarize made with ⟨-, madeFlows, madeBytes⟩
  have sizeKeys : samples.bySize.keys.map toString = StatsRow.keys summary.bySize := by
    rw [SortedMap.keys, StatsRow.keys, List.map_map, ← List.forall₂_eq_eq_eq,
      List.forall₂_map_left_iff, List.forall₂_map_right_iff]
    exact (shows.rows_bySize made).imp fun entry row madeRow =>
      (StatsRow.values_of_ofValues? madeRow).1.symm
  rw [Summary.tables, Summary.tableKeys, sizeKeys,
    ← (StatsRow.values_of_ofValues? madeFlows).1, ← (StatsRow.values_of_withAverage? madeBytes).1]
  rfl

end Samples

/-- Two lists of samples that show the same flows have the same sizes. -/
theorem Samples.Shows.keys_eq
    {samples others : Samples}
    {timeOf otherTimeOf : CommonFlow → Float}
    {flows : List CommonFlow}
    (shows : samples.Shows timeOf flows)
    (othersShow : others.Shows otherTimeOf flows) :
    samples.bySize.keys = others.bySize.keys := by
  have order : Std.Asymm fun a b : UInt64 => a < b := ⟨fun _ _ => UInt64.lt_asymm⟩
  have ordered : Std.Antisymm fun a b : UInt64 => a < b := inferInstance
  apply samples.bySize.pairwise_keys.eq_of_mem_iff others.bySize.pairwise_keys
  intro size
  rw [shows.sizes, othersShow.sizes]

namespace Comparison

variable
    {regular alternative : CompletionRun}

theorem commonFlows_ne_nil
    (common : (ofRuns regular alternative).count ≠ 0) :
    commonFlows regular alternative ≠ [] := by
  rw [count_ofRuns] at common
  exact List.ne_nil_of_length_pos (Nat.pos_of_ne_zero common)

/-- The summaries of both runs are over the same sizes. -/
theorem keys_of_summaries
    {totalBytes : Float}
    {before after : Summary}
    (madeBefore :
      (ofRuns regular alternative).regular.summarize totalBytes = .ok (some before))
    (madeAfter :
      (ofRuns regular alternative).alternative.summarize totalBytes = .ok (some after)) :
    before.tables.map StatsRow.keys =
        Summary.tableKeys (ofRuns regular alternative).regular.bySize.keys ∧
      after.tables.map StatsRow.keys =
        Summary.tableKeys (ofRuns regular alternative).regular.bySize.keys := by
  have regularShows := regular_shows regular alternative
  have alternativeShows := alternative_shows regular alternative
  refine ⟨regularShows.keys_of_summarize madeBefore, ?_⟩
  rw [regularShows.keys_eq alternativeShows]
  exact alternativeShows.keys_of_summarize madeAfter

/-- Few flows are summed up in both runs, whatever their times are. -/
theorem exists_summaries_of_few
    (common : (ofRuns regular alternative).count ≠ 0)
    (few : (ofRuns regular alternative).count ≤ Sorting.insertedValues)
    (totalBytes : Float) :
    ∃ before after,
      (ofRuns regular alternative).regular.summarize totalBytes = .ok (some before) ∧
        (ofRuns regular alternative).alternative.summarize totalBytes = .ok (some after) := by
  have some := commonFlows_ne_nil common
  rw [count_ofRuns] at few
  rcases (regular_shows regular alternative).summarize_cases some totalBytes with
    ⟨before, madeBefore⟩ | ⟨-, lacks⟩
  · rcases (alternative_shows regular alternative).summarize_cases some totalBytes with
      ⟨after, madeAfter⟩ | ⟨-, lacks⟩
    · exact ⟨before, after, madeBefore, madeAfter⟩
    · exact absurd lacks.many (not_lt_of_ge few)
  · exact absurd lacks.many (not_lt_of_ge few)

end Comparison

end NetRun
