import NetRun.Completion.Reduction
import NetRun.Proofs.Completion.Summary
import NetRun.Proofs.Decimal.Layout
import NetRun.Proofs.Table.Columns

/-!
# From statistics to reductions

A statistics table that is written and read gives its keys and averages back.
The tables of the two runs of a comparison have the same keys, so every row of
the one finds its partner in the other and only an average of zero stands in
the way of a reduction.
-/

namespace NetRun

open NetRun.Table

/-! ## Tables that are read back -/

/-- The columns of a row that a reduction uses. -/
def StatsRow.averageRow
    (row : StatsRow Float) :
    AverageRow :=
  ⟨row.key, row.average⟩

/-- The average is the number that its text in a table denotes. -/
def ReadsBack
    (average : Float) :
    Prop :=
  Decimal.real? (Decimal.tabular.write average) = some average

instance
    (average : Float) :
    Decidable (ReadsBack average) :=
  inferInstanceAs (Decidable (_ = _))

theorem isField_write
    (value : Float) :
    IsField (Decimal.tabular.write value) where
  nonempty := (Decimal.isNumeric_write value).nonempty
  solid := fun c listed =>
    Decimal.isBlank_of_isNumeral ((Decimal.isNumeric_write value).numerals c listed)

theorem isField_of_all
    {field : String}
    (nonempty : field.toList.isEmpty = false)
    (solid : (field.toList.all fun c => !Text.isBlank c) = true) :
    IsField field where
  nonempty := List.isEmpty_eq_false_iff.1 nonempty
  solid := fun c listed => (Bool.not_eq_true' _).mp (List.all_eq_true.1 solid c listed)

theorem StatsRow.isField_of_mem_fields
    {row : StatsRow Float}
    (keyed : IsField row.key)
    {field : String}
    (listed : field ∈ row.fields) :
    IsField field := by
  simp only [fields, List.mem_cons, List.not_mem_nil, or_false] at listed
  rcases listed with rfl | rfl | rfl | rfl | rfl | rfl | rfl
  · exact keyed
  · exact isField_write row.average
  · exact isField_write row.median
  · exact isField_write row.p99
  · exact isField_write row.p1
  · exact isField_write row.p10
  · exact isField_toString row.count

/-- Reading a written table gives a row for each of its rows, in their order. -/
theorem AverageRow.parse_render
    (origin : String)
    {table : List (StatsRow Float)}
    (keyed : ∀ row ∈ table, IsField row.key)
    (readsBack : ∀ row ∈ table, ReadsBack row.average) :
    parse origin (Table.render (table.map StatsRow.fields)) =
      .ok (table.map StatsRow.averageRow) := by
  have areFields : ∀ fields ∈ table.map StatsRow.fields, ∀ field ∈ fields, IsField field := by
    intro fields listed field isOne
    rcases List.mem_map.1 listed with ⟨row, isRow, rfl⟩
    exact StatsRow.isField_of_mem_fields (keyed row isRow) isOne
  rw [parse, rows_eq_numbered, wordLines_render areFields]
  refine mapM_numbered_map (fun _ _ => List.cons_ne_nil _ _) fun row isRow line => ?_
  have average : Row.real ⟨origin, line, row.fields⟩ 1 "average" = .ok row.average :=
    Row.number_eq_ok rfl (readsBack row isRow) _
  rw [read, average]
  rfl

/-! ## Tables with the same keys -/

namespace Reduction

/-- The averages of two rows under one key and the reduction in percent. -/
def ofPair
    (regular alternative : AverageRow) :
    Reduction :=
  ⟨regular.key, regular.average, alternative.average,
    (regular.average - alternative.average) * 100.0 / regular.average⟩

/-- In a table without repeated keys, each row is the one found under its key. -/
theorem lastAverage?_eq_some
    {table : List AverageRow}
    (distinct : (table.map AverageRow.key).Nodup)
    {row : AverageRow}
    (listed : row ∈ table) :
    lastAverage? table row.key = some row.average := by
  have unique : ∀ other ∈ table, other.key = row.key → other = row :=
    fun other isOther same => List.inj_on_of_nodup_map distinct isOther listed same
  rw [lastAverage?]
  cases found : table.reverse.find? fun other => other.key == row.key with
  | none =>
      have refuted := List.find?_eq_none.1 found row (List.mem_reverse.2 listed)
      exact absurd (beq_self_eq_true row.key) refuted
  | some other =>
      have matching := List.find?_some found
      have same : other.key = row.key := beq_iff_eq.1 matching
      have isOther : other ∈ table := List.mem_reverse.1 (List.mem_of_find?_eq_some found)
      rw [unique other isOther same]
      rfl

/-- A row whose key is found is reduced unless its average is zero. -/
theorem ofRow_of_found
    {alternative : List AverageRow}
    {row : AverageRow}
    {average : Float}
    (found : lastAverage? alternative row.key = some average) :
    ofRow alternative row =
      if row.average == 0.0 then .error (.zeroBaseline row.key)
      else .ok (ofPair row ⟨row.key, average⟩) := by
  rw [ofRow, found]
  rfl

/--
Two tables pair up: they have the same keys, so a reduction of the one by the
other never misses a key.  It is refused exactly for an average of zero in the
regular table and otherwise has one entry for each row.
-/
structure PairsUp
    (regular alternative : List AverageRow) :
    Prop where
  sameKeys : regular.map AverageRow.key = alternative.map AverageRow.key
  neverMissing : ∀ key, ofTables regular alternative ≠ .error (.missingKey key)
  refused :
    (∃ key, ofTables regular alternative = .error (.zeroBaseline key)) ↔
      ∃ row ∈ regular, (row.average == 0.0) = true
  reduced :
    (∀ row ∈ regular, (row.average == 0.0) = false) →
      ofTables regular alternative = .ok (List.zipWith ofPair regular alternative)

section Pairs

variable
    {pairs : List (AverageRow × AverageRow)}
    (same : ∀ pair ∈ pairs, pair.1.key = pair.2.key)
    (distinct : ((pairs.map Prod.snd).map AverageRow.key).Nodup)

include same distinct

/-- Every row of the first table is reduced by its partner. -/
theorem ofRow_fst
    {pair : AverageRow × AverageRow}
    (listed : pair ∈ pairs) :
    ofRow (pairs.map Prod.snd) pair.1 =
      if pair.1.average == 0.0 then .error (.zeroBaseline pair.1.key)
      else .ok (ofPair pair.1 pair.2) := by
  have found := lastAverage?_eq_some distinct (List.mem_map_of_mem listed)
  rw [← same pair listed] at found
  exact ofRow_of_found found

/-- A reduction that is refused is refused for an average of zero. -/
theorem exists_zero_of_ofTables_eq_error
    {cause : ReductionError}
    (refused : ofTables (pairs.map Prod.fst) (pairs.map Prod.snd) = .error cause) :
    ∃ row ∈ pairs.map Prod.fst, (row.average == 0.0) = true ∧ cause = .zeroBaseline row.key := by
  rcases mapM_eq_error_iff.1 refused with ⟨before, row, behind, split, -, fails⟩
  have listed : row ∈ pairs.map Prod.fst := by
    rw [split]
    exact List.mem_append_right before List.mem_cons_self
  rcases List.mem_map.1 listed with ⟨pair, isPair, rfl⟩
  refine ⟨pair.1, listed, ?_⟩
  rw [ofRow_fst same distinct isPair] at fails
  split at fails
  case isTrue zero =>
    cases fails
    exact ⟨zero, rfl⟩
  case isFalse => cases fails

theorem ofTables_eq_ok_iff
    {reductions : List Reduction} :
    ofTables (pairs.map Prod.fst) (pairs.map Prod.snd) = .ok reductions ↔
      (∀ pair ∈ pairs, (pair.1.average == 0.0) = false) ∧
        reductions = pairs.map fun pair => ofPair pair.1 pair.2 := by
  rw [ofTables, List.mapM_map]
  apply mapM_eq_ok_iff
  intro pair listed result
  change ofRow _ pair.1 = .ok result ↔ _
  rw [ofRow_fst same distinct listed]
  cases pair.1.average == 0.0 with
  | true => simp
  | false => simp [eq_comm]

theorem pairsUp_of_pairs :
    PairsUp (pairs.map Prod.fst) (pairs.map Prod.snd) := by
  constructor
  case sameKeys =>
    rw [List.map_map, List.map_map]
    exact List.map_congr_left same
  case neverMissing =>
    intro key missing
    rcases exists_zero_of_ofTables_eq_error same distinct missing with ⟨_, -, -, impossible⟩
    cases impossible
  case refused =>
    constructor
    · rintro ⟨key, refused⟩
      rcases exists_zero_of_ofTables_eq_error same distinct refused with ⟨row, listed, zero, -⟩
      exact ⟨row, listed, zero⟩
    · rintro ⟨row, listed, zero⟩
      rcases List.mem_map.1 listed with ⟨pair, isPair, rfl⟩
      cases outcome : ofTables (pairs.map Prod.fst) (pairs.map Prod.snd) with
      | error cause =>
          rcases exists_zero_of_ofTables_eq_error same distinct outcome with ⟨other, -, -, rfl⟩
          exact ⟨other.key, rfl⟩
      | ok reductions =>
          have nonzero := ((ofTables_eq_ok_iff same distinct).1 outcome).1 pair isPair
          rw [zero] at nonzero
          cases nonzero
  case reduced =>
    intro nonzero
    apply (ofTables_eq_ok_iff same distinct).2
    refine ⟨fun pair listed => nonzero pair.1 (List.mem_map_of_mem listed), ?_⟩
    rw [List.zipWith_map, List.zipWith_self]

end Pairs

/-- Tables with the same keys, none of them repeated, pair up. -/
theorem pairsUp_of_keys_eq
    {regular alternative : List AverageRow}
    (same : regular.map AverageRow.key = alternative.map AverageRow.key)
    (distinct : (regular.map AverageRow.key).Nodup) :
    PairsUp regular alternative := by
  have sameLength : regular.length = alternative.length := by
    simpa using congrArg List.length same
  have first : (regular.zip alternative).map Prod.fst = regular :=
    List.map_fst_zip sameLength.le
  have second : (regular.zip alternative).map Prod.snd = alternative :=
    List.map_snd_zip sameLength.ge
  have pairs : PairsUp ((regular.zip alternative).map Prod.fst)
      ((regular.zip alternative).map Prod.snd) := by
    apply pairsUp_of_pairs
    · have keys :
          ((regular.zip alternative).map Prod.fst).map AverageRow.key =
            ((regular.zip alternative).map Prod.snd).map AverageRow.key := by
        rw [first, second, same]
      rw [List.map_map, List.map_map] at keys
      exact List.map_inj_left.1 keys
    · rwa [second, ← same]
  rwa [first, second] at pairs

end Reduction

/-! ## The tables of a comparison -/

theorem isField_of_mem_tableKeys
    {sizes : List UInt64}
    {keys : List String}
    (listed : keys ∈ Summary.tableKeys sizes)
    {key : String}
    (isKey : key ∈ keys) :
    IsField key := by
  simp only [Summary.tableKeys, List.mem_cons, List.not_mem_nil, or_false] at listed
  rcases listed with rfl | rfl | rfl
  · rcases List.mem_map.1 isKey with ⟨size, -, rfl⟩
    exact isField_toString size.toNat
  · rw [List.mem_singleton.1 isKey]
    exact isField_of_all (by decide) (by decide)
  · rw [List.mem_singleton.1 isKey]
    exact isField_of_all (by decide) (by decide)

theorem toString_injective :
    Function.Injective (toString : UInt64 → String) := by
  intro size other same
  have reads := congrArg Decimal.word64? same
  rwa [Decimal.word64?_toString, Decimal.word64?_toString, Option.some.injEq] at reads

theorem nodup_of_mem_tableKeys
    {sizes : List UInt64}
    (distinct : sizes.Nodup)
    {keys : List String}
    (listed : keys ∈ Summary.tableKeys sizes) :
    keys.Nodup := by
  simp only [Summary.tableKeys, List.mem_cons, List.not_mem_nil, or_false] at listed
  rcases listed with rfl | rfl | rfl
  · exact distinct.map toString_injective
  · exact List.nodup_singleton _
  · exact List.nodup_singleton _

namespace Summary

/-- Every file of a summary is read back as its table. -/
def IsReadBack
    (summary : Summary) :
    Prop :=
  ∀ paths,
    List.Forall₂
      (fun file table => AverageRow.parse file.1 file.2 = .ok (table.map StatsRow.averageRow))
      (summary.files paths) summary.tables

/-- Three by three the tables of two summaries pair up. -/
def PairsUp
    (regular alternative : Summary) :
    Prop :=
  List.Forall₂
    (fun table partner =>
      Reduction.PairsUp (table.map StatsRow.averageRow) (partner.map StatsRow.averageRow))
    regular.tables alternative.tables

variable
    {sizes : List UInt64}

theorem isReadBack_of_keys
    {summary : Summary}
    (keyed : summary.tables.map StatsRow.keys = tableKeys sizes)
    (readsBack : ∀ table ∈ summary.tables, ∀ row ∈ table, ReadsBack row.average) :
    summary.IsReadBack := by
  have reads (origin : String) :
      ∀ table ∈ summary.tables,
        AverageRow.parse origin (Table.render (table.map StatsRow.fields)) =
          .ok (table.map StatsRow.averageRow) := by
    intro table listed
    apply AverageRow.parse_render origin ?_ (readsBack table listed)
    intro row isRow
    have isKeys : StatsRow.keys table ∈ tableKeys sizes := keyed ▸ List.mem_map_of_mem listed
    exact isField_of_mem_tableKeys isKeys (List.mem_map_of_mem isRow)
  intro paths
  simp only [tables, List.forall_mem_cons] at reads
  exact .cons (reads _).1 (.cons (reads _).2.1 (.cons (reads _).2.2.1 .nil))

theorem pairsUp_of_keys
    {regular alternative : Summary}
    (distinct : sizes.Nodup)
    (keyed : regular.tables.map StatsRow.keys = tableKeys sizes)
    (alternativeKeyed : alternative.tables.map StatsRow.keys = tableKeys sizes) :
    regular.PairsUp alternative := by
  have same : regular.tables.map StatsRow.keys = alternative.tables.map StatsRow.keys :=
    keyed.trans alternativeKeyed.symm
  have pairs (table partner : List (StatsRow Float)) (listed : table ∈ regular.tables)
      (equal : StatsRow.keys table = StatsRow.keys partner) :
      Reduction.PairsUp (table.map StatsRow.averageRow) (partner.map StatsRow.averageRow) := by
    have isKeys : StatsRow.keys table ∈ tableKeys sizes := keyed ▸ List.mem_map_of_mem listed
    apply Reduction.pairsUp_of_keys_eq
    · rw [List.map_map, List.map_map]
      exact equal
    · rw [List.map_map]
      exact nodup_of_mem_tableKeys distinct isKeys
  simp only [tables, List.map_cons, List.map_nil, List.cons.injEq, and_true] at same
  refine .cons (pairs _ _ (by simp [tables]) same.1) (.cons (pairs _ _ (by simp [tables]) ?_)
    (.cons (pairs _ _ (by simp [tables]) ?_) .nil))
  · simp [same.2.1]
  · simp [same.2.2]

end Summary

namespace Comparison

/--
Two runs with a common flow are summed up, unless there are many flows and a run has
a time among them that leaves the order open.  Every table of a summary that is
written is read back with its keys and averages, and the tables of the two runs pair
up, the first of them by ascending size.  Averages are taken to be read as they are
written.
-/
theorem tables_feed_reductions
    (regular alternative : CompletionRun)
    (common : (ofRuns regular alternative).count ≠ 0)
    (readsBack :
      ∀ samples ∈ [(ofRuns regular alternative).regular, (ofRuns regular alternative).alternative],
        ∀ summary,
          samples.summarize (ofRuns regular alternative).totalBytes = .ok (some summary) →
            ∀ table ∈ summary.tables, ∀ row ∈ table, ReadsBack row.average) :
    ((∃ before,
          (ofRuns regular alternative).regular.summarize (ofRuns regular alternative).totalBytes =
            .ok (some before)) ∨
        (ofRuns regular alternative).regular.summarize (ofRuns regular alternative).totalBytes =
            .error .unorderedValues ∧
          CommonFlow.MayLackOrder CommonFlow.regular (commonFlows regular alternative)) ∧
      ((∃ after,
            (ofRuns regular alternative).alternative.summarize
                (ofRuns regular alternative).totalBytes = .ok (some after)) ∨
          (ofRuns regular alternative).alternative.summarize
                (ofRuns regular alternative).totalBytes = .error .unorderedValues ∧
            CommonFlow.MayLackOrder CommonFlow.alternative (commonFlows regular alternative)) ∧
        ∀ before after,
          (ofRuns regular alternative).regular.summarize (ofRuns regular alternative).totalBytes =
              .ok (some before) →
            (ofRuns regular alternative).alternative.summarize
                (ofRuns regular alternative).totalBytes = .ok (some after) →
              before.IsReadBack ∧ after.IsReadBack ∧ before.PairsUp after ∧
                ∃ sizes : List UInt64,
                  StatsRow.keys before.bySize = sizes.map toString ∧
                    sizes.Pairwise (· < ·) := by
  have some := commonFlows_ne_nil common
  refine ⟨(regular_shows regular alternative).summarize_cases some _,
    (alternative_shows regular alternative).summarize_cases some _, ?_⟩
  intro before after madeBefore madeAfter
  rcases keys_of_summaries madeBefore madeAfter with ⟨keysBefore, keysAfter⟩
  rw [List.forall_mem_cons, List.forall_mem_singleton] at readsBack
  rcases readsBack with ⟨readsBefore, readsAfter⟩
  have ascending := (ofRuns regular alternative).regular.bySize.pairwise_keys
  have distinct : (ofRuns regular alternative).regular.bySize.keys.Nodup :=
    ascending.imp fun less => UInt64.ne_of_lt less
  exact ⟨Summary.isReadBack_of_keys keysBefore (readsBefore before madeBefore),
    Summary.isReadBack_of_keys keysAfter (readsAfter after madeAfter),
    Summary.pairsUp_of_keys distinct keysBefore keysAfter, _,
    (List.cons.inj keysBefore).1, ascending⟩

/-- Two sizes with common flows, one of them with two, and flows in one run only. -/
theorem three_flows_feed_reductions :
    ∃ regular alternative : CompletionRun,
      (ofRuns regular alternative).count = 3 ∧
        ∃ before after : Summary,
          (ofRuns regular alternative).regular.summarize (ofRuns regular alternative).totalBytes =
              .ok (some before) ∧
            (ofRuns regular alternative).alternative.summarize
                (ofRuns regular alternative).totalBytes = .ok (some after) ∧
              before.IsReadBack ∧ after.IsReadBack ∧ before.PairsUp after ∧
                ∃ sizes : List UInt64,
                  StatsRow.keys before.bySize = sizes.map toString ∧
                    sizes.Pairwise (· < ·) := by
  let regular :=
    CompletionRun.ofRecords ⟨10, 0⟩
      [⟨1500, 3, 1, 7⟩, ⟨100, 0.5, 1, 1⟩, ⟨100, 2, 1, 2⟩, ⟨9000, 5, 1, 3⟩]
  let alternative :=
    CompletionRun.ofRecords ⟨10, 0⟩
      [⟨100, 0.25, 1, 2⟩, ⟨100, 0.1, 1, 1⟩, ⟨200, 1, 1, 4⟩, ⟨1500, 4, 2, 7⟩]
  have readsBack :
      ∀ samples ∈
        [(ofRuns regular alternative).regular, (ofRuns regular alternative).alternative],
        ∀ average ∈ samples.averages (ofRuns regular alternative).totalBytes,
          ReadsBack average := by
    decide +kernel
  have three : (ofRuns regular alternative).count = 3 := by decide +kernel
  have common : (ofRuns regular alternative).count ≠ 0 := three ▸ by decide
  rcases exists_summaries_of_few common (three ▸ by decide)
    (ofRuns regular alternative).totalBytes with ⟨before, after, madeBefore, madeAfter⟩
  refine ⟨regular, alternative, three, before, after, madeBefore, madeAfter, ?_⟩
  refine (tables_feed_reductions regular alternative common ?_).2.2 before after madeBefore madeAfter
  intro samples listed summary made table isTable row isRow
  exact readsBack samples listed row.average
    (Samples.average_mem_averages made isTable isRow)

end Comparison

end NetRun
