import NetRun.Completion.Log
import NetRun.Proofs.Completion.Comparison
import NetRun.Proofs.Ordered.Accumulate
import NetRun.Proofs.Ordered.Last
import NetRun.Proofs.Table.Columns

/-!
# What a log keeps

A log is read if every line that is not blank begins with the four fields of a
record.  The run that is read holds, for every flow, the time of the last record
of the flow that the window admits, and nothing else; records outside the window
leave no trace.  Any other text is refused for the first bad field of the first bad
line, whether or not the window would have dropped that line.
-/

namespace NetRun

open NetRun.Log
open NetRun.Ordered
open NetRun.Table

/-! ## Lines -/

/-- The first four words of a line are the fields of a record. -/
structure Completion.Begins
    (words : List String)
    (record : Completion) :
    Prop where
  size : FieldIs words 0 record.size.toNat
  time : (words[1]?).bind Decimal.real? = some record.time
  start : (words[2]?).bind Decimal.real? = some record.start
  flow : FieldIs words 3 record.flow.toNat

/-- The columns of a log. -/
def Completion.columns :
    List Column :=
  [.word64 "flow size", .real "completion time", .real "start time", .word64 "flow id"]

theorem Completion.read_eq_ok_iff
    {row : Row}
    {record : Completion} :
    read row = .ok record ↔ record.Begins row.words := by
  simp only [read, bind_eq_ok_iff, word64_eq_ok_iff_fieldIs, real_eq_ok_iff, pure_eq_ok_iff]
  constructor
  · rintro ⟨_, size, _, time, _, start, _, flow, rfl⟩
    exact ⟨size, time, start, flow⟩
  · rintro ⟨size, time, start, flow⟩
    exact ⟨_, size, _, time, _, start, _, flow, rfl⟩

theorem Completion.read_eq_error_iff
    {row : Row}
    {cause : ReadError} :
    read row = .error cause ↔ ColumnFault row.origin row.line columns row.words cause := by
  refine word64_bind_eq_error_iff fun size => real_bind_eq_error_iff fun time => ?_
  refine real_bind_eq_error_iff fun start => word64_bind_eq_error_iff fun flow => ?_
  constructor
  · rintro ⟨⟩
  · intro fault
    exact absurd fault not_fault_nil

/-! ## Records -/

namespace CompletionRun

variable
    {origin text : String}
    {window : Window}
    {records : List Completion}
    {run : CompletionRun}

/-- The record is one of this flow, and the window admits it. -/
structure Counts
    (window : Window)
    (size flow : UInt64)
    (record : Completion) :
    Prop where
  isAdmitted : record.isAdmitted window = true
  size : record.size = size
  flow : record.flow = flow

/--
The run holds the time of the last record of each flow that the window admits, no
other time, and no size without a flow.
-/
structure Keeps
    (window : Window)
    (records : List Completion)
    (run : CompletionRun) :
    Prop where
  times :
    ∀ size flow time,
      run.time? size flow = some time ↔
        ∃ record, LastWith (Counts window size flow) records record ∧ record.time = time
  nonempty : ∀ size flows, run.get? size = some flows → flows.entries ≠ []

theorem time?_eq_get?_getD
    (run : CompletionRun)
    (size flow : UInt64) :
    run.time? size flow = ((run.get? size).getD .empty).get? flow := by
  rw [time?]
  cases run.get? size with
  | none => rfl
  | some flows => rfl

/-- Under a flow stands the time of its last record that the window admits. -/
theorem time?_ofRecords
    (window : Window)
    (records : List Completion)
    (size flow : UInt64) :
    (ofRecords window records).time? size flow =
      (((records.filter (Completion.isAdmitted window)).filter fun record =>
        record.size = size).filter fun record => record.flow = flow).getLast?.map
          Completion.time := by
  have accumulated :=
    @SortedMap.getD_get?_foldl_accumulate UInt64 (SortedMap UInt64 Float) Completion _ _ _ _ _ _
      Completion.size (fun flows record => flows.insert record.flow record.time) .empty .empty size
      (records.filter (Completion.isAdmitted window))
  rw [time?_eq_get?_getD]
  refine (congrArg (SortedMap.get? · flow) accumulated).trans ?_
  rw [SortedMap.get?_foldl_insert]
  exact Option.or_none

/-- A size is only there because of a flow. -/
theorem nonempty_of_mem_ofRecords
    (window : Window)
    (records : List Completion) :
    ∀ entry ∈ (ofRecords window records).entries, entry.2.entries ≠ [] := by
  apply List.foldlRecOn
    (motive := fun run : CompletionRun => ∀ entry ∈ run.entries, entry.2.entries ≠ [])
  · rintro entry ⟨⟩
  · intro run before record _
    exact
      @forall_mem_upsertEntry UInt64 (SortedMap UInt64 Float) _ _ (fun flows => flows.entries ≠ [])
        _ _ _ before fun flows => SortedMap.entries_insert_ne_nil

theorem keeps_ofRecords
    (window : Window)
    (records : List Completion) :
    Keeps window records (ofRecords window records) where
  times size flow time := by
    have decides (record : Completion) :
        (decide (record.flow = flow) &&
            (decide (record.size = size) && record.isAdmitted window)) = true ↔
          Counts window size flow record := by
      rw [Bool.and_eq_true, Bool.and_eq_true, decide_eq_true_eq, decide_eq_true_eq]
      constructor
      · rintro ⟨isFlow, isSize, admitted⟩
        exact ⟨admitted, isSize, isFlow⟩
      · rintro ⟨admitted, isSize, isFlow⟩
        exact ⟨isFlow, isSize, admitted⟩
    simp only [time?_ofRecords, List.filter_filter, Option.map_eq_some_iff,
      getLast?_filter_eq_some_iff decides]
  nonempty size flows found :=
    nonempty_of_mem_ofRecords window records (size, flows) (SortedMap.mem_entries_iff.2 found)

/-- There is only one run that keeps what is to be kept of the records. -/
theorem Keeps.unique
    {other : CompletionRun}
    (keeps : Keeps window records run)
    (otherKeeps : Keeps window records other) :
    run = other := by
  have sameTime (size flow : UInt64) : run.time? size flow = other.time? size flow :=
    Option.ext fun time => (keeps.times size flow time).trans (otherKeeps.times size flow time).symm
  have sameFlows (size : UInt64) :
      (run.get? size).getD .empty = (other.get? size).getD .empty := by
    apply SortedMap.eq_of_get?_eq
    intro flow
    rw [← time?_eq_get?_getD, ← time?_eq_get?_getD, sameTime]
  apply SortedMap.eq_of_get?_eq
  intro size
  have same := sameFlows size
  -- Only a size without a flow could be there in one run and not in the other.
  cases here : run.get? size with
  | none =>
      cases there : other.get? size with
      | none => rfl
      | some flows =>
          rw [here, there] at same
          exact absurd (congrArg SortedMap.entries same).symm (otherKeeps.nonempty size flows there)
  | some flows =>
      cases there : other.get? size with
      | none =>
          rw [here, there] at same
          exact absurd (congrArg SortedMap.entries same) (keeps.nonempty size flows here)
      | some otherFlows =>
          rw [here, there] at same
          exact congrArg some same

/-! ## The whole text -/

/-- The lines log this run: each that is not blank is a record, and the run keeps the records. -/
inductive Logs
    (window : Window)
    (lines : List (List String))
    (run : CompletionRun) :
    Prop where
  | intro (records : List Completion) :
      List.Forall₂ Completion.Begins (lines.filter fun words => !words.isEmpty) records →
        Keeps window records run → Logs window lines run

theorem outcome_read
    (origin text : String)
    (window : Window) :
    (read origin text window).outcome = parse origin text window :=
  Logged.outcome_reportOn (readRecords origin text) (fun records => [notice origin window records])
    (ofRecords window)

theorem readRecords_eq_ok_iff :
    readRecords origin text = .ok records ↔
      List.Forall₂ Completion.Begins ((wordLines text).filter fun words => !words.isEmpty)
        records := by
  rw [readRecords, rows_eq_numbered]
  exact mapM_numbered_eq_ok_iff fun _ _ _ => Completion.read_eq_ok_iff

theorem readRecords_eq_error_iff
    {cause : ReadError} :
    readRecords origin text = .error cause ↔
      FirstFault Completion.Begins (fun line => ColumnFault origin line Completion.columns) 0
        (wordLines text) cause := by
  rw [readRecords, rows_eq_numbered]
  exact mapM_numbered_eq_error_iff (fun _ _ _ => Completion.read_eq_ok_iff)
    fun _ _ _ => Completion.read_eq_error_iff

theorem parse_eq_ok_iff :
    parse origin text window = .ok run ↔ Logs window (wordLines text) run := by
  rw [parse, map_eq_ok_iff]
  simp only [readRecords_eq_ok_iff]
  constructor
  · rintro ⟨records, begin, rfl⟩
    exact ⟨records, begin, keeps_ofRecords window records⟩
  · rintro ⟨records, begin, keeps⟩
    exact ⟨records, begin, (keeps_ofRecords window records).unique keeps⟩

theorem parse_eq_error_iff
    {cause : ReadError} :
    parse origin text window = .error cause ↔
      FirstFault Completion.Begins (fun line => ColumnFault origin line Completion.columns) 0
        (wordLines text) cause := by
  rw [parse, map_eq_error_iff, readRecords_eq_error_iff]

theorem exists_parse_eq_ok_iff :
    (∃ run, parse origin text window = .ok run) ↔
      ∀ words ∈ wordLines text, words ≠ [] → ∃ record, Completion.Begins words record := by
  rw [← exists_forall₂_lines_iff]
  simp only [parse, map_eq_ok_iff, readRecords_eq_ok_iff]
  constructor
  · rintro ⟨_, records, begin, -⟩
    exact ⟨records, begin⟩
  · rintro ⟨records, begin⟩
    exact ⟨_, records, begin, rfl⟩

/--
A text spells one list of lines of words.  A log is read exactly if each line that
is not blank begins with the four fields of a record.  The run that is read holds,
for each flow, the time of its last record that the window admits, and holds no
other flow and no size without a flow.  If a line is bad, no run is read, and the
refusal is that of the first bad line for its first bad field; the window has no
say in this.
-/
theorem log_keeps_last_admitted
    (origin text : String)
    (window : Window) :
    (∀ lines, Spells text lines ↔ wordLines text = lines) ∧
      ((∃ run, (read origin text window).outcome = .ok run) ↔
        ∀ words ∈ wordLines text, words ≠ [] → ∃ record, Completion.Begins words record) ∧
      (∀ run,
        (read origin text window).outcome = .ok run ↔ Logs window (wordLines text) run) ∧
      ∀ cause,
        (read origin text window).outcome = .error cause ↔
          FirstFault Completion.Begins (fun line => ColumnFault origin line Completion.columns) 0
            (wordLines text) cause := by
  simp only [outcome_read]
  exact ⟨fun lines => spells_iff, exists_parse_eq_ok_iff, fun run => parse_eq_ok_iff,
    fun cause => parse_eq_error_iff⟩

/--
A flow that is logged three times, the last time outside the window, and one that
ends too late; a blank line, line ends of both kinds, a word behind the fields.
-/
def revisedLog :
    String :=
  "100\t1.0\t3.0\t1\n\n100 2.5 3 +1 note\r\n100\t0.5\t1.0\t1\n300\t9.0\t3.0\t2\n"

theorem revisedLog_keeps_last_admitted :
    ∃ run,
      (read unnamed revisedLog ⟨10, 2⟩).outcome = .ok run ∧
        Logs ⟨10, 2⟩ (wordLines revisedLog) run ∧
          run.time? 100 1 = some 2.5 ∧ run.keys = [100] ∧
            FirstFault Completion.Begins (fun line => ColumnFault unnamed line Completion.columns) 0
              (wordLines (revisedLog ++ "100 9.0 1.0 x\n"))
              (.invalidNumber unnamed 6 "flow id" "x") := by
  have isRecords :
      readRecords unnamed revisedLog =
        .ok [⟨100, 1, 3, 1⟩, ⟨100, 2.5, 3, 1⟩, ⟨100, 0.5, 1, 1⟩, ⟨300, 9, 3, 2⟩] := by
    decide +kernel
  have reads :
      (read unnamed revisedLog ⟨10, 2⟩).outcome =
        .ok (ofRecords ⟨10, 2⟩ [⟨100, 1, 3, 1⟩, ⟨100, 2.5, 3, 1⟩, ⟨100, 0.5, 1, 1⟩,
          ⟨300, 9, 3, 2⟩]) := by
    rw [outcome_read, parse, isRecords]
    rfl
  -- The bad line starts too early to be admitted.
  have fails :
      (read unnamed (revisedLog ++ "100 9.0 1.0 x\n") ⟨10, 2⟩).outcome =
        .error (.invalidNumber unnamed 6 "flow id" "x") := by
    rw [outcome_read, parse, map_eq_error_iff]
    decide +kernel
  rcases log_keeps_last_admitted unnamed revisedLog ⟨10, 2⟩ with ⟨-, -, isRun, -⟩
  rcases log_keeps_last_admitted unnamed (revisedLog ++ "100 9.0 1.0 x\n") ⟨10, 2⟩ with
    ⟨-, -, -, isFault⟩
  exact ⟨_, reads, (isRun _).1 reads, by decide +kernel, by decide +kernel, (isFault _).1 fails⟩

end CompletionRun

end NetRun
