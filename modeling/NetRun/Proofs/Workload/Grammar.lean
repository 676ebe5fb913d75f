import NetRun.Proofs.Table.Columns
import NetRun.Proofs.Workload.Rewriting

/-!
# The texts of traces

A first line with exactly one word is a count; without such a line, the flows begin
on the first line.  A text is a trace if its count, if it has one, is a number and
each further line that is not blank begins with the four fields of a flow.  Any
other text is refused for its first fault.  So a count line in front of a text
without one only moves what is refused one line down, and which number a count line
has only decides whether a warning is given.
-/

namespace NetRun.Trace

open NetRun.Log
open NetRun.Table

/-! ## Texts that are read and texts that are refused -/

/-- The first line has exactly one word. -/
def StartsAlone
    (lines : List (List String)) :
    Prop :=
  ∃ word below, lines = [word] :: below

/-- The columns of a trace. -/
def flowColumns :
    List Column :=
  [.real "start time", .word64 "flow size", .word32 "source node", .word32 "destination node"]

/-- The lines tell of these flows: all of them below a count, or all of them without one. -/
inductive Describes :
    List (List String) → List Flow → Prop where
  | counted {word : String} {below : List (List String)} {count : UInt64} {flows : List Flow} :
      FieldIs [word] 0 count.toNat →
        List.Forall₂ Flow.Begins (below.filter fun words => !words.isEmpty) flows →
          Describes ([word] :: below) flows
  | raw {lines : List (List String)} {flows : List Flow} :
      ¬ StartsAlone lines →
        List.Forall₂ Flow.Begins (lines.filter fun words => !words.isEmpty) flows →
          Describes lines flows

/-- The refusal of lines that tell of no flows: for the first fault in them. -/
inductive Refused
    (origin : String) :
    List (List String) → ReadError → Prop where
  | count {word : String} {below : List (List String)} :
      ¬ (Column.word64 "flow count").takes word →
        Refused origin ([word] :: below) (.invalidNumber origin 1 "flow count" word)
  | counted {word : String} {below : List (List String)} {count : UInt64} {cause : ReadError} :
      FieldIs [word] 0 count.toNat →
        FirstFault Flow.Begins (fun line => ColumnFault origin line flowColumns) 1 below cause →
          Refused origin ([word] :: below) cause
  | raw {lines : List (List String)} {cause : ReadError} :
      ¬ StartsAlone lines →
        FirstFault Flow.Begins (fun line => ColumnFault origin line flowColumns) 0 lines cause →
          Refused origin lines cause

section Inversion

variable
    {origin word : String}
    {below lines : List (List String)}
    {flows : List Flow}
    {cause : ReadError}

theorem describes_alone_iff :
    Describes ([word] :: below) flows ↔
      (∃ count : UInt64, FieldIs [word] 0 count.toNat) ∧
        List.Forall₂ Flow.Begins (below.filter fun words => !words.isEmpty) flows := by
  constructor
  · rintro (⟨isCount, begin⟩ | ⟨raw, -⟩)
    · exact ⟨⟨_, isCount⟩, begin⟩
    · exact absurd ⟨word, below, rfl⟩ raw
  · rintro ⟨⟨count, isCount⟩, begin⟩
    exact .counted isCount begin

theorem describes_raw_iff
    (raw : ¬ StartsAlone lines) :
    Describes lines flows ↔
      List.Forall₂ Flow.Begins (lines.filter fun words => !words.isEmpty) flows := by
  constructor
  · rintro (⟨-, -⟩ | ⟨-, begin⟩)
    · exact absurd ⟨_, _, rfl⟩ raw
    · exact begin
  · exact .raw raw

theorem refused_alone_iff :
    Refused origin ([word] :: below) cause ↔
      ColumnFault origin 1 [.word64 "flow count"] [word] cause ∨
        (∃ count : UInt64, FieldIs [word] 0 count.toNat) ∧
          FirstFault Flow.Begins (fun line => ColumnFault origin line flowColumns) 1 below
            cause := by
  constructor
  · rintro (refuses | ⟨isCount, fault⟩ | ⟨raw, -⟩)
    · exact Or.inl (.invalid refuses)
    · exact Or.inr ⟨⟨_, isCount⟩, fault⟩
    · exact absurd ⟨word, below, rfl⟩ raw
  · rintro (fault | ⟨⟨count, isCount⟩, fault⟩)
    · rcases columnFault_singleton_iff.1 fault with ⟨refuses, rfl⟩
      exact .count refuses
    · exact .counted isCount fault

theorem refused_raw_iff
    (raw : ¬ StartsAlone lines) :
    Refused origin lines cause ↔
      FirstFault Flow.Begins (fun line => ColumnFault origin line flowColumns) 0 lines cause := by
  constructor
  · rintro (- | - | ⟨-, fault⟩)
    · exact absurd ⟨_, _, rfl⟩ raw
    · exact absurd ⟨_, _, rfl⟩ raw
    · exact fault
  · exact .raw raw

end Inversion

/-! ## One line -/

theorem takes_startTime
    {name : String}
    (word : String) :
    (Column.real name).takes word ↔ (StartTime.ofText? word).isSome = true := by
  rw [StartTime.ofText?, Option.isSome_map]
  exact Column.real_takes word

theorem readFlow_eq_error_iff
    {row : Row}
    {cause : ReadError} :
    readFlow row = .error cause ↔ ColumnFault row.origin row.line flowColumns row.words cause := by
  refine number_bind_eq_error_iff takes_startTime fun start => ?_
  refine word64_bind_eq_error_iff fun size => word32_bind_eq_error_iff fun source => ?_
  refine word32_bind_eq_error_iff fun target => ?_
  constructor
  · rintro ⟨⟩
  · intro fault
    exact absurd fault not_fault_nil

/-- A flow further down is read as before, or refused further down. -/
theorem readFlow_lowered
    (row : Row) :
    readFlow row.lowered = (readFlow row).mapError .lowered := by
  simp only [readFlow, Row.word32, Row.word64, Row.number_lowered, mapError_bind]
  rfl

/-! ## The lines of flows -/

section Flows

variable
    {origin : String}
    {above : Nat}
    {lines : List (List String)}

theorem readFlows_eq_error_iff
    {cause : ReadError} :
    readFlows (numbered origin above lines) = .error cause ↔
      FirstFault Flow.Begins (fun line => ColumnFault origin line flowColumns) above lines cause :=
  mapM_numbered_eq_error_iff (fun _ _ _ => readFlow_eq_ok_iff) fun _ _ _ => readFlow_eq_error_iff

theorem readFlows_numbered_succ
    (origin : String)
    (above : Nat)
    (lines : List (List String)) :
    readFlows (numbered origin (above + 1) lines) =
      (readFlows (numbered origin above lines)).mapError .lowered := by
  rw [numbered_succ, readFlows, List.filter_map]
  exact mapM_map_eq_mapError readFlow_lowered _

end Flows

/-! ## The whole text -/

section Read

variable
    {origin text : String}
    {word : String}
    {below : List (List String)}
    {count : UInt64}
    {flows : List Flow}
    {cause : ReadError}

/-- A first line with one word is read as a count. -/
theorem parse_of_alone
    (split : wordLines text = [word] :: below) :
    parse origin text =
      (⟨origin, 1, [word]⟩ : Row).word64 0 "flow count" >>= fun declared =>
        (readFlows (numbered origin 1 below)).map fun flows => ⟨some declared, flows⟩ := by
  rw [parse, rows_eq_numbered, split]
  exact bind_congr fun declared => bind_pure_comp _ _

/-- Any other text is read from its first line on. -/
theorem parse_of_not_startsAlone
    (raw : ¬ StartsAlone (wordLines text)) :
    parse origin text =
      (readFlows (numbered origin 0 (wordLines text))).map fun flows => ⟨none, flows⟩ := by
  rw [parse, rows_eq_numbered]
  cases split : wordLines text with
  | nil => rfl
  | cons head below =>
      have several : ¬ head.length = 1 := by
        intro single
        rcases List.length_eq_one_iff.1 single with ⟨word, rfl⟩
        exact raw ⟨word, below, split⟩
      exact (if_neg several).trans (bind_pure_comp _ _)

theorem outcome_read
    (origin text : String) :
    (read origin text).outcome = (parse origin text).map Trace.flows := by
  rw [read, Logged.outcome_reportOn]

theorem outcome_read_of_not_startsAlone
    (raw : ¬ StartsAlone (wordLines text)) :
    (read origin text).outcome = readFlows (numbered origin 0 (wordLines text)) := by
  rw [outcome_read, parse_of_not_startsAlone raw]
  exact map_map_eq_self (fun _ => rfl) _

theorem outcome_read_eq_ok_iff :
    (read origin text).outcome = .ok flows ↔ Describes (wordLines text) flows := by
  by_cases alone : StartsAlone (wordLines text)
  case pos =>
    rcases alone with ⟨word, below, split⟩
    rw [outcome_read, map_eq_ok_iff, parse_of_alone split, split, describes_alone_iff]
    simp only [bind_eq_ok_iff, map_eq_ok_iff, word64_eq_ok_iff_fieldIs, readFlows_eq_ok_iff]
    constructor
    · rintro ⟨_, ⟨count, isCount, flows, begin, rfl⟩, rfl⟩
      exact ⟨⟨count, isCount⟩, begin⟩
    · rintro ⟨⟨count, isCount⟩, begin⟩
      exact ⟨_, ⟨count, isCount, flows, begin, rfl⟩, rfl⟩
  case neg =>
    rw [outcome_read_of_not_startsAlone alone, readFlows_eq_ok_iff, describes_raw_iff alone]

theorem outcome_read_eq_error_iff :
    (read origin text).outcome = .error cause ↔ Refused origin (wordLines text) cause := by
  by_cases alone : StartsAlone (wordLines text)
  case pos =>
    rcases alone with ⟨word, below, split⟩
    rw [outcome_read, map_eq_error_iff, parse_of_alone split, split, refused_alone_iff]
    simp only [bind_eq_error_iff, map_eq_error_iff, word64_eq_error_iff, word64_eq_ok_iff_fieldIs,
      readFlows_eq_error_iff, List.drop_zero, exists_and_right]
  case neg =>
    rw [outcome_read_of_not_startsAlone alone, readFlows_eq_error_iff, refused_raw_iff alone]

end Read

/-! ## Counts -/

/-- The text is this count, alone on its first line, and these lines below it. -/
def CountsAbove
    (count : UInt64)
    (below : List (List String))
    (text : String) :
    Prop :=
  ∃ word, wordLines text = [word] :: below ∧ FieldIs [word] 0 count.toNat

/-- A line on which a count stands alone, perhaps between blanks. -/
structure CountLine where
  text : String
  word : String
  count : UInt64
  inLine : '\n' ∉ text.toList
  isWord : Text.SpellsWords text.toList [word.toList]
  isCount : Decimal.SpellsNatural word.toList count.toNat

/-- A text with the line in front of it. -/
def CountLine.above
    (line : CountLine)
    (text : String) :
    String :=
  line.text ++ "\n" ++ text

theorem CountLine.countsAbove
    (line : CountLine)
    (text : String) :
    CountsAbove line.count (wordLines text) (line.above text) := by
  refine ⟨line.word, ?_, line.word, rfl, line.isCount⟩
  have characters : (line.above text).toList = line.text.toList ++ '\n' :: text.toList := by
    rw [above, String.toList_append, String.toList_append, List.append_assoc]
    rfl
  rw [wordLines, characters, Text.lines_append_newline line.inLine, List.map_cons,
    Text.spellsWords_iff.1 line.isWord, List.map_singleton, String.ofList_toList]
  rfl

section Counts

variable
    {origin text otherText : String}
    {below : List (List String)}
    {count other : UInt64}
    {flows : List Flow}

/-- A count is kept beside the flows below it. -/
theorem CountsAbove.parse_eq
    (counts : CountsAbove count below text) :
    parse origin text =
      (readFlows (numbered origin 1 below)).map fun flows => ⟨some count, flows⟩ := by
  rcases counts with ⟨word, split, isCount⟩
  have isDeclared : (⟨origin, 1, [word]⟩ : Row).word64 0 "flow count" = .ok count :=
    word64_eq_ok_iff_fieldIs.2 isCount
  rw [parse_of_alone split, isDeclared]
  rfl

/-- What is read depends on the lines below the count alone. -/
theorem CountsAbove.outcome_read_eq
    (counts : CountsAbove count below text) :
    (read origin text).outcome = readFlows (numbered origin 1 below) := by
  rw [outcome_read, counts.parse_eq]
  exact map_map_eq_self (fun _ => rfl) _

/-- A count line in front of a text without one moves what is refused one line down. -/
theorem CountLine.outcome_read_above
    (line : CountLine)
    (raw : ¬ StartsAlone (wordLines text)) :
    (read origin (line.above text)).outcome =
      (read origin text).outcome.mapError ReadError.lowered := by
  rw [(line.countsAbove text).outcome_read_eq, outcome_read_of_not_startsAlone raw,
    readFlows_numbered_succ]

theorem length_warnings_notices
    (origin : String)
    (count : UInt64)
    (flows : List Flow) :
    ((notices origin ⟨some count, flows⟩).filter Entry.isWarning).length =
      if flows.length = count.toNat then 0 else 1 := by
  rw [notices]
  dsimp only
  split
  · rfl
  · rfl

theorem quiet_notices
    (origin : String)
    (count : UInt64)
    (flows : List Flow) :
    ((notices origin ⟨some count, flows⟩).filter fun entry => !entry.isWarning) =
      [debug s!"Parsed {flows.length} flows from {origin}"] := by
  rw [notices]
  dsimp only
  split
  · rfl
  · rfl

/-- Only flows that are read are reported on. -/
theorem CountsAbove.entries_read
    (counts : CountsAbove count below text) :
    (read origin text).entries =
      match readFlows (numbered origin 1 below) with
      | .error _ => []
      | .ok flows => notices origin ⟨some count, flows⟩ := by
  cases reads : readFlows (numbered origin 1 below) with
  | error cause =>
      have fails : parse origin text = .error cause := by
        rw [counts.parse_eq, reads]
        rfl
      rw [read, Logged.entries_reportOn_of_eq_error fails]
  | ok flows =>
      have parses : parse origin text = .ok ⟨some count, flows⟩ := by
        rw [counts.parse_eq, reads]
        rfl
      rw [read, Logged.reportOn_of_eq_ok parses]

/-- Which number the count is shows in the warnings only. -/
theorem CountsAbove.quiet_entries_eq
    (counts : CountsAbove count below text)
    (otherCounts : CountsAbove other below otherText) :
    ((read origin text).entries.filter fun entry => !entry.isWarning) =
      (read origin otherText).entries.filter fun entry => !entry.isWarning := by
  rw [counts.entries_read, otherCounts.entries_read]
  cases readFlows (numbered origin 1 below) with
  | error cause => rfl
  | ok flows =>
      dsimp only
      rw [quiet_notices, quiet_notices]

/-- A count is warned of if it is not met. -/
theorem CountsAbove.length_warnings
    (counts : CountsAbove count below text)
    (reads : (read origin text).outcome = .ok flows) :
    ((read origin text).entries.filter Entry.isWarning).length =
      if flows.length = count.toNat then 0 else 1 := by
  rw [counts.outcome_read_eq] at reads
  rw [counts.entries_read, reads]
  exact length_warnings_notices origin count flows

end Counts

/--
A text spells one list of lines of words.  If its first line has exactly one word,
this is a count and the flows stand below it; if not, they begin on the first line.
A text is read exactly if its lines describe flows in this way, which are then the
result, and is refused for the first fault in them otherwise.  So any count line in
front of a text that does not start with a single word leaves the flows as they are
and moves a refusal one line down.  Above the same lines, two counts give the same
flows or the same refusal; only a count that is not met is worth a warning.
-/
theorem first_line_alone_is_a_count
    (origin : String) :
    (∀ text lines, Spells text lines ↔ wordLines text = lines) ∧
      (∀ text flows,
        (read origin text).outcome = .ok flows ↔ Describes (wordLines text) flows) ∧
      (∀ text cause,
        (read origin text).outcome = .error cause ↔ Refused origin (wordLines text) cause) ∧
      (∀ (line : CountLine) text,
        ¬ StartsAlone (wordLines text) →
          (read origin (line.above text)).outcome =
            (read origin text).outcome.mapError ReadError.lowered) ∧
      ∀ count other below text otherText,
        CountsAbove count below text → CountsAbove other below otherText →
          (read origin text).outcome = (read origin otherText).outcome ∧
            ((read origin text).entries.filter fun entry => !entry.isWarning) =
              ((read origin otherText).entries.filter fun entry => !entry.isWarning) ∧
            ∀ flows,
              (read origin text).outcome = .ok flows →
                ((read origin text).entries.filter Entry.isWarning).length =
                  if flows.length = count.toNat then 0 else 1 := by
  refine ⟨fun text lines => spells_iff, fun text flows => outcome_read_eq_ok_iff,
    fun text cause => outcome_read_eq_error_iff, ?_, ?_⟩
  · intro line text raw
    exact line.outcome_read_above raw
  · intro count other below text otherText counts otherCounts
    refine ⟨?_, counts.quiet_entries_eq otherCounts, fun flows => counts.length_warnings⟩
    rw [counts.outcome_read_eq, otherCounts.outcome_read_eq]

/-- A blank first line, line ends of both kinds, a word behind the fields. -/
def blankFirst :
    String :=
  " \t\n0.5 1000 1 +2 late\r\n\n1e-3\t20000\t3\t0\n"

/-- Five, with a sign, between blanks and in front of a carriage return. -/
def signedFive :
    CountLine :=
  ⟨" +5\t\r", "+5", 5, by decide, Text.spellsWords_iff.2 rfl, Decimal.unsigned?_eq_some_iff.1 rfl⟩

theorem blankFirst_first_line_alone_is_a_count :
    ∃ flows,
      Describes (wordLines blankFirst) flows ∧
        (flows.map fun flow => (flow.start.text, flow.size, flow.source, flow.target)) =
            [("0.5", 1000, 1, 2), ("1e-3", 20000, 3, 0)] ∧
          (read unnamed (signedFive.above blankFirst)).outcome = .ok flows ∧
            ((read unnamed (signedFive.above blankFirst)).entries.filter
                Entry.isWarning).length = 1 ∧
              (read unnamed (signedFive.above (blankFirst ++ "2\n"))).outcome =
                .error (.missingField unnamed 6 "flow size") := by
  rcases first_line_alone_is_a_count unnamed with ⟨-, describes, -, moved, counts⟩
  have reads :
      ∃ first second : StartTime,
        (read unnamed blankFirst).outcome =
            .ok [⟨first, 1000, 1, 2⟩, ⟨second, 20000, 3, 0⟩] ∧
          first.text = "0.5" ∧ second.text = "1e-3" :=
    ⟨_, _, rfl, rfl, rfl⟩
  -- The seconds play no part from here on.
  rcases reads with ⟨first, second, reads, isFirst, isSecond⟩
  have raw : ¬ StartsAlone (wordLines blankFirst) := by
    rintro ⟨word, below, split⟩
    cases split
  have rawBelow : ¬ StartsAlone (wordLines (blankFirst ++ "2\n")) := by
    rintro ⟨word, below, split⟩
    cases split
  have readsAbove :
      (read unnamed (signedFive.above blankFirst)).outcome =
        .ok [⟨first, 1000, 1, 2⟩, ⟨second, 20000, 3, 0⟩] := by
    rw [moved signedFive blankFirst raw, reads]
    rfl
  have refuses :
      (read unnamed (blankFirst ++ "2\n")).outcome =
        .error (.missingField unnamed 5 "flow size") :=
    rfl
  have isCount := signedFive.countsAbove blankFirst
  refine ⟨_, (describes _ _).1 reads, ?_, readsAbove, ?_, ?_⟩
  · simp only [List.map_cons, List.map_nil, isFirst, isSecond]
  · exact (counts _ _ _ _ _ isCount isCount).2.2 _ readsAbove
  · rw [moved signedFive _ rawBelow, refuses]
    rfl

end NetRun.Trace
