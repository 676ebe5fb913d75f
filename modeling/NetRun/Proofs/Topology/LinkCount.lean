import NetRun.Proofs.Text.Pieces
import NetRun.Proofs.Topology.EdgeList

/-!
# The link count of an edge list

The link count is read before the links and need not be met by them.  If a text
is read under one count, it is read under any other that can be laid out, with
the same nodes and links or the same refusal; only a warning tells the counts
apart.  A count that cannot be laid out crashes the reading, because room for
the links is asked for before any of them is seen.
-/

namespace NetRun

open NetRun.Log

namespace EdgeList

open NetRun.Table

/-! ## A text around its link count -/

/--
A text without its link count: the first line, the blanks in front of the count
on the second, and what follows it.
-/
structure CountFrame where
  first : List Char
  lead : List Char
  rest : List Char
  first_inLine : '\n' ∉ first
  lead_inLine : '\n' ∉ lead
  lead_blank : ∀ c ∈ lead, Text.isBlank c = true
  rest_boundary : Text.atBoundary rest = true

namespace CountFrame

/-- The text with this link count. -/
def fill
    (frame : CountFrame)
    (field : String) :
    String :=
  String.ofList (frame.first ++ '\n' :: (frame.lead ++ (field.toList ++ frame.rest)))

/-- The row of the node count. -/
def head
    (frame : CountFrame)
    (origin : String) :
    Row :=
  Row.ofLine origin 1 frame.first

/-- The rows of the links. -/
def below
    (frame : CountFrame)
    (origin : String) :
    List Row :=
  ((Text.lines frame.rest).tail.zipIdx 2).map fun (line, index) =>
    Row.ofLine origin (index + 1) line

/-- The link count stands first on the second row, and no other row depends on it. -/
theorem rows_fill
    (frame : CountFrame)
    (origin : String)
    {field : String}
    (isField : IsField field) :
    ∃ others,
      rows origin (frame.fill field) =
        frame.head origin :: ⟨origin, 2, field :: others⟩ :: frame.below origin := by
  have leadField : frame.lead ++ field.toList ≠ [] :=
    List.append_ne_nil_of_right_ne_nil _ isField.nonempty
  have inLine : '\n' ∉ frame.lead ++ field.toList := by
    intro listed
    rcases List.mem_append.1 listed with inLead | inField
    · exact frame.lead_inLine inLead
    · exact Bool.noConfusion (isField.solid '\n' inField)
  have secondRow :
      Row.ofLine origin 2 (frame.lead ++ field.toList ++ (Text.lines frame.rest).headD []) =
        ⟨origin, 2,
          field :: (Text.words ((Text.lines frame.rest).headD [])).map String.ofList⟩ := by
    rw [Row.ofLine, List.append_assoc, Text.words_append_of_blank frame.lead_blank,
      Text.words_append isField.nonempty isField.solid
        (Text.atBoundary_headD_lines frame.rest_boundary),
      List.map_cons, String.ofList_toList]
  refine ⟨(Text.words ((Text.lines frame.rest).headD [])).map String.ofList, ?_⟩
  rw [rows, fill, String.toList_ofList, Text.lines_append_newline frame.first_inLine,
    ← List.append_assoc, Text.lines_append leadField inLine, List.zipIdx_cons, List.zipIdx_cons,
    List.map_cons, List.map_cons]
  exact congrArg (fun row => frame.head origin :: row :: frame.below origin) secondRow

/-- What a text gives under a link count: the count is only laid out and kept. -/
theorem parse_fill
    (frame : CountFrame)
    (origin : String)
    {field : String}
    {count : UInt64}
    (reads : Decimal.word64? field = some count) :
    parse origin (frame.fill field) =
      refusing ((frame.head origin).word32 0 "node count") >>= fun nodes =>
        reserve count.toNat linkBytes >>= fun _ =>
          refusing (readLinks nodes (frame.below origin)) >>= fun links =>
            pure ⟨nodes, count, links⟩ := by
  rcases frame.rows_fill origin (isField_of_word64? reads) with ⟨others, rowsOf⟩
  have isCount :
      (⟨origin, 2, field :: others⟩ : Row).word64 0 "link count" = .ok count :=
    Row.number_eq_ok rfl reads "link count"
  rw [parse, rowsOf]
  dsimp only
  congr
  funext nodes
  rw [readBody, isCount]
  rfl

/-- If the link count can be laid out, it has no say in what is read below it. -/
theorem parse_fill_of_room
    (frame : CountFrame)
    (origin : String)
    {field : String}
    {count : UInt64}
    (reads : Decimal.word64? field = some count)
    {nodes : UInt32}
    (isNodes : (frame.head origin).word32 0 "node count" = .ok nodes)
    (room : count.toNat * linkBytes ≤ addressable) :
    parse origin (frame.fill field) =
      refusing (readLinks nodes (frame.below origin)) >>= fun links =>
        pure ⟨nodes, count, links⟩ := by
  have reserved : (reserve count.toNat linkBytes : Except (Stop ReadError) Unit) = .ok () :=
    reserve_eq_ok_iff.2 room
  rw [frame.parse_fill origin reads, isNodes, reserved]
  rfl

end CountFrame

/-- The first two rows are those of the first two lines. -/
theorem exists_lines_of_rows
    {origin text : String}
    {head second : Row}
    {others : List Row}
    (rowsOf : rows origin text = head :: second :: others) :
    ∃ first line below,
      Text.lines text.toList = first :: line :: below ∧
        Row.ofLine origin 1 first = head ∧ Row.ofLine origin 2 line = second := by
  rw [rows] at rowsOf
  cases lines : Text.lines text.toList with
  | nil =>
      rw [lines] at rowsOf
      cases rowsOf
  | cons first below =>
      cases below with
      | nil =>
          rw [lines] at rowsOf
          cases rowsOf
      | cons line below =>
          rw [lines] at rowsOf
          cases rowsOf
          exact ⟨first, line, below, rfl, rfl, rfl⟩

/-- A text whose second row has a first word is the frame of that word, filled with it. -/
theorem exists_fill_of_rows
    {origin text : String}
    {head second : Row}
    {others : List Row}
    (rowsOf : rows origin text = head :: second :: others)
    {field : String}
    (stands : second.words[0]? = some field) :
    ∃ frame : CountFrame, text = frame.fill field ∧ frame.head origin = head := by
  rcases exists_lines_of_rows rowsOf with ⟨first, line, below, lines, rfl, rfl⟩
  rw [Row.ofLine] at stands
  cases words : Text.words line with
  | nil =>
      rw [words] at stands
      cases stands
  | cons word later =>
      rw [words] at stands
      cases stands
      rcases Text.exists_of_lines_eq_cons lines with
        ⟨firstInLine, ⟨-, impossible⟩ | ⟨rest, whole, belowLines⟩⟩
      · cases impossible
      rcases Text.exists_append_of_lines_eq_cons belowLines with ⟨inLine, ending, rfl, closed⟩
      rcases Text.exists_of_words_eq_cons words with ⟨lead, behind, rfl, blank, boundary⟩
      have leadInLine : '\n' ∉ lead := fun listed => inLine (List.mem_append_left _ listed)
      refine ⟨⟨first, lead, behind ++ ending, firstInLine, leadInLine, blank,
        Text.atBoundary_append boundary closed⟩, ?_, rfl⟩
      rw [List.append_assoc, List.append_assoc] at whole
      rw [CountFrame.fill, String.toList_ofList, ← whole, String.ofList_toList]

/-! ## Counts that cannot be laid out -/

/-- Reading crashes exactly if the node count can be read and the link count cannot be laid out. -/
theorem CountFrame.parse_fill_eq_crashed_iff
    (frame : CountFrame)
    (origin : String)
    {field : String}
    {count : UInt64}
    (reads : Decimal.word64? field = some count)
    {crash : Crash} :
    parse origin (frame.fill field) = .error (.crashed crash) ↔
      crash = .capacityOverflow ∧ addressable < count.toNat * linkBytes ∧
        ∃ nodes, (frame.head origin).word32 0 "node count" = .ok nodes := by
  rw [frame.parse_fill origin reads]
  simp only [bind_eq_error_iff, refusing_eq_error_iff, refusing_eq_ok_iff, reserve_eq_error_iff]
  constructor
  · rintro (⟨_, -, impossible⟩ | ⟨nodes, isNodes, crashes⟩)
    · cases impossible
    · rcases crashes with ⟨large, same⟩ | ⟨_, -, ⟨_, -, impossible⟩ | ⟨_, -, impossible⟩⟩
      · cases same
        exact ⟨rfl, large, nodes, isNodes⟩
      · cases impossible
      · cases impossible
  · rintro ⟨rfl, large, nodes, isNodes⟩
    exact Or.inr ⟨nodes, isNodes, Or.inl ⟨large, rfl⟩⟩

/-- A text that crashes the reading has a link count. -/
theorem exists_fill_of_parse_eq_crashed
    {origin text : String}
    {crash : Crash}
    (crashes : parse origin text = .error (.crashed crash)) :
    ∃ (frame : CountFrame) (field : String) (count : UInt64),
      text = frame.fill field ∧ Decimal.word64? field = some count := by
  rw [parse] at crashes
  split at crashes
  case h_1 => cases crashes
  case h_2 head rest rowsOf =>
    rcases bind_eq_error_iff.1 crashes with refuses | ⟨nodes, -, body⟩
    · rcases refusing_eq_error_iff.1 refuses with ⟨_, -, impossible⟩
      cases impossible
    · cases rest with
      | nil => cases body
      | cons second rows =>
          rw [readBody] at body
          rcases bind_eq_error_iff.1 body with refuses | ⟨count, isCount, -⟩
          · rcases refusing_eq_error_iff.1 refuses with ⟨_, -, impossible⟩
            cases impossible
          · rcases Row.number_eq_ok_iff.1 (refusing_eq_ok_iff.1 isCount) with
              ⟨field, stands, reads⟩
            rcases exists_fill_of_rows rowsOf stands with ⟨frame, whole, -⟩
            exact ⟨frame, field, count, whole, reads⟩

/-! ## Counts that can be laid out -/

/-- Unless one of them crashes, the readings under two link counts end alike. -/
theorem CountFrame.endAlike_parse_fill
    (frame : CountFrame)
    (origin : String)
    {field otherField : String}
    {count otherCount : UInt64}
    (reads : Decimal.word64? field = some count)
    (otherReads : Decimal.word64? otherField = some otherCount)
    (calm : ∀ crash, parse origin (frame.fill field) ≠ .error (.crashed crash))
    (otherCalm : ∀ crash, parse origin (frame.fill otherField) ≠ .error (.crashed crash)) :
    EndAlike
      (fun topology other =>
        topology.declaredLinks = count ∧ other.declaredLinks = otherCount ∧
          topology.nodes = other.nodes ∧ topology.links = other.links)
      (parse origin (frame.fill field)) (parse origin (frame.fill otherField)) := by
  cases isNodes : (frame.head origin).word32 0 "node count" with
  | error cause =>
      rw [frame.parse_fill origin reads, frame.parse_fill origin otherReads, isNodes]
      exact .failed _
  | ok nodes =>
      have room {field count} (reads : Decimal.word64? field = some count)
          (calm : ∀ crash, parse origin (frame.fill field) ≠ .error (.crashed crash)) :
          count.toNat * linkBytes ≤ addressable := by
        apply Nat.le_of_not_lt
        intro large
        exact calm _
          ((frame.parse_fill_eq_crashed_iff origin reads).2 ⟨rfl, large, nodes, isNodes⟩)
      rw [frame.parse_fill_of_room origin reads isNodes (room reads calm),
        frame.parse_fill_of_room origin otherReads isNodes (room otherReads otherCalm)]
      apply EndAlike.bind (EndAlike.refl (fun _ => rfl) _)
      rintro links _ rfl
      apply EndAlike.succeeded
      exact ⟨rfl, rfl, rfl, rfl⟩

/-- The only thing to warn of is a link count that is not met. -/
theorem length_warnings_notices
    (origin : String)
    (topology : Topology) :
    ((notices origin topology).filter Entry.isWarning).length =
      if topology.links.length = topology.declaredLinks.toNat then 0 else 1 := by
  rw [notices]
  split
  · rfl
  · rfl

/-- A reading that succeeds reports what there is to report about its topology. -/
theorem entries_read
    {origin text : String}
    {topology : Topology}
    (reads : (read origin text).outcome = .ok topology) :
    (read origin text).entries = notices origin topology := by
  rw [outcome_read] at reads
  rw [read, Logged.reportOn_of_eq_ok reads]

/--
Reading a text crashes for one reason only: its link count can be read and its
links cannot be laid out.  Two texts that differ in nothing but their link
counts give the same nodes and links, or are refused for one cause, unless a
count crashes.  A count that is not met is worth one warning and nothing else is.
-/
theorem link_count_only_asks_for_room
    (origin : String) :
    (∀ text crash,
      (read origin text).outcome = .error (.crashed crash) →
        ∃ (frame : CountFrame) (field : String) (count : UInt64),
          text = frame.fill field ∧ Decimal.word64? field = some count) ∧
      (∀ (frame : CountFrame) field count,
        Decimal.word64? field = some count →
          ∀ crash,
            (read origin (frame.fill field)).outcome = .error (.crashed crash) ↔
              crash = .capacityOverflow ∧ 2 ^ 63 - 1 < 24 * count.toNat ∧
                ∃ nodes, (frame.head origin).word32 0 "node count" = .ok nodes) ∧
      (∀ (frame : CountFrame) field otherField count otherCount,
        Decimal.word64? field = some count →
          Decimal.word64? otherField = some otherCount →
            (∀ crash, (read origin (frame.fill field)).outcome ≠ .error (.crashed crash)) →
              (∀ crash,
                (read origin (frame.fill otherField)).outcome ≠ .error (.crashed crash)) →
                EndAlike
                  (fun topology other =>
                    topology.declaredLinks = count ∧ other.declaredLinks = otherCount ∧
                      topology.nodes = other.nodes ∧ topology.links = other.links)
                  (read origin (frame.fill field)).outcome
                  (read origin (frame.fill otherField)).outcome) ∧
      ∀ text topology,
        (read origin text).outcome = .ok topology →
          ((read origin text).entries.filter Entry.isWarning).length =
            if topology.links.length = topology.declaredLinks.toNat then 0 else 1 := by
  simp only [outcome_read]
  refine ⟨?_, ?_, ?_, ?_⟩
  · intro text crash crashes
    exact exists_fill_of_parse_eq_crashed crashes
  · intro frame field count reads crash
    rw [frame.parse_fill_eq_crashed_iff origin reads, Nat.mul_comm]
    rfl
  · intro frame field otherField count otherCount reads otherReads calm otherCalm
    exact frame.endAlike_parse_fill origin reads otherReads calm otherCalm
  · intro text topology reads
    rw [← outcome_read] at reads
    rw [entries_read reads, length_warnings_notices]

/-- Two nodes and a link between them, without a link count. -/
def pairFrame :
    CountFrame where
  first := ['2']
  lead := []
  rest := "\n0\t1\t10\t1\n".toList
  first_inLine := by decide
  lead_inLine := by decide
  lead_blank _ listed := absurd listed List.not_mem_nil
  rest_boundary := rfl

theorem pair_link_count_only_asks_for_room :
    pairFrame.fill "1" = "2\n1\n0\t1\t10\t1\n" ∧
      ∃ other,
        (read unnamed (pairFrame.fill "+384307168202282325")).outcome = .ok other ∧
          other.nodes = 2 ∧ other.links = [⟨0, 1, 10, 1⟩] ∧
            ((read unnamed (pairFrame.fill "+384307168202282325")).entries.filter
              Entry.isWarning).length = 1 ∧
              (read unnamed (pairFrame.fill "384307168202282326")).outcome =
                .error (.crashed .capacityOverflow) := by
  rcases link_count_only_asks_for_room unnamed with ⟨-, crashes, alike, warns⟩
  have met : (read unnamed (pairFrame.fill "1")).outcome = .ok (.ofLinks 2 [⟨0, 1, 10, 1⟩]) := rfl
  have most : Decimal.word64? "+384307168202282325" = some 384307168202282325 := rfl
  have calm crash :
      (read unnamed (pairFrame.fill "+384307168202282325")).outcome ≠ .error (.crashed crash) := by
    intro impossible
    have large := ((crashes pairFrame _ _ most crash).1 impossible).2.1
    revert large
    decide
  have metCalm crash : (read unnamed (pairFrame.fill "1")).outcome ≠ .error (.crashed crash) := by
    rw [met]
    intro impossible
    cases impossible
  rcases (alike pairFrame "1" _ 1 _ rfl most metCalm calm).exists_of_eq_ok met with
    ⟨other, reads, -, declared, nodes, links⟩
  refine ⟨rfl, other, reads, nodes.symm, links.symm, ?_, ?_⟩
  · rw [warns _ other reads, ← links, declared]
    rfl
  · exact (crashes pairFrame "384307168202282326" 384307168202282326 rfl _).2
      ⟨rfl, by decide, 2, rfl⟩

/-- A link count is enough to crash the reading of a text that is read under another. -/
theorem large_link_count_crashes :
    Decimal.word64? "18446744073709551615" = some 18446744073709551615 ∧
      pairFrame.fill "18446744073709551615" = "2\n18446744073709551615\n0\t1\t10\t1\n" ∧
        pairFrame.fill "1" = "2\n1\n0\t1\t10\t1\n" ∧
          (read unnamed "2\n1\n0\t1\t10\t1\n").outcome = .ok (.ofLinks 2 [⟨0, 1, 10, 1⟩]) ∧
            (read unnamed "2\n18446744073709551615\n0\t1\t10\t1\n").outcome =
              .error (.crashed .capacityOverflow) :=
  ⟨rfl, rfl, rfl, rfl, rfl⟩

end EdgeList

end NetRun
