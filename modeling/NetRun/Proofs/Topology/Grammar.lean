import NetRun.Proofs.Table.Columns
import NetRun.Proofs.Topology.EdgeList

/-!
# The texts of edge lists

A text is an edge list if its first two lines begin with a node count and a link
count and every later line is blank or begins with the four fields of a link
inside the network.  Words behind these are ignored.  Any other text is refused
for its first fault, line by line and field by field; the ends of a link are
looked at once all of its fields have been read.  Nothing behind the line of the
first fault has a say.
-/

namespace NetRun.EdgeList

open NetRun.Table

/-! ## Texts that are read -/

/-- The first four words of a line are the fields of a link. -/
structure BeginsWithLink
    (words : List String)
    (link : Link) :
    Prop where
  first : FieldIs words 0 link.first.toNat
  second : FieldIs words 1 link.second.toNat
  bandwidth : FieldIs words 2 link.bandwidth.toNat
  delay : FieldIs words 3 link.delay.toNat

/-- A line begins with a link whose ends are nodes of the network. -/
structure BeginsWithLinkBelow
    (nodes : UInt32)
    (words : List String)
    (link : Link) :
    Prop where
  fields : BeginsWithLink words link
  first_lt : link.first < nodes
  second_lt : link.second < nodes

/-- The lines tell of a network: its two counts, then a link on each line that is not blank. -/
inductive Describes :
    List (List String) → Topology → Prop where
  | intro {head second : List String} {below : List (List String)} {topology : Topology} :
      FieldIs head 0 topology.nodes.toNat → FieldIs second 0 topology.declaredLinks.toNat →
        List.Forall₂ (BeginsWithLinkBelow topology.nodes)
            (below.filter fun words => !words.isEmpty) topology.links →
          Describes (head :: second :: below) topology

/-- If the text gets as far as a link count, that many links can be laid out. -/
def Roomy
    (lines : List (List String)) :
    Prop :=
  ∀ head second below (nodes : UInt32) (count : UInt64),
    lines = head :: second :: below → FieldIs head 0 nodes.toNat →
      FieldIs second 0 count.toNat → 24 * count.toNat ≤ 2 ^ 63 - 1

/-! ## Texts that are refused -/

/-- The columns of a link. -/
def linkColumns :
    List Column :=
  [.word32 "node1", .word32 "node2", .word64 "bandwidth", .word64 "delay"]

/-- The refusal of a line: for its first bad field or, if there is none, its first end outside. -/
inductive LinkFault
    (origin : String)
    (nodes : UInt32)
    (line : Nat)
    (words : List String) :
    ReadError → Prop where
  | field {cause : ReadError} :
      ColumnFault origin line linkColumns words cause → LinkFault origin nodes line words cause
  | first {link : Link} :
      BeginsWithLink words link → ¬ link.first < nodes →
        LinkFault origin nodes line words (.nodeOutOfRange origin line link.first nodes)
  | second {link : Link} :
      BeginsWithLink words link → link.first < nodes → ¬ link.second < nodes →
        LinkFault origin nodes line words (.nodeOutOfRange origin line link.second nodes)

/-- The refusal of lines that tell of no network: for the first fault in them. -/
inductive Refused
    (origin : String) :
    List (List String) → ReadError → Prop where
  | noLine :
      Refused origin [] (.empty origin "a node count")
  | nodeCount {head : List String} {below : List (List String)} {cause : ReadError} :
      ColumnFault origin 1 [.word32 "node count"] head cause → Refused origin (head :: below) cause
  | noSecondLine {head : List String} {nodes : UInt32} :
      FieldIs head 0 nodes.toNat →
        Refused origin [head] (.missingField origin 2 "link count")
  | linkCount {head second : List String} {below : List (List String)} {nodes : UInt32}
      {cause : ReadError} :
      FieldIs head 0 nodes.toNat → ColumnFault origin 2 [.word64 "link count"] second cause →
        Refused origin (head :: second :: below) cause
  | link {head second : List String} {below : List (List String)} {nodes : UInt32}
      {count : UInt64} {cause : ReadError} :
      FieldIs head 0 nodes.toNat → FieldIs second 0 count.toNat →
        FirstFault (BeginsWithLinkBelow nodes) (LinkFault origin nodes) 2 below cause →
          Refused origin (head :: second :: below) cause

/-! ## One line -/

/-- The link of a row, wherever its ends are. -/
def fieldsOfLink
    (row : Row) :
    Except ReadError Link := do
  let first ← row.word32 0 "node1"
  let second ← row.word32 1 "node2"
  let bandwidth ← row.word64 2 "bandwidth"
  let delay ← row.word64 3 "delay"
  return ⟨first, second, bandwidth, delay⟩

/-- The ends of a link are looked at behind its fields. -/
theorem readLink_eq
    (nodes : UInt32)
    (row : Row) :
    readLink nodes row =
      fieldsOfLink row >>= fun link =>
        declaredNode nodes row link.first >>= fun _ =>
          declaredNode nodes row link.second >>= fun _ => pure link := by
  simp only [readLink, fieldsOfLink, bind_assoc, pure_bind]

theorem fieldsOfLink_eq_ok_iff
    {row : Row}
    {link : Link} :
    fieldsOfLink row = .ok link ↔ BeginsWithLink row.words link := by
  simp only [fieldsOfLink, bind_eq_ok_iff, word32_eq_ok_iff_fieldIs, word64_eq_ok_iff_fieldIs,
    pure_eq_ok_iff]
  constructor
  · rintro ⟨_, first, _, second, _, bandwidth, _, delay, rfl⟩
    exact ⟨first, second, bandwidth, delay⟩
  · rintro ⟨first, second, bandwidth, delay⟩
    exact ⟨_, first, _, second, _, bandwidth, _, delay, rfl⟩

theorem fieldsOfLink_eq_error_iff
    {row : Row}
    {cause : ReadError} :
    fieldsOfLink row = .error cause ↔
      ColumnFault row.origin row.line linkColumns row.words cause := by
  refine word32_bind_eq_error_iff fun first => word32_bind_eq_error_iff fun second => ?_
  refine word64_bind_eq_error_iff fun bandwidth => word64_bind_eq_error_iff fun delay => ?_
  constructor
  · rintro ⟨⟩
  · intro fault
    exact absurd fault not_fault_nil

theorem declaredNode_eq_error_iff
    {nodes : UInt32}
    {row : Row}
    {node : NodeId}
    {cause : ReadError} :
    declaredNode nodes row node = .error cause ↔
      ¬ node < nodes ∧ cause = .nodeOutOfRange row.origin row.line node nodes := by
  rw [declaredNode]
  split
  case isTrue inside => simp [inside]
  case isFalse outside => simp [outside, eq_comm]

/-- A link is read exactly from a line that begins with it, if it stays in the network. -/
theorem readLink_eq_ok_iff
    {nodes : UInt32}
    {row : Row}
    {link : Link} :
    readLink nodes row = .ok link ↔ BeginsWithLinkBelow nodes row.words link := by
  simp only [readLink_eq, bind_eq_ok_iff, fieldsOfLink_eq_ok_iff, declaredNode_eq_ok_iff,
    pure_eq_ok_iff]
  constructor
  · rintro ⟨_, fields, _, first, _, second, rfl⟩
    exact ⟨fields, first, second⟩
  · rintro ⟨fields, first, second⟩
    exact ⟨link, fields, (), first, (), second, rfl⟩

theorem readLink_eq_error_iff
    {nodes : UInt32}
    {row : Row}
    {cause : ReadError} :
    readLink nodes row = .error cause ↔ LinkFault row.origin nodes row.line row.words cause := by
  simp only [readLink_eq, bind_eq_error_iff, fieldsOfLink_eq_ok_iff, fieldsOfLink_eq_error_iff,
    declaredNode_eq_ok_iff, declaredNode_eq_error_iff]
  constructor
  · rintro (fault | ⟨link, fields, ⟨outside, rfl⟩ | ⟨_, first, ⟨outside, rfl⟩ | ⟨_, _, ⟨⟩⟩⟩⟩)
    · exact .field fault
    · exact .first fields outside
    · exact .second fields first outside
  · rintro (fault | ⟨fields, outside⟩ | ⟨fields, first, outside⟩)
    · exact Or.inl fault
    · exact Or.inr ⟨_, fields, Or.inl ⟨outside, rfl⟩⟩
    · exact Or.inr ⟨_, fields, Or.inr ⟨(), first, Or.inl ⟨outside, rfl⟩⟩⟩

theorem LinkFault.line?_eq
    {origin : String}
    {nodes : UInt32}
    {line : Nat}
    {words : List String}
    {cause : ReadError}
    (fault : LinkFault origin nodes line words cause) :
    cause.line? = some line := by
  cases fault with
  | field fault => exact fault.line?_eq
  | first => rfl
  | second => rfl

/-! ## The whole text -/

section Parse

variable
    {origin text : String}

/-- Reading a text whose first line is given starts with the node count. -/
theorem parse_of_wordLines_eq_cons
    {head : List String}
    {below : List (List String)}
    (split : wordLines text = head :: below) :
    parse origin text =
      refusing ((⟨origin, 1, head⟩ : Row).word32 0 "node count") >>= fun nodes =>
        readBody origin nodes (numbered origin 1 below) := by
  rw [parse, rows_eq_numbered, split]
  rfl

theorem parse_eq_ok_iff
    (room : Roomy (wordLines text))
    {topology : Topology} :
    parse origin text = .ok topology ↔ Describes (wordLines text) topology := by
  rcases split : wordLines text with _ | ⟨head, _ | ⟨second, below⟩⟩
  · rw [parse, rows_eq_numbered, split]
    constructor
    · rintro ⟨⟩
    · rintro ⟨⟩
  · rw [parse_of_wordLines_eq_cons split, bind_eq_ok_iff]
    constructor
    · rintro ⟨nodes, -, ⟨⟩⟩
    · rintro ⟨⟩
  · rw [split] at room
    rw [parse_of_wordLines_eq_cons split, numbered_cons]
    simp only [readBody, readLinks, bind_eq_ok_iff, refusing_eq_ok_iff, reserve_eq_ok_iff,
      pure_eq_ok_iff, word32_eq_ok_iff_fieldIs, word64_eq_ok_iff_fieldIs,
      mapM_numbered_eq_ok_iff fun _ _ _ => readLink_eq_ok_iff]
    constructor
    · rintro ⟨nodes, isNodes, count, isCount, _, -, links, areLinks, rfl⟩
      exact .intro isNodes isCount areLinks
    · rintro ⟨isNodes, isCount, areLinks⟩
      refine ⟨_, isNodes, _, isCount, (), ?_, _, areLinks, rfl⟩
      rw [Nat.mul_comm]
      exact room _ _ _ _ _ rfl isNodes isCount

theorem parse_eq_error_iff
    (room : Roomy (wordLines text))
    {stop : Stop ReadError} :
    parse origin text = .error stop ↔
      ∃ cause, stop = .refused cause ∧ Refused origin (wordLines text) cause := by
  rcases split : wordLines text with _ | ⟨head, _ | ⟨second, below⟩⟩
  · rw [parse, rows_eq_numbered, split]
    constructor
    · rintro ⟨⟩
      exact ⟨_, rfl, .noLine⟩
    · rintro ⟨_, rfl, ⟨⟩⟩
      rfl
  · rw [parse_of_wordLines_eq_cons split]
    simp only [numbered_nil, readBody, bind_eq_error_iff, refusing_eq_ok_iff,
      refusing_eq_error_iff, word32_eq_ok_iff_fieldIs, word32_eq_error_iff]
    constructor
    · rintro (⟨cause, fault, rfl⟩ | ⟨nodes, isNodes, ⟨⟩⟩)
      · exact ⟨cause, rfl, .nodeCount fault⟩
      · exact ⟨_, rfl, .noSecondLine isNodes⟩
    · rintro ⟨cause, rfl, _ | fault | isNodes⟩
      · exact Or.inl ⟨cause, fault, rfl⟩
      · exact Or.inr ⟨_, isNodes, rfl⟩
  · rw [split] at room
    rw [parse_of_wordLines_eq_cons split, numbered_cons]
    simp only [readBody, readLinks, bind_eq_error_iff, refusing_eq_ok_iff, refusing_eq_error_iff,
      reserve_eq_ok_iff, reserve_eq_error_iff, word32_eq_ok_iff_fieldIs, word32_eq_error_iff,
      word64_eq_ok_iff_fieldIs, word64_eq_error_iff,
      mapM_numbered_eq_error_iff (fun _ _ _ => readLink_eq_ok_iff) fun _ _ _ =>
        readLink_eq_error_iff]
    constructor
    · rintro (⟨cause, fault, rfl⟩ | ⟨nodes, isNodes, ⟨cause, fault, rfl⟩ | ⟨count, isCount, rest⟩⟩)
      · exact ⟨cause, rfl, .nodeCount fault⟩
      · exact ⟨cause, rfl, .linkCount isNodes fault⟩
      · rcases rest with ⟨large, -⟩ | ⟨_, -, ⟨cause, fault, rfl⟩ | ⟨_, _, ⟨⟩⟩⟩
        · rw [Nat.mul_comm] at large
          exact absurd (room _ _ _ _ _ rfl isNodes isCount) (Nat.not_le_of_gt large)
        · exact ⟨cause, rfl, .link isNodes isCount fault⟩
    · rintro ⟨cause, rfl, _ | fault | _ | ⟨isNodes, fault⟩ | ⟨isNodes, isCount, fault⟩⟩
      · exact Or.inl ⟨cause, fault, rfl⟩
      · exact Or.inr ⟨_, isNodes, Or.inl ⟨cause, fault, rfl⟩⟩
      · refine Or.inr ⟨_, isNodes, Or.inr ⟨_, isCount, Or.inr ⟨(), ?_, Or.inl ⟨cause, fault, rfl⟩⟩⟩⟩
        rw [Nat.mul_comm]
        exact room _ _ _ _ _ rfl isNodes isCount

end Parse

/-! ## What stands behind a fault -/

section Behind

variable
    {origin : String}
    {lines : List (List String)}
    {cause : ReadError}
    {line : Nat}

/--
A fault that is found on a line of the text is the first one of every text that
agrees up to this line.
-/
theorem Refused.exists_split
    (refused : Refused origin lines cause)
    (isLine : cause.line? = some line)
    (present : line ≤ lines.length) :
    ∃ start behind,
      lines = start ++ behind ∧ start.length = line ∧
        ∀ others,
          Refused origin (start ++ others) cause ∧ (Roomy lines → Roomy (start ++ others)) := by
  cases refused with
  | noLine => cases isLine
  | noSecondLine =>
      cases isLine
      exact absurd present (Nat.not_succ_le_self 1)
  | @nodeCount head below _ fault =>
      rw [fault.line?_eq, Option.some.injEq] at isLine
      -- Without a node count, no room is asked for.
      refine ⟨[head], below, rfl, isLine, fun others => ⟨.nodeCount fault, fun _ => ?_⟩⟩
      rintro _ second rest nodes count ⟨⟩ isNodes
      exact absurd isNodes (fault.not_fieldIs nodes.toNat_lt)
  | @linkCount head second below nodes _ isNodes fault =>
      rw [fault.line?_eq, Option.some.injEq] at isLine
      refine ⟨[head, second], below, rfl, isLine,
        fun others => ⟨.linkCount isNodes fault, fun _ => ?_⟩⟩
      rintro _ _ rest nodes count ⟨⟩ - isCount
      exact absurd isCount (fault.not_fieldIs count.toNat_lt)
  | @link head second below nodes count _ isNodes isCount fault =>
      rcases fault.exists_split fun _ _ _ => LinkFault.line?_eq with
        ⟨start, behind, rfl, atLine, later⟩
      rw [atLine, Option.some.injEq] at isLine
      refine ⟨head :: second :: start, behind, rfl, ?_,
        fun others => ⟨.link isNodes isCount (later others), fun room => ?_⟩⟩
      · rw [← isLine, List.length_cons, List.length_cons]
        omega
      · rintro _ _ rest nodes count ⟨⟩ isNodes isCount
        exact room _ _ _ _ _ rfl isNodes isCount

end Behind

/--
A text spells one list of lines of words.  If its link count can be laid out, it
is read exactly if these lines describe a topology, which is then the result.
Otherwise it is refused for the first fault in them, and a text that agrees up to
the line of that fault is refused alike.
-/
theorem reading_ends_at_first_fault
    (origin text : String)
    (room : Roomy (wordLines text)) :
    (∀ lines, Spells text lines ↔ wordLines text = lines) ∧
      (∀ topology,
      (read origin text).outcome = .ok topology ↔ Describes (wordLines text) topology) ∧
      (∀ stop,
        (read origin text).outcome = .error stop ↔
          ∃ cause, stop = .refused cause ∧ Refused origin (wordLines text) cause) ∧
      ∀ cause line other,
        (read origin text).outcome = .error (.refused cause) →
          cause.line? = some line → line ≤ (wordLines text).length →
            (wordLines other).take line = (wordLines text).take line →
              (read origin other).outcome = .error (.refused cause) := by
  simp only [outcome_read]
  refine ⟨fun lines => spells_iff, fun topology => parse_eq_ok_iff room,
    fun stop => parse_eq_error_iff room, ?_⟩
  intro cause line other fails isLine present agrees
  rcases (parse_eq_error_iff room).1 fails with ⟨_, ⟨⟩, refused⟩
  rcases refused.exists_split isLine present with ⟨start, behind, split, rfl, others⟩
  rw [split, List.take_left] at agrees
  have whole := (List.take_append_drop start.length (wordLines other)).symm
  rw [agrees] at whole
  rcases others ((wordLines other).drop start.length) with ⟨refusedOther, roomy⟩
  rw [← whole] at refusedOther roomy
  exact (parse_eq_error_iff (roomy room)).2 ⟨cause, rfl, refusedOther⟩

/-- Line ends of both kinds, blank lines, words behind the fields; two faults on the last line. -/
def faultyText :
    String :=
  "+3 nodes\r\n7\n\n0\t1\t10\t5 extra\r\n \t\n3 x 1 1\n"

/-- The bad number is seen before the node outside, and what stands behind the line is not seen. -/
theorem faultyText_ends_at_first_fault :
    Roomy (wordLines faultyText) ∧
      Refused unnamed (wordLines faultyText) (.invalidNumber unnamed 6 "node2" "x") ∧
        (read unnamed (faultyText ++ "0 1\n2 2 2 2")).outcome =
          .error (.refused (.invalidNumber unnamed 6 "node2" "x")) ∧
          Describes (wordLines "+3 nodes\r\n7\n\n0\t1\t10\t5 extra") ⟨3, 7, [⟨0, 1, 10, 5⟩]⟩ := by
  have roomy (rest : List (List String)) : Roomy (["+3", "nodes"] :: ["7"] :: rest) := by
    rintro _ _ _ nodes count ⟨⟩ - ⟨_, ⟨⟩, spells⟩
    cases Decimal.word64?_eq_some_iff.2 spells
    decide
  have split :
      wordLines faultyText =
        [["+3", "nodes"], ["7"], [], ["0", "1", "10", "5", "extra"], [], ["3", "x", "1", "1"]] :=
    rfl
  have room : Roomy (wordLines faultyText) := split ▸ roomy _
  have fails :
      (read unnamed faultyText).outcome =
        .error (.refused (.invalidNumber unnamed 6 "node2" "x")) :=
    rfl
  rcases reading_ends_at_first_fault unnamed faultyText room with ⟨-, -, refused, behind⟩
  rcases (refused _).1 fails with ⟨_, ⟨⟩, isRefused⟩
  have present : 6 ≤ (wordLines faultyText).length := by decide +kernel
  have agrees :
      (wordLines (faultyText ++ "0 1\n2 2 2 2")).take 6 = (wordLines faultyText).take 6 := by
    decide +kernel
  refine ⟨room, isRefused, behind _ 6 _ fails rfl present agrees, ?_⟩
  have roomBefore : Roomy (wordLines "+3 nodes\r\n7\n\n0\t1\t10\t5 extra") :=
    roomy [[], ["0", "1", "10", "5", "extra"]]
  exact ((reading_ends_at_first_fault unnamed _ roomBefore).2.1 _).1 rfl

end NetRun.EdgeList
