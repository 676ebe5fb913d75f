import NetRun.Proofs.Table.Rows
import NetRun.Proofs.Text.Spelling
import Mathlib.Data.List.Forall2

/-!
# Tables by lines and columns

What a table says depends on the words of its lines alone.  A line is taken
column by column: a column has a name and takes some words, and words behind the
last column are ignored.  A line that lacks a column, or whose word is not taken
there, is refused for the first such column.

Lines without words are skipped.  The others are read one after the other, and
the first one that is refused decides, whatever stands behind it.
-/

namespace NetRun.Table

/-! ## Spellings -/

/-- The text spells these lines, each of which spells its words. -/
def Spells
    (text : String)
    (lines : List (List String)) :
    Prop :=
  ∃ pieces,
    Text.SpellsLines text.toList pieces ∧
      List.Forall₂ (fun piece words => Text.SpellsWords piece (words.map String.toList)) pieces
        lines

/-- The lines of a text are those that it spells, however it spells them. -/
theorem spells_iff
    {text : String}
    {lines : List (List String)} :
    Spells text lines ↔ wordLines text = lines := by
  have asTexts (piece : List Char) (words : List String) :
      Text.SpellsWords piece (words.map String.toList) ↔
        (Text.words piece).map String.ofList = words := by
    rw [Text.spellsWords_iff]
    constructor
    · intro split
      rw [split, List.map_map]
      exact List.map_id'' (fun _ => String.ofList_toList) words
    · rintro rfl
      rw [List.map_map]
      exact (List.map_id'' (fun _ => String.toList_ofList) _).symm
  simp only [Spells, Text.spellsLines_iff, asTexts, exists_eq_left']
  rw [wordLines, ← List.forall₂_map_left_iff, List.forall₂_eq_eq_eq]

theorem isField_of_mem_wordLines
    {text : String}
    {words : List String}
    (isLine : words ∈ wordLines text)
    {word : String}
    (listed : word ∈ words) :
    IsField word := by
  rcases List.mem_map.1 isLine with ⟨line, -, rfl⟩
  rcases List.mem_map.1 listed with ⟨piece, isPiece, rfl⟩
  rcases Text.solid_of_mem_words isPiece with ⟨nonempty, solid⟩
  rw [← String.toList_ofList (l := piece)] at nonempty solid
  exact ⟨nonempty, solid⟩

/-! ## Columns -/

/-- What refusals call a column, and which words it takes. -/
structure Column where
  name : String
  takes : String → Prop

/-- A column of whole numbers below a bound. -/
def Column.natural
    (name : String)
    (bound : Nat) :
    Column :=
  ⟨name, fun word => ∃ n < bound, Decimal.SpellsNatural word.toList n⟩

/-- The words lack a column or are not taken there, and this is the refusal for the first one. -/
inductive ColumnFault
    (origin : String)
    (line : Nat) :
    List Column → List String → ReadError → Prop where
  | missing {column : Column} {columns : List Column} :
      ColumnFault origin line (column :: columns) [] (.missingField origin line column.name)
  | invalid {column : Column} {columns : List Column} {word : String} {words : List String} :
      ¬ column.takes word →
        ColumnFault origin line (column :: columns) (word :: words)
          (.invalidNumber origin line column.name word)
  | later {column : Column} {columns : List Column} {word : String} {words : List String}
      {cause : ReadError} :
      column.takes word → ColumnFault origin line columns words cause →
        ColumnFault origin line (column :: columns) (word :: words) cause

/-- The word at a place of a line is this number. -/
def FieldIs
    (words : List String)
    (index n : Nat) :
    Prop :=
  ∃ word, words[index]? = some word ∧ Decimal.SpellsNatural word.toList n

theorem fieldIs_toString
    {words : List String}
    {index n : Nat}
    (stands : words[index]? = some (toString n)) :
    FieldIs words index n :=
  ⟨_, stands, Decimal.unsigned?_eq_some_iff.1 (Decimal.unsigned?_toString n)⟩

/-- The line that a refusal names. -/
def ReadError.line? :
    ReadError → Option Nat
  | .inaccessible _ _ => none
  | .empty _ _ => none
  | .missingField _ line _ => some line
  | .invalidNumber _ line _ _ => some line
  | .nodeOutOfRange _ line _ _ => some line

section ColumnFault

variable
    {origin : String}
    {line : Nat}
    {words : List String}
    {cause : ReadError}

theorem not_fault_nil :
    ¬ ColumnFault origin line [] words cause := by
  intro fault
  cases fault

theorem ColumnFault.line?_eq
    {columns : List Column}
    (fault : ColumnFault origin line columns words cause) :
    cause.line? = some line := by
  induction fault with
  | missing => rfl
  | invalid => rfl
  | later _ _ induction => exact induction

/-- A word that stands alone is refused if the one column does not take it. -/
theorem columnFault_singleton_iff
    {column : Column}
    {word : String} :
    ColumnFault origin line [column] [word] cause ↔
      ¬ column.takes word ∧ cause = .invalidNumber origin line column.name word := by
  constructor
  · rintro (_ | refuses | ⟨-, rest⟩)
    · exact ⟨refuses, rfl⟩
    · exact absurd rest not_fault_nil
  · rintro ⟨refuses, rfl⟩
    exact .invalid refuses

/-- A column of numbers that is missing or does not take its word holds no number. -/
theorem ColumnFault.not_fieldIs
    {name : String}
    {bound n : Nat}
    (fault : ColumnFault origin line [.natural name bound] words cause)
    (small : n < bound) :
    ¬ FieldIs words 0 n := by
  rintro ⟨word, stands, spells⟩
  cases fault with
  | missing => cases stands
  | invalid refuses =>
      cases stands
      exact refuses ⟨n, small, spells⟩
  | later _ rest => exact not_fault_nil rest

end ColumnFault

/-! ## Fields of a row -/

section Fields

variable
    {α β : Type}
    {read : String → Option α}
    {row : Row}
    {index : Nat}
    {column : Column}
    {columns : List Column}
    {cause : ReadError}

section Number

variable
    (takes : ∀ word, column.takes word ↔ (read word).isSome = true)

include takes

/--
Fields that are read one after the other are refused for the first column that is
missing or does not take its word.
-/
theorem number_bind_eq_error_iff
    {next : α → Except ReadError β}
    (rest :
      ∀ value,
        next value = .error cause ↔
          ColumnFault row.origin row.line columns (row.words.drop (index + 1)) cause) :
    row.number read index column.name >>= next = .error cause ↔
      ColumnFault row.origin row.line (column :: columns) (row.words.drop index) cause := by
  cases stands : row.words[index]? with
  | none =>
      rw [Row.number_of_missing stands,
        List.drop_eq_nil_of_le (List.getElem?_eq_none_iff.1 stands)]
      constructor
      · rintro ⟨⟩
        exact .missing
      · rintro ⟨⟩
        rfl
  | some word =>
      rcases List.getElem?_eq_some_iff.1 stands with ⟨isPlace, rfl⟩
      rw [List.drop_eq_getElem_cons isPlace]
      have isTaken := takes row.words[index]
      cases reads : read row.words[index] with
      | none =>
          have refuses : ¬ column.takes row.words[index] := by
            rw [isTaken, reads]
            exact Bool.noConfusion
          rw [Row.number_of_refused stands reads]
          constructor
          · rintro ⟨⟩
            exact .invalid refuses
          · rintro (_ | _ | ⟨taken, -⟩)
            · rfl
            · exact absurd taken refuses
      | some value =>
          have taken : column.takes row.words[index] := by
            rw [isTaken, reads]
            rfl
          rw [Row.number_eq_ok stands reads]
          refine (rest value).trans ⟨.later taken, ?_⟩
          rintro (_ | refuses | ⟨-, fault⟩)
          · exact absurd taken refuses
          · exact fault

/-- A field is refused if its column is missing or does not take its word. -/
theorem number_eq_error_iff :
    row.number read index column.name = .error cause ↔
      ColumnFault row.origin row.line [column] (row.words.drop index) cause := by
  rw [← bind_pure (row.number read index column.name)]
  apply number_bind_eq_error_iff takes
  intro value
  constructor
  · rintro ⟨⟩
  · intro fault
    exact absurd fault not_fault_nil

end Number

/-! ### Numbers of 32 and 64 bits -/

variable
    {name : String}

/-- A column of 32-bit numbers. -/
abbrev Column.word32
    (name : String) :
    Column :=
  .natural name UInt32.size

/-- A column of 64-bit numbers. -/
abbrev Column.word64
    (name : String) :
    Column :=
  .natural name UInt64.size

theorem Column.word32_takes
    (word : String) :
    (Column.word32 name).takes word ↔ (Decimal.word32? word).isSome = true := by
  simp only [Option.isSome_iff_exists, Decimal.word32?_eq_some_iff]
  constructor
  · rintro ⟨n, small, spells⟩
    exact ⟨UInt32.ofNat n, by rwa [UInt32.toNat_ofNat_of_lt' small]⟩
  · rintro ⟨n, spells⟩
    exact ⟨n.toNat, n.toNat_lt, spells⟩

theorem Column.word64_takes
    (word : String) :
    (Column.word64 name).takes word ↔ (Decimal.word64? word).isSome = true := by
  simp only [Option.isSome_iff_exists, Decimal.word64?_eq_some_iff]
  constructor
  · rintro ⟨n, small, spells⟩
    exact ⟨UInt64.ofNat n, by rwa [UInt64.toNat_ofNat_of_lt' small]⟩
  · rintro ⟨n, spells⟩
    exact ⟨n.toNat, n.toNat_lt, spells⟩

theorem word32_eq_ok_iff_fieldIs
    {value : UInt32} :
    row.word32 index name = .ok value ↔ FieldIs row.words index value.toNat := by
  simp only [Row.word32, Row.number_eq_ok_iff, Decimal.word32?_eq_some_iff, FieldIs]

theorem word64_eq_ok_iff_fieldIs
    {value : UInt64} :
    row.word64 index name = .ok value ↔ FieldIs row.words index value.toNat := by
  simp only [Row.word64, Row.number_eq_ok_iff, Decimal.word64?_eq_some_iff, FieldIs]

theorem word32_bind_eq_error_iff
    {next : UInt32 → Except ReadError β}
    (rest :
      ∀ value,
        next value = .error cause ↔
          ColumnFault row.origin row.line columns (row.words.drop (index + 1)) cause) :
    row.word32 index name >>= next = .error cause ↔
      ColumnFault row.origin row.line (.word32 name :: columns) (row.words.drop index) cause :=
  number_bind_eq_error_iff Column.word32_takes rest

theorem word64_bind_eq_error_iff
    {next : UInt64 → Except ReadError β}
    (rest :
      ∀ value,
        next value = .error cause ↔
          ColumnFault row.origin row.line columns (row.words.drop (index + 1)) cause) :
    row.word64 index name >>= next = .error cause ↔
      ColumnFault row.origin row.line (.word64 name :: columns) (row.words.drop index) cause :=
  number_bind_eq_error_iff Column.word64_takes rest

theorem word32_eq_error_iff :
    row.word32 index name = .error cause ↔
      ColumnFault row.origin row.line [.word32 name] (row.words.drop index) cause :=
  number_eq_error_iff Column.word32_takes

theorem word64_eq_error_iff :
    row.word64 index name = .error cause ↔
      ColumnFault row.origin row.line [.word64 name] (row.words.drop index) cause :=
  number_eq_error_iff Column.word64_takes

/-! ### Real numbers -/

/-- A column of real numbers. -/
def Column.real
    (name : String) :
    Column :=
  ⟨name, fun word => (Decimal.real? word).isSome = true⟩

theorem Column.real_takes
    (word : String) :
    (Column.real name).takes word ↔ (Decimal.real? word).isSome = true :=
  Iff.rfl

theorem real_eq_ok_iff
    {value : Float} :
    row.real index name = .ok value ↔ (row.words[index]?).bind Decimal.real? = some value := by
  rw [Row.real, Row.number_eq_ok_iff, Option.bind_eq_some_iff]

theorem real_bind_eq_error_iff
    {next : Float → Except ReadError β}
    (rest :
      ∀ value,
        next value = .error cause ↔
          ColumnFault row.origin row.line columns (row.words.drop (index + 1)) cause) :
    row.real index name >>= next = .error cause ↔
      ColumnFault row.origin row.line (.real name :: columns) (row.words.drop index) cause :=
  number_bind_eq_error_iff Column.real_takes rest

end Fields

/-! ## Written lines -/

section Written

variable
    {α β : Type}
    {origin : String}

/-- A count that stands alone on a line is read. -/
theorem word64_count
    {count : Nat}
    (few : count < UInt64.size)
    (line : Nat)
    (name : String) :
    (⟨origin, line, [toString count]⟩ : Row).word64 0 name = .ok (UInt64.ofNat count) := by
  rw [word64_eq_ok_iff_fieldIs, UInt64.toNat_ofNat_of_lt' few]
  exact fieldIs_toString rfl

/-- Items that are each written on a line of their own are read one after the other. -/
theorem mapM_numbered_map
    {read : Row → Except ReadError β}
    {fields : α → List String}
    {value : α → β}
    {above : Nat}
    {items : List α}
    (nonempty : ∀ item ∈ items, fields item ≠ [])
    (reads : ∀ item ∈ items, ∀ line, read ⟨origin, line, fields item⟩ = .ok (value item)) :
    ((numbered origin above (items.map fields)).filter fun row => !row.isBlank).mapM read =
      .ok (items.map value) := by
  induction items generalizing above with
  | nil => rfl
  | cons item items induction =>
      rcases List.forall_mem_cons.1 nonempty with ⟨itemNonempty, restNonempty⟩
      rcases List.forall_mem_cons.1 reads with ⟨itemReads, restRead⟩
      have notBlank : (⟨origin, above + 1, fields item⟩ : Row).isBlank = false :=
        List.isEmpty_eq_false_iff.2 itemNonempty
      rw [List.map_cons, numbered_cons, List.filter_cons, notBlank, Bool.not_false, if_pos rfl,
        List.mapM_cons, itemReads, induction restNonempty restRead]
      rfl

end Written

/-! ## Lines -/

section Lines

variable
    {α : Type}

/--
The refusal for the first line that is neither blank nor read, where lines are
counted on from those `above`.
-/
inductive FirstFault
    (related : List String → α → Prop)
    (fault : Nat → List String → ReadError → Prop) :
    Nat → List (List String) → ReadError → Prop where
  | blank {above : Nat} {behind : List (List String)} {cause : ReadError} :
      FirstFault related fault (above + 1) behind cause →
        FirstFault related fault above ([] :: behind) cause
  | read {above : Nat} {words : List String} {value : α} {behind : List (List String)}
      {cause : ReadError} :
      related words value → FirstFault related fault (above + 1) behind cause →
        FirstFault related fault above (words :: behind) cause
  | here {above : Nat} {words : List String} {behind : List (List String)} {cause : ReadError} :
      words ≠ [] → fault (above + 1) words cause →
        FirstFault related fault above (words :: behind) cause

variable
    {related : List String → α → Prop}
    {fault : Nat → List String → ReadError → Prop}
    {origin : String}
    {above : Nat}
    {lines : List (List String)}
    {cause : ReadError}

/-- The first fault is at the line that it names, and what stands behind that line is no matter. -/
theorem FirstFault.exists_split
    (atLine : ∀ line words cause, fault line words cause → cause.line? = some line)
    (first : FirstFault related fault above lines cause) :
    ∃ start behind,
      lines = start ++ behind ∧ cause.line? = some (above + start.length) ∧
        ∀ others, FirstFault related fault above (start ++ others) cause := by
  induction first with
  | blank _ induction =>
      rcases induction with ⟨start, behind, rfl, isLine, others⟩
      refine ⟨[] :: start, behind, rfl, ?_, fun lines => .blank (others lines)⟩
      rw [isLine, List.length_cons, Nat.add_right_comm, Nat.add_assoc]
  | read isRead _ induction =>
      rcases induction with ⟨start, behind, rfl, isLine, others⟩
      refine ⟨_ :: start, behind, rfl, ?_, fun lines => .read isRead (others lines)⟩
      rw [isLine, List.length_cons, Nat.add_right_comm, Nat.add_assoc]
  | here nonempty isFault =>
      exact ⟨[_], _, rfl, atLine _ _ _ isFault, fun lines => .here nonempty isFault⟩

/-- There are values for the lines exactly if each line that is not blank has one. -/
theorem exists_forall₂_lines_iff :
    (∃ values, List.Forall₂ related (lines.filter fun words => !words.isEmpty) values) ↔
      ∀ words ∈ lines, words ≠ [] → ∃ value, related words value := by
  simp only [exists_forall₂_iff, List.mem_filter, Bool.not_eq_true', List.isEmpty_eq_false_iff,
    and_imp]

variable
    {read : Row → Except ReadError α}
    (step : ∀ line words value, read ⟨origin, line, words⟩ = .ok value ↔ related words value)

include step

/-- The lines that are not blank are read, each for one value, in their order. -/
theorem mapM_numbered_eq_ok_iff
    {values : List α} :
    ((numbered origin above lines).filter fun row => !row.isBlank).mapM read = .ok values ↔
      List.Forall₂ related (lines.filter fun words => !words.isEmpty) values := by
  induction lines generalizing above values with
  | nil =>
      change pure [] = _ ↔ List.Forall₂ related [] values
      rw [pure_eq_ok_iff, List.forall₂_nil_left_iff, eq_comm]
  | cons words lines induction =>
      cases words with
      | nil => exact induction
      | cons word words =>
          change (_ :: (numbered origin (above + 1) lines).filter _).mapM read = _ ↔
            List.Forall₂ related (_ :: lines.filter _) values
          rw [List.mapM_cons, bind_eq_ok_iff, List.forall₂_cons_left_iff]
          simp only [bind_eq_ok_iff, induction, step, pure_eq_ok_iff]
          constructor
          · rintro ⟨value, isValue, rest, areRest, rfl⟩
            exact ⟨value, rest, isValue, areRest, rfl⟩
          · rintro ⟨value, rest, isValue, areRest, rfl⟩
            exact ⟨value, isValue, rest, areRest, rfl⟩

/-- Reading ends with the first line that is refused. -/
theorem mapM_numbered_eq_error_iff
    (stepFault :
      ∀ line words cause, read ⟨origin, line, words⟩ = .error cause ↔ fault line words cause) :
    ((numbered origin above lines).filter fun row => !row.isBlank).mapM read = .error cause ↔
      FirstFault related fault above lines cause := by
  induction lines generalizing above with
  | nil =>
      constructor
      · rintro ⟨⟩
      · rintro ⟨⟩
  | cons words lines induction =>
      cases words with
      | nil =>
          refine induction.trans ⟨.blank, ?_⟩
          rintro (fault | ⟨-, fault⟩ | ⟨nonempty, -⟩)
          · exact fault
          · exact fault
          · exact absurd rfl nonempty
      | cons word words =>
          change (_ :: (numbered origin (above + 1) lines).filter _).mapM read = _ ↔ _
          rw [List.mapM_cons, bind_eq_error_iff]
          simp only [bind_eq_error_iff, induction, step, stepFault]
          constructor
          · rintro (fault | ⟨value, isValue, fault | ⟨_, _, ⟨⟩⟩⟩)
            · exact .here (List.cons_ne_nil _ _) fault
            · exact .read isValue fault
          · rintro (_ | ⟨isValue, fault⟩ | ⟨-, fault⟩)
            · exact Or.inr ⟨_, isValue, Or.inl fault⟩
            · exact Or.inl fault

end Lines

end NetRun.Table
