import NetRun.Decimal.Numeral
import NetRun.Text.Split

/-!
# Rows of a text table

Every input is a flat table: one record per line, its fields separated by
blanks.  A row knows which text and which line it comes from, so that a
refusal can say where to look.
-/

namespace NetRun.Table

/-- Why a table is refused. -/
inductive ReadError where
  /-- The file could not be read or written. -/
  | inaccessible (path fault : String)
  /-- The text has no line at all. -/
  | empty (origin expected : String)
  /-- A line has too few fields. -/
  | missingField (origin : String) (line : Nat) (field : String)
  /-- A field is no number of its kind. -/
  | invalidNumber (origin : String) (line : Nat) (field value : String)
  /-- A link names a node that the table does not declare. -/
  | nodeOutOfRange (origin : String) (line : Nat) (node nodes : UInt32)
deriving DecidableEq, Repr

/-- What a refusal says. -/
def ReadError.message :
    ReadError → String
  | .inaccessible path fault => s!"Failed to access {path}: {fault}"
  | .empty origin expected => s!"{origin}: file is empty, expected {expected}"
  | .missingField origin line field => s!"{origin}:{line}: missing field '{field}'"
  | .invalidNumber origin line field value => s!"{origin}:{line}: invalid {field} '{value}'"
  | .nodeOutOfRange origin line node nodes =>
    s!"{origin}:{line}: node {node} is outside the declared range [0, {nodes})"

/-- The refusal and what caused it, outermost first. -/
def ReadError.chain
    (cause : ReadError) :
    List String :=
  match cause with
  | .inaccessible _ fault => [cause.message, fault]
  | _ => [cause.message]

/-- The words of one line, with the text and the line number they come from. -/
structure Row where
  origin : String
  line : Nat
  words : List String
deriving DecidableEq, Repr

namespace Row

/-- Split a line into a row; lines count from one. -/
def ofLine
    (origin : String)
    (line : Nat)
    (text : List Char) :
    Row :=
  ⟨origin, line, (Text.words text).map String.ofList⟩

/-- The row has no field. -/
def isBlank
    (row : Row) :
    Bool :=
  row.words.isEmpty

/-- The number of fields. -/
def size
    (row : Row) :
    Nat :=
  row.words.length

/-- The text of a field, which is named for the refusal. -/
def text
    (row : Row)
    (index : Nat)
    (field : String) :
    Except ReadError String :=
  match row.words[index]? with
  | some word => .ok word
  | none => .error (.missingField row.origin row.line field)

/-- A field read as a number of some kind. -/
def number
    {α : Type}
    (read : String → Option α)
    (row : Row)
    (index : Nat)
    (field : String) :
    Except ReadError α := do
  let word ← row.text index field
  match read word with
  | some value => .ok value
  | none => .error (.invalidNumber row.origin row.line field word)

/-- A field read as an unsigned number below 2^32. -/
def word32
    (row : Row)
    (index : Nat)
    (field : String) :
    Except ReadError UInt32 :=
  row.number Decimal.word32? index field

/-- A field read as an unsigned number below 2^64. -/
def word64
    (row : Row)
    (index : Nat)
    (field : String) :
    Except ReadError UInt64 :=
  row.number Decimal.word64? index field

/-- A field read as a real number. -/
def real
    (row : Row)
    (index : Nat)
    (field : String) :
    Except ReadError Float :=
  row.number Decimal.real? index field

end Row

/-- All rows of a text, blank ones included, numbered from one. -/
def rows
    (origin text : String) :
    List Row :=
  (Text.lines text.toList).zipIdx.map fun (line, index) => Row.ofLine origin (index + 1) line

end NetRun.Table
