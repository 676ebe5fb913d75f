/-!
# Indented JSON

Values of JSON and their text: one member or element per line, two spaces
deeper than its brackets.  Empty brackets stay on one line, members keep
their order, and there is no line feed at the end.
-/

namespace NetRun.Json

/-- A JSON value; a number is kept as its text. -/
inductive Value where
  | null
  | number (text : String)
  | string (text : String)
  | array (items : List Value)
  | object (members : List (String × Value))

/-- A natural number as a value. -/
def natural
    (n : Nat) :
    Value :=
  .number (toString n)

/-- A value that may be absent. -/
def optional
    {α : Type}
    (write : α → Value) :
    Option α → Value
  | none => .null
  | some value => write value

/-- Four hexadecimal digits of a character below 2^16. -/
def fourDigits
    (c : Char) :
    List Char :=
  let digits := Nat.toDigits 16 c.toNat
  List.replicate (4 - digits.length) '0' ++ digits

/-- A character inside quotes: the quote, the backslash and controls are escaped. -/
def escape
    (c : Char) :
    List Char :=
  match c with
  | '"' => ['\\', '"']
  | '\\' => ['\\', '\\']
  | '\n' => ['\\', 'n']
  | '\t' => ['\\', 't']
  | '\r' => ['\\', 'r']
  | '\x08' => ['\\', 'b']
  | '\x0c' => ['\\', 'f']
  | _ => if c.toNat < 32 then '\\' :: 'u' :: fourDigits c else [c]

/-- A text in quotes. -/
def quote
    (text : String) :
    List Char :=
  '"' :: text.toList.flatMap escape ++ ['"']

/-- The start of a line at a depth. -/
def newLine
    (depth : Nat) :
    List Char :=
  '\n' :: List.replicate (2 * depth) ' '

mutual

/-- The text of a value that stands at a depth. -/
def write
    (depth : Nat) :
    Value → List Char
  | .null => "null".toList
  | .number text => text.toList
  | .string text => quote text
  | .array [] => ['[', ']']
  | .array (item :: items) =>
    '[' :: newLine (depth + 1) ++ write (depth + 1) item ++ writeItems (depth + 1) items ++
      newLine depth ++ [']']
  | .object [] => ['\x7b', '\x7d']
  | .object ((key, value) :: members) =>
    '\x7b' :: newLine (depth + 1) ++ quote key ++ ':' :: ' ' :: write (depth + 1) value ++
      writeMembers (depth + 1) members ++ newLine depth ++ ['\x7d']

/-- The elements after the first. -/
def writeItems
    (depth : Nat) :
    List Value → List Char
  | [] => []
  | item :: items =>
    ',' :: newLine depth ++ write depth item ++ writeItems depth items

/-- The members after the first. -/
def writeMembers
    (depth : Nat) :
    List (String × Value) → List Char
  | [] => []
  | (key, value) :: members =>
    ',' :: newLine depth ++ quote key ++ ':' :: ' ' :: write depth value ++
      writeMembers depth members

end

/-- The text of a value. -/
def pretty
    (value : Value) :
    String :=
  String.ofList (write 0 value)

end NetRun.Json
