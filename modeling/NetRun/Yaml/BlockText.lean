import NetRun.Yaml.Cursor

/-!
# Texts in blocks

A text may be written as a block of indented lines behind a bar or an angle.
Behind a bar its line breaks stay; behind an angle, one between two lines that
do not start with a space becomes a space.  A sign behind the mark says what
becomes of the breaks at the end, and a digit how far the lines are indented.
-/

namespace NetRun.Yaml

/-- What becomes of the line breaks at the end of a block. -/
inductive Ending where
  | clip
  | strip
  | keep
deriving DecidableEq, Repr

/-- What stands behind the mark of a block: a sign, and a number of columns. -/
structure BlockHeader where
  ending : Ending
  columns : Option Nat

/-- The sign that a character is. -/
def Ending.ofSign? :
    Char → Option Ending
  | '+' => some .keep
  | '-' => some .strip
  | _ => none

/-- The digit of a number of columns, which is not zero. -/
def columnsDigit?
    (c : Char) :
    Option Nat :=
  if '1' ≤ c && c ≤ '9' then some (c.toNat - 48) else none

/-- The sign and the digit of a header, in either order, and the place behind them. -/
def BlockHeader.read
    (cursor : Cursor) :
    BlockHeader × Cursor :=
  let sign? := fun (here : Cursor) => here.rest.head?.bind Ending.ofSign?
  let digit? := fun (here : Cursor) => here.rest.head?.bind columnsDigit?
  match sign? cursor with
  | some ending =>
    match digit? cursor.next with
    | some columns => (⟨ending, some columns⟩, cursor.skip 2)
    | none => (⟨ending, none⟩, cursor.next)
  | none =>
    match digit? cursor with
    | some columns =>
      match sign? cursor.next with
      | some ending => (⟨ending, some columns⟩, cursor.skip 2)
      | none => (⟨.clip, some columns⟩, cursor.next)
    | none => (⟨.clip, none⟩, cursor)

/-- Lines without text: where they end, their breaks, the last one first, and their widest column. -/
structure EmptyLines where
  after : Cursor
  reversed : List Char
  widest : Nat

/--
Skip lines that hold only the spaces of the indentation, which is still open
if `indent` is zero.  A tab cannot stand there.
-/
def skipEmptyLines
    (indent : Nat) :
    (text : List Char) → Mark → (reversed : List Char) → (widest : Nat) → Option EmptyLines
  | [], mark, reversed, widest => some ⟨⟨[], mark⟩, reversed, max widest mark.column⟩
  | c :: rest, mark, reversed, widest =>
    let inIndent := indent == 0 || mark.column < indent
    if c == ' ' && inIndent then skipEmptyLines indent rest (mark.next c) reversed widest
    else if c == '\t' && inIndent then none
    else
      let widest := max widest mark.column
      if isBreak c then skipEmptyLines indent rest (mark.next c) (c :: reversed) widest
      else some ⟨⟨c :: rest, mark⟩, reversed, widest⟩

/-- What has been read of a block. -/
structure BlockText where
  /-- The text, the last character first. -/
  reversed : List Char
  /-- The break behind the last line. -/
  lineBreak : Option Char
  /-- The breaks of the empty lines behind it, the last one first. -/
  emptyLines : List Char
  /-- The last line starts with a space or a tab. -/
  startsBlank : Bool

/-- The text with the breaks that stand in front of a further line. -/
def BlockText.join
    (text : BlockText)
    (folded startsBlank : Bool) :
    List Char :=
  let joined :=
    if folded && text.lineBreak == some '\n' && !text.startsBlank && !startsBlank then
      if text.emptyLines.isEmpty then ' ' :: text.reversed else text.reversed
    else text.lineBreak.toList ++ text.reversed
  text.emptyLines ++ joined

/-- The text with the breaks that stay at its end. -/
def BlockText.finish
    (text : BlockText)
    (ending : Ending) :
    String :=
  let lineBreak := if ending = .strip then [] else text.lineBreak.toList
  let emptyLines := if ending = .keep then text.emptyLines else []
  String.ofList (emptyLines ++ lineBreak ++ text.reversed).reverse

/-- Read the lines that are indented by `indent` columns. -/
def scanBlockLines
    (folded : Bool)
    (indent : Nat) :
    (fuel : Nat) → Cursor → BlockText → Option (BlockText × Cursor)
  | 0, _, _ => none
  | fuel + 1, cursor, text =>
    if cursor.column == indent && !cursor.rest.isEmpty then do
      let startsBlank := cursor.rest.head?.any isSpace
      let (line, lineEnd) := cursor.span fun c => !isBreak c
      let next := lineEnd.next
      let empty ← skipEmptyLines indent next.rest next.mark [] 0
      scanBlockLines folded indent fuel empty.after
        ⟨line.reverse ++ text.join folded startsBlank, lineEnd.rest.head?, empty.reversed,
          startsBlank⟩
    else some (text, cursor)

/--
The text of a block behind its mark, and the place behind it.  Its lines are
indented by `least` columns at least; without a digit, the first line decides.
-/
def scanBlockText
    (folded : Bool)
    (least : Nat)
    (cursor : Cursor) :
    Option (String × Cursor) := do
  let (header, behind) := BlockHeader.read cursor
  let start ← behind.skipLine?
  let given := (header.columns.map fun columns => (least - 1) + columns).getD 0
  let empty ← skipEmptyLines given start.rest start.mark [] 0
  let indent := if given = 0 then max (max empty.widest least) 1 else given
  let (text, after) ← scanBlockLines folded indent (cursor.rest.length + 1) empty.after
    ⟨[], none, empty.reversed, false⟩
  return (text.finish header.ending, after)

end NetRun.Yaml
