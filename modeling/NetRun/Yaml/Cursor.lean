/-!
# A place in a YAML text

Indentation decides the structure of a text, so a place in it is the rest of
the text together with its line and its column.  How many bytes of the line
stand before it counts too, since a key may not be too long.
-/

namespace NetRun.Yaml

/-- Where a character stands: its line, its column and the bytes in front of it there. -/
structure Mark where
  line : Nat
  column : Nat
  bytes : Nat
deriving DecidableEq, Repr

/-- The rest of a text and where it starts. -/
structure Cursor where
  rest : List Char
  mark : Mark

/-- The mark at the start of a byte-ordered text, which counts where a line starts with it. -/
def orderMark :
    Char :=
  '\ufeff'

/-- The line feed stands for every line break but the separators of lines and paragraphs. -/
def unifyBreaks :
    List Char → List Char
  | [] => []
  | '\r' :: '\n' :: rest => '\n' :: unifyBreaks rest
  | c :: rest => (if c == '\r' || c == '\u0085' then '\n' else c) :: unifyBreaks rest

/-- A line feed, or a separator of lines or paragraphs. -/
def isBreak
    (c : Char) :
    Bool :=
  c == '\n' || c == '\u2028' || c == '\u2029'

/-- A space or a tab. -/
def isSpace
    (c : Char) :
    Bool :=
  c == ' ' || c == '\t'

/-- The characters that a text may hold: no controls but tabs and line breaks. -/
def isAllowed
    (c : Char) :
    Bool :=
  let n := c.toNat
  n == 9 || n == 10 || n == 13 || (32 ≤ n && n ≤ 126) || n == 0x85 ||
    (0xA0 ≤ n && n ≤ 0xFFFD) || 0x10000 ≤ n

/-- The text is over, or goes on with a space, a tab or a line break. -/
def endsWord :
    List Char → Bool
  | [] => true
  | c :: _ => isSpace c || isBreak c

/-- Where the character behind another one stands. -/
def Mark.next
    (mark : Mark)
    (c : Char) :
    Mark :=
  if isBreak c then ⟨mark.line + 1, 0, 0⟩
  else ⟨mark.line, mark.column + 1, mark.bytes + c.utf8Size⟩

namespace Cursor

/-- The start of a text. -/
def ofText
    (text : List Char) :
    Cursor :=
  ⟨text, ⟨0, 0, 0⟩⟩

/-- The column of a place. -/
def column
    (cursor : Cursor) :
    Nat :=
  cursor.mark.column

/-- The place behind the next character. -/
def next
    (cursor : Cursor) :
    Cursor :=
  match cursor.rest with
  | [] => cursor
  | c :: rest => ⟨rest, cursor.mark.next c⟩

/-- The place behind a number of characters. -/
def skip
    (cursor : Cursor) :
    Nat → Cursor
  | 0 => cursor
  | count + 1 => cursor.next.skip count

/-- The next character is this one. -/
def isAt
    (cursor : Cursor)
    (c : Char) :
    Bool :=
  cursor.rest.head? == some c

/-- The characters from a mark on that have a property, reversed, and the place behind them. -/
def spanFrom
    (has : Char → Bool)
    (reversed : List Char) :
    List Char → Mark → List Char × Cursor
  | [], mark => (reversed, ⟨[], mark⟩)
  | c :: rest, mark =>
    if has c then spanFrom has (c :: reversed) rest (mark.next c)
    else (reversed, ⟨c :: rest, mark⟩)

/-- The characters here that have a property, and the place behind them. -/
def span
    (cursor : Cursor)
    (has : Char → Bool) :
    List Char × Cursor :=
  let (reversed, after) := spanFrom has [] cursor.rest cursor.mark
  (reversed.reverse, after)

/-- The place behind the spaces and tabs that stand here. -/
def skipSpaces
    (cursor : Cursor) :
    Cursor :=
  (cursor.span isSpace).2

/-- The place behind the rest of a line, on which nothing but a comment may stand. -/
def skipLine?
    (cursor : Cursor) :
    Option Cursor :=
  let here := cursor.skipSpaces
  let after := if here.isAt '#' then (here.span fun c => !isBreak c).2 else here
  match after.rest with
  | [] => some after
  | c :: _ => if isBreak c then some after.next else none

/-- A line starts here with three times a character, and nothing is joined to them. -/
def atMarker
    (cursor : Cursor)
    (mark : Char) :
    Bool :=
  cursor.column == 0 && cursor.rest.take 3 == [mark, mark, mark] &&
    endsWord (cursor.rest.drop 3)

/-- A document starts or ends here, or the text is over. -/
def atDocumentEdge
    (cursor : Cursor) :
    Bool :=
  cursor.rest.isEmpty || cursor.atMarker '-' || cursor.atMarker '.'

/--
The next place where something is written, and whether a key may start there.
Spaces, comments and line breaks are skipped, and so is a byte order mark that
starts a line; a tab is skipped only inside brackets or where no key may start.
Outside brackets, a key may start on every new line.
-/
def skipGapFrom
    (inBrackets : Bool) :
    (text : List Char) → Mark → (mayOpen inComment : Bool) → Cursor × Bool
  | [], mark, mayOpen, _ => (⟨[], mark⟩, mayOpen)
  | c :: rest, mark, mayOpen, inComment =>
    let go := skipGapFrom inBrackets rest (mark.next c)
    if isBreak c then go (mayOpen || !inBrackets) false
    else if inComment || c == '#' then go mayOpen true
    else if c == ' ' || (c == '\t' && (inBrackets || !mayOpen)) ||
        (c == orderMark && mark.column == 0) then
      go mayOpen false
    else (⟨c :: rest, mark⟩, mayOpen)

/-- The next place where something is written, and whether a key may start there. -/
def skipGap
    (cursor : Cursor)
    (inBrackets mayOpen : Bool) :
    Cursor × Bool :=
  skipGapFrom inBrackets cursor.rest cursor.mark mayOpen false

end Cursor

end NetRun.Yaml
