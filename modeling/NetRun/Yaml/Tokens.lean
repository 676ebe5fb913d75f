import NetRun.Yaml.BlockText
import NetRun.Yaml.Property

/-!
# The tokens of a text

Whether a node is a key is known only at the colon behind it.  So every place
where a key may start is remembered, one for the block that is being read and
one for each open bracket; if a colon follows on the same line and not too far
away, the token that says so is put in front of the node.  A key that
indentation demands must be followed by its colon.

The blocks that are open are known by their columns: a token further to the
left closes a block, and a key or a dash further to the right opens one.
-/

namespace NetRun.Yaml

/-- A place where a key may start. -/
structure KeyStart where
  /-- The number of tokens in front of it. -/
  count : Nat
  mark : Mark
  /-- Indentation allows nothing but a key. -/
  isDemanded : Bool

/-- A key ends on its line, and not more than 1024 bytes from its start. -/
def KeyStart.isPast
    (start : KeyStart)
    (mark : Mark) :
    Bool :=
  start.mark.line != mark.line || start.mark.bytes + 1024 < mark.bytes

/-- What has been read of a text. -/
structure Reading where
  cursor : Cursor
  /-- The tokens, the last one first. -/
  reversed : List Token
  count : Nat
  /-- The columns of the open blocks, the innermost first. -/
  columns : List Nat
  /-- The last place in the block where a key may start. -/
  blockKey : Option KeyStart
  /-- The same for each open bracket, the innermost first. -/
  bracketKeys : List (Option KeyStart)
  /-- A key may start here. -/
  mayOpen : Bool

namespace Reading

/-- Nothing has been read of a text. -/
def start
    (text : List Char) :
    Reading :=
  ⟨.ofText text, [], 0, [], none, [], true⟩

/-- A bracket is open. -/
def inBrackets
    (reading : Reading) :
    Bool :=
  !reading.bracketKeys.isEmpty

/-- The column behind that of the innermost block, or zero if there is none. -/
def indent
    (reading : Reading) :
    Nat :=
  match reading.columns with
  | [] => 0
  | column :: _ => column + 1

/-- Add a token. -/
def add
    (reading : Reading)
    (token : Token) :
    Reading :=
  { reading with reversed := token :: reading.reversed, count := reading.count + 1 }

/-- Put a token behind the first `count` ones. -/
def insert
    (reading : Reading)
    (count : Nat)
    (token : Token) :
    Reading :=
  { reading with
    reversed := reading.reversed.insertIdx (reading.count - count) token
    count := reading.count + 1 }

/-- Move on to another place, where a key may start or not. -/
def moveTo
    (reading : Reading)
    (cursor : Cursor)
    (mayOpen : Bool) :
    Reading :=
  { reading with cursor := cursor, mayOpen := mayOpen }

/-- Add a token that is written here with some characters. -/
def take
    (reading : Reading)
    (token : Token)
    (length : Nat)
    (mayOpen : Bool) :
    Reading :=
  (reading.add token).moveTo (reading.cursor.skip length) mayOpen

/-- The last place where a key may start. -/
def key?
    (reading : Reading) :
    Option KeyStart :=
  match reading.bracketKeys with
  | [] => reading.blockKey
  | start :: _ => start

/-- Remember a place where a key may start, or that there is none. -/
def withKey
    (reading : Reading)
    (start : Option KeyStart) :
    Reading :=
  match reading.bracketKeys with
  | [] => { reading with blockKey := start }
  | _ :: outer => { reading with bracketKeys := start :: outer }

/-- Forget the last place where a key may start, which must not be a demanded one. -/
def dropKey?
    (reading : Reading) :
    Option Reading :=
  if reading.key?.any (·.isDemanded) then none else some (reading.withKey none)

/-- Remember that a key may start here, if it may. -/
def noteKey?
    (reading : Reading) :
    Option Reading :=
  if reading.mayOpen then do
    let isDemanded := !reading.inBrackets &&
      reading.columns.head? == some reading.cursor.column
    let reading ← reading.dropKey?
    return reading.withKey (some ⟨reading.count, reading.cursor.mark, isDemanded⟩)
  else some reading

/-- Close the blocks whose columns are not left of a column. -/
def closeBlocks
    (reading : Reading)
    (column : Nat) :
    Reading :=
  if reading.inBrackets then reading
  else
    let closed := reading.columns.takeWhile (column ≤ ·)
    { closed.foldl (fun reading _ => reading.add .blockEnd) reading with
      columns := reading.columns.dropWhile (column ≤ ·) }

/-- Open a block in a column behind the first `count` tokens, unless it is open. -/
def openBlock
    (reading : Reading)
    (column count : Nat)
    (token : Token) :
    Reading :=
  if reading.inBrackets || column < reading.indent then reading
  else { reading.insert count token with columns := column :: reading.columns }

/-- A line of dashes or dots. -/
def documentMark?
    (reading : Reading)
    (token : Token) :
    Option Reading := do
  let reading ← (reading.closeBlocks 0).dropKey?
  return reading.take token 3 false

/-- A directive. -/
def directive?
    (reading : Reading) :
    Option Reading := do
  let reading ← (reading.closeBlocks 0).dropKey?
  let (token, after) ← scanDirective reading.cursor
  return (reading.add token).moveTo after false

/-- A bracket that opens. -/
def openBracket?
    (reading : Reading)
    (token : Token) :
    Option Reading := do
  let reading ← reading.noteKey?
  return { reading.take token 1 true with bracketKeys := none :: reading.bracketKeys }

/-- A bracket that closes. -/
def closeBracket?
    (reading : Reading)
    (token : Token) :
    Option Reading := do
  let reading ← reading.dropKey?
  return { reading.take token 1 false with bracketKeys := reading.bracketKeys.drop 1 }

/-- A comma, behind which a key may start. -/
def comma?
    (reading : Reading) :
    Option Reading := do
  let reading ← reading.dropKey?
  return reading.take .comma 1 true

/-- The dash of a sequence entry, behind which a key may start. -/
def dash?
    (reading : Reading) :
    Option Reading := do
  guard (reading.inBrackets || reading.mayOpen)
  let reading ← (reading.openBlock reading.cursor.column reading.count .sequenceBlock).dropKey?
  return reading.take .dash 1 true

/-- The question mark in front of a key. -/
def question?
    (reading : Reading) :
    Option Reading := do
  guard (reading.inBrackets || reading.mayOpen)
  let reading ← (reading.openBlock reading.cursor.column reading.count .mappingBlock).dropKey?
  return reading.take .key 1 (!reading.inBrackets)

/-- The colon in front of a value, which may tell that the last node is a key. -/
def colon?
    (reading : Reading) :
    Option Reading :=
  match reading.key?.filter fun start => !start.isPast reading.cursor.mark with
  | some start =>
    let reading := reading.insert start.count .key
    let reading := reading.openBlock start.mark.column start.count .mappingBlock
    some ((reading.withKey none).take .value 1 false)
  | none => do
    guard (reading.inBrackets || reading.mayOpen)
    let reading := reading.openBlock reading.cursor.column reading.count .mappingBlock
    return reading.take .value 1 (!reading.inBrackets)

/-- A token that may be the start of a key, behind which none may start at once. -/
def opener?
    (reading : Reading)
    (scan : Cursor → Option (Token × Cursor)) :
    Option Reading := do
  let reading ← reading.noteKey?
  let (token, after) ← scan reading.cursor
  return (reading.add token).moveTo after false

/-- A quoted scalar. -/
def quoted?
    (reading : Reading)
    (scan : Cursor → Option (String × Cursor)) :
    Option Reading :=
  reading.opener? fun cursor => (scan cursor).map fun (text, after) =>
    (.scalar .quoted text, after)

/-- A plain scalar, behind which a key may start if it ends on another line. -/
def plain?
    (reading : Reading) :
    Option Reading := do
  let reading ← reading.noteKey?
  let (text, after, isBroken) ← scanPlain reading.inBrackets reading.indent
    reading.cursor.rest reading.cursor.mark [] (.spaces []) false
  return (reading.add (.scalar .plain text)).moveTo after isBroken

/-- A text in a block, behind which a key may start. -/
def blockText?
    (reading : Reading)
    (style : Style) :
    Option Reading := do
  let reading ← reading.dropKey?
  let (text, after) ← scanBlockText (style = .folded) reading.indent reading.cursor.next
  return (reading.add (.scalar style text)).moveTo after true

/-- The characters besides brackets and quotes that no plain scalar starts with. -/
def isReserved
    (c : Char) :
    Bool :=
  isSpace c || "#|>%@\x60".toList.contains c

/-- Read the token that starts here with a character. -/
def token?
    (reading : Reading)
    (c : Char)
    (rest : List Char) :
    Option Reading :=
  let inBrackets := reading.inBrackets
  if c == '%' && reading.cursor.column == 0 then reading.directive?
  else if reading.cursor.atMarker '-' then reading.documentMark? .documentStart
  else if reading.cursor.atMarker '.' then reading.documentMark? .documentEnd
  else if c == '[' then reading.openBracket? .openSequence
  else if c == '\x7b' then reading.openBracket? .openMapping
  else if c == ']' then reading.closeBracket? .closeSequence
  else if c == '\x7d' then reading.closeBracket? .closeMapping
  else if c == ',' then reading.comma?
  else if c == '-' && endsWord rest then reading.dash?
  else if c == '?' && (inBrackets || endsWord rest) then reading.question?
  else if c == ':' && (inBrackets || endsWord rest) then reading.colon?
  else if c == '*' then
    reading.opener? fun cursor => (scanName cursor).map fun (name, after) =>
      (.alias name, after)
  else if c == '&' then
    reading.opener? fun cursor => (scanName cursor).map fun (name, after) =>
      (.anchor name, after)
  else if c == '!' then reading.opener? (scanTag inBrackets)
  else if c == '|' && !inBrackets then reading.blockText? .literal
  else if c == '>' && !inBrackets then reading.blockText? .folded
  else if c == '\x27' then
    reading.quoted? fun cursor =>
      let start := cursor.next
      scanSingle start.rest start.mark [] (.spaces [])
  else if c == '\x22' then
    reading.quoted? fun cursor =>
      scanDouble (cursor.rest.length + 1) cursor.next [] (.spaces [])
  else if isReserved c then none
  else reading.plain?

/-- Go on to the next place where something is written; no demanded key may lie behind it. -/
def advance?
    (reading : Reading) :
    Option Reading :=
  let (cursor, mayOpen) := reading.cursor.skipGap reading.inBrackets reading.mayOpen
  if reading.blockKey.any fun start => start.isDemanded && start.isPast cursor.mark then none
  else some (reading.moveTo cursor mayOpen)

/-- Read the rest of a text. -/
def finish? :
    (fuel : Nat) → Reading → Option (List Token)
  | 0, _ => none
  | fuel + 1, reading => do
    let reading ← reading.advance?
    match reading.cursor.rest with
    | [] =>
      let reading ← (reading.closeBlocks 0).dropKey?
      return reading.reversed.reverse
    | c :: rest =>
      let reading ← (reading.closeBlocks (reading.cursor.column + 1)).token? c rest
      finish? fuel reading

end Reading

/-- The tokens of a text. -/
def Token.ofText?
    (text : List Char) :
    Option (List Token) :=
  (Reading.start text).finish? (text.length + 1)

end NetRun.Yaml
