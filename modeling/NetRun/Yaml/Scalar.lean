import NetRun.Yaml.Cursor

/-!
# Scalars in the flow of a text

A plain or a quoted scalar may run over several lines.  Spaces around a line
break are dropped; a single line feed becomes a space, and of several breaks
the first is dropped if it is a line feed.  A plain scalar ends at a colon or a
comment that spaces set apart, and in a block also at a line that is not
indented; a quoted one ends at its quote.
-/

namespace NetRun.Yaml

/-- What has been read of a scalar and waits for the next character of it. -/
inductive Gap where
  /-- Spaces inside a line, the last one first. -/
  | spaces (reversed : List Char)
  /-- A line break and further ones, the last one first. -/
  | breaks (first : Char) (reversed : List Char)
  /-- A line break that a backslash hides, and further ones, the last one first. -/
  | hidden (reversed : List Char)

/-- Put what a gap stands for behind a reversed text. -/
def Gap.close
    (reversed : List Char) :
    Gap → List Char
  | .spaces blanks => blanks ++ reversed
  | .breaks '\n' [] => ' ' :: reversed
  | .breaks '\n' more => more ++ reversed
  | .breaks first more => more ++ first :: reversed
  | .hidden more => more ++ reversed

/-- A gap that has run over a line break. -/
def Gap.isBroken :
    Gap → Bool
  | .spaces _ => false
  | _ => true

/-- The gap with one more space. -/
def Gap.addSpace
    (c : Char) :
    Gap → Gap
  | .spaces blanks => .spaces (c :: blanks)
  | gap => gap

/-- The gap with one more line break. -/
def Gap.addBreak
    (c : Char) :
    Gap → Gap
  | .spaces _ => .breaks c []
  | .breaks first more => .breaks first (c :: more)
  | .hidden more => .hidden (c :: more)

/-- A bracket or a comma. -/
def isBracket
    (c : Char) :
    Bool :=
  c == ',' || c == '[' || c == ']' || c == '\x7b' || c == '\x7d'

/-- A colon that ends a plain scalar, and inside brackets also a bracket or a comma. -/
def endsPlain
    (inBrackets : Bool)
    (c : Char)
    (rest : List Char) :
    Bool :=
  (c == ':' && endsWord rest) || (inBrackets && isBracket c)

/-- A colon that is joined to a bracket is an error inside brackets. -/
def isStrayColon
    (inBrackets : Bool)
    (c : Char)
    (rest : List Char) :
    Bool :=
  inBrackets && c == ':' && rest.head?.any fun next => isBracket next || next == '?'

/--
The text of a plain scalar, the place behind it, and whether a line break was
run over to get there.  In a block its further lines are indented by `indent`
columns at least.
-/
def scanPlain
    (inBrackets : Bool)
    (indent : Nat) :
    (text : List Char) → Mark → (reversed : List Char) → Gap → (inGap : Bool) →
      Option (String × Cursor × Bool)
  | [], mark, reversed, gap, _ =>
    some (String.ofList reversed.reverse, ⟨[], mark⟩, gap.isBroken)
  | c :: rest, mark, reversed, gap, inGap =>
    let done := some (String.ofList reversed.reverse, ⟨c :: rest, mark⟩, gap.isBroken)
    if isBreak c then
      scanPlain inBrackets indent rest (mark.next c) reversed (gap.addBreak c) true
    else if isSpace c then
      if gap.isBroken && c == '\t' && mark.column < indent then none
      else scanPlain inBrackets indent rest (mark.next c) reversed (gap.addSpace c) true
    else
      let outdented := !inBrackets && mark.column < indent
      let edge := (Cursor.mk (c :: rest) mark).atDocumentEdge
      if inGap && (outdented || edge || c == '#') then done
      else if isStrayColon inBrackets c rest then none
      else if endsPlain inBrackets c rest then done
      else
        scanPlain inBrackets indent rest (mark.next c) (c :: gap.close reversed)
          (.spaces []) false

/-- The text between single quotes, in which a quote is written twice. -/
def scanSingle :
    (text : List Char) → Mark → (reversed : List Char) → Gap → Option (String × Cursor)
  | [], _, _, _ => none
  | c :: rest, mark, reversed, gap =>
    if isBreak c then scanSingle rest (mark.next c) reversed (gap.addBreak c)
    else if isSpace c then scanSingle rest (mark.next c) reversed (gap.addSpace c)
    else if (Cursor.mk (c :: rest) mark).atDocumentEdge then none
    else if c == '\x27' then
      match rest with
      | '\x27' :: rest =>
        scanSingle rest ((mark.next c).next c) (c :: gap.close reversed) (.spaces [])
      | _ => some (String.ofList (gap.close reversed).reverse, ⟨rest, mark.next c⟩)
    else scanSingle rest (mark.next c) (c :: gap.close reversed) (.spaces [])

/-- What a backslash and a character stand for. -/
def simpleEscape? :
    Char → Option Char
  | '0' => some '\x00'
  | 'a' => some '\x07'
  | 'b' => some '\x08'
  | 't' => some '\t'
  | '\t' => some '\t'
  | 'n' => some '\n'
  | 'v' => some '\x0b'
  | 'f' => some '\x0c'
  | 'r' => some '\r'
  | 'e' => some '\x1b'
  | ' ' => some ' '
  | '"' => some '"'
  | '/' => some '/'
  | '\\' => some '\\'
  | 'N' => some '\u0085'
  | '_' => some '\u00a0'
  | 'L' => some '\u2028'
  | 'P' => some '\u2029'
  | _ => none

/-- The number of hexadecimal digits behind a backslash and a character. -/
def escapeWidth? :
    Char → Option Nat
  | 'x' => some 2
  | 'u' => some 4
  | 'U' => some 8
  | _ => none

/-- The value of a hexadecimal digit. -/
def hexDigit?
    (c : Char) :
    Option Nat :=
  if '0' ≤ c && c ≤ '9' then some (c.toNat - 48)
  else if 'a' ≤ c && c ≤ 'f' then some (c.toNat - 87)
  else if 'A' ≤ c && c ≤ 'F' then some (c.toNat - 55)
  else none

/-- The value of one or more hexadecimal digits. -/
def hexadecimal?
    (digits : List Char) :
    Option Nat :=
  if digits.isEmpty then none
  else (digits.mapM hexDigit?).map fun values => values.foldl (fun n d => 16 * n + d) 0

/-- The character with a number, if it is one. -/
def characterOf?
    (n : Nat) :
    Option Char :=
  if n < 0xD800 || (0xDFFF < n && n ≤ 0x10FFFF) then some (Char.ofNat n) else none

/-- What stands behind a backslash: the character meant, and how many characters mean it. -/
def escape? :
    List Char → Option (Char × Nat)
  | [] => none
  | e :: rest =>
    match simpleEscape? e with
    | some value => some (value, 1)
    | none => do
      let width ← escapeWidth? e
      let digits := rest.take width
      guard (digits.length = width)
      let value ← (hexadecimal? digits).bind characterOf?
      return (value, width + 1)

/-- The text between double quotes, in which a backslash starts an escape. -/
def scanDouble :
    (fuel : Nat) → Cursor → (reversed : List Char) → Gap → Option (String × Cursor)
  | 0, _, _, _ => none
  | fuel + 1, cursor, reversed, gap =>
    match cursor.rest with
    | [] => none
    | c :: rest =>
      if isBreak c then scanDouble fuel cursor.next reversed (gap.addBreak c)
      else if isSpace c then scanDouble fuel cursor.next reversed (gap.addSpace c)
      else if cursor.atDocumentEdge then none
      else
        let text := gap.close reversed
        if c == '"' then some (String.ofList text.reverse, cursor.next)
        else if c != '\\' then scanDouble fuel cursor.next (c :: text) (.spaces [])
        else if rest.head?.any isBreak then scanDouble fuel (cursor.skip 2) text (.hidden [])
        else
          match escape? rest with
          | some (value, count) =>
            scanDouble fuel (cursor.skip (count + 1)) (value :: text) (.spaces [])
          | none => none

end NetRun.Yaml
