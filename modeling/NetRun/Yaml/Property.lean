import NetRun.Yaml.Scalar
import NetRun.Yaml.Token

/-!
# Names, tags and directives

In front of a node, an ampersand gives it a name under which a star finds it
again, and an exclamation mark gives it a tag.  A tag is a handle, which stands
for the start of a longer name, and the rest of that name.  Lines with a
percent sign in front of a document say which version of the language it uses
and what its handles stand for.
-/

namespace NetRun.Yaml

/-- A letter, a digit, a dash or an underscore, all of them plain Latin ones. -/
def isWordChar
    (c : Char) :
    Bool :=
  c.isAlphanum || c == '-' || c == '_'

/-- The characters of a tag; between angles, brackets and commas belong to it too. -/
def isTagChar
    (inAngles : Bool)
    (c : Char) :
    Bool :=
  isWordChar c || ";/?:@&=+$.%!~*'()".toList.contains c || (inAngles && ",[]".toList.contains c)

/-- The characters that may stand behind a name at once. -/
def endsName :
    List Char → Bool
  | [] => true
  | c :: rest => endsWord (c :: rest) || "?:,]\x7d%@\x60".toList.contains c

/-- The name behind an ampersand or a star, and the place behind it. -/
def scanName
    (cursor : Cursor) :
    Option (String × Cursor) :=
  let (name, after) := cursor.next.span isWordChar
  if name.isEmpty || !endsName after.rest then none else some (String.ofList name, after)

/-- The value of the two hexadecimal digits behind a percent sign. -/
def octet? :
    List Char → Option Nat
  | '%' :: high :: low :: _ => hexadecimal? [high, low]
  | _ => none

/-- How many octets follow the first one of a character. -/
def trailingOctets?
    (octet : Nat) :
    Option Nat :=
  if octet < 0x80 then some 0
  else if 0xC0 ≤ octet && octet < 0xE0 then some 1
  else if 0xE0 ≤ octet && octet < 0xF0 then some 2
  else if 0xF0 ≤ octet && octet < 0xF8 then some 3
  else none

/--
The characters of a tag, reversed, and the place behind them.  An octet behind a
percent sign stands for itself; `awaited` of them are still to come for one
character.
-/
def scanTagChars
    (inAngles : Bool) :
    (fuel : Nat) → Cursor → (reversed : List Char) → (awaited : Nat) →
      Option (List Char × Cursor)
  | 0, _, _, _ => none
  | fuel + 1, cursor, reversed, awaited =>
    match cursor.rest with
    | c :: _ =>
      if c == '%' then do
        let octet ← octet? cursor.rest
        let awaited ←
          if awaited = 0 then trailingOctets? octet
          else if 0x80 ≤ octet && octet < 0xC0 then some (awaited - 1) else none
        scanTagChars inAngles fuel (cursor.skip 3) (Char.ofNat octet :: reversed) awaited
      else if awaited ≠ 0 then none
      else if isTagChar inAngles c then
        scanTagChars inAngles fuel cursor.next (c :: reversed) 0
      else some (reversed, cursor)
    | [] => if awaited = 0 then some (reversed, cursor) else none

/-- The rest of a tag behind a start that has been read, which may not be empty together. -/
def scanTagRest
    (inAngles : Bool)
    (start : List Char)
    (cursor : Cursor) :
    Option (String × Cursor) := do
  let (reversed, after) ← scanTagChars inAngles (cursor.rest.length + 1) cursor [] 0
  guard (!(start.isEmpty && reversed.isEmpty))
  return (String.ofList (start.drop 1 ++ reversed.reverse), after)

/-- An exclamation mark, word characters, and a second exclamation mark if there is one. -/
def scanHandle
    (cursor : Cursor) :
    Option (List Char × Cursor) :=
  if cursor.isAt '!' then
    let (word, after) := cursor.next.span isWordChar
    if after.isAt '!' then some ('!' :: word ++ ['!'], after.next)
    else some ('!' :: word, after)
  else none

/-- A handle that ends in an exclamation mark of its own. -/
def isClosedHandle
    (handle : List Char) :
    Bool :=
  1 < handle.length && handle.getLast? == some '!'

/-- The handle and the rest of a tag, and the place behind it. -/
def scanTagParts
    (cursor : Cursor) :
    Option (Token × Cursor) := do
  if cursor.rest.take 2 = ['!', '<'] then
    let (name, after) ← scanTagRest true [] (cursor.skip 2)
    guard (after.isAt '>')
    return (.tag "" name, after.next)
  else
    let (handle, behind) ← scanHandle cursor
    if isClosedHandle handle then
      let (rest, after) ← scanTagRest false [] behind
      return (.tag (String.ofList handle) rest, after)
    else
      let (rest, after) ← scanTagRest false handle behind
      return (if rest.isEmpty then .tag "" "!" else .tag "!" rest, after)

/-- A tag, and the place behind it, where a word must end; inside brackets a comma may stand. -/
def scanTag
    (inBrackets : Bool)
    (cursor : Cursor) :
    Option (Token × Cursor) := do
  let (token, after) ← scanTagParts cursor
  guard (endsWord after.rest || (inBrackets && after.isAt ','))
  return (token, after)

/-- A number of one to nine decimal digits, and the place behind it. -/
def scanNumber
    (cursor : Cursor) :
    Option (Nat × Cursor) :=
  let (digits, after) := cursor.span Char.isDigit
  if digits.isEmpty || 9 < digits.length then none
  else some (digits.foldl (fun n d => 10 * n + (d.toNat - 48)) 0, after)

/-- The version behind the name of its directive. -/
def scanVersion
    (cursor : Cursor) :
    Option (Token × Cursor) := do
  let (major, point) ← scanNumber cursor.skipSpaces
  guard (point.isAt '.')
  let (minor, after) ← scanNumber point.next
  return (.version major minor, after)

/-- A handle and what it stands for, behind the name of their directive. -/
def scanHandleMeaning
    (cursor : Cursor) :
    Option (Token × Cursor) := do
  let (handle, behind) ← scanHandle cursor.skipSpaces
  guard (handle = ['!'] ∨ isClosedHandle handle)
  guard (behind.rest.head?.any isSpace)
  let (meaning, after) ← scanTagRest true [] behind.skipSpaces
  guard (endsWord after.rest)
  return (.handle (String.ofList handle) meaning, after)

/-- A line with a directive, and the place behind it. -/
def scanDirective
    (cursor : Cursor) :
    Option (Token × Cursor) := do
  let (name, behind) := cursor.next.span isWordChar
  guard (endsWord behind.rest)
  let (token, after) ←
    if name = "YAML".toList then scanVersion behind
    else if name = "TAG".toList then scanHandleMeaning behind
    else none
  return (token, ← after.skipLine?)

end NetRun.Yaml
