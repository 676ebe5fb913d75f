import NetRun.Decimal.Numeral
import NetRun.Yaml.Document

/-!
# Values of plain scalars

What a plain scalar means depends on what is asked for: the same text can be
read as a text or, if it has the form of one, as a number or a truth value.  A
scalar in quotes or in a block is only ever a text, unless it stands behind a bar
and its tag names what is asked for.
-/

namespace NetRun.Yaml.Node

/-- The text of a scalar that may be read as a value of a type. -/
def valueText?
    (type : String) :
    Node → Option String
  | .scalar .plain _ text => some text
  | .scalar .literal tag text => if tag = some (standardTag type) then some text else none
  | _ => none

/-- A truth value, in one of three cases. -/
def bool?
    (node : Node) :
    Option Bool :=
  (node.valueText? "bool").bind fun text =>
    if ["true", "True", "TRUE"].contains text then some true
    else if ["false", "False", "FALSE"].contains text then some false
    else none

/-- The text says that there is no value. -/
def isNullText
    (text : String) :
    Bool :=
  ["~", "null", "Null", "NULL"].contains text

/-- The value of one or more digits of a base. -/
def digits?
    (base : Nat)
    (digits : List Char) :
    Option Nat :=
  if digits.isEmpty then none
  else
    (digits.mapM fun c => (hexDigit? c).filter (· < base)).map fun values =>
      values.foldl (fun n d => base * n + d) 0

/-- A number of another base behind its mark, or decimal digits without a leading zero. -/
def unsignedText? :
    List Char → Option Nat
  | '0' :: 'x' :: rest => digits? 16 rest
  | '0' :: 'o' :: rest => digits? 8 rest
  | '0' :: 'b' :: rest => digits? 2 rest
  | ['0'] => some 0
  | '0' :: _ => none
  | text => digits? 10 text

/-- An unsigned number below a limit, behind an optional plus sign. -/
def unsigned?
    (limit : Nat)
    (node : Node) :
    Option Nat :=
  (node.valueText? "int").bind fun text =>
    (unsignedText? (Decimal.dropPlus text.toList)).filter (· < limit)

/-- An unsigned number below 2^32. -/
def word32?
    (node : Node) :
    Option UInt32 :=
  (node.unsigned? 4294967296).map UInt32.ofNat

/-- An unsigned number below 2^64. -/
def word64?
    (node : Node) :
    Option UInt64 :=
  (node.unsigned? 18446744073709551616).map UInt64.ofNat

/-- A decimal that is finite as a double. -/
def finite?
    (text : String) :
    Option Float :=
  (Decimal.real? text).filter Float.isFinite

/-- A real number: a finite decimal, or one of the words for infinity and no number. -/
def real?
    (node : Node) :
    Option Float :=
  (node.valueText? "float").bind fun text =>
    if [".inf", ".Inf", ".INF", "+.inf", "+.Inf", "+.INF"].contains text then
      some Decimal.infinity
    else if ["-.inf", "-.Inf", "-.INF"].contains text then some (-Decimal.infinity)
    else if [".nan", ".NaN", ".NAN"].contains text then some Decimal.notANumber
    else finite? text

/--
A value that may be absent.  A plain scalar without a tag is absent if it is
empty or says so; one that is tagged as absent must say so.
-/
def optional?
    {α : Type}
    (read : Node → Option α)
    (node : Node) :
    Option (Option α) :=
  let present := (read node).map some
  match node with
  | .scalar .plain none text =>
    if text.isEmpty || isNullText text then some none else present
  | .scalar .plain (some tag) text =>
    if tag != standardTag "null" then present
    else if isNullText text then some none
    else none
  | _ => present

/--
The members of a mapping, whose keys are texts, with references followed; the
empty node has none.
-/
def members?
    (anchors : Anchors) :
    Node → Option (List (String × Node))
  | .scalar .plain _ "" => some []
  | .mapping members =>
    members.mapM fun (key, value) =>
      (anchors.follow key).text?.map fun text => (text, anchors.follow value)
  | _ => none

end NetRun.Yaml.Node
