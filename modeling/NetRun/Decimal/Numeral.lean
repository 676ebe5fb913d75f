import NetRun.Decimal.Nearest

/-!
# Reading real numbers

The text of a real number is an optional sign and then either digits with an
optional point and an optional exponent, or one of the words `inf`, `infinity`
and `nan` in any case.  At least one digit stands before or after the point,
and at least one in an exponent.  No blanks, separators or other bases.
-/

namespace NetRun.Decimal

/-- A whole number with an optional sign of either kind. -/
def integer? :
    List Char → Option Int
  | '-' :: digits => (natural? digits).map fun n => -Int.ofNat n
  | text => (unsigned? text).map Int.ofNat

/-- The exponent behind a mantissa: absent, or a whole number behind `e` or `E`. -/
def exponent? :
    List Char → Option Int
  | [] => some 0
  | c :: text => if c == 'e' || c == 'E' then integer? text else none

/-- The digits behind a point, if there is one, and the text after them. -/
def fraction :
    List Char → List Char × List Char
  | '.' :: rest => (rest.takeWhile Char.isDigit, rest.dropWhile Char.isDigit)
  | rest => ([], rest)

/-- The mantissa and the power of ten that an unsigned decimal text denotes. -/
def scientific?
    (text : List Char) :
    Option (Nat × Int) :=
  let whole := text.takeWhile Char.isDigit
  let (places, rest) := fraction (text.dropWhile Char.isDigit)
  if whole.isEmpty && places.isEmpty then none
  else
    (exponent? rest).map fun exponent =>
      (digitsValue (whole ++ places), exponent - places.length)

/-- The value of an unsigned text: a word for infinity or no number, or a decimal. -/
def magnitude?
    (text : List Char) :
    Option Float :=
  let word := text.map Char.toLower
  if word == "inf".toList || word == "infinity".toList then some infinity
  else if word == "nan".toList then some notANumber
  else (scientific? text).map fun (mantissa, exponent) => nearest mantissa exponent

/-- The real number that a text denotes, rounded to the closest double. -/
def real?
    (text : String) :
    Option Float :=
  match text.toList with
  | '-' :: rest => (magnitude? rest).map (signed true)
  | rest => (magnitude? (dropPlus rest)).map (signed false)

end NetRun.Decimal
