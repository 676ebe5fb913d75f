import NetRun.Decimal.Shortest

/-!
# Laying out a real number

One function writes the shortest digits of a double; a record states the
decisions that differ between the outputs of the program: which values are
written positionally, whether a whole number keeps a fraction, how a positive
exponent is marked and which way ties go.
-/

namespace NetRun.Decimal

/-- The decisions of one way to write a real number. -/
structure Layout where
  /-- The exponents of the leading digit that are written positionally; all if absent. -/
  positional : Option (Int × Int)
  /-- A whole number in positional form ends in `.0`. -/
  keepFraction : Bool
  /-- What stands in front of an exponent that is not negative. -/
  exponentMark : String
  /-- Which of two equally close shortest decimals is written. -/
  tie : Tie
deriving DecidableEq, Repr

/-- Digits around a point that stands before, inside or behind them. -/
def placePoint
    (keepFraction : Bool)
    (digits : List Char)
    (point : Int) :
    List Char :=
  if point ≤ 0 then '0' :: '.' :: (List.replicate (-point).toNat '0' ++ digits)
  else if digits.length ≤ point then
    digits ++ List.replicate (point.toNat - digits.length) '0' ++
      (if keepFraction then ['.', '0'] else [])
  else digits.take point.toNat ++ '.' :: digits.drop point.toNat

/-- One digit, the others behind a point if there are any, and the exponent. -/
def placeExponent
    (mark : String)
    (digits : List Char)
    (exponent : Int) :
    List Char :=
  let tail := digits.drop 1
  digits.take 1 ++ (if tail.isEmpty then [] else '.' :: tail) ++
    'e' :: (if exponent < 0 then [] else mark.toList) ++ (toString exponent).toList

/-- The text of a positive finite double. -/
def Layout.positive
    (layout : Layout)
    (value : Float) :
    List Char :=
  let decimal := shortest layout.tie value
  let digits := Nat.toDigits 10 decimal.digits
  let point := digits.length + decimal.power
  let inWindow := layout.positional.all fun (least, most) =>
    decide (least ≤ point - 1) && decide (point - 1 ≤ most)
  if inWindow then placePoint layout.keepFraction digits point
  else placeExponent layout.exponentMark digits (point - 1)

/-- The text of a double; zero keeps its sign and a value that is no number has none. -/
def Layout.write
    (layout : Layout)
    (value : Float) :
    String :=
  if value.isNaN then "NaN"
  else
    let magnitude :=
      if value.isInf then "inf".toList
      else if value == 0.0 then (if layout.keepFraction then "0.0" else "0").toList
      else layout.positive (signed (isNegative value) value)
    String.ofList (if isNegative value then '-' :: magnitude else magnitude)

/--
Tables: whole numbers keep a fraction, and values below 0.0001 or from 10^16
on are written with an exponent.
-/
def tabular :
    Layout :=
  ⟨some (-4, 15), true, "", .awayFromZero⟩

/-- Running text: digits and, where needed, a point, whatever the size. -/
def plain :
    Layout :=
  ⟨none, false, "", .awayFromZero⟩

end NetRun.Decimal
