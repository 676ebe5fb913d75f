import NetRun.Decimal.Shortest

/-!
# A fixed number of places

A real number with a set number of places after the point is its exact value,
rounded to that many places; a value halfway between goes to the even one.
-/

namespace NetRun.Decimal

/-- The whole number closest to a fraction, the even one of two equally close. -/
def roundDiv
    (numerator denominator : Nat) :
    Nat :=
  let quotient := numerator / denominator
  let twice := 2 * (numerator % denominator)
  if twice < denominator then quotient
  else if denominator < twice then quotient + 1
  else quotient + quotient % 2

/-- The digits of a number of units of `10 ^ (-places)`, with the point put in. -/
def pointed
    (places units : Nat) :
    List Char :=
  let digits := Nat.toDigits 10 units
  let padded := List.replicate (places + 1 - digits.length) '0' ++ digits
  let whole := padded.length - places
  padded.take whole ++ '.' :: padded.drop whole

/-- The text of a real number with a set number of places after the point. -/
def writePlaces
    (places : Nat)
    (value : Float) :
    String :=
  if value.isNaN then "NaN"
  else
    let magnitude :=
      if value.isInf then "inf".toList
      else
        let (numerator, denominator) := ratio value
        pointed places (roundDiv (numerator * Nat.pow 10 places) denominator)
    String.ofList (if isNegative value then '-' :: magnitude else magnitude)

end NetRun.Decimal
