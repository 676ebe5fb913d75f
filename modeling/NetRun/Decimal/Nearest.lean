import NetRun.Decimal.Natural

/-!
# The double closest to a decimal

A decimal is a mantissa and a power of ten.  Its double is the closest one,
the even one of two that are equally close; it is infinite from half a step
above the largest finite double on, and zero up to half the smallest positive
one.
-/

namespace NetRun.Decimal

/-- Positive infinity. -/
def infinity :
    Float :=
  Float.ofBits 0x7FF0000000000000

/-- The one value that is no number. -/
def notANumber :
    Float :=
  Float.ofBits 0x7FF8000000000000

/--
The double closest to `mantissa · 10 ^ exponent`.  Values of more than 310
digits before the point are infinite and those that start 330 places after it
are zero, whatever the mantissa, so no power of ten beyond these is formed.
-/
def nearest
    (mantissa : Nat)
    (exponent : Int) :
    Float :=
  if mantissa = 0 then 0.0
  else
    let leading := (Nat.toDigits 10 mantissa).length + exponent
    if 310 < leading then infinity
    else if leading < -330 then 0.0
    else if 0 ≤ exponent then Float.ofScientific mantissa false exponent.toNat
    else Float.ofScientific mantissa true (-exponent).toNat

/-- A value with the sign that its text carries. -/
def signed
    (negative : Bool)
    (value : Float) :
    Float :=
  if negative then -value else value

end NetRun.Decimal
