import NetRun.Decimal.Nearest

/-!
# The shortest digits that read back

A positive finite double is `mantissa · 2 ^ power` exactly.  Its shortest
decimal is found on the grids of 1, 2, … 17 significant digits: on each, the
two neighbours of the value are tried, and the first grid on which one reads
back as the value wins.  Of two that do, the closer one is taken, and an exact
tie goes as the format says.
-/

namespace NetRun.Decimal

/-- The mantissa and the power of two of a finite double, its sign apart. -/
def binary
    (value : Float) :
    Nat × Int :=
  let bits := value.toBits.toNat
  let significand : Nat := bits % Nat.pow 2 52
  let exponent : Nat := bits / Nat.pow 2 52 % Nat.pow 2 11
  if exponent = 0 then (significand, -1074)
  else (significand + Nat.pow 2 52, Int.ofNat exponent - 1075)

/-- The sign bit of a double is set. -/
def isNegative
    (value : Float) :
    Bool :=
  Nat.pow 2 63 ≤ value.toBits.toNat

/-- A finite double, its sign apart, as a fraction of whole numbers. -/
def ratio
    (value : Float) :
    Nat × Nat :=
  let (mantissa, power) := binary value
  if 0 ≤ power then (mantissa * Nat.pow 2 power.toNat, 1)
  else (mantissa, Nat.pow 2 (-power).toNat)

/-- A whole number of units of a power of ten. -/
structure Scaled where
  digits : Nat
  power : Int
deriving DecidableEq, Repr

/-- Which of two equally close decimals is taken. -/
inductive Tie where
  | toEven
  | awayFromZero
deriving DecidableEq, Repr

/--
The number of decimal zeros between the point and the first digit of
`numerator / denominator`, at most `fuel`.
-/
def leadingZeros :
    (fuel numerator denominator : Nat) → Nat
  | 0, _, _ => 0
  | fuel + 1, numerator, denominator =>
    if denominator ≤ numerator * 10 then 0
    else leadingZeros fuel (numerator * 10) denominator + 1

/-- The power of ten just above a positive fraction: `10 ^ (p - 1) ≤ value < 10 ^ p`. -/
def topPower
    (numerator denominator : Nat) :
    Int :=
  if denominator ≤ numerator then (Nat.toDigits 10 (numerator / denominator)).length
  else -(leadingZeros (Nat.log2 denominator + 1) numerator denominator)

/-- The positive fraction in units of a power of ten, as a new fraction. -/
def inUnits
    (numerator denominator : Nat)
    (power : Int) :
    Nat × Nat :=
  if 0 ≤ power then (numerator, denominator * Nat.pow 10 power.toNat)
  else (numerator * Nat.pow 10 (-power).toNat, denominator)

/-- The decimal reads back as the value. -/
def readsBack
    (value : Float)
    (decimal : Scaled) :
    Bool :=
  (nearest decimal.digits decimal.power).toBits == value.toBits

/-- The closest decimal of a number of significant digits that reads back, if one does. -/
def withDigits?
    (tie : Tie)
    (value : Float)
    (count : Nat) :
    Option Scaled :=
  let (numerator, denominator) := ratio value
  let power := topPower numerator denominator - count
  let (numerator, denominator) := inUnits numerator denominator power
  let below : Scaled := ⟨numerator / denominator, power⟩
  let above : Scaled := ⟨numerator / denominator + 1, power⟩
  let twice := 2 * (numerator % denominator)
  match readsBack value below, readsBack value above with
  | false, false => none
  | true, false => some below
  | false, true => some above
  | true, true =>
    if twice < denominator then some below
    else if denominator < twice then some above
    else
      match tie with
      | .awayFromZero => some above
      | .toEven => if below.digits % 2 = 0 then some below else some above

/-- All digits of a finite double: `m / 2 ^ k` is `m · 5 ^ k` units of `10 ^ (-k)`. -/
def allDigits
    (value : Float) :
    Scaled :=
  let (mantissa, power) := binary value
  if 0 ≤ power then ⟨mantissa * Nat.pow 2 power.toNat, 0⟩
  else ⟨mantissa * Nat.pow 5 (-power).toNat, power⟩

/-- Zeros at the end of the digits moved into the power, at most `fuel` of them. -/
def Scaled.strip :
    (fuel : Nat) → Scaled → Scaled
  | 0, decimal => decimal
  | fuel + 1, decimal =>
    if decimal.digits ≠ 0 ∧ decimal.digits % 10 = 0 then
      Scaled.strip fuel ⟨decimal.digits / 10, decimal.power + 1⟩
    else decimal

/--
The fewest digits that read back as a positive finite double, without zeros
at their end.  Seventeen are always enough; all digits stand behind them only
to leave no case without an answer.
-/
def shortest
    (tie : Tie)
    (value : Float) :
    Scaled :=
  let decimal := ((List.range' 1 17).findSome? (withDigits? tie value)).getD (allDigits value)
  decimal.strip (Nat.toDigits 10 decimal.digits).length

end NetRun.Decimal
