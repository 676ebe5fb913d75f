/-!
# Whole numbers in decimal

Reading and bounding of unsigned decimal numbers: an optional plus sign and
one or more ASCII digits, without limit on leading zeros.  A number that does
not fit its word is refused like a text that is no number.
-/

namespace NetRun.Decimal

/-- The value of a run of digits, the first being the most significant. -/
def digitsValue
    (digits : List Char) :
    Nat :=
  digits.foldl (fun value digit => 10 * value + (digit.toNat - 48)) 0

/-- The text without one leading plus sign. -/
def dropPlus :
    List Char → List Char
  | '+' :: rest => rest
  | text => text

/-- One or more decimal digits, and nothing else. -/
def natural?
    (text : List Char) :
    Option Nat :=
  if !text.isEmpty && text.all Char.isDigit then some (digitsValue text) else none

/-- Decimal digits behind an optional plus sign. -/
def unsigned?
    (text : List Char) :
    Option Nat :=
  natural? (dropPlus text)

/-- An unsigned number below 2^32. -/
def word32?
    (text : String) :
    Option UInt32 :=
  (unsigned? text.toList).bind fun n =>
    if n < 4294967296 then some (UInt32.ofNat n) else none

/-- An unsigned number below 2^64. -/
def word64?
    (text : String) :
    Option UInt64 :=
  (unsigned? text.toList).bind fun n =>
    if n < 18446744073709551616 then some (UInt64.ofNat n) else none

end NetRun.Decimal
