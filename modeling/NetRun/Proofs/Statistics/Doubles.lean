import NetRun.Statistics.Quantity
import Mathlib

/-!
# Bounds on doubles

A double that is counted or multiplied is rounded, and rounding raises a bound
of one or more by a thousandth at most.  So a share of a count that is clearly
less than the whole stays below the count when it is worked out in doubles,
whatever the count: beyond all finite doubles it is infinite, and its whole
part is then the largest that there is.
-/

namespace NetRun.Doubles

open Float.Model
open Float.Model.UnpackedFloat

/--
A double is no more than a bound, its sign apart; infinity counts as `huge`, and
what is no number exceeds no bound.
-/
def AtMost
    (huge bound : ℚ) :
    UnpackedFloat → Prop
  | .finite _ mantissa exponent _ => (mantissa : ℚ) * 2 ^ exponent ≤ bound
  | .infinity _ => huge ≤ bound
  | .zero _ => 0 ≤ bound
  | .notANumber => True

variable
    {huge bound : ℚ}

theorem AtMost.mono
    {value : UnpackedFloat}
    (atMost : AtMost huge bound value)
    {higher : ℚ}
    (le : bound ≤ higher) :
    AtMost huge higher value := by
  cases value with
  | notANumber => trivial
  | infinity => exact le_trans atMost le
  | zero => exact le_trans atMost le
  | finite => exact le_trans atMost le

theorem atMost_zero_or_finite
    (nonneg : 0 ≤ bound)
    (sign : Sign)
    {mantissa : Nat}
    {exponent : Int}
    (within : (mantissa : ℚ) * 2 ^ exponent ≤ bound)
    {isZero : Prop}
    [Decidable isZero]
    (positive : ¬ isZero → 0 < mantissa) :
    AtMost huge bound
      (if none : isZero then .zero sign
        else .finite sign mantissa exponent (positive none)) := by
  by_cases none : isZero
  · rw [dif_pos none]
    exact nonneg
  · rw [dif_neg none]
    exact within

/-! ## Rounding -/

/-- Dropping binary digits divides the mantissa. -/
theorem mantissa_shiftRight
    (digits : ExtendedMantissa)
    (amount : Nat) :
    (digits >>> amount).mantissa = digits.mantissa / 2 ^ amount := by
  change (amount.repeat ExtendedMantissa.shiftRightOne digits).mantissa = _
  induction amount with
  | zero => rw [Nat.repeat, Nat.pow_zero, Nat.div_one]
  | succ amount induction =>
      rw [Nat.repeat, ExtendedMantissa.shiftRightOne, induction, Nat.pow_succ,
        Nat.div_div_eq_div_mul]

theorem roundedMantissa_le
    (digits : ExtendedMantissa) :
    digits.roundedMantissa ≤ digits.mantissa + 1 := by
  rcases digits with ⟨mantissa, round, sticky⟩
  cases round <;> cases sticky <;>
    simp only [ExtendedMantissa.roundedMantissa, ExtendedMantissa.accuracy,
      Accuracy.roundToNearestEven] <;>
    omega

theorem le_roundedMantissa
    (digits : ExtendedMantissa) :
    digits.mantissa ≤ digits.roundedMantissa := by
  rcases digits with ⟨mantissa, round, sticky⟩
  cases round <;> cases sticky <;>
    simp only [ExtendedMantissa.roundedMantissa, ExtendedMantissa.accuracy,
      Accuracy.roundToNearestEven] <;>
    omega

/-- Fewer digits of a greater unit are worth no more. -/
theorem div_mul_zpow_le
    (mantissa amount : Nat)
    (exponent : Int) :
    ((mantissa / 2 ^ amount : Nat) : ℚ) * 2 ^ (exponent + amount) ≤
      (mantissa : ℚ) * 2 ^ exponent := by
  have whole : ((mantissa / 2 ^ amount : Nat) : ℚ) * 2 ^ amount ≤ mantissa := by
    exact_mod_cast Nat.div_mul_le_self mantissa (2 ^ amount)
  have unit : (0 : ℚ) ≤ 2 ^ exponent := by positivity
  rw [zpow_add₀ two_ne_zero, zpow_natCast, mul_comm ((2 : ℚ) ^ exponent), ← mul_assoc]
  exact mul_le_mul_of_nonneg_right whole unit

/-- Digits are kept from the leading one on, as many as a mantissa has. -/
theorem targetExponent_totalExponent
    (mantissa : Nat)
    (exponent : Int) :
    Format.binary64.targetExponent (totalExponent mantissa exponent) =
      max ((mantissa.log2 : Int) + exponent - 52) (-1074) := by
  have width : (Format.binary64.mantissaBits : Int) = 53 := rfl
  rw [Format.targetExponent, totalExponent, width]
  change max ((mantissa.log2 : Int) + 1 + exponent - 53) (-1074) = _
  congr 1
  ring

/-- Where digits are dropped, a unit of what is left is at most a thousandth of the bound. -/
theorem zpow_targetExponent_le
    (large : 1 ≤ bound)
    {mantissa : Nat}
    {exponent : Int}
    (within : (mantissa : ℚ) * 2 ^ exponent ≤ bound)
    (drops : exponent < Format.binary64.targetExponent (totalExponent mantissa exponent)) :
    (2 : ℚ) ^ Format.binary64.targetExponent (totalExponent mantissa exponent) ≤
      bound / 1000 := by
  rw [targetExponent_totalExponent] at drops ⊢
  rcases max_cases ((mantissa.log2 : Int) + exponent - 52) (-1074) with
    ⟨isTop, -⟩ | ⟨isLeast, -⟩
  · rw [isTop] at drops ⊢
    have positive : mantissa ≠ 0 := by
      rintro rfl
      rw [Nat.log2_zero] at drops
      omega
    have top : ((2 : ℚ) ^ mantissa.log2) ≤ mantissa := by
      exact_mod_cast Nat.log2_self_le positive
    have unit : (0 : ℚ) ≤ 2 ^ exponent := by positivity
    have leading := (mul_le_mul_of_nonneg_right top unit).trans within
    rw [sub_eq_add_neg, zpow_add₀ two_ne_zero, zpow_add₀ two_ne_zero, zpow_natCast]
    have small : (2 : ℚ) ^ (-52 : Int) ≤ 1 / 1000 := by norm_num
    calc
      (2 : ℚ) ^ mantissa.log2 * 2 ^ exponent * 2 ^ (-52 : Int) ≤ bound * (1 / 1000) :=
        mul_le_mul leading small (by positivity) (by linarith)
      _ = bound / 1000 := by ring
  · rw [isLeast]
    calc
      (2 : ℚ) ^ (-1074 : Int) ≤ 2 ^ (-10 : Int) := zpow_le_zpow_right₀ one_le_two (by decide)
      _ ≤ 1 / 1000 := by norm_num
      _ ≤ bound / 1000 := by linarith

/-- Rounding exceeds a bound of one or more by a thousandth at most. -/
theorem atMost_roundWithAccuracy
    (large : 1 ≤ bound)
    {mantissa : Nat}
    {exponent : Int}
    (within : (mantissa : ℚ) * 2 ^ exponent ≤ bound)
    (sign : Sign) :
    AtMost huge (bound * (1001 / 1000))
      (roundWithAccuracy Format.binary64 sign mantissa exponent .exact) := by
  unfold roundWithAccuracy shiftToTargetExponent shiftToExponent
  dsimp only
  refine atMost_zero_or_finite (by positivity) sign ?_ _
  rw [mantissa_shiftRight]
  refine (div_mul_zpow_le _ _ _).trans ?_
  have unit := zpow_targetExponent_le large within
  generalize Format.binary64.targetExponent (totalExponent mantissa exponent) = target at unit ⊢
  rcases le_or_gt target exponent with kept | drops
  · -- No digit is dropped, and the value is as it was.
    rw [Int.toNat_of_nonpos (sub_nonpos.2 kept)]
    change ((mantissa : Nat) : ℚ) * 2 ^ (exponent + 0) ≤ _
    rw [add_zero]
    linarith
  · have amount : exponent + ((target - exponent).toNat : Int) = target := by omega
    have rounded :=
      roundedMantissa_le
        (ExtendedMantissa.ofMantissaAndAccuracy mantissa .exact >>> (target - exponent).toNat)
    rw [mantissa_shiftRight] at rounded
    change _ ≤ mantissa / 2 ^ (target - exponent).toNat + 1 at rounded
    have dropped := div_mul_zpow_le mantissa (target - exponent).toNat exponent
    rw [amount] at dropped ⊢
    have nonneg : (0 : ℚ) ≤ 2 ^ target := by positivity
    calc
      _ ≤ ((mantissa / 2 ^ (target - exponent).toNat + 1 : Nat) : ℚ) * 2 ^ target :=
        mul_le_mul_of_nonneg_right (by exact_mod_cast rounded) nonneg
      _ = ((mantissa / 2 ^ (target - exponent).toNat : Nat) : ℚ) * 2 ^ target +
          2 ^ target := by push_cast; ring
      _ ≤ bound + bound / 1000 := add_le_add (dropped.trans within) (unit drops)
      _ = bound * (1001 / 1000) := by ring

/-! ## Packing -/

/-- What is packed without a leading digit is worth less than one. -/
theorem atMost_unpack_zero_exponent
    (large : 1 ≤ bound)
    (sign : Sign)
    (digits : BitVec 52) :
    AtMost huge bound
      (UnpackedFloat.unpack Format.binary64
        (packComponents Format.binary64 sign 0#11 digits)) := by
  have proper : ¬ (0#11 : BitVec 11) = -1#11 := by decide
  unfold UnpackedFloat.unpack
  dsimp only
  rw [unpackExponent_packComponents, if_neg proper, if_pos rfl]
  refine atMost_zero_or_finite (by linarith) _ ?_ _
  rw [unpackMantissa_packComponents]
  have few : ((digits.toNat : Nat) : ℚ) ≤ 2 ^ 52 := by
    exact_mod_cast digits.isLt.le
  have unit : (2 : ℚ) ^ (-1074 : Int) ≤ 2 ^ (-52 : Int) :=
    zpow_le_zpow_right₀ one_le_two (by decide)
  calc
    (digits.toNat : ℚ) * 2 ^ (-1074 : Int) ≤ 2 ^ 52 * 2 ^ (-52 : Int) :=
      mul_le_mul few unit (by positivity) (by positivity)
    _ = 1 := by norm_num
    _ ≤ bound := large

theorem atMost_unpack_packedInfinity
    (beyond : huge ≤ bound)
    (sign : Sign) :
    AtMost huge bound
      (UnpackedFloat.unpack Format.binary64 (packedInfinity Format.binary64 sign)) := by
  unfold UnpackedFloat.unpack packedInfinity
  dsimp only
  rw [unpackExponent_packComponents, if_pos rfl, unpackMantissa_packComponents]
  exact beyond

/-- The leading digit of a mantissa is put back in front of the others. -/
theorem toNat_leading_append
    {mantissa : Nat}
    (width : mantissa.log2 + 1 = 53) :
    (1#1 ++ BitVec.ofNat 52 mantissa).toNat = mantissa := by
  have positive : mantissa ≠ 0 := by
    rintro rfl
    rw [Nat.log2_zero] at width
    omega
  have above := Nat.log2_self_le positive
  have below := Nat.lt_log2_self (n := mantissa)
  rw [show mantissa.log2 = 52 by omega] at above below
  rw [BitVec.toNat_append, ← Nat.shiftLeft_add_eq_or_of_lt (BitVec.isLt _), BitVec.toNat_ofNat]
  norm_num at above below ⊢
  omega

/-- What is packed with a leading digit is unpacked as it was. -/
theorem unpack_packComponents
    {mantissa power : Nat}
    (width : mantissa.log2 + 1 = 53)
    (some : power ≠ 0)
    (finite : power < 2047)
    (sign : Sign)
    (positive : 0 < mantissa) :
    UnpackedFloat.unpack Format.binary64
        (packComponents Format.binary64 sign (BitVec.ofNat 11 power)
          (BitVec.ofNat 52 mantissa)) =
      .finite sign mantissa ((power : Int) - 1075) positive := by
  have number : (BitVec.ofNat 11 power).toNat = power := by
    rw [BitVec.toNat_ofNat]
    omega
  have notTop : ¬ BitVec.ofNat 11 power = -1#11 := by
    intro equal
    have numbers := congrArg BitVec.toNat equal
    rw [number] at numbers
    change power = 2047 at numbers
    omega
  have notLeast : ¬ BitVec.ofNat 11 power = 0#11 := by
    intro equal
    have numbers := congrArg BitVec.toNat equal
    rw [number] at numbers
    exact some numbers
  unfold UnpackedFloat.unpack
  dsimp only
  rw [unpackExponent_packComponents, if_neg notTop, if_neg notLeast, number]
  rw [UnpackedFloat.finite.injEq]
  refine ⟨?_, ?_, rfl⟩
  · rw [unpackSign_packComponents, Sign.ofBitVec_toBitVec]
  · rw [unpackMantissa_packComponents]
    exact toNat_leading_append width

/-- What is too large is packed as infinite, and what has too few digits with the least exponent. -/
theorem pack_finite
    (sign : Sign)
    {mantissa : Nat}
    (exponent : Int)
    (positive : 0 < mantissa) :
    UnpackedFloat.pack Format.binary64 (.finite sign mantissa exponent positive) =
      if 2 ^ 11 ≤ (exponent + 1075).toNat + 1 then packedInfinity Format.binary64 sign
      else
        if mantissa.log2 + 1 = 53 then
          packComponents Format.binary64 sign (BitVec.ofNat 11 (exponent + 1075).toNat)
            (BitVec.ofNat 52 mantissa)
        else packComponents Format.binary64 sign 0#11 (BitVec.ofNat 52 mantissa) := by
  have biased :
      exponent + (Format.binary64.exponentBias : Int) + (52 : Nat) = exponent + 1075 := by
    change exponent + 1023 + 52 = exponent + 1075
    omega
  unfold UnpackedFloat.pack
  dsimp only
  rw [biased]
  rfl

/-- Packing leaves a bound of one or more in place. -/
theorem atMost_unpack_pack
    (large : 1 ≤ bound)
    (hugeLe : huge ≤ 2 ^ 970)
    {value : UnpackedFloat}
    (atMost : AtMost huge bound value) :
    AtMost huge bound
      (UnpackedFloat.unpack Format.binary64 (UnpackedFloat.pack Format.binary64 value)) := by
  cases value with
  | notANumber => exact trivial
  | infinity sign => exact atMost_unpack_packedInfinity atMost sign
  | zero sign => exact atMost_unpack_zero_exponent large sign 0
  | finite sign mantissa exponent positive =>
      rw [pack_finite]
      split
      case isTrue overflows =>
        have high : 970 ≤ exponent := by omega
        have some : (1 : ℚ) ≤ mantissa := by exact_mod_cast positive
        apply atMost_unpack_packedInfinity
        calc
          huge ≤ 1 * 2 ^ (970 : Int) := by rw [one_mul]; exact_mod_cast hugeLe
          _ ≤ mantissa * 2 ^ exponent :=
            mul_le_mul some (zpow_le_zpow_right₀ one_le_two high) (by positivity) (by positivity)
          _ ≤ bound := atMost
      case isFalse fits =>
        split
        case isFalse => exact atMost_unpack_zero_exponent large sign _
        case isTrue width =>
          by_cases least : (exponent + 1075).toNat = 0
          · rw [least]
            exact atMost_unpack_zero_exponent large sign _
          · rw [unpack_packComponents width least (by omega) sign positive,
              show ((exponent + 1075).toNat : Int) - 1075 = exponent by omega]
            exact atMost

/-! ## Products and counts -/

/-- A share of what is at most a bound is at most that share of the bound, but for rounding. -/
theorem atMost_mul
    {mantissa : Nat}
    {exponent : Int}
    {portion : ℚ}
    (part : (mantissa : ℚ) * 2 ^ exponent ≤ portion)
    (large : 1 ≤ portion * bound)
    {value : UnpackedFloat}
    (atMost : AtMost huge bound value)
    (sign : Sign)
    (positive : 0 < mantissa) :
    AtMost (portion * huge) (portion * bound * (1001 / 1000))
      (UnpackedFloat.mul Format.binary64 (.finite sign mantissa exponent positive) value) := by
  have nonneg : 0 ≤ portion := le_trans (by positivity) part
  cases value with
  | notANumber => trivial
  | infinity =>
      have scaled := mul_le_mul_of_nonneg_left atMost nonneg
      change portion * huge ≤ _
      linarith
  | zero =>
      change 0 ≤ portion * bound * (1001 / 1000)
      linarith
  | finite otherSign otherMantissa otherExponent =>
      apply atMost_roundWithAccuracy large
      calc
        ((mantissa * otherMantissa : Nat) : ℚ) * 2 ^ (exponent + otherExponent) =
            (mantissa * 2 ^ exponent) * (otherMantissa * 2 ^ otherExponent) := by
          rw [zpow_add₀ two_ne_zero]
          push_cast
          ring
        _ ≤ portion * bound := mul_le_mul part atMost (by positivity) nonneg

theorem mul_comm_unpacked
    (a b : UnpackedFloat) :
    UnpackedFloat.mul Format.binary64 a b = UnpackedFloat.mul Format.binary64 b a := by
  have signs (s t : Sign) : s * t = t * s := by
    cases s <;> cases t <;> rfl
  cases a <;> cases b <;> dsimp only [UnpackedFloat.mul] <;>
    simp only [signs, Nat.mul_comm, Int.add_comm]

/-- The double is no more than a bound, its sign apart. -/
def IsAtMost
    (huge bound : ℚ)
    (value : Float) :
    Prop :=
  AtMost huge bound value.toModel.unpack

/-- The double is finite, not zero and at most `units` times `2 ^ power`, its sign apart. -/
def isShare
    (units : Nat)
    (power : Int)
    (share : Float) :
    Bool :=
  match share.toModel.unpack with
  | .finite _ mantissa exponent _ => decide (mantissa ≤ units) && decide (exponent ≤ power)
  | _ => false

section Share

variable
    {units : Nat}
    {power : Int}
    {share value : Float}
    (isPart : isShare units power share = true)
    (atMost : IsAtMost huge bound value)
    (large : 1 ≤ (units * 2 ^ power : ℚ) * bound)
    (hugeLe : (units * 2 ^ power : ℚ) * huge ≤ 2 ^ 970)

include isPart atMost large

/-- A share of what is at most a bound is at most that share of the bound, but for rounding. -/
theorem atMost_share_mul :
    AtMost ((units * 2 ^ power : ℚ) * huge) ((units * 2 ^ power : ℚ) * bound * (1001 / 1000))
      (UnpackedFloat.mul Format.binary64 share.toModel.unpack value.toModel.unpack) := by
  rw [isShare] at isPart
  split at isPart
  case h_1 sign mantissa exponent positive unpacked =>
    rw [Bool.and_eq_true, decide_eq_true_iff, decide_eq_true_iff] at isPart
    rcases isPart with ⟨few, low⟩
    have part : (mantissa : ℚ) * 2 ^ exponent ≤ units * 2 ^ power :=
      mul_le_mul (by exact_mod_cast few) (zpow_le_zpow_right₀ one_le_two low) (by positivity)
        (by positivity)
    rw [unpacked]
    exact atMost_mul part large atMost sign positive
  case h_2 => cases isPart

include hugeLe

theorem isAtMost_share_mul :
    IsAtMost ((units * 2 ^ power : ℚ) * huge) ((units * 2 ^ power : ℚ) * bound * (1001 / 1000))
      (share * value) :=
  atMost_unpack_pack (by linarith) hugeLe (atMost_share_mul isPart atMost large)

theorem isAtMost_mul_share :
    IsAtMost ((units * 2 ^ power : ℚ) * huge) ((units * 2 ^ power : ℚ) * bound * (1001 / 1000))
      (value * share) := by
  have product := atMost_share_mul isPart atMost large
  rw [mul_comm_unpacked] at product
  exact atMost_unpack_pack (by linarith) hugeLe product

end Share

/-- A count is rounded as it is. -/
theorem normalize_natCast
    {count : Nat}
    (some : count ≠ 0)
    (exponent : Int)
    (zeroSign : Sign) :
    UnpackedFloat.normalize Format.binary64 (count : Int) exponent zeroSign =
      UnpackedFloat.round Format.binary64 .positive count exponent := by
  have isSome : compare (count : Int) 0 = .gt := Int.compare_eq_gt.2 (by omega)
  rw [UnpackedFloat.normalize, isSome]
  rfl

/-- A count as a double, before it is packed. -/
theorem atMost_ofNat
    {count : Nat}
    (some : 1 ≤ count) :
    AtMost huge (count * (1001 / 1000)) (UnpackedFloat.ofNat Format.binary64 count) := by
  have large : (1 : ℚ) ≤ count := by exact_mod_cast some
  rw [UnpackedFloat.ofNat, UnpackedFloat.ofInt, normalize_natCast (by omega)]
  apply atMost_roundWithAccuracy large
  generalize (0 - Format.targetExponent _ _).toNat = amount
  rw [Nat.shiftLeft_eq, zero_sub, zpow_neg, zpow_natCast]
  push_cast
  rw [mul_inv_cancel_right₀ (by positivity)]

/-- A count read as a decimal, before it is packed. -/
theorem atMost_ofScientific
    {count : Nat}
    (some : 1 ≤ count) :
    AtMost huge (count * (1001 / 1000)) (UnpackedFloat.ofScientific Format.binary64 count 0) := by
  have large : (1 : ℚ) ≤ count := by exact_mod_cast some
  have power : (0 : Int) ≤ 2 ^ Format.binary64.exponentBits := by positivity
  have notZero : ¬ count = 0 := by omega
  have noOverflow : ¬ (0 : Int) > 2 ^ Format.binary64.exponentBits := not_lt_of_ge power
  have noUnderflow : ¬ (0 : Int) < -(2 ^ Format.binary64.exponentBits + (count.log2 : Int)) := by
    omega
  rw [UnpackedFloat.ofScientific, dif_neg notZero, if_neg noOverflow, if_neg noUnderflow,
    if_pos (le_refl (0 : Int))]
  unfold UnpackedFloat.mul
  refine atMost_roundWithAccuracy large ?_ _
  rw [Nat.shiftLeft_eq, Int.toNat_zero, Nat.pow_zero, Nat.mul_one, add_zero, zpow_neg,
    zpow_natCast]
  push_cast
  rw [mul_inv_cancel_right₀ (by positivity)]

/-- A count as a double exceeds the count by no more than two roundings make of it. -/
theorem isAtMost_ofCount
    {count : Nat}
    (some : 1 ≤ count) :
    IsAtMost (2 ^ 970) (count * (1001 / 1000) * (1001 / 1000)) (Quantity.ofCount count) := by
  have large : (1 : ℚ) ≤ count := by exact_mod_cast some
  change IsAtMost _ _ (Float.ofScientific count false 0)
  rw [Float.ofScientific]
  split
  case isTrue small =>
    have fits : count.toUInt64.toNat = count :=
      UInt64.toNat_ofNat_of_lt' (Nat.lt_trans small.1 (by norm_num))
    have converted :
        IsAtMost (2 ^ 970) (count * (1001 / 1000)) count.toUInt64.toFloat := by
      apply atMost_unpack_pack (by linarith) le_rfl
      rw [UnpackedFloat.ofUInt64, fits]
      exact atMost_ofNat some
    have one : isShare 4503599627370496 (-52) Float.exactlyRepresentablePowersOfTen[0] = true := by
      decide +kernel
    have unit : ((4503599627370496 : Nat) : ℚ) * 2 ^ (-52 : Int) = 1 := by norm_num
    have product := isAtMost_mul_share one converted
    rw [unit, one_mul, one_mul] at product
    exact product (by linarith) le_rfl
  case isFalse =>
    apply atMost_unpack_pack (by linarith) le_rfl
    have read : AtMost (2 ^ 970) (count * (1001 / 1000))
        (UnpackedFloat.ofScientific Format.binary64 count 0) := atMost_ofScientific some
    exact read.mono (by linarith)

/-! ## Whole parts -/

theorem toNat_apply_le
    (sign : Sign)
    (magnitude : Nat) :
    (sign.apply magnitude).toNat ≤ magnitude := by
  cases sign with
  | negative =>
      change (-(magnitude : Int)).toNat ≤ magnitude
      omega
  | positive =>
      change (magnitude : Int).toNat ≤ magnitude
      omega

/-- Cutting off at the point leaves no more than there was. -/
theorem toNat_roundToInt_le
    (sign : Sign)
    (mantissa : Nat)
    (exponent : Int) :
    ((roundToInt sign mantissa exponent).toNat : ℚ) ≤ mantissa * 2 ^ exponent := by
  have kept := div_mul_zpow_le (mantissa <<< (exponent - 0).toNat)
    (0 - (exponent - ((exponent - 0).toNat : Int))).toNat (exponent - ((exponent - 0).toNat : Int))
  have atPoint :
      exponent - ((exponent - 0).toNat : Int) +
        ((0 - (exponent - ((exponent - 0).toNat : Int))).toNat : Int) = 0 := by
    omega
  rw [atPoint, zpow_zero, mul_one, Nat.shiftLeft_eq, zpow_sub₀ two_ne_zero, zpow_natCast] at kept
  have same :
      ((mantissa * 2 ^ (exponent - 0).toNat : Nat) : ℚ) *
          (2 ^ exponent / 2 ^ (exponent - 0).toNat) =
        mantissa * 2 ^ exponent := by
    have unit : (2 : ℚ) ^ (exponent - 0).toNat ≠ 0 := by positivity
    push_cast
    rw [mul_assoc, mul_div_cancel₀ _ unit]
  rw [same] at kept
  refine le_trans ?_ kept
  unfold roundToInt decreaseExponent shiftToExponent
  dsimp only
  rw [mantissa_shiftRight, ← Nat.shiftLeft_eq]
  exact_mod_cast toNat_apply_le sign _

theorem toNat_ofNatClamp_le
    (number : Nat) :
    (UInt64.ofNatClamp number).toNat ≤ number := by
  rcases Nat.lt_or_ge number UInt64.size with fits | large
  · rw [UInt64.toNat_ofNatClamp_of_lt fits]
  · exact (Nat.le_of_lt (UInt64.ofNatClamp number).toNat_lt_size).trans large

/-- A double is no less than its whole part. -/
theorem wholePart_le
    (hugeLarge : 2 ^ 64 ≤ huge)
    (nonneg : 0 ≤ bound)
    {value : Float}
    (atMost : IsAtMost huge bound value) :
    (Quantity.wholePart value : ℚ) ≤ bound := by
  change ((UInt64.ofNatClamp (toInt 0 (UInt64.size - 1) value.toModel.unpack).toNat).toNat : ℚ) ≤ _
  rw [IsAtMost] at atMost
  refine le_trans (Nat.cast_le.2 (toNat_ofNatClamp_le _)) ?_
  generalize value.toModel.unpack = unpacked at atMost ⊢
  cases unpacked with
  | notANumber => exact nonneg
  | zero => exact nonneg
  | finite sign mantissa exponent => exact (toNat_roundToInt_le _ _ _).trans atMost
  | infinity sign =>
      cases sign with
      | negative => exact nonneg
      | positive =>
          refine le_trans ?_ (hugeLarge.trans atMost)
          change (((2 ^ 64 - 1 : Int).toNat : Nat) : ℚ) ≤ 2 ^ 64
          norm_num

/-! ## Shares of a count -/

/-- The whole part of 99 hundredths of a count, or of less, is below the count. -/
theorem wholePart_share_mul_lt
    {share : Float}
    (isPart : isShare 8918027982119056 (-53) share = true)
    {count : Nat}
    (several : 2 ≤ count) :
    Quantity.wholePart (share * Quantity.ofCount count) < count := by
  have large : (2 : ℚ) ≤ count := by exact_mod_cast several
  have unit : ((8918027982119056 : Nat) : ℚ) * 2 ^ (-53 : Int) = 557376748882441 / 562949953421312 := by
    norm_num
  have product := isAtMost_share_mul isPart (isAtMost_ofCount (Nat.le_of_succ_le several))
  rw [unit] at product
  have hugeLarge : (2 : ℚ) ^ 64 ≤ 557376748882441 / 562949953421312 * 2 ^ 970 :=
    calc
      (2 : ℚ) ^ 64 ≤ 557376748882441 / 562949953421312 * 2 ^ 65 := by norm_num
      _ ≤ 557376748882441 / 562949953421312 * 2 ^ 970 :=
        mul_le_mul_of_nonneg_left (pow_le_pow_right₀ one_le_two (by decide)) (by norm_num)
  have whole := wholePart_le hugeLarge (by positivity) (product (by linarith) (by norm_num))
  have below : (Quantity.wholePart (share * Quantity.ofCount count) : ℚ) < count := by
    linarith
  exact_mod_cast below

end NetRun.Doubles
