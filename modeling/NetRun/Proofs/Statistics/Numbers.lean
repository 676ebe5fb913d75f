import NetRun.Proofs.Statistics.Sums

/-!
# Doubles that are no number

Rounding and packing make no double that is no number.  A time that is weighed
with a count is therefore a number unless the time is none itself, or is infinite
and weighed with zero.  A sum with a summand that is no number is none, and is
not bounded by anything.
-/

namespace NetRun.Doubles

open Float.Model
open Float.Model.UnpackedFloat

/-! ## Packing and rounding -/

theorem unpack_packComponents_ne_notANumber
    (sign : Sign)
    {power : BitVec 11}
    (finite : power ≠ -1#11)
    (digits : BitVec 52) :
    UnpackedFloat.unpack Format.binary64 (packComponents Format.binary64 sign power digits) ≠
      .notANumber := by
  unfold UnpackedFloat.unpack
  dsimp only
  rw [unpackExponent_packComponents, if_neg finite]
  split
  case isTrue =>
    split
    case isTrue => exact nofun
    case isFalse => exact nofun
  case isFalse => exact nofun

theorem unpack_packedInfinity
    (sign : Sign) :
    UnpackedFloat.unpack Format.binary64 (packedInfinity Format.binary64 sign) =
      .infinity sign := by
  cases sign <;> rfl

/-- Packing keeps a number a number. -/
theorem unpack_pack_ne_notANumber
    {value : UnpackedFloat}
    (number : value ≠ .notANumber) :
    UnpackedFloat.unpack Format.binary64 (UnpackedFloat.pack Format.binary64 value) ≠
      .notANumber := by
  cases value with
  | notANumber => exact absurd rfl number
  | infinity sign =>
      change UnpackedFloat.unpack Format.binary64 (packedInfinity Format.binary64 sign) ≠ _
      rw [unpack_packedInfinity]
      exact nofun
  | zero sign =>
      rw [unpack_pack_zero]
      exact nofun
  | finite sign mantissa exponent positive =>
      rw [pack_finite]
      split
      case isTrue =>
        rw [unpack_packedInfinity]
        exact nofun
      case isFalse fits =>
        split
        case isFalse => exact unpack_packComponents_ne_notANumber sign (by decide) _
        case isTrue =>
          refine unpack_packComponents_ne_notANumber sign ?_ _
          intro top
          have power := congrArg BitVec.toNat top
          rw [BitVec.toNat_ofNat, Nat.mod_eq_of_lt (by omega)] at power
          change _ = 2047 at power
          omega

theorem roundWithAccuracy_ne_notANumber
    (sign : Sign)
    (mantissa : Nat)
    (exponent : Int)
    (accuracy : Accuracy) :
    roundWithAccuracy Format.binary64 sign mantissa exponent accuracy ≠ .notANumber := by
  unfold roundWithAccuracy
  dsimp only
  split
  case isTrue => exact nofun
  case isFalse => exact nofun

/-! ## Weighing -/

/-- A count as a double is zero or finite. -/
theorem unpack_toFloat
    (count : UInt64) :
    count = 0 ∨
      ∃ sign mantissa exponent positive,
        count.toFloat.toModel.unpack = .finite sign mantissa exponent positive := by
  rw [or_iff_not_imp_left]
  intro nonzero
  have some : 1 ≤ count.toNat :=
    Nat.one_le_iff_ne_zero.2 fun zero => nonzero (UInt64.toNat_inj.1 zero)
  have large : (1 : ℚ) ≤ count.toNat := by exact_mod_cast some
  have bounded : IsAtMost (2 ^ 970) (count.toNat * (1001 / 1000)) count.toFloat := by
    apply atMost_unpack_pack (by linarith) le_rfl
    rw [UnpackedFloat.ofUInt64]
    exact atMost_ofNat some
  have atLeastOne := isAtLeastOne_toFloat nonzero
  rw [IsAtLeastOne] at atLeastOne
  rw [IsAtMost] at bounded
  generalize count.toFloat.toModel.unpack = value at atLeastOne bounded ⊢
  cases atLeastOne with
  | finite positive => exact ⟨_, _, _, positive, rfl⟩
  | infinity =>
      have few : (count.toNat : ℚ) ≤ 2 ^ 64 := by exact_mod_cast count.toNat_lt.le
      have small : (count.toNat : ℚ) * (1001 / 1000) < 2 ^ 970 := calc
        (count.toNat : ℚ) * (1001 / 1000) ≤ 2 ^ 64 * 2 :=
          mul_le_mul few (by norm_num) (by norm_num) (by positivity)
        _ = 2 ^ 65 := by norm_num
        _ < 2 ^ 970 := pow_lt_pow_right₀ one_lt_two (by decide)
      exact absurd bounded (not_le_of_gt small)

theorem mul_finite_ne_notANumber
    {value : UnpackedFloat}
    (number : value ≠ .notANumber)
    (sign : Sign)
    {mantissa : Nat}
    (exponent : Int)
    (positive : 0 < mantissa) :
    UnpackedFloat.mul Format.binary64 value (.finite sign mantissa exponent positive) ≠
      .notANumber := by
  cases value with
  | notANumber => exact absurd rfl number
  | infinity => exact UnpackedFloat.noConfusion
  | zero => exact UnpackedFloat.noConfusion
  | finite => exact roundWithAccuracy_ne_notANumber _ _ _ _

/-- A time that is weighed is a number unless it is none, or is infinite and weighed with zero. -/
theorem isNaN_of_isNaN_mul_toFloat
    {time : Float}
    {count : UInt64}
    (isNaN : (time * count.toFloat).isNaN = true) :
    time.isNaN = true ∨ time.isInf = true ∧ count = 0 := by
  have product :
      UnpackedFloat.mul Format.binary64 time.toModel.unpack count.toFloat.toModel.unpack =
        .notANumber := by
    have packed :
        UnpackedFloat.isNaN (UnpackedFloat.unpack Format.binary64 (UnpackedFloat.pack
          Format.binary64 (UnpackedFloat.mul Format.binary64 time.toModel.unpack
            count.toFloat.toModel.unpack))) = true := isNaN
    by_contra number
    exact unpack_pack_ne_notANumber number (isNaN_iff.1 packed)
  change UnpackedFloat.isNaN time.toModel.unpack = true ∨
    UnpackedFloat.isInf time.toModel.unpack = true ∧ count = 0
  rw [isNaN_iff]
  rcases unpack_toFloat count with zero | ⟨sign, mantissa, exponent, positive, isFinite⟩
  · rcases isZero_toFloat_zero with ⟨sign, isZero⟩
    rw [zero, isZero] at product
    generalize time.toModel.unpack = value at product ⊢
    cases value with
    | notANumber => exact Or.inl rfl
    | infinity => exact Or.inr ⟨rfl, zero⟩
    | zero => cases product
    | finite => cases product
  · left
    by_contra number
    rw [isFinite] at product
    exact mul_finite_ne_notANumber number sign exponent positive product

/-! ## Bounding -/

/-- What is no number stays so, whatever is added, and is at most nothing. -/
theorem not_add_le_of_isNaN
    {value : Float}
    (isNaN : value.isNaN = true)
    (other bound : Float) :
    ¬ value + other ≤ bound := by
  have unpacked : value.toModel.unpack = .notANumber := isNaN_iff.1 isNaN
  intro bounded
  have compares :
      UnpackedFloat.le (UnpackedFloat.unpack Format.binary64 (UnpackedFloat.pack
        Format.binary64 (UnpackedFloat.add Format.binary64 value.toModel.unpack
          other.toModel.unpack))) bound.toModel.unpack = true := of_decide_eq_true bounded
  have sum : UnpackedFloat.add Format.binary64 .notANumber other.toModel.unpack = .notANumber := by
    cases other.toModel.unpack <;> rfl
  have repacked :
      UnpackedFloat.unpack Format.binary64 (UnpackedFloat.pack Format.binary64 .notANumber) =
        .notANumber := rfl
  rw [unpacked, sum, repacked, UnpackedFloat.le, UnpackedFloat.compare] at compares
  cases compares

end NetRun.Doubles
