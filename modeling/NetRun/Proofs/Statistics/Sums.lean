import NetRun.Proofs.Statistics.Doubles

/-!
# Sums of counts in doubles

A count that is not zero is a double of one or more, and rounding leaves a sum
of such doubles at one or more.  So a sum of counts is zero only if all of
them are, and else it is at least one.  What is weighed with zeros alone adds
up to zero or to what is no number, and has no average.
-/

namespace NetRun.Doubles

open Float.Model
open Float.Model.UnpackedFloat

/-! ## One or more -/

/-- A double of one or more: it has all its digits, and the last is worth 2 to the -52 or more. -/
inductive AtLeastOne :
    UnpackedFloat → Prop
  | infinity : AtLeastOne (.infinity .positive)
  | finite
      {mantissa : Nat}
      {exponent : Int}
      (positive : 0 < mantissa)
      (width : mantissa.log2 = 52)
      (low : -52 ≤ exponent) :
      AtLeastOne (.finite .positive mantissa exponent positive)

theorem log2_div_two_pow
    {n k : Nat}
    (positive : n ≠ 0)
    (le : k ≤ n.log2) :
    (n / 2 ^ k).log2 = n.log2 - k := by
  have within := (Nat.log2_eq_iff positive).1 rfl
  have split : 2 ^ n.log2 = 2 ^ (n.log2 - k) * 2 ^ k := by
    rw [← Nat.pow_add, Nat.sub_add_cancel le]
  have least : 2 ^ (n.log2 - k) ≤ n / 2 ^ k := by
    rw [Nat.le_div_iff_mul_le (Nat.two_pow_pos k), ← split]
    exact within.1
  have most : n / 2 ^ k < 2 ^ (n.log2 - k + 1) := by
    rw [Nat.div_lt_iff_lt_mul (Nat.two_pow_pos k), Nat.pow_succ, Nat.mul_right_comm, ← split,
      ← Nat.pow_succ]
    exact within.2
  apply (Nat.log2_eq_iff _).2 ⟨least, most⟩
  exact Nat.ne_of_gt (Nat.lt_of_lt_of_le (Nat.two_pow_pos _) least)

theorem le_log2_shiftLeft
    {n : Nat}
    (positive : n ≠ 0)
    (amount : Nat) :
    n.log2 + amount ≤ (n <<< amount).log2 := by
  rw [Nat.shiftLeft_eq]
  have product : n * 2 ^ amount ≠ 0 := Nat.mul_ne_zero positive (Nat.two_pow_pos amount).ne'
  rw [Nat.le_log2 product, Nat.pow_add]
  exact Nat.mul_le_mul_right _ ((Nat.le_log2 positive).1 (Nat.le_refl _))

section Rounding

variable
    {mantissa : Nat}
    {exponent : Int}
    (atLeastOne : 0 ≤ (mantissa.log2 : Int) + exponent)

include atLeastOne

/-- Digits that are too many are dropped, up to the last of those that are kept. -/
theorem shiftToTargetExponent_spec
    (wide : 52 ≤ mantissa.log2)
    (accuracy : Accuracy) :
    (shiftToTargetExponent Format.binary64 mantissa exponent accuracy).1.mantissa.log2 = 52 ∧
      (shiftToTargetExponent Format.binary64 mantissa exponent accuracy).2 =
        mantissa.log2 + exponent - 52 := by
  have positive : mantissa ≠ 0 := by
    rintro rfl
    rw [Nat.log2_zero] at wide
    omega
  have amount :
      (max ((mantissa.log2 : Int) + exponent - 52) (-1074) - exponent).toNat =
        mantissa.log2 - 52 := by
    omega
  have kept (accuracy : Accuracy) :
      (ExtendedMantissa.ofMantissaAndAccuracy mantissa accuracy).mantissa = mantissa := by
    cases accuracy with
    | exact => rfl
    | inexact place => cases place <;> rfl
  unfold shiftToTargetExponent shiftToExponent
  dsimp only
  rw [targetExponent_totalExponent, amount, mantissa_shiftRight, kept]
  constructor
  · rw [log2_div_two_pow positive (Nat.sub_le _ _)]
    omega
  · omega

/-- Rounding drops digits, and what is left is one or more if it was. -/
theorem atLeastOne_roundWithAccuracy
    (wide : 52 ≤ mantissa.log2)
    (accuracy : Accuracy) :
    AtLeastOne (roundWithAccuracy Format.binary64 .positive mantissa exponent accuracy) := by
  rcases shiftToTargetExponent_spec atLeastOne wide accuracy with ⟨firstWidth, firstExponent⟩
  unfold roundWithAccuracy
  dsimp only
  generalize shiftToTargetExponent Format.binary64 mantissa exponent accuracy = first at *
  -- Rounding up may make one digit more, so the mantissa is shifted once again.
  have rounded : 52 ≤ first.1.roundedMantissa.log2 := by
    have nonzero : first.1.mantissa ≠ 0 := by
      intro zero
      rw [zero, Nat.log2_zero] at firstWidth
      omega
    have leading := (Nat.le_log2 nonzero).1 (Nat.le_of_eq firstWidth.symm)
    have up := leading.trans (le_roundedMantissa first.1)
    exact (Nat.le_log2 (Nat.ne_of_gt (Nat.lt_of_lt_of_le (Nat.two_pow_pos 52) up))).2 up
  have total : 0 ≤ (first.1.roundedMantissa.log2 : Int) + first.2 := by omega
  rcases shiftToTargetExponent_spec total rounded .exact with ⟨finalWidth, finalExponent⟩
  rw [dif_neg]
  · exact .finite _ finalWidth (by omega)
  · intro zero
    rw [zero, Nat.log2_zero] at finalWidth
    omega

/-- A number of one or more is rounded to one or more. -/
theorem atLeastOne_round
    (positive : mantissa ≠ 0) :
    AtLeastOne (UnpackedFloat.round Format.binary64 .positive mantissa exponent) := by
  unfold UnpackedFloat.round decreaseExponent
  dsimp only
  rw [targetExponent_totalExponent]
  have extended :=
    le_log2_shiftLeft positive
      (exponent - max ((mantissa.log2 : Int) + exponent - 52) (-1074)).toNat
  apply atLeastOne_roundWithAccuracy
  · omega
  · omega

end Rounding

/-! ## Packing -/

theorem AtLeastOne.unpack_pack
    {value : UnpackedFloat}
    (atLeastOne : AtLeastOne value) :
    AtLeastOne
      (UnpackedFloat.unpack Format.binary64 (UnpackedFloat.pack Format.binary64 value)) := by
  have infinite :
      UnpackedFloat.unpack Format.binary64 (packedInfinity Format.binary64 .positive) =
        .infinity .positive := rfl
  cases atLeastOne with
  | infinity => exact .infinity
  | @finite mantissa exponent positive width low =>
      rw [pack_finite]
      split
      case isTrue =>
        rw [infinite]
        exact .infinity
      case isFalse fits =>
        rw [if_pos (by rw [width]),
          unpack_packComponents (by omega) (by omega) (by omega) .positive positive]
        exact .finite positive width (by omega)

theorem unpack_pack_zero
    (sign : Sign) :
    UnpackedFloat.unpack Format.binary64 (UnpackedFloat.pack Format.binary64 (.zero sign)) =
      .zero sign := by
  cases sign <;> rfl

/-! ## Counts and their sums -/

theorem AtLeastOne.add
    {first second : UnpackedFloat}
    (firstLarge : AtLeastOne first)
    (secondLarge : AtLeastOne second) :
    AtLeastOne (UnpackedFloat.add Format.binary64 first second) := by
  cases firstLarge with
  | infinity =>
      cases secondLarge with
      | infinity => exact .infinity
      | finite => exact .infinity
  | @finite mantissa exponent positive width low =>
      cases secondLarge with
      | infinity => exact .infinity
      | @finite otherMantissa otherExponent otherPositive otherWidth otherLow =>
          have least : min exponent otherExponent ≤ exponent := min_le_left _ _
          unfold UnpackedFloat.add decreaseExponent
          dsimp only [Sign.apply]
          generalize min exponent otherExponent = unit at least ⊢
          -- The first summand alone is one or more, and the second only adds to it.
          have nonzero := Nat.ne_of_gt positive
          have aligned := le_log2_shiftLeft nonzero (exponent - unit).toNat
          have alignedNonzero : mantissa <<< (exponent - unit).toNat ≠ 0 := by
            rw [Nat.shiftLeft_eq]
            exact Nat.mul_ne_zero nonzero (Nat.two_pow_pos _).ne'
          generalize mantissa <<< (exponent - unit).toNat = summand at aligned alignedNonzero ⊢
          generalize otherMantissa <<< (otherExponent - unit).toNat = other
          have sumNonzero : summand + other ≠ 0 := by omega
          have more : summand.log2 ≤ (summand + other).log2 :=
            (Nat.le_log2 sumNonzero).2
              (((Nat.le_log2 alignedNonzero).1 (Nat.le_refl _)).trans (Nat.le_add_right _ _))
          rw [← Nat.cast_add, normalize_natCast sumNonzero]
          exact atLeastOne_round (by omega) sumNonzero

section Zeros

variable
    {value : UnpackedFloat}
    (large : AtLeastOne value)
    (sign : Sign)

include large

theorem AtLeastOne.add_zero :
    UnpackedFloat.add Format.binary64 value (.zero sign) = value := by
  cases large <;> rfl

theorem AtLeastOne.zero_add :
    UnpackedFloat.add Format.binary64 (.zero sign) value = value := by
  cases large <;> rfl

theorem AtLeastOne.beq_zero :
    UnpackedFloat.beq value (.zero sign) = false := by
  cases large <;> rfl

/-- Of two doubles with all their digits, the one of the greater exponent is greater. -/
theorem AtLeastOne.one_le :
    UnpackedFloat.le (.finite .positive (2 ^ 52) (-52) (Nat.two_pow_pos 52)) value = true := by
  cases large with
  | infinity => rfl
  | @finite mantissa exponent positive width low =>
      have least : 2 ^ 52 ≤ mantissa :=
        (Nat.le_log2 (Nat.ne_of_gt positive)).1 (Nat.le_of_eq width.symm)
      change ((compare (-52) exponent).then (compare (2 ^ 52) mantissa)).isLE = true
      rcases Int.lt_or_eq_of_le low with less | same
      · rw [Int.compare_eq_lt.2 less]
        rfl
      · rw [← same, Int.compare_eq_eq.2 rfl]
        exact Nat.isLE_compare.2 least

end Zeros

/-! ## Zero or no number -/

/-- What counts weighed with zero make: zero of either sign, or no number. -/
inductive Nought :
    UnpackedFloat → Prop
  | zero (sign : Sign) : Nought (.zero sign)
  | notANumber : Nought .notANumber

theorem Nought.unpack_pack
    {value : UnpackedFloat}
    (nought : Nought value) :
    Nought (UnpackedFloat.unpack Format.binary64 (UnpackedFloat.pack Format.binary64 value)) := by
  cases nought with
  | zero sign =>
      rw [unpack_pack_zero]
      exact .zero sign
  | notANumber => exact .notANumber

theorem nought_mul_zero
    (value : UnpackedFloat)
    (sign : Sign) :
    Nought (UnpackedFloat.mul Format.binary64 value (.zero sign)) := by
  cases value with
  | notANumber => exact .notANumber
  | infinity => exact .notANumber
  | zero own => exact .zero (own * sign)
  | finite own => exact .zero (own * sign)

theorem exists_zero_add_zero
    (sign otherSign : Sign) :
    ∃ own, UnpackedFloat.add Format.binary64 (.zero sign) (.zero otherSign) = .zero own := by
  cases sign <;> cases otherSign <;> exact ⟨_, rfl⟩

theorem Nought.add
    {first second : UnpackedFloat}
    (firstNought : Nought first)
    (secondNought : Nought second) :
    Nought (UnpackedFloat.add Format.binary64 first second) := by
  cases firstNought with
  | notANumber => exact .notANumber
  | zero sign =>
      cases secondNought with
      | notANumber => exact .notANumber
      | zero otherSign =>
          rcases exists_zero_add_zero sign otherSign with ⟨own, isZero⟩
          rw [isZero]
          exact .zero own

theorem Nought.div_zero
    {value : UnpackedFloat}
    (nought : Nought value)
    (sign : Sign) :
    UnpackedFloat.div Format.binary64 value (.zero sign) = .notANumber := by
  cases nought <;> rfl

/-! ## Doubles -/

/-- The double is one or more. -/
def IsAtLeastOne
    (value : Float) :
    Prop :=
  AtLeastOne value.toModel.unpack

/-- The double is zero, of either sign. -/
def IsZero
    (value : Float) :
    Prop :=
  ∃ sign, value.toModel.unpack = .zero sign

/-- The double is zero or no number. -/
def IsNought
    (value : Float) :
    Prop :=
  Nought value.toModel.unpack

theorem isAtLeastOne_toFloat
    {count : UInt64}
    (some : count ≠ 0) :
    IsAtLeastOne count.toFloat := by
  have nonzero : count.toNat ≠ 0 := fun zero => some (UInt64.toNat_inj.1 zero)
  have large : AtLeastOne (UnpackedFloat.ofUInt64 Format.binary64 count) := by
    rw [UnpackedFloat.ofUInt64, UnpackedFloat.ofNat, UnpackedFloat.ofInt,
      normalize_natCast nonzero]
    exact atLeastOne_round (by omega) nonzero
  exact large.unpack_pack

theorem isZero_toFloat_zero :
    IsZero (0 : UInt64).toFloat :=
  ⟨.positive, rfl⟩

section Addition

variable
    {first second : Float}

theorem IsAtLeastOne.add
    (firstLarge : IsAtLeastOne first)
    (secondLarge : IsAtLeastOne second) :
    IsAtLeastOne (first + second) :=
  (AtLeastOne.add firstLarge secondLarge).unpack_pack

theorem IsAtLeastOne.add_isZero
    (firstLarge : IsAtLeastOne first)
    (secondZero : IsZero second) :
    IsAtLeastOne (first + second) := by
  rcases secondZero with ⟨sign, isSecond⟩
  have packed := firstLarge.unpack_pack
  rw [← AtLeastOne.add_zero firstLarge sign, ← isSecond] at packed
  exact packed

theorem IsZero.add_isAtLeastOne
    (firstZero : IsZero first)
    (secondLarge : IsAtLeastOne second) :
    IsAtLeastOne (first + second) := by
  rcases firstZero with ⟨sign, isFirst⟩
  have packed := secondLarge.unpack_pack
  rw [← AtLeastOne.zero_add secondLarge sign, ← isFirst] at packed
  exact packed

theorem IsZero.add
    (firstZero : IsZero first)
    (secondZero : IsZero second) :
    IsZero (first + second) := by
  rcases firstZero with ⟨sign, isFirst⟩
  rcases secondZero with ⟨otherSign, isSecond⟩
  change ∃ sign, UnpackedFloat.unpack Format.binary64 (UnpackedFloat.pack Format.binary64
    (UnpackedFloat.add Format.binary64 first.toModel.unpack second.toModel.unpack)) = .zero sign
  rcases exists_zero_add_zero sign otherSign with ⟨own, isZero⟩
  rw [isFirst, isSecond, isZero]
  exact ⟨own, unpack_pack_zero own⟩

end Addition

theorem isZero_emptySum :
    IsZero (Quantity.emptySum : Float) :=
  ⟨.negative, rfl⟩

/-- Counts that are all zero add up to zero. -/
theorem isZero_total
    {counts : List UInt64}
    (none : ∀ count ∈ counts, count = 0) :
    IsZero (total (counts.map UInt64.toFloat)) := by
  rw [total, List.foldl_map]
  apply List.foldlRecOn
  · exact isZero_emptySum
  · intro sum isZero count listed
    rw [none count listed]
    exact isZero.add isZero_toFloat_zero

/-- As soon as one count is not zero, the sum is one or more, and so it stays. -/
theorem isAtLeastOne_foldl
    {counts : List UInt64}
    {sum : Float}
    (start : IsAtLeastOne sum ∨ IsZero sum ∧ ∃ count ∈ counts, count ≠ 0) :
    IsAtLeastOne (counts.foldl (fun sum count => sum + count.toFloat) sum) := by
  induction counts generalizing sum with
  | nil =>
      rcases start with large | ⟨-, count, impossible, -⟩
      · exact large
      · cases impossible
  | cons count counts induction =>
      rw [List.foldl_cons]
      apply induction
      by_cases zero : count = 0
      · rw [zero]
        rcases start with large | ⟨isZero, some⟩
        · exact Or.inl (large.add_isZero isZero_toFloat_zero)
        · refine Or.inr ⟨isZero.add isZero_toFloat_zero, ?_⟩
          rcases (List.exists_mem_cons_iff _ _ _).1 some with nonzero | later
          · exact absurd zero nonzero
          · exact later
      · left
        rcases start with large | ⟨isZero, -⟩
        · exact large.add (isAtLeastOne_toFloat zero)
        · exact isZero.add_isAtLeastOne (isAtLeastOne_toFloat zero)

theorem isAtLeastOne_total
    {counts : List UInt64}
    (some : ∃ count ∈ counts, count ≠ 0) :
    IsAtLeastOne (total (counts.map UInt64.toFloat)) := by
  rw [total, List.foldl_map]
  exact isAtLeastOne_foldl (Or.inr ⟨isZero_emptySum, some⟩)

/-! ## Weighing with zero -/

theorem IsZero.isNought_mul
    {size : Float}
    (isZero : IsZero size)
    (time : Float) :
    IsNought (time * size) := by
  rcases isZero with ⟨sign, isSize⟩
  have product := (nought_mul_zero time.toModel.unpack sign).unpack_pack
  rw [← isSize] at product
  exact product

/-- What is zero or no number adds up to zero or to no number. -/
theorem isNought_total
    {values : List Float}
    (noughts : ∀ value ∈ values, IsNought value) :
    IsNought (total values) := by
  rw [total]
  apply List.foldlRecOn
  · exact Nought.zero .negative
  · intro sum isNought value listed
    exact (Nought.add isNought (noughts value listed)).unpack_pack

/-- Divided by zero, what is zero or no number is no number. -/
theorem IsNought.isNaN_div
    {value divisor : Float}
    (isNought : IsNought value)
    (isZero : IsZero divisor) :
    (value / divisor).isNaN = true := by
  rcases isZero with ⟨sign, isDivisor⟩
  change UnpackedFloat.isNaN (UnpackedFloat.unpack Format.binary64 (UnpackedFloat.pack
    Format.binary64
      (UnpackedFloat.div Format.binary64 value.toModel.unpack divisor.toModel.unpack))) = true
  rw [isDivisor, Nought.div_zero isNought]
  rfl

/-! ## Comparing -/

theorem IsZero.beq_zero
    {value : Float}
    (isZero : IsZero value) :
    (value == 0.0) = true := by
  rcases isZero with ⟨sign, isValue⟩
  change UnpackedFloat.beq value.toModel.unpack (0.0 : Float).toModel.unpack = true
  rw [isValue]
  rfl

theorem IsAtLeastOne.one_le
    {value : Float}
    (large : IsAtLeastOne value) :
    1.0 ≤ value :=
  decide_eq_true (AtLeastOne.one_le large)

theorem IsAtLeastOne.beq_zero
    {value : Float}
    (large : IsAtLeastOne value) :
    (value == 0.0) = false :=
  AtLeastOne.beq_zero large .positive

end NetRun.Doubles
