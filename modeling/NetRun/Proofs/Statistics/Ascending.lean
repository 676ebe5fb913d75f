import NetRun.Proofs.Sorting.Many
import NetRun.Proofs.Statistics.Sums
import NetRun.Statistics.Percentile

/-!
# Values in ascending order

All doubles but those that are no number stand in one order: infinities at the
ends, zeros of either sign in the middle, and finite doubles by exponent and
mantissa, as they keep all their digits.  What is no number is less than nothing
and nothing is less than it, so it goes along with zeros only.  Doubles are
therefore put in order unless one of them is no number, and few of them are
arranged in some way even then.
-/

namespace NetRun

/-! ## Any values -/

section Values

variable
    {α : Type}
    [LT α]
    [DecidableLT α]
    {values : List α}

theorem ascending_eq_ok_iff
    {sorted : List α} :
    ascending values = .ok sorted ↔
      Sorting.sort (fun first second => decide (first < second)) values = some sorted := by
  rw [ascending]
  cases Sorting.sort (fun first second => decide (first < second)) values with
  | none => simp
  | some sorted => simp

theorem eq_unorderedValues_of_ascending
    {crash : Crash}
    (fails : ascending values = .error crash) :
    crash = .unorderedValues := by
  rw [ascending] at fails
  split at fails
  case h_1 => cases fails
  case h_2 =>
    cases fails
    rfl

/-- Putting values in order only rearranges them. -/
theorem perm_of_ascending
    {sorted : List α}
    (sorts : ascending values = .ok sorted) :
    sorted.Perm values :=
  (Sorting.sorts_sort (fun _ : α => 0) _ values).perm sorted (ascending_eq_ok_iff.1 sorts)

/-- Values that are compared by a key are put in order. -/
theorem exists_ascending_of_comparesBy
    {β : Type}
    [LinearOrder β]
    {key : α → β}
    (compares : Sorting.ComparesBy key (fun first second => decide (first < second)) values) :
    ∃ sorted, ascending values = .ok sorted ∧ Sorting.Ascends key sorted := by
  rcases (Sorting.sorts_sort key _ values).ascends compares with ⟨sorted, sorts, ascends⟩
  exact ⟨sorted, ascending_eq_ok_iff.2 sorts, ascends⟩

/-- Few values are arranged whether or not they compare. -/
theorem exists_ascending_of_length_le
    (few : values.length ≤ Sorting.insertedValues) :
    ∃ sorted, ascending values = .ok sorted := by
  rcases Sorting.exists_sort_eq_some_of_length_le (fun first second : α => decide (first < second))
    few with ⟨sorted, sorts⟩
  exact ⟨sorted, ascending_eq_ok_iff.2 sorts⟩

end Values

namespace Doubles

open Float.Model
open Float.Model.UnpackedFloat

/-! ## The order of doubles -/

/-- On which side of zero a double stands and how far from it; what is no number stands at zero. -/
def place :
    UnpackedFloat → ℤ ×ₗ ℤ ×ₗ ℤ
  | .infinity .negative => toLex (-2, toLex (0, 0))
  | .finite .negative mantissa exponent _ => toLex (-1, toLex (-exponent, -mantissa))
  | .zero _ => toLex (0, toLex (0, 0))
  | .notANumber => toLex (0, toLex (0, 0))
  | .finite .positive mantissa exponent _ => toLex (1, toLex (exponent, mantissa))
  | .infinity .positive => toLex (2, toLex (0, 0))

theorem lt_iff_place_lt
    {first second : UnpackedFloat}
    (firstNumber : first ≠ .notANumber)
    (secondNumber : second ≠ .notANumber) :
    UnpackedFloat.lt first second = true ↔ place first < place second := by
  have compares : UnpackedFloat.lt first second = true ↔
      UnpackedFloat.compare first second = some .lt := beq_iff_eq
  rw [compares]
  rcases first with (_ | _) | _ | _ | ⟨_ | _, mantissa, exponent, positive⟩
  all_goals
    rcases second with (_ | _) | _ | _ | ⟨_ | _, otherMantissa, otherExponent, otherPositive⟩
  all_goals
    simp [UnpackedFloat.compare, place, Prod.Lex.toLex_lt_toLex] at firstNumber secondNumber ⊢
  -- Besides the infinities only finite doubles on the same side of zero are left.
  · decide
  · rw [Ordering.then_eq_gt, Int.compare_eq_gt, Int.compare_eq_eq, Nat.compare_eq_gt]
  · rw [Ordering.then_eq_lt, Int.compare_eq_lt, Int.compare_eq_eq, Nat.compare_eq_lt]

theorem Nought.not_lt
    {first second : UnpackedFloat}
    (firstNought : Nought first)
    (secondNought : Nought second) :
    UnpackedFloat.lt first second = false := by
  cases firstNought <;> cases secondNought <;> rfl

theorem Nought.place_eq
    {value : UnpackedFloat}
    (nought : Nought value) :
    place value = toLex (0, toLex (0, 0)) := by
  cases nought <;> rfl

/-- The place of a double among the others. -/
def rank
    (value : Float) :
    ℤ ×ₗ ℤ ×ₗ ℤ :=
  place value.toModel.unpack

theorem lt_iff_unpack_lt
    {first second : Float} :
    first < second ↔ UnpackedFloat.lt first.toModel.unpack second.toModel.unpack = true :=
  decide_eq_true_iff

theorem unpack_ne_notANumber
    {value : Float}
    (number : value.isNaN = false) :
    value.toModel.unpack ≠ .notANumber := by
  intro isNaN
  have impossible : UnpackedFloat.isNaN value.toModel.unpack = false := number
  rw [isNaN] at impossible
  cases impossible

variable
    {values : List Float}

/-- Numbers are compared by their places. -/
theorem comparesBy_rank_of_numbers
    (numbers : ∀ value ∈ values, value.isNaN = false) :
    Sorting.ComparesBy rank (fun first second => decide (first < second)) values := by
  intro first isFirst second isSecond
  rw [decide_eq_true_iff, lt_iff_unpack_lt]
  exact lt_iff_place_lt (unpack_ne_notANumber (numbers first isFirst))
    (unpack_ne_notANumber (numbers second isSecond))

/-- Zeros are not told apart from what is no number. -/
theorem comparesBy_rank_of_noughts
    (noughts : ∀ value ∈ values, IsNought value) :
    Sorting.ComparesBy rank (fun first second => decide (first < second)) values := by
  intro first isFirst second isSecond
  have firstNought := noughts first isFirst
  have secondNought := noughts second isSecond
  have same : rank first = rank second := firstNought.place_eq.trans secondNought.place_eq.symm
  rw [decide_eq_true_iff, lt_iff_unpack_lt, same, firstNought.not_lt secondNought]
  exact iff_of_false Bool.false_ne_true (lt_irrefl _)

/-! ## Doubles without an order -/

/-- More doubles than are sorted by insertion, one of which is no number but not all are nought. -/
structure MayLackOrder
    (values : List Float) :
    Prop where
  many : Sorting.insertedValues < values.length
  notNumber : ∃ value ∈ values, value.isNaN = true
  notNought : ∃ value ∈ values, ¬ IsNought value

/-- Doubles that are found to have no order are many, and some of them do not compare. -/
theorem mayLackOrder_of_ascending
    {crash : Crash}
    (fails : ascending values = .error crash) :
    MayLackOrder values := by
  have unsorted (sorts : ∃ sorted, ascending values = .ok sorted) : False := by
    rcases sorts with ⟨sorted, sorts⟩
    rw [sorts] at fails
    cases fails
  constructor
  case many =>
    by_contra few
    exact unsorted (exists_ascending_of_length_le (not_lt.1 few))
  case notNumber =>
    by_contra numbers
    simp only [not_exists, not_and, Bool.not_eq_true] at numbers
    rcases exists_ascending_of_comparesBy (comparesBy_rank_of_numbers numbers) with
      ⟨sorted, sorts, -⟩
    exact unsorted ⟨sorted, sorts⟩
  case notNought =>
    by_contra noughts
    simp only [not_exists, not_and, not_not] at noughts
    rcases exists_ascending_of_comparesBy (comparesBy_rank_of_noughts noughts) with
      ⟨sorted, sorts, -⟩
    exact unsorted ⟨sorted, sorts⟩

end Doubles

end NetRun
