import NetRun.Proofs.Workload.Uniform
import Mathlib.Algebra.Order.Floor.Div
import Mathlib.Data.List.Forall2
import Mathlib.Data.Set.Card
import Mathlib.Order.Interval.Finset.Nat

/-!
# Words that stand for numbers

Every number below a bound stands for equally many of the words that are accepted,
so every list of such numbers stands for equally many lists of words.  What is
drawn from a list of words are the numbers of the accepted ones, in their order,
wherever the others stand.
-/

namespace NetRun

namespace Uniform

variable
    {bound : UInt32}

/-! ## Words that are accepted -/

/-- The low half of the product of a word and the bound is small enough. -/
def Accepts
    (bound word : UInt32) :
    Prop :=
  word.toNat * bound.toNat % 4294967296 ≤ acceptLimit bound

instance
    (bound word : UInt32) :
    Decidable (Accepts bound word) :=
  inferInstanceAs (Decidable (_ ≤ _))

theorem candidate_eq_ite
    (bound word : UInt32) :
    candidate bound word =
      if Accepts bound word then
        some (UInt32.ofNat (word.toNat * bound.toNat / 4294967296))
      else none :=
  rfl

theorem exists_candidate_iff
    {word : UInt32} :
    (∃ number, candidate bound word = some number) ↔ Accepts bound word := by
  rw [candidate_eq_ite]
  split
  case isTrue accepted => exact iff_of_true ⟨_, rfl⟩ accepted
  case isFalse rejected => exact iff_of_false (fun ⟨_, impossible⟩ => nomatch impossible) rejected

theorem candidate_eq_none_iff
    {word : UInt32} :
    candidate bound word = none ↔ ¬ Accepts bound word := by
  rw [← exists_candidate_iff, ← Option.isSome_iff_exists, Option.not_isSome_iff_eq_none]

/-- The bound, moved up to the highest bit, is a word. -/
theorem shifted_bound
    (positive : 0 < bound) :
    0 < bound.toNat * 2 ^ leadingZeros bound ∧
      bound.toNat * 2 ^ leadingZeros bound ≤ 4294967296 := by
  have nonzero : bound.toNat ≠ 0 := (UInt32.lt_iff_toNat_lt.1 positive).ne'
  have highest : bound.toNat.log2 ≤ 31 := by
    apply Nat.le_of_lt_succ
    rw [Nat.log2_lt nonzero]
    exact bound.toNat_lt
  have zeros : leadingZeros bound = 31 - bound.toNat.log2 :=
    if_neg (UInt32.ne_of_lt positive).symm
  refine ⟨Nat.mul_pos (Nat.pos_of_ne_zero nonzero) (Nat.two_pow_pos _), ?_⟩
  calc
    bound.toNat * 2 ^ leadingZeros bound
      ≤ 2 ^ (bound.toNat.log2 + 1) * 2 ^ (31 - bound.toNat.log2) := by
        rw [zeros]
        exact Nat.mul_le_mul_right _ Nat.lt_log2_self.le
    _ = 4294967296 := by
        rw [← Nat.pow_add, show bound.toNat.log2 + 1 + (31 - bound.toNat.log2) = 32 by omega]

/-- A word stands for a number if its product with the bound is in the interval of the number. -/
theorem candidate_eq_some_iff
    (positive : 0 < bound)
    {word number : UInt32} :
    candidate bound word = some number ↔
      number.toNat * 4294967296 ≤ word.toNat * bound.toNat ∧
        word.toNat * bound.toNat <
          number.toNat * 4294967296 + bound.toNat * 2 ^ leadingZeros bound := by
  rcases shifted_bound positive with ⟨limitPos, limitLe⟩
  have parts := Nat.div_add_mod (word.toNat * bound.toNat) 4294967296
  have low := Nat.mod_lt (word.toNat * bound.toNat) (Nat.succ_pos 4294967295)
  have high : word.toNat * bound.toNat / 4294967296 < 4294967296 :=
    Nat.div_lt_of_lt_mul (Nat.mul_lt_mul'' word.toNat_lt bound.toNat_lt)
  have limit :
      Accepts bound word ↔
        word.toNat * bound.toNat % 4294967296 ≤ bound.toNat * 2 ^ leadingZeros bound - 1 :=
    Iff.rfl
  rw [candidate_eq_ite]
  constructor
  · intro stands
    split at stands
    case isTrue accepted =>
      cases stands
      rw [limit] at accepted
      rw [UInt32.toNat_ofNat_of_lt' high]
      omega
    case isFalse => cases stands
  · rintro ⟨above, below⟩
    have quotient : word.toNat * bound.toNat / 4294967296 = number.toNat := by omega
    have accepted : Accepts bound word := limit.2 (by omega)
    rw [if_pos accepted, quotient, UInt32.ofNat_toNat]

/-! ## The numbers of a list of words -/

/-- The numbers that the accepted words of a list stand for. -/
def numbers
    (bound : UInt32)
    (words : List UInt32) :
    List UInt32 :=
  words.filterMap (candidate bound)

/-- Words that are rejected stand for nothing. -/
theorem numbers_filter
    (words : List UInt32) :
    numbers bound (words.filter (Accepts bound)) = numbers bound words := by
  rw [numbers, numbers, List.filterMap_filter]
  apply List.filterMap_congr
  intro word _
  split
  case isTrue => rfl
  case isFalse rejected => exact (candidate_eq_none_iff.2 (mt decide_eq_true rejected)).symm

/-- Words that are all accepted stand for one number each. -/
theorem forall₂_candidate_iff
    {words list : List UInt32} :
    List.Forall₂ (fun word number => candidate bound word = some number) words list ↔
      (∀ word ∈ words, Accepts bound word) ∧ numbers bound words = list := by
  constructor
  · intro stand
    induction stand with
    | nil => exact ⟨List.forall_mem_nil _, rfl⟩
    | cons stands _ induction =>
        rcases induction with ⟨accepted, rfl⟩
        exact ⟨List.forall_mem_cons.2 ⟨exists_candidate_iff.1 ⟨_, stands⟩, accepted⟩,
          List.filterMap_cons_some stands⟩
  · rintro ⟨accepted, rfl⟩
    induction words with
    | nil => exact .nil
    | cons word words induction =>
        rcases List.forall_mem_cons.1 accepted with ⟨head, rest⟩
        rcases exists_candidate_iff.2 head with ⟨number, stands⟩
        rw [numbers, List.filterMap_cons_some stands]
        exact .cons stands (induction rest)

theorem length_numbers
    {words : List UInt32}
    (accepted : ∀ word ∈ words, Accepts bound word) :
    (numbers bound words).length = words.length :=
  (forall₂_candidate_iff.2 ⟨accepted, rfl⟩).length_eq.symm

theorem numbers_lt
    (positive : 0 < bound)
    {words : List UInt32} :
    ∀ number ∈ numbers bound words, number < bound := by
  intro number isNumber
  rcases List.mem_filterMap.1 isNumber with ⟨word, -, stands⟩
  exact candidate_lt positive stands

/-! ## How many words there are -/

/-- An interval of words has as many members as its ends are apart. -/
theorem ncard_toNat_mem_Ico
    {first count : Nat}
    (inside : first + count ≤ UInt32.size) :
    {word : UInt32 | word.toNat ∈ Set.Ico first (first + count)}.ncard = count := by
  have injective : Function.Injective UInt32.toNat := fun _ _ => UInt32.toNat_inj.1
  have image :
      UInt32.toNat '' {word | word.toNat ∈ Set.Ico first (first + count)} =
        (Finset.Ico first (first + count) : Finset Nat) := by
    ext value
    rw [Finset.coe_Ico]
    constructor
    · rintro ⟨word, isInside, rfl⟩
      exact isInside
    · intro isInside
      have small : value < UInt32.size := Nat.lt_of_lt_of_le isInside.2 inside
      refine ⟨UInt32.ofNat value, ?_, UInt32.toNat_ofNat_of_lt' small⟩
      rwa [Set.mem_ofPred_eq, UInt32.toNat_ofNat_of_lt' small]
  rw [← Set.ncard_image_of_injective _ injective, image, Set.ncard_coe_finset, Nat.card_Ico,
    Nat.add_sub_cancel_left]

/-- Every number below the bound stands for equally many words. -/
theorem ncard_candidate_eq_some
    (positive : 0 < bound)
    {number : UInt32}
    (below : number < bound) :
    {word | candidate bound word = some number}.ncard = 2 ^ leadingZeros bound := by
  have boundPos : 0 < bound.toNat := UInt32.lt_iff_toNat_lt.1 positive
  have numberLt : number.toNat + 1 ≤ bound.toNat := UInt32.lt_iff_toNat_lt.1 below
  rcases shifted_bound positive with ⟨-, limitLe⟩
  -- The words of the number are those between two ceilings, which are quotients by the bound.
  have ceiling (product value : Nat) :
      product ⌈/⌉ bound.toNat ≤ value ↔ product ≤ value * bound.toNat := by
    rw [ceilDiv_le_iff_le_mul boundPos, Nat.mul_comm value]
  have apart :
      (number.toNat * 4294967296 + bound.toNat * 2 ^ leadingZeros bound) ⌈/⌉ bound.toNat =
        number.toNat * 4294967296 ⌈/⌉ bound.toNat + 2 ^ leadingZeros bound := by
    rw [Nat.ceilDiv_eq_add_pred_div, Nat.ceilDiv_eq_add_pred_div, Nat.add_right_comm,
      Nat.sub_add_comm (by omega), Nat.add_mul_div_left _ _ boundPos]
  have inside :
      number.toNat * 4294967296 ⌈/⌉ bound.toNat + 2 ^ leadingZeros bound ≤ UInt32.size := by
    rw [← apart, ceiling]
    calc
      number.toNat * 4294967296 + bound.toNat * 2 ^ leadingZeros bound
        ≤ (number.toNat + 1) * 4294967296 := by omega
      _ ≤ bound.toNat * 4294967296 := Nat.mul_le_mul_right _ numberLt
      _ = 4294967296 * bound.toNat := Nat.mul_comm _ _
  rw [← ncard_toNat_mem_Ico inside]
  apply congrArg Set.ncard
  ext word
  rw [Set.mem_ofPred_eq, Set.mem_ofPred_eq, candidate_eq_some_iff positive, Set.mem_Ico, ← apart,
    ceiling, ← Nat.not_le, ← Nat.not_le, ceiling]

/-- Lists that are related to another item by item, with equally many choices for every item. -/
theorem ncard_forall₂
    {α β : Type}
    {related : α → β → Prop}
    {items : List β}
    {count : Nat}
    (choices : ∀ item ∈ items, {choice | related choice item}.ncard = count) :
    {list | List.Forall₂ related list items}.ncard = count ^ items.length := by
  induction items with
  | nil =>
      have onlyNil : {list | List.Forall₂ related list []} = {[]} := by
        ext list
        exact List.forall₂_nil_right_iff
      rw [onlyNil, Set.ncard_singleton, List.length_nil, Nat.pow_zero]
  | cons item items induction =>
      rcases List.forall_mem_cons.1 choices with ⟨head, rest⟩
      have image :
          {list | List.Forall₂ related list (item :: items)} =
            (fun parts : α × List α => parts.1 :: parts.2) ''
              ({choice | related choice item} ×ˢ {list | List.Forall₂ related list items}) := by
        ext list
        constructor
        · rintro ⟨⟩
          case cons choice list choiceRelated listRelated =>
            exact ⟨(choice, list), ⟨choiceRelated, listRelated⟩, rfl⟩
        · rintro ⟨parts, ⟨choiceRelated, listRelated⟩, rfl⟩
          exact .cons choiceRelated listRelated
      have injective : Function.Injective fun parts : α × List α => parts.1 :: parts.2 := by
        rintro ⟨choice, list⟩ ⟨other, others⟩ same
        cases same
        rfl
      rw [image, Set.ncard_image_of_injective _ injective, Set.ncard_prod, head, induction rest,
        List.length_cons, Nat.pow_succ']

/-- Lists of numbers below a bound. -/
theorem ncard_forall_lt
    (bound : UInt32)
    (length : Nat) :
    {list : List UInt32 | list.length = length ∧ ∀ number ∈ list, number < bound}.ncard =
      bound.toNat ^ length := by
  have below : {number : UInt32 | number < bound}.ncard = bound.toNat := by
    calc
      {number : UInt32 | number < bound}.ncard
        = {number : UInt32 | number.toNat ∈ Set.Ico 0 (0 + bound.toNat)}.ncard := by
          apply congrArg Set.ncard
          ext number
          rw [Set.mem_ofPred_eq, Set.mem_ofPred_eq, Nat.zero_add, UInt32.lt_iff_toNat_lt]
          exact (and_iff_right (Nat.zero_le _)).symm
      _ = bound.toNat := ncard_toNat_mem_Ico ((Nat.zero_add _).trans_le bound.toNat_lt.le)
  calc
    {list : List UInt32 | list.length = length ∧ ∀ number ∈ list, number < bound}.ncard
      = {list : List UInt32 |
          List.Forall₂ (fun number _ => number < bound) list (List.replicate length ())}.ncard := by
        apply congrArg Set.ncard
        ext list
        rw [Set.mem_ofPred_eq, Set.mem_ofPred_eq, List.forall₂_iff_get, List.length_replicate,
          List.forall_mem_iff_getElem]
        constructor
        · rintro ⟨lengthEq, inside⟩
          exact ⟨lengthEq, fun place placeLt _ => inside place placeLt⟩
        · rintro ⟨lengthEq, inside⟩
          refine ⟨lengthEq, fun place placeLt => inside place placeLt ?_⟩
          rwa [← lengthEq]
    _ = bound.toNat ^ (List.replicate length ()).length := ncard_forall₂ fun _ _ => below
    _ = bound.toNat ^ length := by rw [List.length_replicate]

/-- Every list of numbers below the bound stands for equally many lists of words. -/
theorem ncard_numbers_eq
    (positive : 0 < bound)
    {list : List UInt32}
    (below : ∀ number ∈ list, number < bound) :
    {words | (∀ word ∈ words, Accepts bound word) ∧ numbers bound words = list}.ncard =
      2 ^ (leadingZeros bound * list.length) := by
  rw [Nat.pow_mul,
    ← ncard_forall₂ fun number isNumber => ncard_candidate_eq_some positive (below number isNumber)]
  apply congrArg Set.ncard
  ext words
  exact forall₂_candidate_iff.symm

/-! ## Draws from a list of words -/

theorem candidate_zero
    (bound : UInt32) :
    candidate bound 0 = some 0 := by
  have accepted : Accepts bound 0 := by
    rw [Accepts, UInt32.toNat_zero, Nat.zero_mul, Nat.zero_mod]
    exact Nat.zero_le _
  rw [candidate_eq_ite, if_pos accepted, UInt32.toNat_zero, Nat.zero_mul, Nat.zero_div]
  rfl

theorem Supply.below_of_accepted
    {word number : UInt32}
    (stands : candidate bound word = some number)
    (taken : Nat)
    (words : List UInt32) :
    Supply.below bound ⟨taken, word :: words⟩ = (number, ⟨taken + 1, words⟩) := by
  rw [Supply.below, Uniform.below]
  dsimp only [Supply.next]
  rw [stands]

/-- A word that is rejected is passed over. -/
theorem Supply.below_of_rejected
    {word : UInt32}
    (rejected : ¬ Accepts bound word)
    (taken : Nat)
    (words : List UInt32) :
    Supply.below bound ⟨taken, word :: words⟩ = Supply.below bound ⟨taken + 1, words⟩ := by
  rw [Supply.below, Uniform.below]
  dsimp only [Supply.next]
  rw [candidate_eq_none_iff.2 rejected]
  rfl

/-- Behind the last word there are zeros. -/
theorem Supply.below_nil
    (taken : Nat) :
    Supply.below bound ⟨taken, []⟩ = (0, ⟨taken + 1, []⟩) := by
  rw [Supply.below, Uniform.below]
  dsimp only [Supply.next]
  rw [candidate_zero]

/-- A draw takes the first of the numbers and leaves the others. -/
theorem Supply.below_numbers
    (supply : Supply) :
    (supply.below bound).1 = (numbers bound supply.words).headD 0 ∧
      numbers bound (supply.below bound).2.words = (numbers bound supply.words).tail := by
  rcases supply with ⟨taken, words⟩
  induction words generalizing taken with
  | nil =>
      rw [Supply.below_nil]
      exact ⟨rfl, rfl⟩
  | cons word words induction =>
      cases stands : candidate bound word with
      | none =>
          rw [Supply.below_of_rejected (candidate_eq_none_iff.1 stands), numbers, List.filterMap_cons_none stands]
          exact induction (taken + 1)
      | some number =>
          rw [Supply.below_of_accepted stands, numbers, List.filterMap_cons_some stands]
          exact ⟨rfl, rfl⟩

end Uniform

end NetRun
