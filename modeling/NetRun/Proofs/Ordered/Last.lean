import NetRun.Ordered.Map
import Mathlib.Data.List.Induction
import Mathlib.Data.List.Sort

/-!
# The last value under a key

Items are put into a map one after the other, each with a value of its own in
place of the one that is there.  Under a key stands what the last item with this
key has put there.  Maps that have the same values under all keys are equal.
-/

namespace NetRun.Ordered

/-- The item is the last one of a list that has the property. -/
inductive LastWith
    {ι : Type}
    (holds : ι → Prop) :
    List ι → ι → Prop where
  | intro (before behind : List ι) {item : ι} :
      holds item → (∀ later ∈ behind, ¬ holds later) →
        LastWith holds (before ++ item :: behind) item

/-- The last item that a filter keeps is the last one with the property that it decides. -/
theorem getLast?_filter_eq_some_iff
    {ι : Type}
    {passes : ι → Bool}
    {holds : ι → Prop}
    (decides : ∀ item, passes item = true ↔ holds item)
    {items : List ι}
    {item : ι} :
    (items.filter passes).getLast? = some item ↔ LastWith holds items item := by
  rw [List.getLast?_filter, List.find?_eq_some_iff_append]
  simp only [Bool.not_eq_true', ← Bool.not_eq_true, decides]
  constructor
  · rintro ⟨isLast, behind, before, split, others⟩
    rw [List.reverse_eq_append_iff, List.reverse_cons, List.append_assoc] at split
    rw [split]
    exact .intro _ _ isLast fun later listed => others later (List.mem_reverse.1 listed)
  · rintro ⟨before, behind, isLast, others⟩
    refine ⟨isLast, behind.reverse, before.reverse, ?_, ?_⟩
    · rw [List.reverse_append, List.reverse_cons, List.append_assoc, List.singleton_append]
    · intro later listed
      exact others later (List.mem_reverse.1 listed)

namespace SortedMap

variable
    {κ β ι : Type}
    [LE κ] [LT κ] [DecidableLT κ] [Std.IsLinearOrder κ] [Std.LawfulOrderLT κ]
    {map other : SortedMap κ β}
    {key : κ}

theorem entries_insert_ne_nil
    {value : β} :
    (map.insert key value).entries ≠ [] := by
  have isKey : (key, value) ∈ (map.insert key value).entries :=
    mem_entries_iff.2 get?_upsert_self
  exact List.ne_nil_of_mem isKey

/-- Maps that have the same values under all keys are equal. -/
theorem eq_of_get?_eq
    (same : ∀ key, map.get? key = other.get? key) :
    map = other := by
  have asymmetric : Std.Asymm fun first second : κ × β => first.1 < second.1 :=
    ⟨fun _ _ before behind => Std.lt_irrefl (Std.lt_trans before behind)⟩
  have entries : map.entries = other.entries := by
    apply map.ascending.eq_of_mem_iff other.ascending
    rintro ⟨key, value⟩
    rw [mem_entries_iff, mem_entries_iff, same]
  cases map
  cases other
  cases entries
  rfl

variable
    [DecidableEq κ]
    {keyOf : ι → κ}
    {valueOf : ι → β}

theorem get?_insert
    {inserted : κ}
    {value : β} :
    (map.insert inserted value).get? key =
      if inserted = key then some value else map.get? key := by
  split
  case isTrue same =>
    subst same
    rw [insert, get?_upsert_self]
  case isFalse different => rw [insert, get?_upsert_of_ne (Ne.symm different)]

/-- Of the values that are put in under a key, the last one stays. -/
theorem get?_foldl_insert
    (items : List ι) :
    (items.foldl (fun map item => map.insert (keyOf item) (valueOf item)) map).get? key =
      ((items.filter fun item => keyOf item = key).getLast?.map valueOf).or (map.get? key) := by
  induction items using List.reverseRecOn with
  | nil => rfl
  | append_singleton items item induction =>
      rw [List.foldl_append, List.foldl_cons, List.foldl_nil, get?_insert, List.filter_append,
        List.filter_singleton]
      by_cases same : keyOf item = key
      · rw [if_pos same, decide_eq_true same, cond_true, List.getLast?_concat]
        rfl
      · rw [if_neg same, decide_eq_false same, cond_false, List.append_nil, induction]

end SortedMap

end NetRun.Ordered
