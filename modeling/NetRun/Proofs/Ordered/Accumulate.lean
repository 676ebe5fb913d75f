import NetRun.Ordered.Map
import Mathlib.Data.List.Basic

/-!
# Accumulation under keys

Items are put into a map one after the other, each changing the value under
its own key.  What stands under a key in the end is made by the items with
that key alone, in their order.  A key that no item has yet stands for a
starting value.
-/

namespace NetRun.Ordered

/-- What holds of the values and of all that may be put in holds of the values afterwards. -/
theorem forall_mem_upsertEntry
    {κ β : Type}
    [LT κ] [DecidableLT κ]
    {holds : β → Prop}
    {key : κ}
    {f : Option β → β}
    {entries : List (κ × β)}
    (before : ∀ entry ∈ entries, holds entry.2)
    (put : ∀ value, holds (f value)) :
    ∀ entry ∈ upsertEntry key f entries, holds entry.2 := by
  induction entries with
  | nil =>
      intro entry listed
      rw [List.mem_singleton.1 listed]
      exact put none
  | cons first rest induction =>
      rcases List.forall_mem_cons.1 before with ⟨firstHolds, restHolds⟩
      rw [upsertEntry]
      split
      case isTrue => exact List.forall_mem_cons.2 ⟨put none, before⟩
      case isFalse =>
        split
        case isTrue => exact List.forall_mem_cons.2 ⟨firstHolds, induction restHolds⟩
        case isFalse => exact List.forall_mem_cons.2 ⟨put _, restHolds⟩

namespace SortedMap

variable
    {κ β ι : Type}
    [LE κ] [LT κ] [DecidableLT κ] [Std.IsLinearOrder κ] [Std.LawfulOrderLT κ]

omit [LE κ] [DecidableLT κ] [Std.IsLinearOrder κ] [Std.LawfulOrderLT κ] in
theorem pairwise_keys
    (map : SortedMap κ β) :
    map.keys.Pairwise (· < ·) :=
  List.pairwise_map.2 map.ascending

theorem mem_keys_iff
    {map : SortedMap κ β}
    {key : κ} :
    key ∈ map.keys ↔ ∃ value, map.get? key = some value := by
  simp only [keys, List.mem_map, Prod.exists, ← mem_entries_iff]
  constructor
  · rintro ⟨_, value, listed, rfl⟩
    exact ⟨value, listed⟩
  · rintro ⟨value, listed⟩
    exact ⟨key, value, listed, rfl⟩

theorem mem_keys_upsert_iff
    {map : SortedMap κ β}
    {key other : κ}
    {f : Option β → β} :
    other ∈ (map.upsert key f).keys ↔ other = key ∨ other ∈ map.keys := by
  rw [mem_keys_iff, mem_keys_iff]
  by_cases same : other = key
  · subst same
    simp
  · rw [get?_upsert_of_ne same, or_iff_right same]

/-- Put an item in under its key, changing what stands there or the start. -/
def accumulate
    (keyOf : ι → κ)
    (step : β → ι → β)
    (start : β)
    (map : SortedMap κ β)
    (item : ι) :
    SortedMap κ β :=
  map.upsert (keyOf item) fun value => step (value.getD start) item

/-- The keys of the items, and no others, come in. -/
theorem mem_keys_foldl_accumulate_iff
    {keyOf : ι → κ}
    {step : β → ι → β}
    {start : β}
    {map : SortedMap κ β}
    {key : κ}
    (items : List ι) :
    key ∈ (items.foldl (accumulate keyOf step start) map).keys ↔
      key ∈ map.keys ∨ ∃ item ∈ items, keyOf item = key := by
  induction items generalizing map with
  | nil => simp
  | cons item items induction =>
      rw [List.foldl_cons, induction, accumulate, mem_keys_upsert_iff, List.exists_mem_cons_iff,
        eq_comm, or_assoc, or_left_comm]

variable
    [DecidableEq κ]
    {keyOf : ι → κ}
    {step : β → ι → β}
    {start : β}
    {map : SortedMap κ β}
    {key : κ}

theorem getD_get?_accumulate
    (item : ι) :
    ((map.accumulate keyOf step start item).get? key).getD start =
      if keyOf item = key then step ((map.get? key).getD start) item
      else (map.get? key).getD start := by
  split
  case isTrue same =>
    subst same
    rw [accumulate, get?_upsert_self, Option.getD_some]
  case isFalse other => rw [accumulate, get?_upsert_of_ne (Ne.symm other)]

/-- The items with a key, in their order, make what stands under it. -/
theorem getD_get?_foldl_accumulate
    (items : List ι) :
    ((items.foldl (accumulate keyOf step start) map).get? key).getD start =
      (items.filter fun item => keyOf item = key).foldl step ((map.get? key).getD start) := by
  induction items generalizing map with
  | nil => rfl
  | cons item items induction =>
      rw [List.foldl_cons, induction, getD_get?_accumulate, List.filter_cons]
      by_cases same : keyOf item = key
      · rw [if_pos same, if_pos (decide_eq_true same), List.foldl_cons]
      · rw [if_neg same, if_neg (by simpa using same)]

end SortedMap

end NetRun.Ordered
