import NetRun.Proofs.Ordered.Accumulate

/-!
# Values listed under keys

Items are put into a map of lists, each with its value at the end of the list
under its key.  The keys are those of the items, no list is empty, and every
list holds the values of its items in their order.  If the keys of the items
ascend, the lists one behind the other are all values in their order.
-/

namespace NetRun.Ordered

variable
    {κ β ι : Type}
    [LE κ] [LT κ] [DecidableLT κ] [Std.IsLinearOrder κ] [Std.LawfulOrderLT κ]

/-- A value under a key that no other exceeds comes behind all others. -/
theorem flatMap_upsertEntry_of_not_lt
    {key : κ}
    {value : β}
    {entries : List (κ × List β)}
    (ascending : Ascending entries)
    (last : ∀ entry ∈ entries, ¬ key < entry.1) :
    (upsertEntry key (fun values => values.getD [] ++ [value]) entries).flatMap Prod.snd =
      entries.flatMap Prod.snd ++ [value] := by
  induction entries with
  | nil => rfl
  | cons entry rest induction =>
      rcases entry with ⟨other, values⟩
      rcases List.pairwise_cons.1 ascending with ⟨first, restAscending⟩
      rcases List.forall_mem_cons.1 last with ⟨notBefore, restLast⟩
      rw [upsertEntry, if_neg notBefore]
      split
      case isTrue =>
        rw [List.flatMap_cons, induction restAscending restLast, List.flatMap_cons,
          List.append_assoc]
      case isFalse notBehind =>
        -- The key is the greatest, so nothing stands behind it.
        have same : key = other := eq_of_not_lt notBefore notBehind
        have nothing : rest = [] := by
          apply List.eq_nil_iff_forall_not_mem.2
          intro later listed
          exact restLast later listed (same ▸ first later listed)
        rw [nothing]
        simp

namespace SortedMap

/-- Put the values of items at the ends of the lists under their keys. -/
def appendAll
    (keyOf : ι → κ)
    (valueOf : ι → β)
    (map : SortedMap κ (List β))
    (items : List ι) :
    SortedMap κ (List β) :=
  items.foldl (fun lists item => lists.append (keyOf item) (valueOf item)) map

variable
    {keyOf : ι → κ}
    {valueOf : ι → β}
    {map : SortedMap κ (List β)}

theorem mem_keys_appendAll_iff
    {items : List ι}
    {key : κ} :
    key ∈ (appendAll keyOf valueOf map items).keys ↔
      key ∈ map.keys ∨ ∃ item ∈ items, keyOf item = key := by
  change key ∈ (items.foldl
    (accumulate keyOf (fun values item => values ++ [valueOf item]) []) map).keys ↔ _
  exact mem_keys_foldl_accumulate_iff items

/-- Under a key stand the values of its items, in their order. -/
theorem getD_get?_appendAll
    [DecidableEq κ]
    (items : List ι)
    (key : κ) :
    ((appendAll keyOf valueOf map items).get? key).getD [] =
      (map.get? key).getD [] ++ (items.filter fun item => keyOf item = key).map valueOf := by
  change ((items.foldl
    (accumulate keyOf (fun values item => values ++ [valueOf item]) []) map).get? key).getD [] = _
  rw [getD_get?_foldl_accumulate, List.foldl_append_eq_append, ← List.flatMap_def,
    ← List.map_eq_flatMap]

theorem ne_nil_of_get?_appendAll
    [DecidableEq κ]
    {items : List ι}
    {key : κ}
    {values : List β}
    (listed : (appendAll keyOf valueOf empty items).get? key = some values) :
    values ≠ [] := by
  have isKey : key ∈ (appendAll keyOf valueOf empty items).keys := mem_keys_iff.2 ⟨values, listed⟩
  rcases mem_keys_appendAll_iff.1 isKey with impossible | ⟨item, isItem, keyed⟩
  · cases impossible
  have all : ((appendAll keyOf valueOf empty items).get? key).getD [] = _ :=
    getD_get?_appendAll items key
  rw [listed, Option.getD_some] at all
  rw [all]
  apply List.append_ne_nil_of_right_ne_nil
  apply List.ne_nil_of_mem
  exact List.mem_map_of_mem (List.mem_filter.2 ⟨isItem, decide_eq_true keyed⟩)

/-- If the keys of the items ascend, the lists one behind the other are all values. -/
theorem flatMap_appendAll
    {items : List ι}
    (ascending : items.Pairwise fun first second => ¬ keyOf second < keyOf first)
    (last : ∀ entry ∈ map.entries, ∀ item ∈ items, ¬ keyOf item < entry.1) :
    (appendAll keyOf valueOf map items).entries.flatMap Prod.snd =
      map.entries.flatMap Prod.snd ++ items.map valueOf := by
  induction items generalizing map with
  | nil => simp [appendAll]
  | cons item items induction =>
      rcases List.pairwise_cons.1 ascending with ⟨first, restAscending⟩
      rw [appendAll, List.foldl_cons]
      refine (induction restAscending ?_).trans ?_
      · intro entry listed later isLater
        have isKey : entry.1 ∈ (map.append (keyOf item) (valueOf item)).keys :=
          List.mem_map_of_mem listed
        rcases mem_keys_upsert_iff.1 isKey with same | old
        · rw [same]
          exact first later isLater
        · rcases List.mem_map.1 old with ⟨former, isFormer, same⟩
          rw [← same]
          exact last former isFormer later (List.mem_cons_of_mem item isLater)
      · have next :
            (map.append (keyOf item) (valueOf item)).entries.flatMap Prod.snd =
              map.entries.flatMap Prod.snd ++ [valueOf item] :=
          flatMap_upsertEntry_of_not_lt map.ascending fun entry listed =>
            last entry listed item List.mem_cons_self
        rw [next, List.map_cons, List.append_assoc, List.singleton_append]

end SortedMap

end NetRun.Ordered
