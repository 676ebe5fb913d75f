import Mathlib.Algebra.BigOperators.Ring.Finset
import Mathlib.Data.ZMod.Basic

/-!
# Items that come in twins

If every item of a list has a twin in the list, then whatever does not tell
twins apart, and holds of no item that is its own twin, holds of an even
number of items.
-/

namespace NetRun

theorem even_countP_of_twins
    {ι : Type}
    [DecidableEq ι]
    {items : List ι}
    {chosen : ι → Bool}
    (nodup : items.Nodup)
    (twin : ι → ι)
    (listed : ∀ item ∈ items, twin item ∈ items)
    (back : ∀ item ∈ items, twin (twin item) = item)
    (other : ∀ item ∈ items, chosen item = true → twin item ≠ item)
    (alike : ∀ item ∈ items, chosen (twin item) = chosen item) :
    Even (items.countP chosen) := by
  have memberOf {item} (chosenItem : item ∈ (items.filter chosen).toFinset) :
      item ∈ items ∧ chosen item = true :=
    List.mem_filter.1 (List.mem_toFinset.1 chosenItem)
  -- Twins cancel in pairs when the chosen items are counted modulo two.
  have cancels : ∑ _item ∈ (items.filter chosen).toFinset, (1 : ZMod 2) = 0 := by
    apply Finset.sum_involution fun item _ => twin item
    · intro item _
      decide
    · intro item chosenItem _
      rcases memberOf chosenItem with ⟨isItem, isChosen⟩
      exact other item isItem isChosen
    · intro item chosenItem
      rcases memberOf chosenItem with ⟨isItem, isChosen⟩
      apply List.mem_toFinset.2
      exact List.mem_filter.2 ⟨listed item isItem, (alike item isItem).trans isChosen⟩
    · intro item chosenItem
      exact back item (memberOf chosenItem).1
  rw [Finset.sum_const, nsmul_one, ZMod.natCast_eq_zero_iff_even,
    List.toFinset_card_of_nodup (nodup.filter chosen)] at cancels
  rwa [List.countP_eq_length_filter]

end NetRun
