import NetRun.Sorting.Few
import Mathlib.Algebra.Order.Group.Multiset
import Mathlib.Order.OrderDual
import Mathlib.Tactic.Abel

/-!
# Sorted values

Whatever the comparison is, a sort that has a result only rearranges its
values.  If the comparison goes by a key, it has a result and the keys ascend.
Two ends of a merge never contradict each other then: how many values of either
half belong to the front is settled by how many there are in all.
-/

namespace NetRun.Sorting

variable
    {α β : Type}
    [LinearOrder β]

/-- Of two of the values, the one with the lesser key is less. -/
def ComparesBy
    (key : α → β)
    (less : α → α → Bool)
    (values : List α) :
    Prop :=
  ∀ first ∈ values, ∀ second ∈ values, less first second = true ↔ key first < key second

/-- The keys of the values ascend. -/
def Ascends
    (key : α → β)
    (values : List α) :
    Prop :=
  values.Pairwise fun first second => key first ≤ key second

/-- What a sort makes of values rearranges them, and it ascends if the comparison goes by a key. -/
structure Sorts
    (key : α → β)
    (less : α → α → Bool)
    (values : List α)
    (outcome : Option (List α)) :
    Prop where
  perm :
    ∀ sorted, outcome = some sorted → sorted.Perm values
  ascends :
    ComparesBy key less values → ∃ sorted, outcome = some sorted ∧ Ascends key sorted

variable
    {key : α → β}
    {less : α → α → Bool}

/-! ## Keys -/

theorem ComparesBy.mono
    {values others : List α}
    (compares : ComparesBy key less values)
    (within : others ⊆ values) :
    ComparesBy key less others :=
  fun first isFirst second isSecond => compares first (within isFirst) second (within isSecond)

theorem ComparesBy.lt
    {values : List α}
    (compares : ComparesBy key less values)
    {first second : α}
    (isFirst : first ∈ values)
    (isSecond : second ∈ values)
    (isLess : less first second = true) :
    key first < key second :=
  (compares first isFirst second isSecond).1 isLess

theorem ComparesBy.le
    {values : List α}
    (compares : ComparesBy key less values)
    {first second : α}
    (isFirst : first ∈ values)
    (isSecond : second ∈ values)
    (notLess : ¬ less first second = true) :
    key second ≤ key first :=
  not_lt.1 (mt (compares first isFirst second isSecond).2 notLess)

/-- Seen from the end, the comparison goes by the same key the other way round. -/
theorem ComparesBy.dual
    {values : List α}
    (compares : ComparesBy key less values) :
    ComparesBy (OrderDual.toDual ∘ key) (fun first second => less second first) values :=
  fun first isFirst second isSecond => compares second isSecond first isFirst

theorem ascends_dual_reverse_iff
    {values : List α} :
    Ascends (OrderDual.toDual ∘ key) values.reverse ↔ Ascends key values :=
  List.pairwise_reverse

theorem ascends_reverse_dual_iff
    {values : List α} :
    Ascends key values.reverse ↔ Ascends (OrderDual.toDual ∘ key) values :=
  List.pairwise_reverse

theorem ascends_append_iff
    {left right : List α} :
    Ascends key (left ++ right) ↔
      Ascends key left ∧ Ascends key right ∧ ∀ x ∈ left, ∀ y ∈ right, key x ≤ key y :=
  List.pairwise_append

theorem ascends_cons_iff
    {value : α}
    {values : List α} :
    Ascends key (value :: values) ↔ (∀ other ∈ values, key value ≤ key other) ∧ Ascends key values :=
  List.pairwise_cons

/-- What is no greater than the first of ascending values is no greater than any of them. -/
theorem Ascends.le_of_le_head
    {value : α}
    {values : List α}
    {bound : β}
    (ascends : Ascends key (value :: values))
    (least : bound ≤ key value) :
    ∀ other ∈ value :: values, bound ≤ key other :=
  List.forall_mem_cons.2
    ⟨least, fun other behind => least.trans ((ascends_cons_iff.1 ascends).1 other behind)⟩

/-! ## Insertion -/

theorem insertDescending_perm
    (less : α → α → Bool)
    (value : α)
    (descending : List α) :
    (insertDescending less value descending).Perm (value :: descending) := by
  induction descending with
  | nil => exact .refl _
  | cons greatest rest induction =>
      rw [insertDescending]
      split
      case isTrue => exact (induction.cons greatest).trans (.swap value greatest rest)
      case isFalse => exact .refl _

theorem ascends_insertDescending
    {value : α}
    {descending : List α}
    (compares : ComparesBy key less (value :: descending))
    (descends : Ascends (OrderDual.toDual ∘ key) descending) :
    Ascends (OrderDual.toDual ∘ key) (insertDescending less value descending) := by
  induction descending with
  | nil => exact List.pairwise_singleton _ _
  | cons greatest rest induction =>
      rcases ascends_cons_iff.1 descends with ⟨above, restDescends⟩
      rw [insertDescending]
      split
      case isTrue isLess =>
        have within : value :: rest ⊆ value :: greatest :: rest :=
          List.cons_subset_cons value (List.subset_cons_self greatest rest)
        refine ascends_cons_iff.2 ⟨?_, induction (compares.mono within) restDescends⟩
        intro other listed
        rcases List.mem_cons.1 ((insertDescending_perm _ _ _).mem_iff.1 listed) with rfl | isRest
        · exact (compares.lt (by simp) (by simp) isLess).le
        · exact above other isRest
      case isFalse notLess =>
        have least : key greatest ≤ key value := compares.le (by simp) (by simp) notLess
        exact ascends_cons_iff.2 ⟨descends.le_of_le_head least, descends⟩

theorem insertAll_cons
    (less : α → α → Bool)
    (sorted : List α)
    (value : α)
    (values : List α) :
    insertAll less sorted (value :: values) =
      insertAll less (insertDescending less value sorted.reverse).reverse values := by
  rw [insertAll, insertAll, List.foldl_cons, List.reverse_reverse]

theorem insertAll_perm
    (less : α → α → Bool)
    (sorted values : List α) :
    (insertAll less sorted values).Perm (sorted ++ values) := by
  induction values generalizing sorted with
  | nil =>
      rw [insertAll, List.foldl_nil, List.reverse_reverse, List.append_nil]
  | cons value values induction =>
      rw [insertAll_cons]
      refine (induction _).trans ?_
      have inserted :
          (insertDescending less value sorted.reverse).reverse.Perm (value :: sorted) :=
        (List.reverse_perm _).trans ((insertDescending_perm less value sorted.reverse).trans
          ((List.reverse_perm sorted).cons value))
      exact (inserted.append_right values).trans List.perm_middle.symm

theorem ascends_insertAll
    {sorted values : List α}
    (compares : ComparesBy key less (sorted ++ values))
    (ascends : Ascends key sorted) :
    Ascends key (insertAll less sorted values) := by
  induction values generalizing sorted with
  | nil =>
      rw [insertAll, List.foldl_nil, List.reverse_reverse]
      exact ascends
  | cons value values induction =>
      rw [insertAll_cons]
      have inserted := insertDescending_perm less value sorted.reverse
      apply induction
      · apply compares.mono
        intro other listed
        simp only [List.mem_append, List.mem_reverse, inserted.mem_iff, List.mem_cons] at listed ⊢
        tauto
      · refine ascends_reverse_dual_iff.2 (ascends_insertDescending (compares.mono ?_)
          (ascends_dual_reverse_iff.2 ascends))
        intro other listed
        simp only [List.mem_append, List.mem_reverse, List.mem_cons] at listed ⊢
        tauto

/-! ## Four values -/

theorem sortTwo_perm
    (less : α → α → Bool)
    (first second : α) :
    [(sortTwo less first second).1, (sortTwo less first second).2].Perm [first, second] := by
  rw [sortTwo]
  split
  case isTrue => exact .swap first second []
  case isFalse => exact .refl _

theorem sortTwo_le
    {first second : α}
    (compares : ComparesBy key less [first, second]) :
    key (sortTwo less first second).1 ≤ key (sortTwo less first second).2 := by
  rw [sortTwo]
  split
  case isTrue isLess => exact (compares.lt (by simp) (by simp) isLess).le
  case isFalse notLess => exact compares.le (by simp) (by simp) notLess

/-- Between two values two others are sorted by comparing them alone. -/
theorem ascends_sortTwo_between
    {least first second greatest : α}
    (compares : ComparesBy key less [first, second])
    (above : key least ≤ key first ∧ key least ≤ key second)
    (below : key first ≤ key greatest ∧ key second ≤ key greatest) :
    Ascends key
      [least, (sortTwo less first second).1, (sortTwo less first second).2, greatest] := by
  have inOrder := sortTwo_le compares
  have within : ∀ value ∈ [(sortTwo less first second).1, (sortTwo less first second).2],
      key least ≤ key value ∧ key value ≤ key greatest := by
    intro value listed
    rw [(sortTwo_perm less first second).mem_iff, List.mem_pair] at listed
    rcases listed with rfl | rfl
    · exact ⟨above.1, below.1⟩
    · exact ⟨above.2, below.2⟩
  rw [List.forall_mem_cons, List.forall_mem_singleton] at within
  rcases within with ⟨⟨lowerAbove, lowerBelow⟩, upperAbove, upperBelow⟩
  have through : key least ≤ key greatest := above.1.trans below.1
  simp only [Ascends, List.pairwise_cons, List.mem_cons, List.not_mem_nil, or_false,
    forall_eq_or_imp, forall_eq, List.Pairwise.nil, and_true, false_imp_iff, implies_true]
  exact ⟨⟨lowerAbove, upperAbove, through⟩, ⟨inOrder, lowerBelow⟩, upperBelow⟩

theorem sortFour_perm
    (less : α → α → Bool)
    (first second third fourth : α) :
    (sortFour less first second third fourth).Perm [first, second, third, fourth] := by
  have pairs := (sortTwo_perm less first second).append (sortTwo_perm less third fourth)
  rw [sortFour]
  generalize sortTwo less first second = front at pairs ⊢
  generalize sortTwo less third fourth = back at pairs ⊢
  rcases front with ⟨a, b⟩
  rcases back with ⟨c, d⟩
  refine List.Perm.trans ?_ pairs
  have turned : ([c, d] ++ [b]).Perm ([b] ++ [c, d]) := List.perm_append_comm
  have behind : [a, c, d, b].Perm [a, b, c, d] := turned.cons a
  dsimp only [List.cons_append, List.nil_append]
  split
  case h_1 => exact ((sortTwo_perm less b c).append_right [d]).cons a
  case h_2 => exact (((sortTwo_perm less c d).append_right [b]).cons a).trans behind
  case h_3 =>
    refine (((sortTwo_perm less a b).append_right [d]).cons c).trans ?_
    have front : ([c] ++ [a, b]).Perm ([a, b] ++ [c]) := List.perm_append_comm
    exact front.append_right [d]
  case h_4 =>
    refine (((sortTwo_perm less a d).append_right [b]).cons c).trans ?_
    exact (List.Perm.swap a c [d, b]).trans behind

theorem ascends_sortFour
    {first second third fourth : α}
    (compares : ComparesBy key less [first, second, third, fourth]) :
    Ascends key (sortFour less first second third fourth) := by
  have pairs := (sortTwo_perm less first second).append (sortTwo_perm less third fourth)
  have front := sortTwo_le (compares.mono (show [first, second] ⊆ _ by simp))
  have back := sortTwo_le (compares.mono (show [third, fourth] ⊆ _ by simp))
  rw [sortFour]
  generalize sortTwo less first second = lowPair at pairs front ⊢
  generalize sortTwo less third fourth = highPair at pairs back ⊢
  rcases lowPair with ⟨a, b⟩
  rcases highPair with ⟨c, d⟩
  replace compares : ComparesBy key less [a, b, c, d] := compares.mono pairs.subset
  have within : ∀ {x y : α}, x ∈ [a, b, c, d] → y ∈ [a, b, c, d] → ComparesBy key less [x, y] := by
    intro x y isFirst isSecond
    exact compares.mono (List.cons_subset.2 ⟨isFirst, List.cons_subset.2 ⟨isSecond, by simp⟩⟩)
  dsimp only at front back ⊢
  split
  case h_1 startStays stopStays =>
    have start := compares.le (by simp) (by simp) (ne_true_of_eq_false startStays)
    have stop := compares.le (by simp) (by simp) (ne_true_of_eq_false stopStays)
    exact ascends_sortTwo_between (within (by simp) (by simp)) ⟨front, start⟩ ⟨stop, back⟩
  case h_2 startStays stopMoves =>
    have start := compares.le (by simp) (by simp) (ne_true_of_eq_false startStays)
    have stop := (compares.lt (by simp) (by simp) stopMoves).le
    exact ascends_sortTwo_between (within (by simp) (by simp)) ⟨start, start.trans back⟩
      ⟨back.trans stop, stop⟩
  case h_3 startMoves stopStays =>
    have start := (compares.lt (by simp) (by simp) startMoves).le
    have stop := compares.le (by simp) (by simp) (ne_true_of_eq_false stopStays)
    exact ascends_sortTwo_between (within (by simp) (by simp)) ⟨start, start.trans front⟩
      ⟨front.trans stop, stop⟩
  case h_4 startMoves stopMoves =>
    have start := (compares.lt (by simp) (by simp) startMoves).le
    have stop := (compares.lt (by simp) (by simp) stopMoves).le
    exact ascends_sortTwo_between (within (by simp) (by simp)) ⟨start, back⟩ ⟨front, stop⟩

/-! ## Two halves -/

/-- These many values of the left list and these many of the right one come before all others. -/
structure IsCut
    (key : α → β)
    (left right : List α)
    (leftCount rightCount : Nat) :
    Prop where
  le : ∀ x ∈ left.take leftCount, ∀ y ∈ right.drop rightCount, key x ≤ key y
  lt : ∀ y ∈ right.take rightCount, ∀ x ∈ left.drop leftCount, key y < key x

section Cuts

variable
    {left right : List α}
    {leftCount rightCount : Nat}

/-- What stands at a place is among the first values of every longer start. -/
theorem exists_mem_take_and_mem_drop
    {values : List α}
    {before behind : Nat}
    (less : before < behind)
    (within : behind ≤ values.length) :
    ∃ value, value ∈ values.drop before ∧ value ∈ values.take behind := by
  have inside : before < values.length := less.trans_le within
  exact ⟨values[before], List.mem_drop_iff_getElem.2 ⟨0, by omega, by simp⟩,
    List.mem_take_iff_getElem.2 ⟨before, by omega, rfl⟩⟩

/-- Of two cuts, the one of fewer values takes no more of either list. -/
theorem IsCut.le_of_add_le
    (cut : IsCut key left right leftCount rightCount)
    (leftWithin : leftCount ≤ left.length)
    (rightWithin : rightCount ≤ right.length)
    {leftMore rightMore : Nat}
    (more : IsCut key left right leftMore rightMore)
    (leftMoreWithin : leftMore ≤ left.length)
    (rightMoreWithin : rightMore ≤ right.length)
    (fewer : leftCount + rightCount ≤ leftMore + rightMore) :
    leftCount ≤ leftMore ∧ rightCount ≤ rightMore := by
  constructor
  · by_contra beyond
    rcases exists_mem_take_and_mem_drop (not_le.1 beyond) leftWithin with ⟨x, behind, before⟩
    rcases exists_mem_take_and_mem_drop (show rightCount < rightMore by omega) rightMoreWithin
      with ⟨y, rightBehind, rightBefore⟩
    exact (cut.le x before y rightBehind).not_gt (more.lt y rightBefore x behind)
  · by_contra beyond
    rcases exists_mem_take_and_mem_drop (not_le.1 beyond) rightWithin with ⟨y, behind, before⟩
    rcases exists_mem_take_and_mem_drop (show leftCount < leftMore by omega) leftMoreWithin
      with ⟨x, leftBehind, leftBefore⟩
    exact (more.le x leftBefore y behind).not_gt (cut.lt y before x leftBehind)

/-- What a cut of sorted lists takes is no greater than what it leaves. -/
theorem IsCut.taken_le
    (cut : IsCut key left right leftCount rightCount)
    (leftAscends : Ascends key left)
    (rightAscends : Ascends key right) :
    ∀ x ∈ left.take leftCount ++ right.take rightCount,
      ∀ y ∈ left.drop leftCount ++ right.drop rightCount, key x ≤ key y := by
  rw [← left.take_append_drop leftCount, ascends_append_iff] at leftAscends
  rw [← right.take_append_drop rightCount, ascends_append_iff] at rightAscends
  intro x taken y kept
  rcases List.mem_append.1 taken with ofLeft | ofRight
  · rcases List.mem_append.1 kept with keptLeft | keptRight
    · exact leftAscends.2.2 x ofLeft y keptLeft
    · exact cut.le x ofLeft y keptRight
  · rcases List.mem_append.1 kept with keptLeft | keptRight
    · exact (cut.lt x ofRight y keptLeft).le
    · exact rightAscends.2.2 x ofRight y keptRight

end Cuts

section Steps

variable
    {x y : α}
    {left right : List α}
    {leftCount rightCount : Nat}

/-- If the first value on the left is no greater than that on the right, it comes first. -/
theorem IsCut.cons_left
    (cut : IsCut key left (y :: right) leftCount rightCount)
    (least : key x ≤ key y)
    (ascends : Ascends key (y :: right)) :
    IsCut key (x :: left) (y :: right) (leftCount + 1) rightCount := by
  refine ⟨?_, cut.lt⟩
  rw [List.take_succ_cons, List.forall_mem_cons]
  exact ⟨fun other kept => ascends.le_of_le_head least other (List.mem_of_mem_drop kept), cut.le⟩

/-- If the first value on the right is less than that on the left, it comes first. -/
theorem IsCut.cons_right
    (cut : IsCut key (x :: left) right leftCount rightCount)
    (less : key y < key x)
    (ascends : Ascends key (x :: left)) :
    IsCut key (x :: left) (y :: right) leftCount (rightCount + 1) := by
  refine ⟨cut.le, ?_⟩
  rw [List.take_succ_cons, List.forall_mem_cons]
  refine ⟨fun other kept => ?_, cut.lt⟩
  exact less.trans_le (ascends.le_of_le_head le_rfl other (List.mem_of_mem_drop kept))

end Steps

/-- What is no greater than the values of two lists is no greater than what is taken from them. -/
theorem le_of_perm_take
    {taken left right : List α}
    {leftCount rightCount : Nat}
    {bound : β}
    (perm : taken.Perm (left.take leftCount ++ right.take rightCount))
    (leastLeft : ∀ x ∈ left, bound ≤ key x)
    (leastRight : ∀ y ∈ right, bound ≤ key y) :
    ∀ value ∈ taken, bound ≤ key value := by
  intro value listed
  rcases List.mem_append.1 (perm.mem_iff.1 listed) with ofLeft | ofRight
  · exact leastLeft value (List.mem_of_mem_take ofLeft)
  · exact leastRight value (List.mem_of_mem_take ofRight)

/--
As long as both lists last, values are taken from the fronts of both.  In sorted
lists they are cut off there, and what is taken ascends.
-/
theorem exists_takeLeast_eq
    (key : α → β)
    (less : α → α → Bool)
    {count : Nat}
    {left right : List α}
    (leftLasts : count ≤ left.length)
    (rightLasts : count ≤ right.length) :
    ∃ taken leftCount rightCount,
      takeLeast less count left right = (taken, left.drop leftCount, right.drop rightCount) ∧
        leftCount + rightCount = count ∧
          taken.Perm (left.take leftCount ++ right.take rightCount) ∧
            (ComparesBy key less (left ++ right) → Ascends key left → Ascends key right →
              IsCut key left right leftCount rightCount ∧ Ascends key taken) := by
  induction count generalizing left right with
  | zero =>
      refine ⟨[], 0, 0, rfl, rfl, .refl _, fun _ _ _ => ⟨⟨?_, ?_⟩, List.Pairwise.nil⟩⟩
      · exact List.forall_mem_nil _
      · exact List.forall_mem_nil _
  | succ count induction =>
      rcases left with _ | ⟨x, left⟩
      · cases leftLasts
      rcases right with _ | ⟨y, right⟩
      · cases rightLasts
      rw [List.length_cons] at leftLasts rightLasts
      rw [takeLeast]
      split
      case isTrue isLess =>
        have lasts : count ≤ (x :: left).length := by
          rw [List.length_cons]
          omega
        rcases induction lasts (Nat.le_of_succ_le_succ rightLasts) with
          ⟨taken, leftCount, rightCount, isTaken, counts, perm, inOrder⟩
        refine ⟨y :: taken, leftCount, rightCount + 1, by rw [isTaken]; rfl, by omega,
          (perm.cons y).trans List.perm_middle.symm, fun compares leftAscends rightAscends => ?_⟩
        have below := compares.lt (by simp) (by simp) isLess
        rcases ascends_cons_iff.1 rightAscends with ⟨least, behindAscends⟩
        have within : (x :: left) ++ right ⊆ (x :: left) ++ (y :: right) :=
          ((List.sublist_cons_self y right).append_left _).subset
        rcases inOrder (compares.mono within) leftAscends behindAscends with ⟨cut, takenAscends⟩
        exact ⟨cut.cons_right below leftAscends, ascends_cons_iff.2
          ⟨le_of_perm_take perm (leftAscends.le_of_le_head below.le) least, takenAscends⟩⟩
      case isFalse notLess =>
        have lasts : count ≤ (y :: right).length := by
          rw [List.length_cons]
          omega
        rcases induction (Nat.le_of_succ_le_succ leftLasts) lasts with
          ⟨taken, leftCount, rightCount, isTaken, counts, perm, inOrder⟩
        refine ⟨x :: taken, leftCount + 1, rightCount, by rw [isTaken]; rfl, by omega,
          perm.cons x, fun compares leftAscends rightAscends => ?_⟩
        have least := compares.le (by simp) (by simp) notLess
        rcases ascends_cons_iff.1 leftAscends with ⟨first, behindAscends⟩
        have within : left ++ (y :: right) ⊆ (x :: left) ++ (y :: right) :=
          List.subset_cons_self x _
        rcases inOrder (compares.mono within) behindAscends rightAscends with ⟨cut, takenAscends⟩
        exact ⟨cut.cons_left least rightAscends, ascends_cons_iff.2
          ⟨le_of_perm_take perm first (rightAscends.le_of_le_head least), takenAscends⟩⟩

/-- A cut of the lists seen from the end is one of the lists. -/
theorem IsCut.of_reverse
    {left right : List α}
    {leftCount rightCount : Nat}
    (cut :
      IsCut (OrderDual.toDual ∘ key) right.reverse left.reverse (right.length - rightCount)
        (left.length - leftCount))
    (leftWithin : leftCount ≤ left.length)
    (rightWithin : rightCount ≤ right.length) :
    IsCut key left right leftCount rightCount := by
  rcases cut with ⟨le, lt⟩
  simp only [List.take_reverse, List.drop_reverse, List.mem_reverse, Nat.sub_sub_self leftWithin,
    Nat.sub_sub_self rightWithin] at le lt
  exact ⟨fun x taken y kept => le y kept x taken, fun y taken x kept => lt x kept y taken⟩

/-- The values from one place to another one behind it. -/
theorem take_append_between_append_drop
    (values : List α)
    {before behind : Nat}
    (inOrder : before ≤ behind) :
    values.take before ++ ((values.drop before).take (behind - before) ++ values.drop behind) =
      values := by
  have rest : values.drop behind = (values.drop before).drop (behind - before) := by
    rw [List.drop_drop, Nat.add_sub_cancel' inOrder]
  rw [rest, List.take_append_drop, List.take_append_drop]

/-- What stands between two places is in front of the second. -/
theorem mem_take_of_mem_between
    {values : List α}
    {before behind : Nat}
    (inOrder : before ≤ behind)
    {value : α}
    (listed : value ∈ (values.drop before).take (behind - before)) :
    value ∈ values.take behind := by
  rw [List.take_drop, Nat.add_sub_cancel' inOrder] at listed
  exact List.mem_of_mem_drop listed

theorem ascends_of_length_le_one
    {values : List α}
    (few : values.length ≤ 1) :
    Ascends key values := by
  rcases values with _ | ⟨value, _ | ⟨other, values⟩⟩
  · exact List.Pairwise.nil
  · exact List.pairwise_singleton _ _
  · simp at few

section Halves

variable
    {left right : List α}
    (notLonger : left.length ≤ right.length)

include notLonger

/-- Each end of a merge takes as many values as the first half has and cuts off what it has taken. -/
theorem exists_joinHalves_eq
    (key : α → β)
    (less : α → α → Bool) :
    ∃ least greatest i j leftStop rightStop,
      (joinHalves less left right =
          if i ≤ leftStop ∧ j ≤ rightStop then
            some (least ++ ((left.drop i).take (leftStop - i) ++
              (right.drop j).take (rightStop - j)) ++ greatest)
          else none) ∧
        (i + j = left.length ∧ leftStop + rightStop = right.length ∧
          leftStop ≤ left.length ∧ rightStop ≤ right.length) ∧
          least.Perm (left.take i ++ right.take j) ∧
            greatest.Perm (left.drop leftStop ++ right.drop rightStop) ∧
              (ComparesBy key less (left ++ right) → Ascends key left → Ascends key right →
                (IsCut key left right i j ∧ Ascends key least) ∧
                  IsCut key left right leftStop rightStop ∧ Ascends key greatest) := by
  rcases exists_takeLeast_eq key less (le_refl left.length) notLonger with
    ⟨least, i, j, front, frontCount, leastPerm, frontInOrder⟩
  rcases exists_takeLeast_eq (OrderDual.toDual ∘ key) (fun x y => less y x)
      (show left.length ≤ right.reverse.length by simpa using notLonger)
      (show left.length ≤ left.reverse.length by simp) with
    ⟨greatest, p, q, back, backCount, greatestPerm, backInOrder⟩
  have qTwice : left.length - (left.length - q) = q := Nat.sub_sub_self (by omega)
  have pTwice : right.length - (right.length - p) = p := Nat.sub_sub_self (by omega)
  refine ⟨least, greatest.reverse, i, j, left.length - q, right.length - p, ?_, by omega,
    leastPerm, ?_, fun compares leftAscends rightAscends => ⟨?_, ?_, ?_⟩⟩
  · rw [joinHalves, front, back]
    simp only [List.length_drop, List.length_reverse, List.append_assoc,
      Nat.sub_sub_self (show i ≤ left.length by omega),
      Nat.sub_sub_self (show j ≤ right.length by omega)]
  · rw [List.take_reverse, List.take_reverse] at greatestPerm
    refine (List.reverse_perm _).trans (greatestPerm.trans ?_)
    exact ((List.reverse_perm _).append (List.reverse_perm _)).trans List.perm_append_comm
  · exact frontInOrder compares leftAscends rightAscends
  all_goals
    have reversed : right.reverse ++ left.reverse ⊆ left ++ right := by
      intro value listed
      simpa [or_comm] using listed
    rcases backInOrder (compares.dual.mono reversed) (ascends_dual_reverse_iff.2 rightAscends)
      (ascends_dual_reverse_iff.2 leftAscends) with ⟨cut, greatestAscends⟩
  · apply IsCut.of_reverse _ (Nat.sub_le _ _) (Nat.sub_le _ _)
    rwa [qTwice, pTwice]
  · exact ascends_reverse_dual_iff.2 greatestAscends

theorem joinHalves_perm
    {joined : List α}
    (joins : joinHalves less left right = some joined) :
    joined.Perm (left ++ right) := by
  rcases exists_joinHalves_eq notLonger (fun _ : α => 0) less with
    ⟨least, greatest, i, j, leftStop, rightStop, isJoined, -, leastPerm, greatestPerm, -⟩
  rw [isJoined] at joins
  split at joins
  case isFalse => cases joins
  case isTrue apart =>
    cases joins
    have leftParts := congrArg Multiset.ofList (take_append_between_append_drop left apart.1)
    have rightParts := congrArg Multiset.ofList (take_append_between_append_drop right apart.2)
    rw [← Multiset.coe_eq_coe] at leastPerm greatestPerm ⊢
    simp only [← Multiset.coe_add] at leastPerm greatestPerm leftParts rightParts ⊢
    rw [leastPerm, greatestPerm, ← leftParts, ← rightParts]
    abel

/-- Sorted halves of almost the same length are joined: the ends cut them off at the same places. -/
theorem exists_joinHalves_eq_some
    (almost : right.length ≤ left.length + 1)
    (compares : ComparesBy key less (left ++ right))
    (leftAscends : Ascends key left)
    (rightAscends : Ascends key right) :
    ∃ joined, joinHalves less left right = some joined ∧ Ascends key joined := by
  rcases exists_joinHalves_eq notLonger key less with
    ⟨least, greatest, i, j, leftStop, rightStop, isJoined, counts, leastPerm, greatestPerm,
      inOrder⟩
  rcases inOrder compares leftAscends rightAscends with
    ⟨⟨cut, leastAscends⟩, stopCut, greatestAscends⟩
  have apart : i ≤ leftStop ∧ j ≤ rightStop :=
    cut.le_of_add_le (by omega) (by omega) stopCut (by omega) (by omega) (by omega)
  have kept := cut.taken_le leftAscends rightAscends
  have stopped := stopCut.taken_le leftAscends rightAscends
  have few : ((left.drop i).take (leftStop - i) ++ (right.drop j).take (rightStop - j)).length ≤
      1 := by
    rw [List.length_append, List.length_take, List.length_take]
    omega
  rw [isJoined, if_pos apart]
  refine ⟨_, rfl, ?_⟩
  rw [List.append_assoc, ascends_append_iff, ascends_append_iff]
  refine ⟨leastAscends, ⟨ascends_of_length_le_one few, greatestAscends, ?_⟩, ?_⟩
  · intro x between y top
    refine stopped x ?_ y (greatestPerm.mem_iff.1 top)
    rcases List.mem_append.1 between with ofLeft | ofRight
    · exact List.mem_append_left _ (mem_take_of_mem_between apart.1 ofLeft)
    · exact List.mem_append_right _ (mem_take_of_mem_between apart.2 ofRight)
  · intro x bottom y behind
    refine kept x (leastPerm.mem_iff.1 bottom) y ?_
    rcases List.mem_append.1 behind with between | top
    · rcases List.mem_append.1 between with ofLeft | ofRight
      · exact List.mem_append_left _ (List.mem_of_mem_take ofLeft)
      · exact List.mem_append_right _ (List.mem_of_mem_take ofRight)
    · rcases List.mem_append.1 (greatestPerm.mem_iff.1 top) with ofLeft | ofRight
      · exact List.mem_append_left _ (List.drop_subset_drop_left left apart.1 ofLeft)
      · exact List.mem_append_right _ (List.drop_subset_drop_left right apart.2 ofRight)

end Halves

/-! ## Few values -/

theorem Sorts.of_eq_some
    {values sorted : List α}
    (perm : sorted.Perm values)
    (ascends : ComparesBy key less values → Ascends key sorted) :
    Sorts key less values (some sorted) := by
  refine ⟨?_, fun compares => ⟨sorted, rfl, ascends compares⟩⟩
  rintro _ ⟨⟩
  exact perm

theorem sorts_insertAll
    (key : α → β)
    (less : α → α → Bool)
    (values : List α) :
    Sorts key less values (some (insertAll less [] values)) :=
  .of_eq_some (insertAll_perm less [] values) fun compares =>
    ascends_insertAll compares List.Pairwise.nil

theorem sorts_sortFromFour
    (key : α → β)
    (less : α → α → Bool)
    (values : List α) :
    Sorts key less values (some (sortFromFour less values)) := by
  unfold sortFromFour
  split
  case h_1 first second third fourth rest =>
    have front := sortFour_perm less first second third fourth
    refine .of_eq_some ((insertAll_perm less _ rest).trans (front.append_right rest)) ?_
    intro compares
    refine ascends_insertAll (compares.mono (front.append_right rest).subset) ?_
    exact ascends_sortFour (compares.mono (List.subset_append_left _ rest))
  case h_2 => exact sorts_insertAll key less values

/-- Sorted halves are joined to the sorted whole. -/
theorem Sorts.joinHalves
    {left right : List α}
    {leftOutcome rightOutcome : Option (List α)}
    (sortsLeft : Sorts key less left leftOutcome)
    (notLonger : left.length ≤ right.length)
    (almost : right.length ≤ left.length + 1)
    (sortsRight : Sorts key less right rightOutcome) :
    Sorts key less (left ++ right) (do joinHalves less (← leftOutcome) (← rightOutcome)) := by
  constructor
  case perm =>
    intro joined joins
    rcases Option.bind_eq_some_iff.1 joins with ⟨leftSorted, isLeft, joins⟩
    rcases Option.bind_eq_some_iff.1 joins with ⟨rightSorted, isRight, joins⟩
    have leftPerm := sortsLeft.perm leftSorted isLeft
    have rightPerm := sortsRight.perm rightSorted isRight
    refine (joinHalves_perm ?_ joins).trans (leftPerm.append rightPerm)
    rwa [leftPerm.length_eq, rightPerm.length_eq]
  case ascends =>
    intro compares
    rcases sortsLeft.ascends (compares.mono (List.subset_append_left _ _)) with
      ⟨leftSorted, isLeft, leftAscends⟩
    rcases sortsRight.ascends (compares.mono (List.subset_append_right _ _)) with
      ⟨rightSorted, isRight, rightAscends⟩
    have leftPerm := sortsLeft.perm leftSorted isLeft
    have rightPerm := sortsRight.perm rightSorted isRight
    rw [isLeft, isRight]
    apply exists_joinHalves_eq_some
    · rwa [leftPerm.length_eq, rightPerm.length_eq]
    · rwa [leftPerm.length_eq, rightPerm.length_eq]
    · exact compares.mono (leftPerm.append rightPerm).subset
    · exact leftAscends
    · exact rightAscends

theorem sorts_sortFromEight
    (key : α → β)
    (less : α → α → Bool)
    (values : List α) :
    Sorts key less values (sortFromEight less values) := by
  unfold sortFromEight
  split
  case h_2 => exact sorts_insertAll key less values
  case h_1 a b c d e f g h rest =>
    have front : Sorts key less [a, b, c, d, e, f, g, h]
        (Sorting.joinHalves less (sortFour less a b c d) (sortFour less e f g h)) :=
      (Sorts.of_eq_some (sortFour_perm less a b c d) ascends_sortFour).joinHalves (by simp) (by simp)
        (.of_eq_some (sortFour_perm less e f g h) ascends_sortFour)
    constructor
    case perm =>
      intro sorted sorts
      rcases Option.bind_eq_some_iff.1 sorts with ⟨joined, isJoined, inserted⟩
      cases inserted
      exact (insertAll_perm less joined rest).trans ((front.perm joined isJoined).append_right rest)
    case ascends =>
      intro compares
      rcases front.ascends (compares.mono (List.subset_append_left _ rest)) with
        ⟨joined, isJoined, joinedAscends⟩
      rw [isJoined]
      refine ⟨_, rfl, ascends_insertAll (compares.mono ?_) joinedAscends⟩
      exact ((front.perm joined isJoined).append_right rest).subset

/-- The two halves of few values are sorted and joined. -/
theorem sorts_sortFew
    (key : α → β)
    (less : α → α → Bool)
    (values : List α) :
    Sorts key less values (sortFew less values) := by
  have halves (leftOutcome rightOutcome : Option (List α))
      (sortsLeft : Sorts key less (values.take (values.length / 2)) leftOutcome)
      (sortsRight : Sorts key less (values.drop (values.length / 2)) rightOutcome) :
      Sorts key less values (do joinHalves less (← leftOutcome) (← rightOutcome)) := by
    have joined := sortsLeft.joinHalves (by simp; omega) (by simp; omega) sortsRight
    rwa [List.take_append_drop] at joined
  rw [sortFew]
  split_ifs with single less short
  · exact .of_eq_some (.refl _) fun _ => ascends_of_length_le_one (Nat.le_of_lt_succ single)
  · exact halves (some _) (some _) (sorts_insertAll key _ _) (sorts_insertAll key _ _)
  · exact halves (some _) (some _) (sorts_sortFromFour key _ _) (sorts_sortFromFour key _ _)
  · exact halves _ _ (sorts_sortFromEight key _ _) (sorts_sortFromEight key _ _)

end NetRun.Sorting
