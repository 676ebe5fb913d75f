import NetRun.Proofs.Sorting.Runs
import NetRun.Sorting.Many

/-!
# Any number of values

Parting values at pivots rearranges them, and if the comparison goes by a key,
what is parted is sorted part by part.  So the whole sort keeps its promise:
the values of the list, in ascending order wherever the comparison is an order.
Values that are sorted by insertion are never found to be out of order.
-/

namespace NetRun.Sorting

variable
    {α β : Type}
    [LinearOrder β]
    {key : α → β}
    {less : α → α → Bool}

/-! ## Pivots -/

theorem middleOfThree_mem
    (less : α → α → Bool)
    (a b c : α) :
    middleOfThree less a b c ∈ [a, b, c] := by
  rw [middleOfThree]
  split_ifs
  · simp
  · simp
  · simp

/-- A pivot is one of the values. -/
theorem mem_of_pivot?_eq_some
    {values : List α}
    {start length : Nat}
    {pivot : α}
    (isPivot : pivot? less values start length = some pivot) :
    pivot ∈ values := by
  induction start, length using pivot?.induct generalizing pivot with
  | case1 start length short =>
      rw [pivot?, if_pos short] at isPivot
      exact List.mem_of_getElem? isPivot
  | case2 start length long first second third =>
      rw [pivot?, if_neg long] at isPivot
      simp only [Option.bind_eq_bind, Option.bind_eq_some_iff, Option.pure_def,
        Option.some.injEq] at isPivot
      rcases isPivot with ⟨a, isFirst, b, isSecond, c, isThird, rfl⟩
      have middle := middleOfThree_mem less a b c
      simp only [List.mem_cons, List.not_mem_nil, or_false] at middle
      rcases middle with isMiddle | isMiddle | isMiddle
      · rw [isMiddle]
        exact first isFirst
      · rw [isMiddle]
        exact second isSecond
      · rw [isMiddle]
        exact third isThird

/-- The sort by runs that is left when no more rounds are. -/
theorem sorts_sortRuns_sortFew
    (key : α → β)
    (less : α → α → Bool)
    (values : List α) :
    Sorts key less values (sortRuns less true (sortFew less) values.length values) :=
  sorts_sortRuns (sorts_sortFew key less) true values.length values

theorem sortByPivots_zero
    (less : α → α → Bool)
    (before? : Option α)
    (values : List α) :
    sortByPivots less 0 before? values =
      if values.length ≤ fewValues then sortFew less values
      else sortRuns less true (sortFew less) values.length values :=
  rfl

theorem sortByPivots_succ
    (less : α → α → Bool)
    (rounds : Nat)
    (before? : Option α)
    (values : List α) :
    sortByPivots less (rounds + 1) before? values =
      if values.length ≤ fewValues then sortFew less values
      else
        match pivot? less values 0 values.length with
        | none => sortRuns less true (sortFew less) values.length values
        | some pivot =>
          if (values.filter fun value => less value pivot).isEmpty ||
              before?.any (fun before => !less before pivot) then do
            let above ← sortByPivots less rounds none (values.filter fun value => less pivot value)
            return values.filter (fun value => !less pivot value) ++ above
          else do
            let above ← sortByPivots less rounds (some pivot)
              (values.filter fun value => !less value pivot)
            return (← sortByPivots less rounds before?
              (values.filter fun value => less value pivot)) ++ above := by
  conv_lhs => unfold sortByPivots
  cases pivot? less values 0 values.length with
  | none => rfl
  | some pivot => rfl

/-- Parting values at pivots only rearranges them. -/
theorem sortByPivots_perm
    {rounds : Nat}
    {before? : Option α}
    {values sorted : List α}
    (sorts : sortByPivots less rounds before? values = some sorted) :
    sorted.Perm values := by
  have few := sorts_sortFew (fun _ : α => 0) less
  have byRuns := sorts_sortRuns_sortFew (fun _ : α => 0) less
  induction rounds generalizing before? values sorted with
  | zero =>
      rw [sortByPivots_zero] at sorts
      split at sorts
      case isTrue => exact (few values).perm sorted sorts
      case isFalse => exact (byRuns values).perm sorted sorts
  | succ rounds induction =>
      rw [sortByPivots_succ] at sorts
      split at sorts
      case isTrue => exact (few values).perm sorted sorts
      case isFalse =>
        split at sorts
        case h_1 => exact (byRuns values).perm sorted sorts
        case h_2 pivot isPivot =>
          split at sorts
          case isTrue =>
            rcases Option.bind_eq_some_iff.1 sorts with ⟨above, sortsAbove, isSorted⟩
            cases isSorted
            refine ((induction sortsAbove).append_left _).trans ?_
            exact List.perm_append_comm.trans (List.filter_append_perm (less pivot) values)
          case isFalse =>
            rcases Option.bind_eq_some_iff.1 sorts with ⟨above, sortsAbove, sorts⟩
            rcases Option.bind_eq_some_iff.1 sorts with ⟨below, sortsBelow, isSorted⟩
            cases isSorted
            refine ((induction sortsBelow).append (induction sortsAbove)).trans ?_
            exact List.filter_append_perm (fun value => less value pivot) values

section Parting

variable
    {all values : List α}
    {pivot : α}
    (compares : ComparesBy key less all)
    (within : values ⊆ all)
    (listed : pivot ∈ all)

include compares within listed

/-- A pivot that is parted with its equals is the least value. -/
theorem pivot_le_of_equal
    {before? : Option α}
    (before : ∀ value ∈ before?, value ∈ all ∧ ∀ other ∈ values, key value ≤ key other)
    (equal :
      ((values.filter fun value => less value pivot).isEmpty ||
        before?.any fun before => !less before pivot) = true) :
    ∀ value ∈ values, key pivot ≤ key value := by
  intro value isValue
  rcases Bool.or_eq_true_iff.1 equal with none | atFront
  · refine compares.le (within isValue) listed fun isLess => ?_
    exact List.filter_eq_nil_iff.1 (List.isEmpty_iff.1 none) value isValue isLess
  · rcases (Option.any_eq_true _ _).1 atFront with ⟨front, isFront, notLess⟩
    rcases before front isFront with ⟨frontListed, frontLeast⟩
    have above := compares.le frontListed listed (by simpa using notLess)
    exact above.trans (frontLeast value isValue)

/-- No value is less than a least pivot, so those that are not above it are its equals. -/
theorem ascends_equal_append
    {above : List α}
    (least : ∀ value ∈ values, key pivot ≤ key value)
    (ascends : Ascends key above)
    (isAbove : ∀ value ∈ above, value ∈ values ∧ less pivot value = true) :
    Ascends key (values.filter (fun value => !less pivot value) ++ above) := by
  have same : ∀ value ∈ values.filter (fun value => !less pivot value),
      value ∈ values ∧ key value ≤ key pivot := by
    intro value isSame
    rcases List.mem_filter.1 isSame with ⟨isValue, notLess⟩
    exact ⟨isValue, compares.le listed (within isValue) (by simpa using notLess)⟩
  refine ascends_append_iff.2 ⟨?_, ascends, ?_⟩
  · refine List.pairwise_of_forall_mem_list fun first isFirst second isSecond => ?_
    exact (same first isFirst).2.trans (least second (same second isSecond).1)
  · intro first isSame second isSecond
    rcases isAbove second isSecond with ⟨isValue, isLess⟩
    exact (same first isSame).2.trans (compares.lt listed (within isValue) isLess).le

/-- Values that are less than the pivot are no greater than those that are not. -/
theorem ascends_below_append
    {below above : List α}
    (belowAscends : Ascends key below)
    (isBelow : ∀ value ∈ below, value ∈ values ∧ less value pivot = true)
    (aboveAscends : Ascends key above)
    (isAbove : ∀ value ∈ above, value ∈ values ∧ ¬ less value pivot = true) :
    Ascends key (below ++ above) := by
  refine ascends_append_iff.2 ⟨belowAscends, aboveAscends, ?_⟩
  intro first isFirst second isSecond
  rcases isBelow first isFirst with ⟨firstValue, isLess⟩
  rcases isAbove second isSecond with ⟨secondValue, notLess⟩
  exact (compares.lt (within firstValue) listed isLess).le.trans
    (compares.le (within secondValue) listed notLess)

end Parting

/--
If the comparison goes by a key, values that are parted at pivots ascend.  The
pivot to the left of the values is no greater than any of them.
-/
theorem exists_sortByPivots_eq_some
    {before? : Option α}
    {all values : List α}
    (compares : ComparesBy key less all)
    (within : values ⊆ all)
    (before : ∀ value ∈ before?, value ∈ all ∧ ∀ other ∈ values, key value ≤ key other)
    (rounds : Nat) :
    ∃ sorted, sortByPivots less rounds before? values = some sorted ∧ Ascends key sorted := by
  have few := sorts_sortFew key less
  have byRuns := sorts_sortRuns_sortFew key less
  induction rounds generalizing before? values with
  | zero =>
      rw [sortByPivots_zero]
      split
      case isTrue => exact (few values).ascends (compares.mono within)
      case isFalse => exact (byRuns values).ascends (compares.mono within)
  | succ rounds induction =>
      rw [sortByPivots_succ]
      split
      case isTrue => exact (few values).ascends (compares.mono within)
      case isFalse =>
        split
        case h_1 => exact (byRuns values).ascends (compares.mono within)
        case h_2 pivot isPivot =>
          have listed : pivot ∈ all := within (mem_of_pivot?_eq_some isPivot)
          have part (front? : Option α) (holds : α → Bool)
              (front : ∀ value ∈ front?, value ∈ all ∧
                ∀ other ∈ values, holds other = true → key value ≤ key other) :
              ∃ sorted, sortByPivots less rounds front? (values.filter holds) = some sorted ∧
                Ascends key sorted ∧ ∀ value ∈ sorted, value ∈ values ∧ holds value = true := by
            rcases induction (fun value isValue => within (List.mem_of_mem_filter isValue))
                (fun value isFront => (front value isFront).imp_right fun least other isOther =>
                  least other (List.mem_filter.1 isOther).1 (List.mem_filter.1 isOther).2) with
              ⟨sorted, sorts, ascends⟩
            refine ⟨sorted, sorts, ascends, fun value isValue => ?_⟩
            exact List.mem_filter.1 ((sortByPivots_perm sorts).mem_iff.1 isValue)
          split
          case isTrue equal =>
            rcases part none (fun value => less pivot value) nofun with
              ⟨above, sortsAbove, ascends, isAbove⟩
            rw [sortsAbove]
            exact ⟨_, rfl, ascends_equal_append compares within listed
              (pivot_le_of_equal compares within listed before equal) ascends isAbove⟩
          case isFalse =>
            rcases part before? (fun value => less value pivot) (fun value isFront =>
                (before value isFront).imp_right fun least other isOther _ =>
                  least other isOther) with
              ⟨below, sortsBelow, belowAscends, isBelow⟩
            rcases part (some pivot) (fun value => !less value pivot) (by
                rintro _ ⟨⟩
                refine ⟨listed, fun other isOther notLess => ?_⟩
                exact compares.le (within isOther) listed (by simpa using notLess)) with
              ⟨above, sortsAbove, aboveAscends, isAbove⟩
            rw [sortsAbove]
            change ∃ sorted, ((sortByPivots less rounds before? _) >>= fun below =>
              some (below ++ above)) = some sorted ∧ Ascends key sorted
            rw [sortsBelow]
            refine ⟨_, rfl, ascends_below_append compares within listed belowAscends isBelow
              aboveAscends fun value isValue => ?_⟩
            exact (isAbove value isValue).imp_right (by simp)

theorem sorts_sortUnknown
    (key : α → β)
    (less : α → α → Bool)
    (values : List α) :
    Sorts key less values (sortUnknown less values) where
  perm := fun _ => sortByPivots_perm
  ascends := fun compares =>
    exists_sortByPivots_eq_some compares (fun _ isValue => isValue)
      (fun _ isNone => absurd isNone (Option.not_mem_none _)) _

/-! ## The sort -/

/-- A sort rearranges its values, and if the comparison goes by a key, they ascend. -/
theorem sorts_sort
    (key : α → β)
    (less : α → α → Bool)
    (values : List α) :
    Sorts key less values (sort less values) := by
  rw [sort]
  split
  case isTrue => exact sorts_insertAll key less values
  case isFalse => exact sorts_sortRuns (sorts_sortUnknown key less) _ _ values

/-- Up to twenty values are sorted whatever the comparison is. -/
theorem exists_sort_eq_some_of_length_le
    (less : α → α → Bool)
    {values : List α}
    (few : values.length ≤ insertedValues) :
    ∃ sorted, sort less values = some sorted := by
  rw [sort, if_pos few]
  exact ⟨_, rfl⟩

end NetRun.Sorting
