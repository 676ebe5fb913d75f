import NetRun.Proofs.Sorting.Few
import NetRun.Sorting.Runs

/-!
# Runs that are joined

The runs of a list hold its values, and joining them loses none.  If the
comparison goes by a key, a run that counts as sorted ascends, and so does
everything that sorted runs are merged to.
-/

namespace NetRun.Sorting

variable
    {α β : Type}
    [LinearOrder β]
    {key : α → β}
    {less : α → α → Bool}

/-! ## Cutting -/

section Stretches

variable
    {related : α → α → Bool}

theorem stretch_prefix
    (related : α → α → Bool)
    (before : α)
    (values : List α) :
    stretch related before values <+: values := by
  induction values generalizing before with
  | nil => exact List.prefix_rfl
  | cons value rest induction =>
      rw [stretch]
      split
      case isTrue => exact List.cons_prefix_cons.2 ⟨rfl, induction value⟩
      case isFalse => exact List.nil_prefix

/-- If related values ascend, so does a stretch of them. -/
theorem ascends_stretch
    {first : α}
    {values : List α}
    (ascends :
      ∀ x ∈ first :: values, ∀ y ∈ first :: values, related x y = true → key x ≤ key y) :
    Ascends key (first :: stretch related first values) := by
  induction values generalizing first with
  | nil => exact List.pairwise_singleton _ _
  | cons value rest induction =>
      rw [stretch]
      split
      case isFalse => exact List.pairwise_singleton _ _
      case isTrue follows =>
        have step := ascends first (by simp) value (by simp) follows
        have restAscends :=
          induction fun x isFirst y isSecond =>
            ascends x (List.mem_cons_of_mem first isFirst) y (List.mem_cons_of_mem first isSecond)
        refine ascends_cons_iff.2 ⟨fun other listed => ?_, restAscends⟩
        rcases List.mem_cons.1 listed with rfl | behind
        · exact step
        · exact step.trans ((ascends_cons_iff.1 restAscends).1 other behind)

end Stretches

theorem foundRun_prefix
    (less : α → α → Bool)
    (values : List α) :
    (foundRun less values).2 <+: values := by
  unfold foundRun
  split
  case h_2 => exact List.prefix_rfl
  case h_1 first second rest =>
    split
    case isTrue => exact List.cons_prefix_cons.2 ⟨rfl, stretch_prefix _ _ _⟩
    case isFalse => exact List.cons_prefix_cons.2 ⟨rfl, stretch_prefix _ _ _⟩

/-- A stretch at the front ascends, or it descends and ascends once it is turned round. -/
theorem ascends_foundRun
    {values : List α}
    (compares : ComparesBy key less values) :
    Ascends key
      (if (foundRun less values).1 then (foundRun less values).2.reverse
        else (foundRun less values).2) := by
  unfold foundRun
  split
  case h_2 apart =>
    rcases values with _ | ⟨first, _ | ⟨second, rest⟩⟩
    · exact List.Pairwise.nil
    · exact List.pairwise_singleton _ _
    · exact absurd rfl (apart first second rest)
  case h_1 first second rest =>
    split
    case isTrue =>
      refine ascends_reverse_dual_iff.2 (ascends_stretch fun x isFirst y isSecond follows => ?_)
      exact (compares.lt isSecond isFirst follows).le
    case isFalse =>
      refine ascends_stretch fun x isFirst y isSecond follows => ?_
      exact compares.le isSecond isFirst (ne_true_of_eq_false (Bool.not_eq_true' _ ▸ follows))

/-- A run that counts as sorted ascends. -/
def Run.IsSound
    (key : α → β)
    (run : Run α) :
    Prop :=
  run.isSorted = true → Ascends key run.values

section Cutting

variable
    {atOnce : Bool}
    {least : Nat}
    {values : List α}

/-- A run holds the values of some start of the list, and of some value at least. -/
theorem exists_prefix_of_nextRun_eq_some
    {run : Run α}
    (made : nextRun less atOnce least values = some run) :
    ∃ part, part <+: values ∧ run.values.Perm part ∧
      (0 < least → values ≠ [] → part ≠ []) := by
  have front := foundRun_prefix less values
  rw [nextRun] at made
  generalize foundRun less values = stretch at made front
  rcases stretch with ⟨descends, found⟩
  dsimp only at made front
  split_ifs at made with long turned sortsAtOnce
  · cases made
    refine ⟨found, front, List.reverse_perm found, fun some _ => ?_⟩
    exact List.ne_nil_of_length_pos (some.trans_le long)
  · cases made
    refine ⟨found, front, .refl found, fun some _ => ?_⟩
    exact List.ne_nil_of_length_pos (some.trans_le long)
  · rcases Option.bind_eq_some_iff.1 made with ⟨sorted, sorts, isRun⟩
    cases isRun
    refine ⟨values.take fewValues, List.take_prefix _ _,
      (sorts_sortFew (fun _ : α => 0) less _).perm sorted sorts, fun _ some => ?_⟩
    exact fun none => (List.take_eq_nil_iff.1 none).elim nofun some
  · cases made
    refine ⟨values.take least, List.take_prefix _ _, .refl _, fun positive some none => ?_⟩
    exact (List.take_eq_nil_iff.1 none).elim positive.ne' some

theorem exists_nextRun_eq_some
    (atOnce : Bool)
    (least : Nat)
    (compares : ComparesBy key less values) :
    ∃ run, nextRun less atOnce least values = some run ∧ run.IsSound key := by
  rw [nextRun]
  dsimp only
  split
  case isTrue => exact ⟨_, rfl, fun _ => ascends_foundRun compares⟩
  case isFalse =>
    split
    case isFalse => exact ⟨_, rfl, nofun⟩
    case isTrue =>
      rcases (sorts_sortFew key less (values.take fewValues)).ascends
        (compares.mono (List.take_subset _ _)) with ⟨sorted, sorts, sortedAscends⟩
      rw [sorts]
      exact ⟨_, rfl, fun _ => sortedAscends⟩

/-- The runs of a list hold its values. -/
theorem cutRuns_perm
    (positive : 0 < least)
    {most : Nat}
    (enough : values.length ≤ most)
    {runs : List (Run α)}
    (cut : cutRuns less atOnce least most values = some runs) :
    (runs.flatMap Run.values).Perm values := by
  induction most generalizing values runs with
  | zero =>
      cases cut
      rw [List.length_eq_zero_iff.1 (Nat.le_zero.1 enough)]
      exact .refl []
  | succ most induction =>
      rcases values with _ | ⟨first, rest⟩
      · cases cut
        exact .refl []
      rw [cutRuns] at cut
      · rcases Option.bind_eq_some_iff.1 cut with ⟨run, made, cut⟩
        rcases Option.bind_eq_some_iff.1 cut with ⟨others, cutOthers, isRuns⟩
        cases isRuns
        rcases exists_prefix_of_nextRun_eq_some made with ⟨part, ⟨behind, split⟩, perm, some⟩
        have nonempty := List.length_pos_of_ne_nil (some positive (List.cons_ne_nil _ _))
        rw [← split, List.length_append] at enough
        rw [← split, perm.length_eq, List.drop_left] at cutOthers
        rw [List.flatMap_cons, ← split]
        exact perm.append (induction (by omega) cutOthers)
      · exact List.cons_ne_nil _ _

theorem exists_cutRuns_eq_some
    (atOnce : Bool)
    (least most : Nat)
    (compares : ComparesBy key less values) :
    ∃ runs, cutRuns less atOnce least most values = some runs ∧ ∀ run ∈ runs, run.IsSound key := by
  induction most generalizing values with
  | zero => exact ⟨[], rfl, List.forall_mem_nil _⟩
  | succ most induction =>
      rcases values with _ | ⟨first, rest⟩
      · exact ⟨[], rfl, List.forall_mem_nil _⟩
      rcases exists_nextRun_eq_some atOnce least compares with ⟨run, made, sound⟩
      rcases induction (compares.mono (List.drop_subset run.values.length _)) with
        ⟨others, cut, areSound⟩
      rw [cutRuns, made]
      · refine ⟨run :: others, ?_, List.forall_mem_cons.2 ⟨sound, areSound⟩⟩
        change ((cutRuns less atOnce least most _) >>= fun others => some (run :: others)) = _
        rw [cut]
        rfl
      · exact List.cons_ne_nil _ _

end Cutting

/-! ## Merging -/

theorem merge_perm
    (less : α → α → Bool)
    (left right : List α) :
    (merge less left right).Perm (left ++ right) := by
  rw [merge]
  split
  case isTrue => exact List.merge_perm_append _
  case isFalse =>
    refine (List.reverse_perm _).trans ((List.merge_perm_append _).trans ?_)
    exact ((List.reverse_perm right).append (List.reverse_perm left)).trans List.perm_append_comm

/-- Merging from the front keeps the order. -/
theorem ascends_list_merge
    {left right : List α}
    (compares : ComparesBy key less (left ++ right))
    (leftAscends : Ascends key left)
    (rightAscends : Ascends key right) :
    Ascends key (left.merge right fun x y => !less y x) := by
  induction left generalizing right with
  | nil => rwa [List.nil_merge]
  | cons x left leftInduction =>
      induction right with
      | nil => rwa [List.merge_right]
      | cons y right rightInduction =>
          rcases ascends_cons_iff.1 leftAscends with ⟨leftAbove, leftRest⟩
          rcases ascends_cons_iff.1 rightAscends with ⟨rightAbove, rightRest⟩
          rw [List.cons_merge_cons]
          split
          case isTrue stays =>
            have least : key x ≤ key y :=
              compares.le (by simp) (by simp) (ne_true_of_eq_false (Bool.not_eq_true' _ ▸ stays))
            have within : left ++ y :: right ⊆ x :: left ++ y :: right := List.subset_cons_self x _
            refine ascends_cons_iff.2
              ⟨?_, leftInduction (compares.mono within) leftRest rightAscends⟩
            intro other listed
            rcases List.mem_merge.1 listed with ofLeft | ofRight
            · exact leftAbove other ofLeft
            · rcases List.mem_cons.1 ofRight with rfl | behind
              · exact least
              · exact least.trans (rightAbove other behind)
          case isFalse moves =>
            have least : key y ≤ key x :=
              (compares.lt (by simp) (by simp) (by simpa using moves)).le
            have within : x :: left ++ right ⊆ x :: left ++ y :: right :=
              ((List.sublist_cons_self y right).append_left _).subset
            refine ascends_cons_iff.2 ⟨?_, rightInduction (compares.mono within) rightRest⟩
            intro other listed
            rcases List.mem_merge.1 listed with ofLeft | ofRight
            · rcases List.mem_cons.1 ofLeft with rfl | behind
              · exact least
              · exact least.trans (leftAbove other behind)
            · exact rightAbove other ofRight

theorem ascends_merge
    {left right : List α}
    (compares : ComparesBy key less (left ++ right))
    (leftAscends : Ascends key left)
    (rightAscends : Ascends key right) :
    Ascends key (merge less left right) := by
  rw [merge]
  split
  case isTrue => exact ascends_list_merge compares leftAscends rightAscends
  case isFalse =>
    have reversed : right.reverse ++ left.reverse ⊆ left ++ right := by
      intro value listed
      simpa [or_comm] using listed
    exact ascends_reverse_dual_iff.2 (ascends_list_merge (compares.dual.mono reversed)
      (ascends_dual_reverse_iff.2 rightAscends) (ascends_dual_reverse_iff.2 leftAscends))

/-! ## Joining -/

/-- The values of the runs that wait. -/
def waitingValues
    (waiting : List (Run α × Nat)) :
    List α :=
  waiting.flatMap fun entry => entry.1.values

theorem waitingValues_cons
    (entry : Run α × Nat)
    (waiting : List (Run α × Nat)) :
    waitingValues (entry :: waiting) = entry.1.values ++ waitingValues waiting :=
  List.flatMap_cons

theorem leastStretch_pos
    {length : Nat}
    (some : 0 < length) :
    0 < leastStretch length := by
  rw [leastStretch]
  split
  case isTrue => omega
  case isFalse long =>
    have high : 1 ≤ length.log2 := (Nat.le_log2 some.ne').2 (by omega)
    have step : 2 ^ 1 ≤ 2 ^ ((1 + length.log2) / 2) := Nat.pow_le_pow_right (by decide) (by omega)
    dsimp only
    rw [Nat.one_shiftLeft]
    exact Nat.div_pos (step.trans (Nat.le_add_right _ _)) (by decide)

section Joining

variable
    {sort : List α → Option (List α)}
    (sorts : ∀ values, Sorts key less values (sort values))

include sorts

theorem Run.sorts_settle
    {run : Run α}
    (sound : run.IsSound key) :
    Sorts key less run.values (run.settle sort) := by
  rw [Run.settle]
  split
  case isTrue sorted => exact .of_eq_some (.refl _) fun _ => sound sorted
  case isFalse => exact sorts run.values

theorem Run.perm_of_settle_eq_some
    {run : Run α}
    {settled : List α}
    (settles : run.settle sort = some settled) :
    settled.Perm run.values := by
  rw [Run.settle] at settles
  split at settles
  case isTrue =>
    cases settles
    exact .refl _
  case isFalse => exact (sorts run.values).perm settled settles

theorem joinRuns_perm
    {room : Nat}
    {left right joined : Run α}
    (joins : joinRuns less sort room left right = some joined) :
    joined.values.Perm (left.values ++ right.values) := by
  rw [joinRuns] at joins
  split at joins
  case isTrue =>
    cases joins
    exact .refl _
  case isFalse =>
    rcases Option.bind_eq_some_iff.1 joins with ⟨leftSettled, leftSettles, joins⟩
    rcases Option.bind_eq_some_iff.1 joins with ⟨rightSettled, rightSettles, isJoined⟩
    cases isJoined
    refine (merge_perm less _ _).trans ?_
    exact (Run.perm_of_settle_eq_some sorts leftSettles).append
      (Run.perm_of_settle_eq_some sorts rightSettles)

theorem exists_joinRuns_eq_some
    (room : Nat)
    {left right : Run α}
    (compares : ComparesBy key less (left.values ++ right.values))
    (leftSound : left.IsSound key)
    (rightSound : right.IsSound key) :
    ∃ joined, joinRuns less sort room left right = some joined ∧ joined.IsSound key := by
  have leftSorts := Run.sorts_settle sorts leftSound
  have rightSorts := Run.sorts_settle sorts rightSound
  rcases leftSorts.ascends (compares.mono (List.subset_append_left _ _)) with
    ⟨leftSettled, leftSettles, leftAscends⟩
  rcases rightSorts.ascends (compares.mono (List.subset_append_right _ _)) with
    ⟨rightSettled, rightSettles, rightAscends⟩
  rw [joinRuns]
  split
  case isTrue => exact ⟨_, rfl, nofun⟩
  case isFalse =>
    rw [leftSettles, rightSettles]
    refine ⟨_, rfl, fun _ => ascends_merge (compares.mono ?_) leftAscends rightAscends⟩
    exact ((leftSorts.perm _ leftSettles).append (rightSorts.perm _ rightSettles)).subset

/-- Joining the runs in front loses no value, and at the root none is left to wait. -/
theorem joinDeeper_perm
    {room depth : Nat}
    {waiting left : List (Run α × Nat)}
    {run joined : Run α}
    (joins : joinDeeper less sort room depth waiting run = some (left, joined)) :
    (waitingValues left ++ joined.values).Perm (waitingValues waiting ++ run.values) ∧
      (depth = 0 → left = []) := by
  induction waiting generalizing run with
  | nil =>
      cases joins
      exact ⟨.refl _, fun _ => rfl⟩
  | cons entry waiting induction =>
      rw [joinDeeper] at joins
      split at joins
      case isFalse shallow =>
        cases joins
        exact ⟨.refl _, fun root => absurd (Nat.zero_le _) (root ▸ shallow)⟩
      case isTrue =>
        rcases Option.bind_eq_some_iff.1 joins with ⟨both, joinsFront, joins⟩
        rcases induction joins with ⟨perm, root⟩
        refine ⟨perm.trans ?_, root⟩
        rw [waitingValues_cons]
        calc
          (waitingValues waiting ++ both.values).Perm
              (waitingValues waiting ++ (entry.1.values ++ run.values)) :=
            (joinRuns_perm sorts joinsFront).append_left _
          _ = waitingValues waiting ++ entry.1.values ++ run.values :=
            (List.append_assoc _ _ _).symm
          List.Perm _ (entry.1.values ++ waitingValues waiting ++ run.values) :=
            List.perm_append_comm.append_right _

theorem exists_joinDeeper_eq_some
    (room depth : Nat)
    {waiting : List (Run α × Nat)}
    {run : Run α}
    (compares : ComparesBy key less (waitingValues waiting ++ run.values))
    (waitingSound : ∀ entry ∈ waiting, entry.1.IsSound key)
    (sound : run.IsSound key) :
    ∃ left joined,
      joinDeeper less sort room depth waiting run = some (left, joined) ∧
        (∀ entry ∈ left, entry.1.IsSound key) ∧ joined.IsSound key := by
  induction waiting generalizing run with
  | nil => exact ⟨[], run, rfl, waitingSound, sound⟩
  | cons entry waiting induction =>
      rw [joinDeeper]
      split
      case isFalse => exact ⟨entry :: waiting, run, rfl, waitingSound, sound⟩
      case isTrue =>
        rw [waitingValues_cons] at compares
        rcases List.forall_mem_cons.1 waitingSound with ⟨frontSound, restSound⟩
        have within : entry.1.values ++ run.values ⊆
            entry.1.values ++ waitingValues waiting ++ run.values := by
          intro value listed
          simp only [List.mem_append] at listed ⊢
          tauto
        rcases exists_joinRuns_eq_some sorts room (compares.mono within) frontSound sound
          with ⟨both, joins, bothSound⟩
        have bothPerm := joinRuns_perm sorts joins
        rw [joins]
        refine induction (compares.mono ?_) restSound bothSound
        intro value listed
        simp only [List.mem_append, bothPerm.mem_iff] at listed ⊢
        tauto

/-- The run that is left in the end holds all values. -/
theorem joinAll_perm
    {room length start : Nat}
    {waiting : List (Run α × Nat)}
    {run joined : Run α}
    {others : List (Run α)}
    (joins : joinAll less sort room length start waiting run others = some joined) :
    joined.values.Perm (waitingValues waiting ++ run.values ++ others.flatMap Run.values) := by
  induction others generalizing start waiting run with
  | nil =>
      rw [joinAll] at joins
      rcases Option.bind_eq_some_iff.1 joins with ⟨⟨left, last⟩, joinsFront, isJoined⟩
      cases isJoined
      rcases joinDeeper_perm sorts joinsFront with ⟨perm, root⟩
      rw [root rfl] at perm
      rw [List.flatMap_nil, List.append_nil]
      exact perm
  | cons next others induction =>
      rw [joinAll] at joins
      rcases Option.bind_eq_some_iff.1 joins with ⟨⟨left, front⟩, joinsFront, joins⟩
      refine (induction joins).trans ?_
      rw [waitingValues_cons, List.flatMap_cons, ← List.append_assoc]
      refine List.Perm.append_right _ (List.Perm.append_right _ ?_)
      exact List.perm_append_comm.trans (joinDeeper_perm sorts joinsFront).1

theorem exists_joinAll_eq_some
    (room length start : Nat)
    {waiting : List (Run α × Nat)}
    {run : Run α}
    {others : List (Run α)}
    (compares :
      ComparesBy key less (waitingValues waiting ++ run.values ++ others.flatMap Run.values))
    (waitingSound : ∀ entry ∈ waiting, entry.1.IsSound key)
    (sound : run.IsSound key)
    (othersSound : ∀ other ∈ others, other.IsSound key) :
    ∃ joined,
      joinAll less sort room length start waiting run others = some joined ∧
        joined.IsSound key := by
  induction others generalizing start waiting run with
  | nil =>
      rw [List.flatMap_nil, List.append_nil] at compares
      rcases exists_joinDeeper_eq_some sorts room 0 compares waitingSound sound with
        ⟨left, joined, joins, -, joinedSound⟩
      rw [joinAll, joins]
      exact ⟨joined, rfl, joinedSound⟩
  | cons next others induction =>
      rcases List.forall_mem_cons.1 othersSound with ⟨nextSound, othersSound⟩
      rw [joinAll]
      obtain ⟨depth, isDepth⟩ : ∃ depth,
          mergeDepth length start (start + run.values.length)
            (start + run.values.length + next.values.length) = depth := ⟨_, rfl⟩
      dsimp only
      rw [isDepth]
      rcases exists_joinDeeper_eq_some sorts room depth
        (compares.mono (List.subset_append_left _ _)) waitingSound sound with
        ⟨left, joined, joins, leftSound, joinedSound⟩
      have perm := (joinDeeper_perm sorts joins).1
      rw [joins]
      refine induction _ (compares.mono ?_) (List.forall_mem_cons.2 ⟨joinedSound, leftSound⟩)
        nextSound othersSound
      rw [waitingValues_cons, List.flatMap_cons, ← List.append_assoc]
      exact ((List.perm_append_comm.trans perm).append_right _ |>.append_right _).subset

/-- What is sorted by runs is sorted, however the runs that are left for later are. -/
theorem sorts_sortRuns
    (atOnce : Bool)
    (room : Nat)
    (values : List α) :
    Sorts key less values (sortRuns less atOnce sort room values) := by
  rcases values with _ | ⟨first, rest⟩
  · exact .of_eq_some (.refl []) fun _ => List.Pairwise.nil
  have positive : 0 < leastStretch (first :: rest).length :=
    leastStretch_pos (List.length_pos_of_ne_nil (List.cons_ne_nil first rest))
  generalize first :: rest = values at positive ⊢
  constructor
  case perm =>
    intro sorted isSorted
    rw [sortRuns] at isSorted
    rcases Option.bind_eq_some_iff.1 isSorted with ⟨runs, cut, isSorted⟩
    have held := cutRuns_perm positive le_rfl cut
    rcases runs with _ | ⟨run, others⟩
    · cases isSorted
      exact held
    · rcases Option.bind_eq_some_iff.1 isSorted with ⟨joined, joins, settles⟩
      exact (Run.perm_of_settle_eq_some sorts settles).trans ((joinAll_perm sorts joins).trans held)
  case ascends =>
    intro compares
    rcases exists_cutRuns_eq_some atOnce (leastStretch values.length) values.length compares with
      ⟨runs, cut, areSound⟩
    have held := cutRuns_perm positive le_rfl cut
    rw [sortRuns, cut]
    rcases runs with _ | ⟨run, others⟩
    · exact ⟨[], rfl, List.Pairwise.nil⟩
    · rcases List.forall_mem_cons.1 areSound with ⟨sound, othersSound⟩
      have heldCompares :
          ComparesBy key less (waitingValues [] ++ run.values ++ others.flatMap Run.values) :=
        compares.mono held.subset
      rcases exists_joinAll_eq_some sorts room values.length 0 heldCompares (List.forall_mem_nil _)
        sound othersSound with
        ⟨joined, joins, joinedSound⟩
      change ∃ sorted,
        (joinAll less sort room values.length 0 [] run others >>= Run.settle sort) = some sorted ∧
          Ascends key sorted
      rw [joins]
      refine (Run.sorts_settle sorts joinedSound).ascends (compares.mono ?_)
      exact ((joinAll_perm sorts joins).trans held).subset

end Joining

end NetRun.Sorting
