import NetRun.Stop
import Mathlib.Data.List.Basic
import Mathlib.Data.List.Forall2

/-!
# Computations that succeed

A computation with failures is read off by its successes: a sequence succeeds
exactly when its parts do.  A list traversed by a function that checks each
item and changes it if the check passes is changed as a whole exactly when
every check passes.  A traversal that fails does so with the failure of the
first item that has one.  What an item is checked for may depend on its place.

Two computations end alike if they fail with one cause or succeed with related
values; sequences of such computations end alike as well.
-/

namespace NetRun

variable
    {ε α β : Type}

theorem pure_eq_ok_iff
    {value result : β} :
    (pure value : Except ε β) = .ok result ↔ value = result := by
  change Except.ok value = .ok result ↔ _
  rw [Except.ok.injEq]

/-- A sequence succeeds exactly when both of its parts do. -/
theorem bind_eq_ok_iff
    {first : Except ε α}
    {next : α → Except ε β}
    {result : β} :
    first >>= next = .ok result ↔
      ∃ value, first = .ok value ∧ next value = .ok result := by
  cases first with
  | error cause =>
      constructor
      · intro equal
        cases equal
      · rintro ⟨value, equal, -⟩
        cases equal
  | ok value =>
      constructor
      · intro equal
        exact ⟨value, rfl, equal⟩
      · rintro ⟨_, same, equal⟩
        cases same
        exact equal

/-- A computation whose value is changed succeeds exactly when it does. -/
theorem map_eq_ok_iff
    {outcome : Except ε α}
    {change : α → β}
    {result : β} :
    outcome.map change = .ok result ↔ ∃ value, outcome = .ok value ∧ change value = result := by
  cases outcome with
  | error cause => simp [Except.map]
  | ok value => simp [Except.map]

theorem map_eq_error_iff
    {outcome : Except ε α}
    {change : α → β}
    {cause : ε} :
    outcome.map change = .error cause ↔ outcome = .error cause := by
  cases outcome with
  | error other => simp [Except.map]
  | ok value => simp [Except.map]

/-- A change that is undone leaves every outcome as it is. -/
theorem map_map_eq_self
    {change : α → β}
    {back : β → α}
    (undone : ∀ value, back (change value) = value)
    (outcome : Except ε α) :
    (outcome.map change).map back = outcome := by
  cases outcome with
  | error cause => rfl
  | ok value => exact congrArg Except.ok (undone value)

theorem refusing_eq_ok_iff
    {outcome : Except ε α}
    {result : α} :
    refusing outcome = .ok result ↔ outcome = .ok result := by
  cases outcome with
  | error cause => simp [refusing, Except.mapError]
  | ok value => simp [refusing, Except.mapError]

/-- What refuses does not crash. -/
theorem refusing_eq_error_iff
    {outcome : Except ε α}
    {stop : Stop ε} :
    refusing outcome = .error stop ↔ ∃ cause, outcome = .error cause ∧ stop = .refused cause := by
  cases outcome with
  | error cause => simp [refusing, Except.mapError, eq_comm]
  | ok value => simp [refusing, Except.mapError]

/-- There is room exactly for what fits the address space. -/
theorem reserve_eq_ok_iff
    {count size : Nat}
    {result : Unit} :
    (reserve count size : Except (Stop ε) Unit) = .ok result ↔
      count * size ≤ addressable := by
  rw [reserve]
  split
  case isTrue large => simp [Nat.not_le_of_gt large]
  case isFalse fits => simp [Nat.le_of_not_gt fits]

/-- What does not fit the address space crashes. -/
theorem reserve_eq_error_iff
    {count size : Nat}
    {stop : Stop ε} :
    (reserve count size : Except (Stop ε) Unit) = .error stop ↔
      addressable < count * size ∧ stop = .crashed .capacityOverflow := by
  rw [reserve]
  split
  case isTrue large => simp [large, eq_comm]
  case isFalse fits => simp [fits]

/-- A traversal of checked changes succeeds exactly when all checks pass. -/
theorem mapM_eq_ok_iff
    {f : α → Except ε β}
    {g : α → β}
    {check : α → Prop}
    {items : List α}
    (step :
      ∀ item ∈ items, ∀ result,
        f item = .ok result ↔ check item ∧ result = g item)
    {results : List β} :
    items.mapM f = .ok results ↔
      (∀ item ∈ items, check item) ∧ results = items.map g := by
  induction items generalizing results with
  | nil =>
      rw [List.mapM_nil, pure_eq_ok_iff, List.map_nil, eq_comm]
      simp
  | cons item items induction =>
      have head := step item List.mem_cons_self
      have tail :=
        @induction fun other listed => step other (List.mem_cons_of_mem item listed)
      simp only [List.mapM_cons, bind_eq_ok_iff, pure_eq_ok_iff, head, tail,
        List.forall_mem_cons, List.map_cons]
      constructor
      · rintro ⟨_, ⟨passes, rfl⟩, _, ⟨restPass, rfl⟩, rfl⟩
        exact ⟨⟨passes, restPass⟩, rfl⟩
      · rintro ⟨⟨passes, restPass⟩, rfl⟩
        exact ⟨_, ⟨passes, rfl⟩, _, ⟨restPass, rfl⟩, rfl⟩

/-- A traversal of checked changes that fail for one cause only fails for it unless all pass. -/
theorem mapM_eq_ite
    {f : α → Except ε β}
    {g : α → β}
    {check : α → Prop}
    [DecidablePred check]
    {cause : ε}
    (step : ∀ item, f item = if check item then .ok (g item) else .error cause)
    (items : List α) :
    items.mapM f =
      if ∀ item ∈ items, check item then .ok (items.map g) else .error cause := by
  induction items with
  | nil =>
      rw [if_pos fun item listed => absurd listed List.not_mem_nil]
      rfl
  | cons item items induction =>
      rw [List.mapM_cons, step, induction]
      by_cases passes : check item
      · by_cases restPass : ∀ other ∈ items, check other
        · rw [if_pos passes, if_pos restPass,
            if_pos (List.forall_mem_cons.2 ⟨passes, restPass⟩)]
          rfl
        · rw [if_pos passes, if_neg restPass,
            if_neg fun all => restPass (List.forall_mem_cons.1 all).2]
          rfl
      · rw [if_neg passes, if_neg fun all => passes (List.forall_mem_cons.1 all).1]
        rfl

/-- Traversals by functions that agree on the items are the same. -/
theorem mapM_congr
    {f g : α → Except ε β}
    {items : List α}
    (same : ∀ item ∈ items, f item = g item) :
    items.mapM f = items.mapM g := by
  induction items with
  | nil => rfl
  | cons item items induction =>
      rcases List.forall_mem_cons.1 same with ⟨first, rest⟩
      rw [List.mapM_cons, List.mapM_cons, first, induction rest]

/-- A traversal succeeds with one related result for each item, in their order. -/
theorem mapM_eq_ok_iff_forall₂
    {f : α → Except ε β}
    {related : α → β → Prop}
    (step : ∀ item result, f item = .ok result ↔ related item result)
    {items : List α}
    {results : List β} :
    items.mapM f = .ok results ↔ List.Forall₂ related items results := by
  induction items generalizing results with
  | nil => rw [List.mapM_nil, pure_eq_ok_iff, List.forall₂_nil_left_iff, eq_comm]
  | cons item items induction =>
      simp only [List.mapM_cons, bind_eq_ok_iff, pure_eq_ok_iff, List.forall₂_cons_left_iff,
        induction, step]
      constructor
      · rintro ⟨first, isFirst, rest, areRest, rfl⟩
        exact ⟨first, rest, isFirst, areRest, rfl⟩
      · rintro ⟨first, rest, isFirst, areRest, rfl⟩
        exact ⟨first, isFirst, rest, areRest, rfl⟩

/-- There are related results for a list exactly if there is one for each item. -/
theorem exists_forall₂_iff
    {related : α → β → Prop}
    {items : List α} :
    (∃ results, List.Forall₂ related items results) ↔
      ∀ item ∈ items, ∃ result, related item result := by
  induction items with
  | nil => exact iff_of_true ⟨[], .nil⟩ (List.forall_mem_nil _)
  | cons item items induction =>
      simp only [List.forall_mem_cons, ← induction, List.forall₂_cons_left_iff]
      constructor
      · rintro ⟨_, first, rest, isFirst, areRest, rfl⟩
        exact ⟨⟨first, isFirst⟩, rest, areRest⟩
      · rintro ⟨⟨first, isFirst⟩, rest, areRest⟩
        exact ⟨_, first, rest, isFirst, areRest, rfl⟩

/-- What a list is paired with comes from one of its items. -/
theorem exists_related_of_mem
    {related : α → β → Prop}
    {items : List α}
    {results : List β}
    (pairs : List.Forall₂ related items results)
    {result : β}
    (listed : result ∈ results) :
    ∃ item ∈ items, related item result := by
  induction pairs with
  | nil => cases listed
  | cons isPair _ induction =>
      rcases List.mem_cons.1 listed with rfl | later
      · exact ⟨_, List.mem_cons_self, isPair⟩
      · rcases induction later with ⟨item, isItem, isRelated⟩
        exact ⟨item, List.mem_cons_of_mem _ isItem, isRelated⟩

/-- A traversal succeeds if it does for each item. -/
theorem exists_mapM_eq_ok_iff
    {f : α → Except ε β}
    {items : List α} :
    (∃ results, items.mapM f = .ok results) ↔ ∀ item ∈ items, ∃ result, f item = .ok result := by
  simp only [mapM_eq_ok_iff_forall₂ fun _ _ => Iff.rfl, exists_forall₂_iff]

/-- What a traversal gives is what it gives for one of the items. -/
theorem exists_of_mem_of_mapM_eq_ok
    {f : α → Except ε β}
    {items : List α}
    {results : List β}
    (success : items.mapM f = .ok results)
    {result : β}
    (listed : result ∈ results) :
    ∃ item ∈ items, f item = .ok result :=
  exists_related_of_mem ((mapM_eq_ok_iff_forall₂ fun _ _ => Iff.rfl).1 success) listed

/-- A sequence fails when its first part does, or else its second. -/
theorem bind_eq_error_iff
    {first : Except ε α}
    {next : α → Except ε β}
    {cause : ε} :
    first >>= next = .error cause ↔
      first = .error cause ∨ ∃ value, first = .ok value ∧ next value = .error cause := by
  cases first with
  | error other =>
      constructor
      · intro equal
        cases equal
        exact Or.inl rfl
      · rintro (equal | ⟨value, impossible, -⟩)
        · cases equal
          rfl
        · cases impossible
  | ok value =>
      constructor
      · intro equal
        exact Or.inr ⟨value, rfl, equal⟩
      · rintro (impossible | ⟨_, same, equal⟩)
        · cases impossible
        · cases same
          exact equal

/-- A traversal fails with the failure of its first item that has one. -/
theorem mapM_eq_error_iff
    {f : α → Except ε β}
    {items : List α}
    {cause : ε} :
    items.mapM f = .error cause ↔
      ∃ before item behind,
        items = before ++ item :: behind ∧
          (∀ other ∈ before, ∃ result, f other = .ok result) ∧ f item = .error cause := by
  induction items with
  | nil =>
      constructor
      · intro impossible
        cases impossible
      · rintro ⟨before, item, behind, split, -⟩
        simp at split
  | cons item items induction =>
      rw [List.mapM_cons, bind_eq_error_iff]
      constructor
      · rintro (fails | ⟨first, succeeds, rest⟩)
        · refine ⟨[], item, items, rfl, ?_, fails⟩
          intro other impossible
          cases impossible
        · rcases bind_eq_error_iff.1 rest with restFails | ⟨_, -, impossible⟩
          · rcases induction.1 restFails with ⟨before, failing, behind, rfl, pass, fails⟩
            refine ⟨item :: before, failing, behind, rfl, ?_, fails⟩
            exact List.forall_mem_cons.2 ⟨⟨first, succeeds⟩, pass⟩
          · cases impossible
      · rintro ⟨before, failing, behind, split, pass, fails⟩
        cases before with
        | nil =>
            cases split
            exact Or.inl fails
        | cons head before =>
            cases split
            rcases List.forall_mem_cons.1 pass with ⟨⟨first, succeeds⟩, restPass⟩
            refine Or.inr ⟨first, succeeds, ?_⟩
            exact bind_eq_error_iff.2
              (Or.inl (induction.2 ⟨before, failing, behind, rfl, restPass, fails⟩))

/-! ## Failures seen from elsewhere -/

section MapError

variable
    {ε' : Type}
    {seen : ε → ε'}

/-- The failures of a sequence are changed if those of both parts are. -/
theorem mapError_bind
    {first : Except ε α}
    {next : α → Except ε β} :
    (first >>= next).mapError seen =
      first.mapError seen >>= fun value => (next value).mapError seen := by
  cases first with
  | error cause => rfl
  | ok value => rfl

/-- If each failure is changed along with its item, so is that of a traversal. -/
theorem mapM_map_eq_mapError
    {f : α → Except ε β}
    {g : α → Except ε' β}
    {moved : α → α}
    (step : ∀ item, g (moved item) = (f item).mapError seen)
    (items : List α) :
    (items.map moved).mapM g = (items.mapM f).mapError seen := by
  induction items with
  | nil => rfl
  | cons item items induction =>
      rw [List.map_cons, List.mapM_cons, List.mapM_cons, step, induction, mapError_bind]
      simp only [mapError_bind]
      rfl

end MapError

/-! ## The first item that fails -/

/-- Every item of a list is good where it stands. -/
def HoldsAlong
    (good : Nat → α → Prop)
    (items : List α) :
    Prop :=
  ∀ index item, items[index]? = some item → good index item

/-- The item at an index is the first one of a list that is not good where it stands. -/
structure FirstFailing
    (good : Nat → α → Prop)
    (items : List α)
    (index : Nat)
    (item : α) :
    Prop where
  stands : items[index]? = some item
  fails : ¬ good index item
  before : ∀ earlier < index, ∀ other, items[earlier]? = some other → good earlier other

section Positions

variable
    {good : Nat → α → Prop}
    {item other : α}
    {items : List α}

theorem holdsAlong_nil :
    HoldsAlong good [] := by
  rintro index item ⟨⟩

theorem holdsAlong_cons :
    HoldsAlong good (item :: items) ↔
      good 0 item ∧ HoldsAlong (fun index => good (index + 1)) items := by
  constructor
  · intro hold
    exact ⟨hold 0 item rfl, fun index other stands => hold (index + 1) other stands⟩
  · rintro ⟨first, rest⟩ index other stands
    cases index with
    | zero =>
        cases stands
        exact first
    | succ index => exact rest index other stands

/-- If being good does not depend on the place, it is a property of the members. -/
theorem holdsAlong_iff_forall_mem
    {check : α → Prop} :
    HoldsAlong (fun _ => check) items ↔ ∀ item ∈ items, check item := by
  simp only [HoldsAlong, List.mem_iff_getElem?, forall_exists_index]
  exact forall_comm

theorem firstFailing_cons_zero :
    FirstFailing good (item :: items) 0 other ↔ other = item ∧ ¬ good 0 item := by
  constructor
  · rintro ⟨stands, fails, -⟩
    cases stands
    exact ⟨rfl, fails⟩
  · rintro ⟨rfl, fails⟩
    exact ⟨rfl, fails, fun _ impossible => absurd impossible (Nat.not_lt_zero _)⟩

theorem firstFailing_cons_succ
    {index : Nat} :
    FirstFailing good (item :: items) (index + 1) other ↔
      good 0 item ∧ FirstFailing (fun index => good (index + 1)) items index other := by
  constructor
  · rintro ⟨stands, fails, before⟩
    refine ⟨before 0 (Nat.succ_pos _) item rfl, stands, fails, ?_⟩
    intro earlier earlierLt another
    exact before (earlier + 1) (Nat.succ_lt_succ earlierLt) another
  · rintro ⟨first, stands, fails, before⟩
    refine ⟨stands, fails, ?_⟩
    intro earlier earlierLt another anotherStands
    cases earlier with
    | zero =>
        cases anotherStands
        exact first
    | succ earlier => exact before earlier (Nat.lt_of_succ_lt_succ earlierLt) another anotherStands

theorem holdsAlong_append
    {front back : List α} :
    HoldsAlong good (front ++ back) ↔
      HoldsAlong good front ∧ HoldsAlong (fun index => good (index + front.length)) back := by
  induction front generalizing good with
  | nil => exact (and_iff_right holdsAlong_nil).symm
  | cons item front induction =>
      rw [List.cons_append, holdsAlong_cons, induction, holdsAlong_cons, and_assoc]
      rfl

/-- The first item that fails is in the front part, or all of that part is good. -/
theorem firstFailing_append
    {front back : List α}
    {index : Nat} :
    FirstFailing good (front ++ back) index item ↔
      FirstFailing good front index item ∨
        HoldsAlong good front ∧
          ∃ later, index = later + front.length ∧
            FirstFailing (fun index => good (index + front.length)) back later item := by
  induction front generalizing good index with
  | nil =>
      constructor
      · intro failing
        exact Or.inr ⟨holdsAlong_nil, index, rfl, failing⟩
      · rintro (failing | ⟨-, _, rfl, failing⟩)
        · cases failing.stands
        · exact failing
  | cons head front induction =>
      cases index with
      | zero =>
          rw [List.cons_append, firstFailing_cons_zero, firstFailing_cons_zero]
          constructor
          · exact Or.inl
          · rintro (failing | ⟨-, later, impossible, -⟩)
            · exact failing
            · cases impossible
      | succ index =>
          rw [List.cons_append, firstFailing_cons_succ, induction, firstFailing_cons_succ,
            holdsAlong_cons, and_or_left, ← and_assoc]
          simp only [List.length_cons, ← Nat.add_assoc, Nat.add_right_cancel_iff]

/-- If not every item is good where it stands, there is a first one that is not. -/
theorem holdsAlong_or_exists_firstFailing
    (good : Nat → α → Prop)
    (items : List α) :
    HoldsAlong good items ∨ ∃ index item, FirstFailing good items index item := by
  induction items generalizing good with
  | nil => exact Or.inl holdsAlong_nil
  | cons item items induction =>
      by_cases first : good 0 item
      · rcases induction fun index => good (index + 1) with rest | ⟨index, other, failing⟩
        · exact Or.inl (holdsAlong_cons.2 ⟨first, rest⟩)
        · exact Or.inr ⟨index + 1, other, firstFailing_cons_succ.2 ⟨first, failing⟩⟩
      · exact Or.inr ⟨0, item, firstFailing_cons_zero.2 ⟨rfl, first⟩⟩

end Positions

/-! ## Two computations that end alike -/

variable
    {γ δ : Type}

/-- Both computations fail with one cause, or both succeed with related values. -/
inductive EndAlike
    (related : α → β → Prop) :
    Except ε α → Except ε β → Prop where
  | failed (cause : ε) : EndAlike related (.error cause) (.error cause)
  | succeeded {value : α} {other : β} :
      related value other → EndAlike related (.ok value) (.ok other)

theorem EndAlike.refl
    {related : α → α → Prop}
    (same : ∀ value, related value value)
    (outcome : Except ε α) :
    EndAlike related outcome outcome := by
  cases outcome with
  | error cause => exact .failed cause
  | ok value => exact .succeeded (same value)

/-- Sequences end alike if their first parts do, and the rest does on related values. -/
theorem EndAlike.bind
    {related : α → β → Prop}
    {relatedNext : γ → δ → Prop}
    {first : Except ε α}
    {otherFirst : Except ε β}
    {next : α → Except ε γ}
    {otherNext : β → Except ε δ}
    (alike : EndAlike related first otherFirst)
    (rest :
      ∀ value other, related value other →
        EndAlike relatedNext (next value) (otherNext other)) :
    EndAlike relatedNext (first >>= next) (otherFirst >>= otherNext) := by
  cases alike with
  | failed cause => exact .failed cause
  | succeeded values => exact rest _ _ values

/-- A computation that ends like one that succeeds succeeds with a related value. -/
theorem EndAlike.exists_of_eq_ok
    {related : α → β → Prop}
    {first : Except ε α}
    {second : Except ε β}
    (alike : EndAlike related first second)
    {value : α}
    (success : first = .ok value) :
    ∃ other, second = .ok other ∧ related value other := by
  cases alike with
  | failed cause => cases success
  | succeeded values =>
      cases success
      exact ⟨_, rfl, values⟩

/-- Computations that end alike also end alike for a looser relation of their values. -/
theorem EndAlike.imp
    {related looser : α → β → Prop}
    {first : Except ε α}
    {second : Except ε β}
    (alike : EndAlike related first second)
    (loosen : ∀ value other, related value other → looser value other) :
    EndAlike looser first second := by
  cases alike with
  | failed cause => exact .failed cause
  | succeeded values => exact .succeeded (loosen _ _ values)

end NetRun
