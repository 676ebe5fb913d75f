import NetRun.Route.Table
import NetRun.Proofs.Route.Join
import Mathlib.Data.Nat.Init

/-!
# One pivot at a time

Relaxation rewrites a table in place while it reads it.  During one pivot's
stage this makes no difference: the cells that are read, those of the pivot's
row and column, are left as they were, because a node reaches itself over the
empty route.  So a stage replaces every cell by what a frozen copy of the
table would have offered it, and the whole relaxation is a sequence of tables
`after k`, each one the frozen offer on the one before.
-/

namespace NetRun

namespace Route

/-! ## Offers -/

/-- A route improves another if it is reached and the other has no fewer hops. -/
theorem improves_iff
    {candidate current : Route} :
    candidate.improves current = true ↔
      ∃ n, candidate.length? = some n ∧ ∀ m, current.length? = some m → n < m := by
  obtain ⟨candidateHops, _, _⟩ := candidate
  obtain ⟨currentHops, _, _⟩ := current
  cases candidateHops with
  | none => simp [improves, length?]
  | some new =>
      cases currentHops with
      | none => simp [improves, length?]
      | some old => simp [improves, length?, UInt32.lt_iff_toNat_lt]

theorem improves_trans
    {first second third : Route}
    (better : first.improves second = true)
    (good : second.improves third = true) :
    first.improves third = true := by
  obtain ⟨n, firstLength, shorter⟩ := improves_iff.1 better
  obtain ⟨m, secondLength, short⟩ := improves_iff.1 good
  refine improves_iff.2 ⟨n, firstLength, ?_⟩
  intro k thirdLength
  exact Nat.lt_trans (shorter m secondLength) (short k thirdLength)

/-- What a cell holds after it has been offered a route. -/
def keep
    (current : Route)
    (offer : Option Route) :
    Route :=
  match offer with
  | some candidate => if candidate.improves current then candidate else current
  | none => current

@[simp]
theorem keep_none
    (current : Route) :
    current.keep none = current :=
  rfl

theorem keep_some
    (current candidate : Route) :
    current.keep (some candidate) =
      if candidate.improves current then candidate else current :=
  rfl

/-- Nothing improves the empty route. -/
@[simp]
theorem self_keep
    (offer : Option Route) :
    self.keep offer = self := by
  cases offer with
  | none => rfl
  | some candidate =>
      rw [keep_some, if_neg]
      rw [improves_iff]
      rintro ⟨n, -, shorter⟩
      exact Nat.not_lt_zero n (shorter 0 rfl)

/-- Going through the empty route first offers nothing new. -/
theorem keep_self_join
    (route : Route) :
    route.keep (self.join route) = route := by
  cases reached : route.isReached with
  | true =>
      rw [self_join reached, keep_some, ite_self]
  | false =>
      rw [join_unreached (isReached_eq_false_iff.1 reached), keep_none]

/-- A cell's later content is its earlier content or improves it. -/
def Upgrades
    (later earlier : Route) :
    Prop :=
  later = earlier ∨ later.improves earlier = true

theorem Upgrades.trans
    {third second first : Route}
    (late : third.Upgrades second)
    (early : second.Upgrades first) :
    third.Upgrades first := by
  rcases late with rfl | better
  · exact early
  · rcases early with rfl | good
    · exact Or.inr better
    · exact Or.inr (improves_trans better good)

/-- A cell that changed holds what it was offered. -/
theorem eq_some_of_keep_ne
    {current : Route}
    {offer : Option Route}
    (changed : current.keep offer ≠ current) :
    offer = some (current.keep offer) := by
  cases offer with
  | none => exact absurd rfl changed
  | some candidate =>
      rw [keep_some] at changed ⊢
      split at changed
      case isTrue better => rw [if_pos better]
      case isFalse => exact absurd rfl changed

theorem keep_upgrades
    (current : Route)
    (offer : Option Route) :
    (current.keep offer).Upgrades current := by
  cases offer with
  | none => exact Or.inl rfl
  | some candidate =>
      rw [keep_some]
      split
      case isTrue better => exact Or.inr better
      case isFalse => exact Or.inl rfl

/-- What a reached cell holds later is reached over no more links. -/
theorem Upgrades.length?_le
    {later earlier : Route}
    (upgrades : later.Upgrades earlier)
    {n : Nat}
    (reached : earlier.length? = some n) :
    ∃ m, later.length? = some m ∧ m ≤ n := by
  rcases upgrades with rfl | better
  · exact ⟨n, reached, Nat.le_refl n⟩
  · obtain ⟨m, laterLength, shorter⟩ := improves_iff.1 better
    exact ⟨m, laterLength, Nat.le_of_lt (shorter n reached)⟩

/-- An offered route leaves a cell reached over no more links than the route. -/
theorem length?_keep_le
    (current : Route)
    {candidate : Route}
    {n : Nat}
    (reached : candidate.length? = some n) :
    ∃ m, (current.keep (some candidate)).length? = some m ∧ m ≤ n := by
  rw [keep_some]
  split
  case isTrue => exact ⟨n, reached, Nat.le_refl n⟩
  case isFalse worse =>
    cases currentLength : current.length? with
    | none =>
        refine absurd (improves_iff.2 ⟨n, reached, ?_⟩) worse
        simp [currentLength]
    | some m =>
        refine ⟨m, rfl, Nat.le_of_not_lt fun shorter => worse ?_⟩
        refine improves_iff.2 ⟨n, reached, ?_⟩
        rw [currentLength]
        rintro _ ⟨rfl⟩
        exact shorter

/-- As long as its hops stay the same, so does a cell. -/
theorem Upgrades.eq_of_length?_eq
    {later earlier : Route}
    (upgrades : later.Upgrades earlier)
    (same : later.length? = earlier.length?) :
    later = earlier := by
  rcases upgrades with equal | better
  · exact equal
  · obtain ⟨m, laterLength, shorter⟩ := improves_iff.1 better
    exact absurd (shorter m (same ▸ laterLength)) (Nat.lt_irrefl m)

end Route

namespace RouteTable

/-! ## A stage in place -/

/-- A loop over the numbers below the next one ends with a step for the number at hand. -/
theorem foldl_range_succ
    {α : Type}
    (step : α → Nat → α)
    (start : α)
    (count : Nat) :
    (List.range (count + 1)).foldl step start =
      step ((List.range count).foldl step start) count := by
  rw [List.range_succ, List.foldl_append, List.foldl_cons, List.foldl_nil]

@[simp]
theorem size_relaxCell
    (pivot source target : Nat)
    (first : Route)
    (state : RouteTable × Nat) :
    (relaxCell pivot source first state target).1.size = state.1.size := by
  unfold relaxCell
  split
  · rfl
  · split
    · exact size_setCell
    · rfl

@[simp]
theorem size_foldl_relaxCell
    (pivot source : Nat)
    (first : Route)
    (state : RouteTable × Nat)
    (targets : List Nat) :
    (targets.foldl (relaxCell pivot source first) state).1.size = state.1.size := by
  induction targets generalizing state with
  | nil => rfl
  | cons target targets induction => rw [List.foldl_cons, induction, size_relaxCell]

@[simp]
theorem size_relaxRow
    (pivot source : Nat)
    (state : RouteTable × Nat) :
    (relaxRow pivot state source).1.size = state.1.size := by
  unfold relaxRow
  dsimp only
  split
  · exact size_foldl_relaxCell ..
  · rfl

@[simp]
theorem size_foldl_relaxRow
    (pivot : Nat)
    (state : RouteTable × Nat)
    (sources : List Nat) :
    (sources.foldl (relaxRow pivot) state).1.size = state.1.size := by
  induction sources generalizing state with
  | nil => rfl
  | cons source sources induction => rw [List.foldl_cons, induction, size_relaxRow]

variable
    {state : RouteTable × Nat}
    {pivot source target i j count : Nat}
    {first : Route}

theorem cell_relaxCell
    (sourceLt : source < state.1.size)
    (targetLt : target < state.1.size) :
    (relaxCell pivot source first state target).1.cell i j =
      if i = source ∧ j = target then
        (state.1.cell i j).keep (first.join (state.1.cell pivot j))
      else state.1.cell i j := by
  unfold relaxCell
  split
  case h_1 missing =>
    split
    case isTrue here =>
      obtain ⟨rfl, rfl⟩ := here
      rw [missing, Route.keep_none]
    case isFalse => rfl
  case h_2 candidate joins =>
    by_cases better : candidate.improves (state.1.cell source target) = true
    · rw [if_pos better, cell_setCell sourceLt targetLt]
      split
      case isTrue here =>
        obtain ⟨rfl, rfl⟩ := here
        rw [joins, Route.keep_some, if_pos better]
      case isFalse => rfl
    · rw [if_neg better]
      split
      case isTrue here =>
        obtain ⟨rfl, rfl⟩ := here
        rw [joins, Route.keep_some, if_neg better]
      case isFalse => rfl

/-- Half a row: the targets below `count` have been offered, the others are untouched. -/
theorem cell_foldl_relaxCell
    (sourceLt : source < state.1.size)
    (countLe : count ≤ state.1.size) :
    ((List.range count).foldl (relaxCell pivot source first) state).1.cell i j =
      if i = source ∧ j < count then
        (state.1.cell i j).keep (first.join (state.1.cell pivot j))
      else state.1.cell i j := by
  induction count generalizing i j with
  | zero => simp
  | succ count induction =>
      have before := fun i j => @induction i j (by omega)
      rw [foldl_range_succ,
        cell_relaxCell (by simpa using sourceLt) (by simpa using Nat.lt_of_succ_le countLe)]
      -- The pivot's cell is read before this row can have written it.
      by_cases here : i = source ∧ j = count
      · obtain ⟨rfl, rfl⟩ := here
        rw [if_pos ⟨rfl, rfl⟩, if_pos ⟨rfl, Nat.lt_succ_self _⟩, before, before,
          if_neg (by omega), if_neg (by omega)]
      · rw [if_neg here, before]
        congr 1
        rw [eq_iff_iff]
        omega

theorem cell_relaxRow
    (sourceLt : source < state.1.size)
    (jLt : j < state.1.size) :
    (relaxRow pivot state source).1.cell i j =
      if i = source then
        (state.1.cell i j).keep
          ((state.1.cell i pivot).join (state.1.cell pivot j))
      else state.1.cell i j := by
  unfold relaxRow
  dsimp only
  split
  case isTrue =>
    rw [cell_foldl_relaxCell sourceLt (Nat.le_refl _)]
    by_cases here : i = source
    · rw [if_pos ⟨here, jLt⟩, if_pos here, here]
    · rw [if_neg fun both => here both.1, if_neg here]
  case isFalse missing =>
    split
    case isTrue here =>
      have noJoin : (state.1.cell i pivot).join (state.1.cell pivot j) = none := by
        apply Route.unreached_join
        apply Route.isReached_eq_false_iff.1
        rw [here]
        exact Bool.eq_false_iff.2 missing
      rw [noJoin, Route.keep_none]
    case isFalse => rfl

/-- Some rows: those below `count` have been offered the pivot, the others are untouched. -/
theorem cell_foldl_relaxRow
    (pivotLt : pivot < state.1.size)
    (pivotSelf : state.1.cell pivot pivot = .self)
    (countLe : count ≤ state.1.size)
    (jLt : j < state.1.size) :
    ((List.range count).foldl (relaxRow pivot) state).1.cell i j =
      if i < count then
        (state.1.cell i j).keep
          ((state.1.cell i pivot).join (state.1.cell pivot j))
      else state.1.cell i j := by
  induction count generalizing i j with
  | zero => simp
  | succ count induction =>
      have before := fun i j => @induction i j (by omega)
      rw [foldl_range_succ,
        cell_relaxRow (by simpa using Nat.lt_of_succ_le countLe) (by simpa using jLt)]
      -- The pivot's own row, if it was offered itself, has not changed.
      have pivotRow :
          ((List.range count).foldl (relaxRow pivot) state).1.cell pivot j =
            state.1.cell pivot j := by
        rw [before _ _ jLt, pivotSelf, Route.keep_self_join, ite_self]
      by_cases here : i = count
      · subst here
        rw [if_pos rfl, if_pos (Nat.lt_succ_self _), pivotRow, before _ _ jLt,
          before _ _ pivotLt, if_neg (Nat.lt_irrefl _), if_neg (Nat.lt_irrefl _)]
      · rw [if_neg here, before _ _ jLt]
        congr 1
        rw [eq_iff_iff]
        omega

/-- A stage in place does what a stage on a frozen copy would do. -/
theorem cell_relaxStage
    (pivotLt : pivot < state.1.size)
    (pivotSelf : state.1.cell pivot pivot = .self)
    (iLt : i < state.1.size)
    (jLt : j < state.1.size) :
    (relaxStage state pivot).1.cell i j =
      (state.1.cell i j).keep
        ((state.1.cell i pivot).join (state.1.cell pivot j)) := by
  rw [relaxStage, cell_foldl_relaxRow pivotLt pivotSelf (Nat.le_refl _) jLt, if_pos iLt]

/-! ## Stages in a row -/

@[simp]
theorem size_relaxStage
    (state : RouteTable × Nat)
    (pivot : Nat) :
    (relaxStage state pivot).1.size = state.1.size :=
  size_foldl_relaxRow ..

/-- The table after the nodes below `k` have been pivots. -/
def after
    (table : RouteTable)
    (k : Nat) :
    RouteTable :=
  ((List.range k).foldl relaxStage (table, 0)).1

/-- Every node of the table reaches itself over the empty route. -/
def SelfDiagonal
    (table : RouteTable) :
    Prop :=
  ∀ i < table.size, table.cell i i = .self

variable
    {table : RouteTable}
    {k l : Nat}

@[simp]
theorem after_zero
    (table : RouteTable) :
    table.after 0 = table :=
  rfl

/-- Relaxing a table takes every node as a pivot in turn. -/
theorem fst_relax
    (table : RouteTable) :
    table.relax.1 = table.after table.size :=
  rfl

@[simp]
theorem size_after
    (table : RouteTable)
    (k : Nat) :
    (table.after k).size = table.size := by
  unfold after
  induction k with
  | zero => rfl
  | succ k induction =>
      rw [foldl_range_succ, size_relaxStage, induction]

theorem cell_after_succ_of_self
    (kLt : k < table.size)
    (kSelf : (table.after k).cell k k = .self)
    (iLt : i < table.size)
    (jLt : j < table.size) :
    (table.after (k + 1)).cell i j =
      ((table.after k).cell i j).keep
        (((table.after k).cell i k).join ((table.after k).cell k j)) := by
  have sameSize := size_after table k
  unfold after at sameSize kSelf ⊢
  rw [foldl_range_succ,
    cell_relaxStage (by rwa [sameSize]) kSelf (by rwa [sameSize]) (by rwa [sameSize])]

/-- Nodes keep reaching themselves over the empty route. -/
theorem SelfDiagonal.after
    (diagonal : table.SelfDiagonal)
    (kLe : k ≤ table.size) :
    (table.after k).SelfDiagonal := by
  induction k with
  | zero => exact diagonal
  | succ k induction =>
      intro i iLt
      have previous := induction (by omega)
      rw [size_after] at iLt
      rw [cell_after_succ_of_self kLe (previous k (by rwa [size_after])) iLt iLt,
        previous i (by rwa [size_after]), Route.self_keep]

/-- A stage offers every cell the route over the stage's pivot. -/
theorem SelfDiagonal.cell_after_succ
    (diagonal : table.SelfDiagonal)
    (kLt : k < table.size)
    (iLt : i < table.size)
    (jLt : j < table.size) :
    (table.after (k + 1)).cell i j =
      ((table.after k).cell i j).keep
        (((table.after k).cell i k).join ((table.after k).cell k j)) :=
  cell_after_succ_of_self kLt
    (diagonal.after (Nat.le_of_lt kLt) k (by rwa [size_after])) iLt jLt

/-- The stage of a pivot leaves the pivot's row as it is. -/
theorem SelfDiagonal.cell_pivot_after_succ
    (diagonal : table.SelfDiagonal)
    (kLt : k < table.size)
    (jLt : j < table.size) :
    (table.after (k + 1)).cell k j = (table.after k).cell k j := by
  have pivotSelf := diagonal.after (Nat.le_of_lt kLt) k (by rwa [size_after])
  rw [diagonal.cell_after_succ kLt kLt jLt, pivotSelf, Route.keep_self_join]

/-- The stage of a pivot leaves the pivot's column as it is. -/
theorem SelfDiagonal.cell_after_succ_pivot
    (diagonal : table.SelfDiagonal)
    (kLt : k < table.size)
    (iLt : i < table.size) :
    (table.after (k + 1)).cell i k = (table.after k).cell i k := by
  have pivotSelf := diagonal.after (Nat.le_of_lt kLt) k (by rwa [size_after])
  rw [diagonal.cell_after_succ kLt iLt kLt, pivotSelf, Route.join_comm, Route.keep_self_join]

/-- Cells only ever get better. -/
theorem SelfDiagonal.upgrades
    (diagonal : table.SelfDiagonal)
    (kLe : k ≤ l)
    (lLe : l ≤ table.size)
    (iLt : i < table.size)
    (jLt : j < table.size) :
    ((table.after l).cell i j).Upgrades ((table.after k).cell i j) := by
  induction l, kLe using Nat.le_induction with
  | base => exact Or.inl rfl
  | succ l kLe induction =>
      rw [diagonal.cell_after_succ lLe iLt jLt]
      exact (Route.keep_upgrades _ _).trans (induction (by omega))

/-! ## The halves that are joined -/

/--
The two routes at hand when a pivot is offered to a cell: the one from the
source to the pivot, read before the row is begun, and the one from the pivot
to the target, read when its turn comes.
-/
def halves
    (table : RouteTable)
    (pivot source target : Nat) :
    Route × Route :=
  let stages := (List.range pivot).foldl relaxStage (table, 0)
  let rows := (List.range source).foldl (relaxRow pivot) stages
  let first := rows.1.cell source pivot
  let cells := (List.range target).foldl (relaxCell pivot source first) rows
  (first, cells.1.cell pivot target)

/-- The halves are those of the table at the beginning of the stage. -/
theorem SelfDiagonal.halves_eq
    (diagonal : table.SelfDiagonal)
    (pivotLt : pivot < table.size)
    (sourceLt : source < table.size)
    (targetLt : target < table.size) :
    table.halves pivot source target =
      ((table.after pivot).cell source pivot, (table.after pivot).cell pivot target) := by
  have sameSize := size_after table pivot
  have pivotSelf := diagonal.after (Nat.le_of_lt pivotLt) pivot (by rwa [size_after])
  unfold halves
  unfold RouteTable.after at sameSize pivotSelf ⊢
  generalize (List.range pivot).foldl relaxStage (table, 0) = state at sameSize pivotSelf ⊢
  rw [← sameSize] at pivotLt sourceLt targetLt
  have rows {i j} (jLt : j < state.1.size) :=
    @cell_foldl_relaxRow state pivot i j source pivotLt pivotSelf (Nat.le_of_lt sourceLt) jLt
  dsimp only
  rw [cell_foldl_relaxCell (by simpa using sourceLt) (by simpa using Nat.le_of_lt targetLt),
    if_neg (by omega), rows pivotLt, if_neg (Nat.lt_irrefl _), rows targetLt, pivotSelf,
    Route.keep_self_join, ite_self]

end RouteTable

end NetRun
