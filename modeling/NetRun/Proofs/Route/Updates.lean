import NetRun.Proofs.Route.Stage

/-!
# Counting updates

Relaxation counts the cells that it replaces.  As a stage in place does what a
stage on a frozen copy would do, its count is that of the cells of the frozen
copy which take the route over the pivot, and a relaxation's count is the sum
over its stages.
-/

namespace NetRun

/-- A cell is replaced by what it is offered. -/
def Route.takes
    (current : Route)
    (offer : Option Route) :
    Bool :=
  offer.any fun candidate => candidate.improves current

@[simp]
theorem Route.takes_none
    (current : Route) :
    current.takes none = false :=
  rfl

/-- The empty route is never replaced. -/
@[simp]
theorem Route.self_takes
    (offer : Option Route) :
    self.takes offer = false := by
  cases offer with
  | none => rfl
  | some candidate =>
      apply Bool.eq_false_iff.2
      intro better
      rcases improves_iff.1 better with ⟨n, -, shorter⟩
      exact Nat.not_lt_zero n (shorter 0 rfl)

namespace RouteTable

/-! ## A stage in place -/

variable
    {state : RouteTable × Nat}
    {pivot source target count : Nat}
    {first : Route}

theorem snd_relaxCell :
    (relaxCell pivot source first state target).2 =
      state.2 +
        if (state.1.cell source target).takes (first.join (state.1.cell pivot target)) then 1
        else 0 := by
  unfold relaxCell
  split
  case h_1 missing => rw [missing, Route.takes_none, if_neg Bool.false_ne_true, Nat.add_zero]
  case h_2 candidate joins =>
    rw [joins, Route.takes, Option.any_some]
    split
    case isTrue => rfl
    case isFalse => rfl

/-- Half a row: what the first `count` targets take is counted. -/
theorem snd_foldl_relaxCell
    (sourceLt : source < state.1.size)
    (countLe : count ≤ state.1.size) :
    ((List.range count).foldl (relaxCell pivot source first) state).2 =
      state.2 +
        (List.range count).countP fun target =>
          (state.1.cell source target).takes (first.join (state.1.cell pivot target)) := by
  induction count with
  | zero => rfl
  | succ count induction =>
      have countLe' := Nat.le_of_succ_le countLe
      -- The target at hand has not been written, in this row or in the pivot's.
      have unwritten i :
          ((List.range count).foldl (relaxCell pivot source first) state).1.cell i count =
            state.1.cell i count := by
        rw [cell_foldl_relaxCell sourceLt countLe', if_neg fun here => Nat.lt_irrefl _ here.2]
      rw [foldl_range_succ, snd_relaxCell, induction countLe', unwritten, unwritten,
        List.range_succ, List.countP_append, List.countP_singleton, Nat.add_assoc]

/-- The number of cells of a row that take the route over a pivot. -/
def updatesInRow
    (table : RouteTable)
    (pivot source : Nat) :
    Nat :=
  (List.range table.size).countP fun target =>
    (table.cell source target).takes
      ((table.cell source pivot).join (table.cell pivot target))

theorem snd_relaxRow
    (sourceLt : source < state.1.size) :
    (relaxRow pivot state source).2 = state.2 + state.1.updatesInRow pivot source := by
  unfold relaxRow updatesInRow
  dsimp only
  split
  case isTrue => exact snd_foldl_relaxCell sourceLt (Nat.le_refl _)
  case isFalse missing =>
    have noJoin target :
        (state.1.cell source pivot).join (state.1.cell pivot target) = none :=
      Route.unreached_join (Route.isReached_eq_false_iff.1 (Bool.eq_false_iff.2 missing))
    simp only [noJoin, Route.takes_none, List.countP_false]
    rfl

/-- Some rows: what the first `count` sources take of the frozen routes is counted. -/
theorem snd_foldl_relaxRow
    (pivotLt : pivot < state.1.size)
    (pivotSelf : state.1.cell pivot pivot = .self)
    (countLe : count ≤ state.1.size) :
    ((List.range count).foldl (relaxRow pivot) state).2 =
      state.2 + ((List.range count).map (state.1.updatesInRow pivot)).sum := by
  induction count with
  | zero => rfl
  | succ count induction =>
      have countLe' := Nat.le_of_succ_le countLe
      have rows {i j} (jLt : j < state.1.size) :=
        @cell_foldl_relaxRow state pivot i j count pivotLt pivotSelf countLe' jLt
      -- The row at hand has not been begun, and the pivot's is never changed.
      have sameRow :
          ((List.range count).foldl (relaxRow pivot) state).1.updatesInRow pivot count =
            state.1.updatesInRow pivot count := by
        unfold updatesInRow
        rw [size_foldl_relaxRow]
        apply List.countP_congr
        intro target targetIn
        have targetLt := List.mem_range.1 targetIn
        rw [rows targetLt, rows pivotLt, rows targetLt, if_neg (Nat.lt_irrefl _),
          if_neg (Nat.lt_irrefl _), pivotSelf, Route.keep_self_join, ite_self]
      rw [foldl_range_succ, snd_relaxRow (by rwa [size_foldl_relaxRow]), induction countLe',
        sameRow, List.sum_range_succ, Nat.add_assoc]

/-- The number of cells that take the route over a pivot. -/
def updatesAt
    (table : RouteTable)
    (pivot : Nat) :
    Nat :=
  ((List.range table.size).map (table.updatesInRow pivot)).sum

theorem snd_relaxStage
    (pivotLt : pivot < state.1.size)
    (pivotSelf : state.1.cell pivot pivot = .self) :
    (relaxStage state pivot).2 = state.2 + state.1.updatesAt pivot :=
  snd_foldl_relaxRow pivotLt pivotSelf (Nat.le_refl _)

/-! ## A whole relaxation -/

variable
    {table : RouteTable}

theorem SelfDiagonal.snd_foldl_relaxStage
    (diagonal : table.SelfDiagonal)
    (countLe : count ≤ table.size) :
    ((List.range count).foldl relaxStage (table, 0)).2 =
      ((List.range count).map fun pivot => (table.after pivot).updatesAt pivot).sum := by
  induction count with
  | zero => rfl
  | succ count induction =>
      have countLe' := Nat.le_of_succ_le countLe
      have pivotSelf := diagonal.after countLe' count (by rwa [size_after])
      have sameSize := size_after table count
      unfold RouteTable.after at pivotSelf sameSize
      rw [foldl_range_succ, snd_relaxStage (by rwa [sameSize]) pivotSelf, induction countLe',
        List.sum_range_succ]
      rfl

/-- A relaxation counts, stage by stage, the cells that take the route over the pivot. -/
theorem SelfDiagonal.snd_relax
    (diagonal : table.SelfDiagonal) :
    table.relax.2 =
      ((List.range table.size).map fun pivot => (table.after pivot).updatesAt pivot).sum :=
  diagonal.snd_foldl_relaxStage (Nat.le_refl _)

/-! ## Relaxing again -/

/-- The table after it has been relaxed so many times. -/
def relaxed
    (table : RouteTable) :
    Nat → RouteTable
  | 0 => table
  | times + 1 => (table.relaxed times).relax.1

@[simp]
theorem size_relaxed
    (table : RouteTable)
    (times : Nat) :
    (table.relaxed times).size = table.size := by
  induction times with
  | zero => rfl
  | succ times induction => rw [relaxed, fst_relax, size_after, induction]

theorem SelfDiagonal.relaxed
    (diagonal : table.SelfDiagonal)
    (times : Nat) :
    (table.relaxed times).SelfDiagonal := by
  induction times with
  | zero => exact diagonal
  | succ times induction => exact induction.after (Nat.le_refl _)

end RouteTable

end NetRun
