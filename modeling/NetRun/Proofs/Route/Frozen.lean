import NetRun.Proofs.Route.Settled
import NetRun.Proofs.Route.Symmetry

/-!
# Relaxing from a frozen copy

The textbook relaxes with two tables.  A stage freezes the table at hand and
fills a new one: a cell of the new table holds the route over the pivot if that
is reached and has strictly fewer hops than the frozen cell, and else what the
frozen cell holds.  The stage counts the cells that were replaced.

Relaxing in place writes the table that it reads.  Yet it goes through the same
tables, stage by stage, and counts the same updates, because a stage never
replaces what it still has to read: the pivot's row and column, where the route
over the pivot only puts the empty route at one end.
-/

namespace NetRun

/-- A route improves another if it has hops, and fewer than the other if that has any. -/
theorem Route.improves_eq_any
    (candidate current : Route) :
    candidate.improves current =
      candidate.hops.any fun new => current.hops.all fun old => new < old := by
  unfold improves
  cases candidate.hops with
  | none => rfl
  | some new => cases current.hops <;> rfl

namespace RouteTable

/-! ## Tables given cell by cell -/

/-- The table that holds the given routes. -/
def ofCells
    (size : Nat)
    (routes : Nat → Nat → Route) :
    RouteTable where
  size := size
  cells := Array.ofFn fun index : Fin (size * size) => routes (index / size) (index % size)
  complete := Array.size_ofFn

theorem cell_ofCells
    {size i j : Nat}
    {routes : Nat → Nat → Route}
    (iLt : i < size)
    (jLt : j < size) :
    (ofCells size routes).cell i j = routes i j := by
  simp [cell, ofCells, iLt, jLt, index_lt iLt jLt, index_div jLt, index_mod jLt]

/-! ## Two tables -/

/--
The route over a pivot that takes a cell's place, if it does: both halves are
reached in the frozen table, and their join has strictly fewer hops than the
frozen cell, or that is not reached.
-/
def replacement?
    (frozen : RouteTable)
    (pivot source target : Nat) :
    Option Route :=
  ((frozen.cell source pivot).join (frozen.cell pivot target)).filter fun candidate =>
    candidate.hops.any fun new => (frozen.cell source target).hops.all fun old => new < old

/-- Fill a new table from the frozen one, and count the cells that are replaced. -/
def stageFromCopy
    (state : RouteTable × Nat)
    (pivot : Nat) :
    RouteTable × Nat :=
  let frozen := state.1
  let filled := ofCells frozen.size fun source target =>
    (frozen.replacement? pivot source target).getD (frozen.cell source target)
  let replaced := (List.range frozen.size ×ˢ List.range frozen.size).countP fun ends =>
    (frozen.replacement? pivot ends.1 ends.2).isSome
  (filled, state.2 + replaced)

/-- Relax with two tables: every pivot in turn fills a new table from the last one. -/
def relaxFromCopies
    (table : RouteTable) :
    RouteTable × Nat :=
  (List.range table.size).foldl stageFromCopy (table, 0)

variable
    {table : RouteTable}
    {state : RouteTable × Nat}
    {pivot source target i j k : Nat}

theorem getD_replacement? :
    (table.replacement? pivot source target).getD (table.cell source target) =
      (table.cell source target).keep
        ((table.cell source pivot).join (table.cell pivot target)) := by
  unfold replacement?
  simp only [← Route.improves_eq_any]
  cases (table.cell source pivot).join (table.cell pivot target) with
  | none => rfl
  | some candidate =>
      rw [Route.keep_some, Option.filter_some]
      split <;> rfl

theorem isSome_replacement? :
    (table.replacement? pivot source target).isSome =
      (table.cell source target).takes
        ((table.cell source pivot).join (table.cell pivot target)) := by
  unfold replacement?
  simp only [← Route.improves_eq_any]
  rw [Option.isSome_filter]
  rfl

/-! ## In place and from a copy -/

/-- Where the pivot reaches itself over the empty route, a stage in place is one from a copy. -/
theorem relaxStage_eq_stageFromCopy
    (pivotLt : pivot < state.1.size)
    (pivotSelf : state.1.cell pivot pivot = .self) :
    relaxStage state pivot = stageFromCopy state pivot := by
  apply Prod.ext
  · apply eq_of_cell_eq
    · exact size_relaxStage state pivot
    · intro i iLt j jLt
      rw [size_relaxStage] at iLt jLt
      rw [cell_relaxStage pivotLt pivotSelf iLt jLt, stageFromCopy, cell_ofCells iLt jLt,
        getD_replacement?]
  · rw [snd_relaxStage pivotLt pivotSelf, updatesAt_eq_countP, stageFromCopy]
    simp only [isSome_replacement?]

/-- The stages in place go through the tables and the counts of the stages from copies. -/
theorem SelfDiagonal.foldl_relaxStage_eq
    (diagonal : table.SelfDiagonal)
    (kLe : k ≤ table.size) :
    (List.range k).foldl relaxStage (table, 0) =
      (List.range k).foldl stageFromCopy (table, 0) := by
  induction k with
  | zero => rfl
  | succ k induction =>
      have before := induction (Nat.le_of_succ_le kLe)
      have sameSize := size_after table k
      have pivotSelf := diagonal.after (Nat.le_of_succ_le kLe) k (by rwa [size_after])
      unfold RouteTable.after at sameSize pivotSelf
      rw [foldl_range_succ, relaxStage_eq_stageFromCopy (by rwa [sameSize]) pivotSelf, before,
        foldl_range_succ]

theorem SelfDiagonal.relax_eq_relaxFromCopies
    (diagonal : table.SelfDiagonal) :
    table.relax = table.relaxFromCopies :=
  diagonal.foldl_relaxStage_eq (Nat.le_refl _)

/-! ## What is relaxed either way -/

/--
However often a table of a topology has been relaxed, relaxing it in place
gives the table and the count of relaxing it from frozen copies.  The stage of
a pivot changes neither the pivot's row nor its column nor the diagonal.
-/
theorem relaxing_in_place_follows_frozen_copies
    {topology : Topology}
    {base : RouteTable}
    (built : (ofTopology topology).outcome = .ok base)
    (times : Nat) :
    (base.relaxed times).relax = (base.relaxed times).relaxFromCopies ∧
      ∀ k < base.size, ∀ i < base.size,
        ((base.relaxed times).after (k + 1)).cell k i = ((base.relaxed times).after k).cell k i ∧
          ((base.relaxed times).after (k + 1)).cell i k =
            ((base.relaxed times).after k).cell i k ∧
            ((base.relaxed times).after (k + 1)).cell i i =
              ((base.relaxed times).after k).cell i i := by
  have diagonal := (selfDiagonal_of_ofTopology built).relaxed times
  refine ⟨diagonal.relax_eq_relaxFromCopies, ?_⟩
  intro k kLt i iLt
  rw [← size_relaxed base times] at kLt iLt
  have before := diagonal.after (Nat.le_of_lt kLt) i (by rwa [size_after])
  have behind := diagonal.after kLt i (by rwa [size_after])
  exact ⟨diagonal.cell_pivot_after_succ kLt iLt, diagonal.cell_after_succ_pivot kLt iLt,
    behind.trans before.symm⟩

theorem diamond_relaxing_in_place_follows_frozen_copies :
    ∃ base,
      (ofTopology diamond).outcome = .ok base ∧
        base.relaxFromCopies.2 = 4 ∧
          base.relaxFromCopies.1.cell 0 3 = ⟨some 2, 3, .limited 8⟩ ∧
            (base.after 2).cell 0 1 = base.cell 0 1 := by
  obtain ⟨base, built, size, count, cell⟩ :
      ∃ base,
        (ofTopology diamond).outcome = .ok base ∧
          base.size = 5 ∧ base.relax.2 = 4 ∧ base.relax.1.cell 0 3 = ⟨some 2, 3, .limited 8⟩ :=
    ⟨_, rfl, rfl, rfl, rfl⟩
  rcases relaxing_in_place_follows_frozen_copies built 0 with ⟨same, still⟩
  rw [relaxed] at same still
  refine ⟨base, built, ?_, ?_, ?_⟩
  · rw [← same, count]
  · rw [← same, cell]
  · rw [(still 1 (by omega) 0 (by omega)).2.1, (still 0 (by omega) 1 (by omega)).1, after_zero]

end RouteTable

end NetRun
