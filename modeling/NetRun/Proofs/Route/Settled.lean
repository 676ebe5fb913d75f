import NetRun.Proofs.Route.Shortest
import NetRun.Proofs.Route.Updates

/-!
# Settled tables

A table is settled if no route over a pivot has fewer hops than the cell that
it is offered to.  Relaxing a settled table changes nothing and counts nothing,
and a table that a relaxation leaves as it was, or in which it counts nothing,
was settled.  One relaxation settles every table of a topology, because the
routes to and from a pivot follow two walks that are together one walk.
-/

namespace NetRun

open SimpleGraph

namespace Route

/-- Two cells that are upgrades of each other are the same. -/
theorem Upgrades.antisymm
    {first second : Route}
    (there : first.Upgrades second)
    (back : second.Upgrades first) :
    first = second := by
  rcases there with equal | better
  · exact equal
  · rcases back with equal | worse
    · exact equal.symm
    · rcases improves_iff.1 (improves_trans better worse) with ⟨n, length, shorter⟩
      exact absurd (shorter n length) (Nat.lt_irrefl n)

/-- A cell stays as it is exactly when it does not take what it is offered. -/
theorem keep_eq_self_iff
    {current : Route}
    {offer : Option Route} :
    current.keep offer = current ↔ current.takes offer = false := by
  cases offer with
  | none => simp
  | some candidate =>
      rw [keep_some, takes, Option.any_some]
      cases better : candidate.improves current with
      | false => simp
      | true =>
          rw [if_pos rfl]
          constructor
          · rintro rfl
            rcases improves_iff.1 better with ⟨n, length, shorter⟩
            exact absurd (shorter n length) (Nat.lt_irrefl n)
          · intro impossible
            cases impossible

end Route

namespace RouteTable

variable
    {table other : RouteTable}
    {k pivot : Nat}

/-- Tables of one size with the same cells are the same. -/
theorem eq_of_cell_eq
    (size : table.size = other.size)
    (cells : ∀ i < table.size, ∀ j < table.size, table.cell i j = other.cell i j) :
    table = other := by
  rcases table with ⟨n, routes, complete⟩
  rcases other with ⟨_, others, otherComplete⟩
  cases size
  congr
  apply Array.ext
  · rw [complete, otherComplete]
  · intro index bound otherBound
    have bounded := bound
    rw [complete] at bounded
    -- The index belongs to the row of its quotient and the column of its remainder.
    have pos : 0 < n := Nat.pos_of_mul_pos_left (Nat.zero_lt_of_lt bounded)
    have rowLt : index / n < n := (Nat.div_lt_iff_lt_mul pos).2 bounded
    have columnLt : index % n < n := Nat.mod_lt _ pos
    have here : index / n * n + index % n = index := Nat.div_add_mod' index n
    have same := cells (index / n) rowLt (index % n) columnLt
    simpa [cell, rowLt, columnLt, here, bound, otherBound] using same

/-! ## Offers that are refused -/

/-- No cell takes a route over any pivot. -/
def Settled
    (table : RouteTable) :
    Prop :=
  ∀ pivot < table.size, ∀ source < table.size, ∀ target < table.size,
    (table.cell source target).takes
      ((table.cell source pivot).join (table.cell pivot target)) = false

/-- A stage counts nothing exactly when every cell refuses the route over its pivot. -/
theorem updatesAt_eq_zero_iff :
    table.updatesAt pivot = 0 ↔
      ∀ source < table.size, ∀ target < table.size,
        (table.cell source target).takes
          ((table.cell source pivot).join (table.cell pivot target)) = false := by
  simp [updatesAt, updatesInRow, List.sum_eq_zero_iff_forall_eq_nat, List.countP_eq_zero]

theorem Settled.updatesAt_eq_zero
    (settled : table.Settled)
    (pivotLt : pivot < table.size) :
    table.updatesAt pivot = 0 :=
  updatesAt_eq_zero_iff.2 (settled pivot pivotLt)

/-- A stage that counts nothing leaves the table as it was. -/
theorem SelfDiagonal.after_succ_eq
    (diagonal : table.SelfDiagonal)
    (kLt : k < table.size)
    (idle : (table.after k).updatesAt k = 0) :
    table.after (k + 1) = table.after k := by
  apply eq_of_cell_eq
  · rw [size_after, size_after]
  · intro i iLt j jLt
    rw [size_after] at iLt jLt
    rw [diagonal.cell_after_succ kLt iLt jLt]
    exact Route.keep_eq_self_iff.2
      (updatesAt_eq_zero_iff.1 idle i (by rwa [size_after]) j (by rwa [size_after]))

/-- If a stage that finds the table as it was counts nothing, no stage changes anything. -/
theorem SelfDiagonal.after_eq_self
    (diagonal : table.SelfDiagonal)
    (idle : ∀ pivot < table.size, table.after pivot = table → table.updatesAt pivot = 0)
    (kLe : k ≤ table.size) :
    table.after k = table := by
  induction k with
  | zero => rfl
  | succ k induction =>
      have before := induction (Nat.le_of_lt kLe)
      have stage := idle k kLe before
      rw [← before] at stage
      rw [diagonal.after_succ_eq kLe stage, before]

/-- A table is settled exactly when every stage leaves it as it is. -/
theorem SelfDiagonal.settled_iff_after_eq
    (diagonal : table.SelfDiagonal) :
    table.Settled ↔ ∀ k ≤ table.size, table.after k = table := by
  constructor
  · intro settled k kLe
    exact diagonal.after_eq_self (fun _ pivotLt _ => settled.updatesAt_eq_zero pivotLt) kLe
  · intro still pivot pivotLt source sourceLt target targetLt
    have stage := diagonal.cell_after_succ pivotLt sourceLt targetLt
    rw [still (pivot + 1) pivotLt, still pivot (Nat.le_of_lt pivotLt)] at stage
    exact Route.keep_eq_self_iff.1 stage.symm

/-! ## Relaxing a settled table -/

/-- A settled table is relaxed into itself, and nothing is counted. -/
theorem Settled.relax
    (settled : table.Settled)
    (diagonal : table.SelfDiagonal) :
    table.relax = (table, 0) := by
  have still := diagonal.settled_iff_after_eq.1 settled
  apply Prod.ext
  · rw [fst_relax, still _ (Nat.le_refl _)]
  · rw [diagonal.snd_relax, List.sum_eq_zero_iff_forall_eq_nat]
    intro updates listed
    rcases List.mem_map.1 listed with ⟨pivot, isPivot, rfl⟩
    have pivotLt := List.mem_range.1 isPivot
    rw [still pivot (Nat.le_of_lt pivotLt), settled.updatesAt_eq_zero pivotLt]

/-- A relaxation counts nothing exactly when the table was settled. -/
theorem SelfDiagonal.snd_relax_eq_zero_iff
    (diagonal : table.SelfDiagonal) :
    table.relax.2 = 0 ↔ table.Settled := by
  constructor
  · intro idle
    rw [diagonal.snd_relax, List.sum_eq_zero_iff_forall_eq_nat] at idle
    apply diagonal.settled_iff_after_eq.2
    intro k kLe
    apply diagonal.after_eq_self _ kLe
    intro pivot pivotLt before
    have stage := idle _ (List.mem_map.2 ⟨pivot, List.mem_range.2 pivotLt, rfl⟩)
    rwa [before] at stage
  · intro settled
    rw [settled.relax diagonal]

/-- A relaxation leaves the table as it was exactly when it was settled. -/
theorem SelfDiagonal.fst_relax_eq_self_iff
    (diagonal : table.SelfDiagonal) :
    table.relax.1 = table ↔ table.Settled := by
  constructor
  · intro unchanged
    rw [fst_relax] at unchanged
    apply diagonal.settled_iff_after_eq.2
    intro k kLe
    apply eq_of_cell_eq (size_after table k)
    intro i iLt j jLt
    rw [size_after] at iLt jLt
    -- The cell only gets better on the way, and is at the end what it was at the beginning.
    have early := diagonal.upgrades (Nat.zero_le k) kLe iLt jLt
    have late := diagonal.upgrades kLe (Nat.le_refl _) iLt jLt
    rw [unchanged] at late
    exact early.antisymm late
  · intro settled
    rw [settled.relax diagonal]

/-! ## Tables of a topology -/

variable
    {topology : Topology}
    {base : RouteTable}

/-- A relaxed table of a topology is settled: no detour is shorter than a shortest walk. -/
theorem settled_of_compute
    (computed : (compute topology).outcome = .ok table) :
    table.Settled := by
  intro pivot pivotLt source sourceLt target targetLt
  rw [size_of_compute computed] at pivotLt sourceLt targetLt
  cases joins : (table.cell source pivot).join (table.cell pivot target) with
  | none => rw [Route.takes_none]
  | some candidate =>
      rcases Route.length?_of_join joins with ⟨m, n, firstLength, secondLength, length⟩
      rcases exists_walk_of_follows (follows_of_compute computed sourceLt pivotLt) firstLength with
        ⟨walk, -, rfl⟩
      rcases exists_walk_of_follows (follows_of_compute computed pivotLt targetLt) secondLength
        with ⟨rest, -, rfl⟩
      rcases length?_le_of_compute computed sourceLt targetLt (walk.append rest) with
        ⟨d, reached, dLe⟩
      rw [Walk.length_append] at dLe
      rw [Route.takes, Option.any_some, Bool.eq_false_iff]
      intro better
      rcases Route.improves_iff.1 better with ⟨_, sameLength, shorter⟩
      rw [length] at sameLength
      cases sameLength
      exact absurd (shorter d reached) (Nat.not_lt_of_le dLe)

/-- A table of a topology that has been relaxed once or more often is settled. -/
theorem settled_relaxed
    (built : (ofTopology topology).outcome = .ok base)
    (times : Nat) :
    (base.relaxed (times + 1)).Settled := by
  induction times with
  | zero => exact settled_of_compute (outcome_compute_eq_ok_iff.2 ⟨base, built, rfl⟩)
  | succ times induction =>
      have diagonal := (selfDiagonal_of_ofTopology built).relaxed (times + 1)
      rw [relaxed, induction.relax diagonal]
      exact induction

/--
Once a table of a topology has been relaxed, relaxing it again leaves every
cell as it is and counts no update.  Before the first relaxation and behind any
number of them, the next one counts no update exactly when it leaves the table
as it is.
-/
theorem relaxing_again_changes_nothing
    (built : (ofTopology topology).outcome = .ok base)
    (times : Nat) :
    (base.relaxed (times + 1)).relax = (base.relaxed (times + 1), 0) ∧
      base.relaxed (times + 1) = base.relaxed 1 ∧
      ((base.relaxed times).relax.2 = 0 ↔
        (base.relaxed times).relax.1 = base.relaxed times) := by
  have diagonal := selfDiagonal_of_ofTopology built
  refine ⟨(settled_relaxed built times).relax (diagonal.relaxed _), ?_, ?_⟩
  · induction times with
    | zero => rfl
    | succ times induction =>
        rw [relaxed, (settled_relaxed built times).relax (diagonal.relaxed _), induction]
  · rw [(diagonal.relaxed times).snd_relax_eq_zero_iff,
      (diagonal.relaxed times).fst_relax_eq_self_iff]

theorem diamond_relaxing_again_changes_nothing :
    ∃ base,
      (ofTopology diamond).outcome = .ok base ∧
        base.relax.2 = 4 ∧
          base.relax.1 ≠ base ∧
            (base.relaxed 3).relax = (base.relaxed 3, 0) ∧
              (base.relaxed 3).cell 0 3 = ⟨some 2, 3, .limited 8⟩ := by
  obtain ⟨base, built, count, cell⟩ :
      ∃ base,
        (ofTopology diamond).outcome = .ok base ∧
          base.relax.2 = 4 ∧ (base.relaxed 1).cell 0 3 = ⟨some 2, 3, .limited 8⟩ :=
    ⟨_, rfl, rfl, rfl⟩
  rcases relaxing_again_changes_nothing built 2 with ⟨still, same, -⟩
  rcases relaxing_again_changes_nothing built 0 with ⟨-, -, counts⟩
  refine ⟨base, built, count, ?_, still, ?_⟩
  · intro unchanged
    have idle : base.relax.2 = 0 := counts.2 unchanged
    rw [idle] at count
    cases count
  · rw [same, cell]

end RouteTable

end NetRun
