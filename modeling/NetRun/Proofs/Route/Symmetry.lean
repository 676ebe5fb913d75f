import NetRun.Proofs.Route.Updates
import NetRun.Proofs.Route.Walks
import NetRun.Proofs.Parity

/-!
# Routes in both directions

Links have no direction, and joining routes does not depend on their order.
So a table is symmetric from the beginning, and stays symmetric through every
stage of its relaxation.  A stage then replaces a cell whenever it replaces
the one across the diagonal, and so it replaces an even number of cells.
-/

namespace NetRun.RouteTable

/-- Routes are the same in both directions. -/
def Symmetric
    (table : RouteTable) :
    Prop :=
  ∀ i < table.size, ∀ j < table.size, table.cell i j = table.cell j i

/-- A table of links alone is symmetric. -/
theorem symmetric_of_ofTopology
    {topology : Topology}
    {base : RouteTable}
    (built : (ofTopology topology).outcome = .ok base) :
    base.Symmetric := by
  intro i iLt j jLt
  rw [size_of_ofTopology built] at iLt jLt
  by_cases same : i = j
  · rw [same]
  · rw [cell_of_ofTopology built iLt jLt same,
      cell_of_ofTopology built jLt iLt (Ne.symm same),
      Topology.lastLink_comm]

/-- Every stage keeps a table symmetric: its two offers are joins of the same halves. -/
theorem Symmetric.after
    {table : RouteTable}
    (symmetric : table.Symmetric)
    (diagonal : table.SelfDiagonal)
    {k : Nat}
    (kLe : k ≤ table.size) :
    (table.after k).Symmetric := by
  induction k with
  | zero => exact symmetric
  | succ k induction =>
      have previous := induction (Nat.le_of_succ_le kLe)
      intro i iLt j jLt
      rw [size_after] at iLt jLt
      rw [diagonal.cell_after_succ kLe iLt jLt,
        diagonal.cell_after_succ kLe jLt iLt,
        previous i (by rwa [size_after]) j (by rwa [size_after]),
        previous i (by rwa [size_after]) k (by rwa [size_after]),
        previous k (by rwa [size_after]) j (by rwa [size_after]),
        Route.join_comm]

/-- A table stays symmetric however often it is relaxed. -/
theorem Symmetric.relaxed
    {table : RouteTable}
    (symmetric : table.Symmetric)
    (diagonal : table.SelfDiagonal)
    (times : Nat) :
    (table.relaxed times).Symmetric := by
  induction times with
  | zero => exact symmetric
  | succ times induction => exact induction.after (diagonal.relaxed times) (Nat.le_refl _)

/-! ## Updates in both directions -/

/-- The cells that take the route over a pivot, as a count over all pairs of nodes. -/
theorem updatesAt_eq_countP
    (table : RouteTable)
    (pivot : Nat) :
    table.updatesAt pivot =
      (List.range table.size ×ˢ List.range table.size).countP fun ends =>
        (table.cell ends.1 ends.2).takes
          ((table.cell ends.1 pivot).join (table.cell pivot ends.2)) := by
  unfold updatesAt updatesInRow
  simp only [SProd.sprod, List.product, List.countP_flatMap, List.countP_map,
    Function.comp_def]

/-- The route over a pivot is taken in both directions or in neither. -/
theorem Symmetric.even_updatesAt
    {table : RouteTable}
    (symmetric : table.Symmetric)
    (diagonal : table.SelfDiagonal)
    {pivot : Nat}
    (pivotLt : pivot < table.size) :
    Even (table.updatesAt pivot) := by
  have inside {ends : Nat × Nat}
      (listed : ends ∈ List.range table.size ×ˢ List.range table.size) :
      ends.1 < table.size ∧ ends.2 < table.size := by
    have both := List.mem_product.1 listed
    exact ⟨List.mem_range.1 both.1, List.mem_range.1 both.2⟩
  rw [updatesAt_eq_countP]
  apply even_countP_of_twins (List.nodup_range.product List.nodup_range) Prod.swap
  · intro ends listed
    rcases inside listed with ⟨sourceLt, targetLt⟩
    exact List.pair_mem_product.2 ⟨List.mem_range.2 targetLt, List.mem_range.2 sourceLt⟩
  · intro ends _
    exact Prod.swap_swap ends
  · rintro ⟨source, target⟩ listed takes same
    have sameNode : target = source := congrArg Prod.fst same
    subst sameNode
    rw [diagonal target (inside listed).1, Route.self_takes] at takes
    exact Bool.noConfusion takes
  · rintro ⟨source, target⟩ listed
    rcases inside listed with ⟨sourceLt, targetLt⟩
    dsimp only [Prod.swap] at sourceLt targetLt ⊢
    rw [symmetric target targetLt source sourceLt, symmetric target targetLt pivot pivotLt,
      symmetric pivot pivotLt source sourceLt, Route.join_comm]

/-- Relaxing a symmetric table makes an even number of updates. -/
theorem Symmetric.even_relax
    {table : RouteTable}
    (symmetric : table.Symmetric)
    (diagonal : table.SelfDiagonal) :
    Even table.relax.2 := by
  rw [diagonal.snd_relax]
  apply even_iff_two_dvd.2
  apply List.dvd_sum
  intro updates listed
  rcases List.mem_map.1 listed with ⟨pivot, isPivot, rfl⟩
  have pivotLt := List.mem_range.1 isPivot
  apply even_iff_two_dvd.1
  exact (symmetric.after diagonal (Nat.le_of_lt pivotLt)).even_updatesAt
    (diagonal.after (Nat.le_of_lt pivotLt)) (by rwa [size_after])

end NetRun.RouteTable
