import NetRun.Proofs.Route.Shortest
import Mathlib.Order.Bounds.Basic

/-!
# Which of several shortest walks is kept

A pair of nodes may have many shortest walks, and only one of them gives the
pair its delay and bottleneck.  A shortest walk is found in the stage of its
largest inner node, and the first one found is kept.  So the pair's route goes
through the smallest node that is the largest inner node of a shortest walk,
and its two halves are themselves the kept routes of their pairs.
-/

namespace NetRun

open SimpleGraph

namespace Topology

variable
    {topology : Topology}
    {a b i j k : Nat}

/-! ## Inner nodes -/

/-- The nodes of a walk between its first and its last. -/
def inner
    (walk : topology.graph.Walk a b) :
    List Nat :=
  walk.support.tail.dropLast

theorem inner_cons
    {c : Nat}
    (adjacent : topology.graph.Adj a c)
    (walk : topology.graph.Walk c b) :
    inner (.cons adjacent walk) = walk.support.dropLast :=
  rfl

/-- The inner nodes of a path are those that are not its ends. -/
theorem mem_inner_iff
    {path : topology.graph.Walk a b}
    (isPath : path.IsPath)
    {node : Nat} :
    node ∈ inner path ↔ node ∈ path.support ∧ node ≠ a ∧ node ≠ b := by
  cases path with
  | nil =>
      rw [Walk.mem_support_nil_iff]
      constructor
      · intro visited
        cases visited
      · rintro ⟨equal, different, -⟩
        exact absurd equal different
  | cons adjacent walk =>
      obtain ⟨restPath, fresh⟩ := (Walk.cons_isPath_iff _ _).1 isPath
      have nodup := restPath.support_nodup
      rw [← walk.dropLast_support_concat] at nodup fresh
      rw [inner_cons, Walk.support_cons, ← walk.dropLast_support_concat]
      simp only [List.dropLast_append_of_ne_nil (List.cons_ne_nil _ _), List.dropLast_singleton,
        List.append_nil]
      grind

/-- A path is below `k` exactly when its inner nodes are. -/
theorem below_iff_of_isPath
    {path : topology.graph.Walk a b}
    (isPath : path.IsPath) :
    Below k path ↔ ∀ node ∈ inner path, node < k := by
  constructor
  · intro below node isInner
    obtain ⟨visited, notFirst, notLast⟩ := (mem_inner_iff isPath).1 isInner
    exact ((below node visited).resolve_left notFirst).resolve_left notLast
  · intro innerBelow node visited
    by_cases first : node = a
    · exact Or.inl first
    by_cases last : node = b
    · exact Or.inr (Or.inl last)
    exact Or.inr (Or.inr (innerBelow node ((mem_inner_iff isPath).2 ⟨visited, first, last⟩)))

/-- No walk between the same nodes has fewer steps. -/
def Shortest
    (walk : topology.graph.Walk a b) :
    Prop :=
  ∀ other : topology.graph.Walk a b, walk.length ≤ other.length

theorem Shortest.isPath
    {walk : topology.graph.Walk a b}
    (shortest : Shortest walk) :
    walk.IsPath := by
  rw [← walk.bypass_eq_self_of_length_le_length_bypass (shortest walk.bypass)]
  exact walk.bypass_isPath

/-- The largest inner nodes of the shortest walks between two nodes. -/
def tops
    (topology : Topology)
    (i j : Nat) :
    Set Nat :=
  { top |
    ∃ walk : topology.graph.Walk i j,
      Shortest walk ∧ IsGreatest { node | node ∈ inner walk } top }

/-- If shortest walks need the node `k`, then it is the smallest of their largest inner nodes. -/
theorem isLeast_tops
    {walk : topology.graph.Walk i j}
    (shortest : Shortest walk)
    (below : Below (k + 1) walk)
    (needed : ∀ other : topology.graph.Walk i j, Shortest other → ¬ Below k other) :
    IsLeast (topology.tops i j) k := by
  constructor
  · refine ⟨walk, shortest, ?_⟩
    have innerBelow := (below_iff_of_isPath shortest.isPath).1 below
    have used : k ∈ inner walk := by
      by_contra unused
      refine needed walk shortest ((below_iff_of_isPath shortest.isPath).2 ?_)
      intro node isInner
      have lt := innerBelow node isInner
      have different : node ≠ k := fun equal => unused (equal ▸ isInner)
      omega
    exact ⟨used, fun node isInner => Nat.le_of_lt_succ (innerBelow node isInner)⟩
  · rintro top ⟨other, otherShortest, -, greatest⟩
    by_contra smaller
    refine needed other otherShortest ((below_iff_of_isPath otherShortest.isPath).2 ?_)
    intro node isInner
    exact Nat.lt_of_le_of_lt (greatest isInner) (Nat.lt_of_not_le smaller)

/-- There is a first number below which the inner nodes of some shortest walk lie. -/
theorem exists_first_below
    {walk : topology.graph.Walk i j}
    (shortest : Shortest walk)
    (below : Below k walk) :
    ∃ first ≤ k,
      (∃ other : topology.graph.Walk i j, Shortest other ∧ Below first other) ∧
        ∀ earlier < first, ∀ other : topology.graph.Walk i j,
          Shortest other → ¬ Below earlier other := by
  classical
  have covered :
      ∃ k, ∃ other : topology.graph.Walk i j, Shortest other ∧ Below k other :=
    ⟨k, walk, shortest, below⟩
  refine ⟨Nat.find covered, Nat.find_min' covered ⟨walk, shortest, below⟩,
    Nat.find_spec covered, ?_⟩
  intro earlier before other otherShortest otherBelow
  exact Nat.find_min covered before ⟨other, otherShortest, otherBelow⟩

end Topology

namespace RouteTable

open NetRun.Topology

variable
    {topology : Topology}
    {base table : RouteTable}
    {i j k : Nat}

/-! ## The stage in which a route is found -/

section Relaxed

variable
    (built : (ofTopology topology).outcome = .ok base)
    (iLt : i < topology.nodes.toNat)
    (jLt : j < topology.nodes.toNat)

include built iLt jLt

/-- After all pivots, the hops of a cell are the steps of its shortest walks. -/
theorem length?_after_nodes_iff
    (walk : topology.graph.Walk i j) :
    ((base.after topology.nodes.toNat).cell i j).length? = some walk.length ↔
      Shortest walk := by
  have computed : (compute topology).outcome = .ok (base.after topology.nodes.toNat) :=
    outcome_compute_eq_ok_iff.2 ⟨base, built, by rw [fst_relax, size_of_ofTopology built]⟩
  rw [length?_eq_some_iff_of_compute computed iLt jLt]
  constructor
  · rintro ⟨-, shortest⟩
    exact shortest
  · intro shortest
    exact ⟨⟨walk, rfl⟩, shortest⟩

/-- A cell has its final hops after `k` pivots if some shortest walk is below `k`. -/
theorem length?_after_iff
    (kLe : k ≤ topology.nodes.toNat)
    {walk : topology.graph.Walk i j}
    (shortest : Shortest walk) :
    ((base.after k).cell i j).length? = some walk.length ↔
      ∃ other : topology.graph.Walk i j, Shortest other ∧ Below k other := by
  constructor
  · intro reached
    obtain ⟨other, below, length⟩ := exists_walk_of_length?_after built kLe iLt jLt reached
    refine ⟨other, fun third => ?_, below⟩
    rw [length]
    exact shortest third
  · rintro ⟨other, otherShortest, below⟩
    obtain ⟨n, reached, nLe⟩ := length?_after_le built kLe iLt jLt other below
    obtain ⟨third, -, rfl⟩ := exists_walk_of_length?_after built kLe iLt jLt reached
    have otherLe := otherShortest walk
    have leThird := shortest third
    rw [reached, show third.length = walk.length by omega]

/-- A cell that has its final hops is final. -/
theorem cell_after_eq_of_length?_eq
    (kLe : k ≤ topology.nodes.toNat)
    (same :
      ((base.after topology.nodes.toNat).cell i j).length? =
        ((base.after k).cell i j).length?) :
    (base.after k).cell i j = (base.after topology.nodes.toNat).cell i j := by
  have size := size_of_ofTopology built
  have upgrades :=
    (selfDiagonal_of_ofTopology built).upgrades kLe (by omega)
      (show i < base.size by omega) (show j < base.size by omega)
  exact (upgrades.eq_of_length?_eq same).symm

/-- Halves that make up a shortest walk are final. -/
theorem cell_after_eq_of_halves
    (kLt : k < topology.nodes.toNat)
    {walk : topology.graph.Walk i j}
    (shortest : Shortest walk)
    {m n : Nat}
    (first : ((base.after k).cell i k).length? = some m)
    (second : ((base.after k).cell k j).length? = some n)
    (whole : m + n = walk.length) :
    (base.after k).cell i k = (base.after topology.nodes.toNat).cell i k ∧
      (base.after k).cell k j = (base.after topology.nodes.toNat).cell k j := by
  have size := size_of_ofTopology built
  have kLe := Nat.le_of_lt kLt
  have diagonal := selfDiagonal_of_ofTopology built
  have upgrades {a b} (aLt : a < topology.nodes.toNat) (bLt : b < topology.nodes.toNat) :=
    diagonal.upgrades kLe (by omega) (show a < base.size by omega) (show b < base.size by omega)
  obtain ⟨m', firstFinal, mLe⟩ := (upgrades iLt kLt).length?_le first
  obtain ⟨n', secondFinal, nLe⟩ := (upgrades kLt jLt).length?_le second
  obtain ⟨firstWalk, -, rfl⟩ :=
    exists_walk_of_length?_after built (Nat.le_refl _) iLt kLt firstFinal
  obtain ⟨secondWalk, -, rfl⟩ :=
    exists_walk_of_length?_after built (Nat.le_refl _) kLt jLt secondFinal
  have atLeast := shortest (firstWalk.append secondWalk)
  rw [Walk.length_append] at atLeast
  constructor
  · apply cell_after_eq_of_length?_eq built iLt kLt kLe
    rw [first, firstFinal, show firstWalk.length = m by omega]
  · apply cell_after_eq_of_length?_eq built kLt jLt kLe
    rw [second, secondFinal, show secondWalk.length = n by omega]

/-- The links alone give no cell more than one hop. -/
theorem length?_ofTopology_lt_two
    {n : Nat}
    (reached : (base.cell i j).length? = some n) :
    n < 2 := by
  by_cases same : i = j
  · subst same
    rw [cell_self_of_ofTopology built iLt, Route.length?_self] at reached
    cases reached
    decide
  · rw [cell_of_ofTopology built iLt jLt same] at reached
    cases last : topology.lastLink i j with
    | none =>
        rw [last] at reached
        cases reached
    | some link =>
        rw [last] at reached
        cases reached
        decide

/--
A pair more than one link apart is routed in the stage of the smallest node
that is the largest inner node of a shortest walk, over the final routes to and
from that node, and never again after that stage.
-/
theorem exists_pivot
    {walk : topology.graph.Walk i j}
    (shortest : Shortest walk)
    (long : 2 ≤ walk.length) :
    ∃ pivot < topology.nodes.toNat,
      IsLeast (topology.tops i j) pivot ∧
        ((base.after topology.nodes.toNat).cell i pivot).join
            ((base.after topology.nodes.toNat).cell pivot j) =
          some ((base.after topology.nodes.toNat).cell i j) ∧
        (∀ k ≤ pivot, ((base.after k).cell i j).length? ≠ some walk.length) ∧
        ∀ k, pivot < k → k ≤ topology.nodes.toNat →
          (base.after k).cell i j = (base.after topology.nodes.toNat).cell i j := by
  have size := size_of_ofTopology built
  have inRange := inRange_of_ofTopology built
  rcases exists_first_below shortest (inRange.below iLt walk) with
    ⟨first, least, ⟨other, otherShortest, below⟩, uncovered⟩
  have settled {k} (firstLe : first ≤ k) (kLe : k ≤ topology.nodes.toNat) :
      ((base.after k).cell i j).length? = some walk.length :=
    (length?_after_iff built iLt jLt kLe shortest).2
      ⟨other, otherShortest, below.mono firstLe⟩
  have unsettled {k} (before : k < first) :
      ((base.after k).cell i j).length? ≠ some walk.length := by
    intro reached
    rcases (length?_after_iff built iLt jLt (by omega) shortest).1 reached with
      ⟨third, thirdShortest, thirdBelow⟩
    exact uncovered k before third thirdShortest thirdBelow
  cases first with
  | zero =>
      have tooShort :=
        length?_ofTopology_lt_two built iLt jLt (settled (Nat.le_refl _) (Nat.zero_le _))
      omega
  | succ pivot =>
      have pivotLt : pivot < topology.nodes.toNat := least
      have step :=
        (selfDiagonal_of_ofTopology built).cell_after_succ
          (show pivot < base.size by omega) (show i < base.size by omega)
          (show j < base.size by omega)
      have changed :
          (base.after (pivot + 1)).cell i j ≠ (base.after pivot).cell i j := by
        intro same
        have late := settled (Nat.le_refl _) least
        rw [same] at late
        exact unsettled (Nat.lt_succ_self _) late
      rw [step] at changed
      have joins := Route.eq_some_of_keep_ne changed
      rw [← step] at joins
      obtain ⟨m, n, firstLength, secondLength, wholeLength⟩ := Route.length?_of_join joins
      rw [settled (Nat.le_refl _) least, Option.some.injEq] at wholeLength
      obtain ⟨firstFinal, secondFinal⟩ :=
        cell_after_eq_of_halves built iLt jLt pivotLt shortest firstLength secondLength
          wholeLength.symm
      have final {k} (after : pivot < k) (kLe : k ≤ topology.nodes.toNat) :
          (base.after k).cell i j = (base.after topology.nodes.toNat).cell i j := by
        apply cell_after_eq_of_length?_eq built iLt jLt kLe
        rw [settled after kLe, settled least (Nat.le_refl _)]
      refine ⟨pivot, pivotLt, ?_, ?_, fun k kLe => unsettled (by omega), fun k => final⟩
      · exact isLeast_tops otherShortest below (uncovered pivot (Nat.lt_succ_self _))
      · rw [← firstFinal, ← secondFinal, joins, final (Nat.lt_succ_self _) least]

end Relaxed

/-! ## The law of ties -/

/--
Where two nodes are two or more hops apart, take the smallest node that is the
largest inner node of one of their shortest walks.  Their route is the join of
the routes to and from it.  It is found in that node's stage: before, the cell
has not got its hops, and behind it the cell is never replaced.
-/
theorem cell_eq_join_over_least_top
    (computed : (compute topology).outcome = .ok table)
    (iLt : i < topology.nodes.toNat)
    (jLt : j < topology.nodes.toNat)
    {hops : UInt32}
    (reached : (table.cell i j).hops = some hops)
    (long : 2 ≤ hops.toNat) :
    ∃ pivot < topology.nodes.toNat,
      IsLeast (topology.tops i j) pivot ∧
        (table.cell i pivot).join (table.cell pivot j) = some (table.cell i j) ∧
          ∀ base, (ofTopology topology).outcome = .ok base →
            (∀ k ≤ pivot, ((base.after k).cell i j).hops ≠ some hops) ∧
              ∀ k, pivot < k → k ≤ topology.nodes.toNat →
                (base.after k).cell i j = table.cell i j := by
  obtain ⟨base, built, rfl⟩ := exists_after_of_compute computed
  have length := Route.length?_eq_some_iff.2 ⟨hops, reached, rfl⟩
  obtain ⟨⟨walk, steps⟩, -⟩ := (length?_eq_some_iff_of_compute computed iLt jLt).1 length
  rw [← steps] at length long
  have shortest := (length?_after_nodes_iff built iLt jLt walk).1 length
  obtain ⟨pivot, pivotLt, least, joins, early, late⟩ :=
    exists_pivot built iLt jLt shortest long
  refine ⟨pivot, pivotLt, least, joins, fun other otherBuilt => ?_⟩
  rw [built] at otherBuilt
  cases otherBuilt
  refine ⟨fun k kLe settled => early k kLe ?_, late⟩
  exact Route.length?_eq_some_iff.2 ⟨hops, settled, steps.symm⟩

theorem diamond_cell_eq_join_over_least_top :
    ∃ table,
      (compute diamond).outcome = .ok table ∧
        table.cell 0 3 = ⟨some 2, 3, .limited 8⟩ ∧
          (table.cell 0 2).join (table.cell 2 3) = some ⟨some 2, 18, .limited 50⟩ ∧
            IsLeast (diamond.tops 0 3) 1 ∧
              (table.cell 0 1).join (table.cell 1 3) = some (table.cell 0 3) := by
  refine ⟨_, rfl, rfl, rfl, ?_⟩
  obtain ⟨pivot, -, least, joins, stages⟩ :=
    cell_eq_join_over_least_top (show (compute diamond).outcome = .ok _ from rfl)
      (show 0 < diamond.nodes.toNat by decide) (show 3 < diamond.nodes.toNat by decide)
      rfl (by decide)
  obtain ⟨early, late⟩ := stages _ rfl
  have notLater : pivot < 2 := Nat.lt_of_not_le fun le => early 2 le rfl
  have notEarlier : 1 ≤ pivot := by
    by_contra before
    have same := late 1 (Nat.lt_of_not_le before) (by decide)
    revert same
    decide
  obtain rfl : pivot = 1 := by omega
  exact ⟨least, joins⟩

end RouteTable

end NetRun
