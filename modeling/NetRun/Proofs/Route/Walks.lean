import NetRun.Proofs.Route.Links
import NetRun.Proofs.Route.Stage

/-!
# Routes and walks

After the nodes below `k` have been pivots, every cell is unreached or holds
the route along some walk whose inner nodes are below `k`, and no walk of that
kind has fewer steps.  The first is kept by every stage because two such walks
that meet in the pivot are one walk; the second because a path through the
pivot splits there into two.
-/

namespace NetRun

open SimpleGraph

namespace Topology

variable
    {topology : Topology}
    {a b i j k l : Nat}

/-! ## Walks below a node -/

/-- All nodes of the walk but its ends are below `k`. -/
def Below
    (k : Nat)
    (walk : topology.graph.Walk a b) :
    Prop :=
  ∀ node ∈ walk.support, node = a ∨ node = b ∨ node < k

theorem Below.mono
    {walk : topology.graph.Walk a b}
    (below : Below k walk)
    (le : k ≤ l) :
    Below l walk := by
  intro node visited
  rcases below node visited with rfl | rfl | lt
  · exact Or.inl rfl
  · exact Or.inr (Or.inl rfl)
  · exact Or.inr (Or.inr (Nat.lt_of_lt_of_le lt le))

/-- Two walks below `k` that meet in `k` are a walk below `k + 1`. -/
theorem Below.append
    {walk : topology.graph.Walk a k}
    {rest : topology.graph.Walk k b}
    (first : Below k walk)
    (second : Below k rest) :
    Below (k + 1) (walk.append rest) := by
  intro node visited
  rcases (Walk.mem_support_append_iff _ _).1 visited with inFirst | inSecond
  · rcases first node inFirst with rfl | rfl | lt
    · exact Or.inl rfl
    · exact Or.inr (Or.inr (Nat.lt_succ_self _))
    · exact Or.inr (Or.inr (Nat.lt_succ_of_lt lt))
  · rcases second node inSecond with rfl | rfl | lt
    · exact Or.inr (Or.inr (Nat.lt_succ_self _))
    · exact Or.inr (Or.inl rfl)
    · exact Or.inr (Or.inr (Nat.lt_succ_of_lt lt))

/-- A path below `k + 1` through `k` splits there into two walks below `k`. -/
theorem Below.split
    {walk : topology.graph.Walk a k}
    {rest : topology.graph.Walk k b}
    (below : Below (k + 1) (walk.append rest))
    (isPath : (walk.append rest).IsPath)
    (notFirst : k ≠ a)
    (notLast : k ≠ b) :
    Below k walk ∧ Below k rest := by
  constructor
  · intro node visited
    have apart : node ≠ b :=
      isPath.ne_of_mem_support_of_append notLast.symm visited rest.end_mem_support
    rcases below node ((Walk.mem_support_append_iff _ _).2 (Or.inl visited)) with
      rfl | rfl | lt
    · exact Or.inl rfl
    · exact absurd rfl apart
    · rcases Nat.lt_succ_iff_lt_or_eq.1 lt with lt | rfl
      · exact Or.inr (Or.inr lt)
      · exact Or.inr (Or.inl rfl)
  · intro node visited
    rcases below node ((Walk.mem_support_append_iff _ _).2 (Or.inr visited)) with
      rfl | rfl | lt
    · exact absurd rfl
        (isPath.ne_of_mem_support_of_append notFirst.symm walk.start_mem_support visited)
    · exact Or.inr (Or.inl rfl)
    · rcases Nat.lt_succ_iff_lt_or_eq.1 lt with lt | rfl
      · exact Or.inr (Or.inr lt)
      · exact Or.inl rfl

theorem Below.bypass
    {walk : topology.graph.Walk a b}
    (below : Below k walk) :
    Below k walk.bypass :=
  fun node visited => below node (walk.support_bypass_subset_support visited)

/-- Inside the network every walk is below the number of nodes. -/
theorem InRange.below
    (inRange : topology.InRange)
    (aLt : a < topology.nodes.toNat)
    (walk : topology.graph.Walk a b) :
    Below topology.nodes.toNat walk :=
  fun _ visited => Or.inr (Or.inr (inRange.lt_of_mem_support walk aLt visited))

end Topology

namespace RouteTable

open NetRun.Topology

variable
    {topology : Topology}
    {base table : RouteTable}
    {i j k : Nat}

theorem selfDiagonal_of_ofTopology
    (built : (ofTopology topology).outcome = .ok base) :
    base.SelfDiagonal := by
  intro i iLt
  rw [size_of_ofTopology built] at iLt
  exact cell_self_of_ofTopology built iLt

theorem inRange_of_ofTopology
    (built : (ofTopology topology).outcome = .ok base) :
    topology.InRange :=
  (outcome_ofTopology_eq_ok_iff.1 built).2.1

/-! ## Soundness -/

/-- The route follows a walk with inner nodes below `k`. -/
def Follows
    (topology : Topology)
    (k i j : Nat)
    (route : Route) :
    Prop :=
  ∃ walk : topology.graph.Walk i j,
    Below k walk ∧ walk.length < 4294967296 ∧
      route = .along (topology.linksAlong walk)

/-- The hops of a cell that is unreached or follows a walk are the steps of such a walk. -/
theorem exists_walk_of_follows
    {route : Route}
    (follows : route = .unreached ∨ Follows topology k i j route)
    {n : Nat}
    (reached : route.length? = some n) :
    ∃ walk : topology.graph.Walk i j, Below k walk ∧ walk.length = n := by
  rcases follows with rfl | ⟨walk, below, fits, rfl⟩
  · cases reached
  · rw [Route.length?_along (by simpa using fits), length_linksAlong] at reached
    exact ⟨walk, below, Option.some.inj reached⟩

/-- Halves that follow walks to and from `k` join to a route that follows both. -/
theorem Follows.join
    {first second joined : Route}
    (toPivot : Follows topology k i k first)
    (fromPivot : Follows topology k k j second)
    (joins : first.join second = some joined) :
    Follows topology (k + 1) i j joined := by
  obtain ⟨walk, walkBelow, walkFits, rfl⟩ := toPivot
  obtain ⟨rest, restBelow, restFits, rfl⟩ := fromPivot
  obtain ⟨m, n, firstLength, secondLength, joinedLength⟩ := Route.length?_of_join joins
  rw [Route.length?_along (by simpa using walkFits), length_linksAlong] at firstLength
  rw [Route.length?_along (by simpa using restFits), length_linksAlong] at secondLength
  cases firstLength
  cases secondLength
  have fits := Route.length?_lt joinedLength
  refine ⟨walk.append rest, walkBelow.append restBelow, by simpa using fits, ?_⟩
  rw [Route.along_join_along (by simpa using fits), Option.some.injEq] at joins
  rw [← joins, linksAlong_append]

/-- The table of the links alone holds single steps. -/
theorem follows_of_ofTopology
    (built : (ofTopology topology).outcome = .ok base)
    (iLt : i < topology.nodes.toNat)
    (jLt : j < topology.nodes.toNat) :
    base.cell i j = .unreached ∨ Follows topology 0 i j (base.cell i j) := by
  by_cases same : i = j
  · subst same
    right
    refine ⟨.nil, ?_, by simp, cell_self_of_ofTopology built iLt⟩
    intro node visited
    exact Or.inl ((Walk.mem_support_nil_iff).1 visited)
  · rw [cell_of_ofTopology built iLt jLt same]
    cases last : topology.lastLink i j with
    | none => exact Or.inl rfl
    | some link =>
        right
        have adjacent := adj_iff_lastLink.2 ⟨same, link, last⟩
        refine ⟨adjacent.toWalk, ?_, by simp, ?_⟩
        · intro node visited
          rw [Adj.support_toWalk, List.mem_pair] at visited
          exact visited.imp_right Or.inl
        · rw [linksAlong_toWalk adjacent last, Route.along_singleton]
          rfl

/-- Every cell is unreached or follows a walk whose inner nodes have been pivots. -/
theorem follows_after
    (built : (ofTopology topology).outcome = .ok base)
    (kLe : k ≤ topology.nodes.toNat)
    (iLt : i < topology.nodes.toNat)
    (jLt : j < topology.nodes.toNat) :
    (base.after k).cell i j = .unreached ∨
      Follows topology k i j ((base.after k).cell i j) := by
  induction k generalizing i j with
  | zero => exact follows_of_ofTopology built iLt jLt
  | succ k induction =>
      have size := size_of_ofTopology built
      rw [(selfDiagonal_of_ofTopology built).cell_after_succ
        (by omega) (by omega) (by omega)]
      have current := induction (by omega) iLt jLt
      have toPivot := induction (by omega) iLt kLe
      have fromPivot := induction (by omega) kLe jLt
      cases joins :
          ((base.after k).cell i k).join ((base.after k).cell k j) with
      | none =>
          rw [Route.keep_none]
          exact current.imp_right fun ⟨walk, below, rest⟩ =>
            ⟨walk, below.mono (Nat.le_succ k), rest⟩
      | some candidate =>
          rw [Route.keep_some]
          split
          case isTrue =>
            right
            rcases toPivot with missing | toPivot
            · rw [missing, Route.unreached_join rfl] at joins
              cases joins
            rcases fromPivot with missing | fromPivot
            · rw [missing, Route.join_unreached rfl] at joins
              cases joins
            exact toPivot.join fromPivot joins
          case isFalse =>
            exact current.imp_right fun ⟨walk, below, rest⟩ =>
              ⟨walk, below.mono (Nat.le_succ k), rest⟩

theorem exists_walk_of_length?_after
    (built : (ofTopology topology).outcome = .ok base)
    (kLe : k ≤ topology.nodes.toNat)
    (iLt : i < topology.nodes.toNat)
    (jLt : j < topology.nodes.toNat)
    {n : Nat}
    (reached : ((base.after k).cell i j).length? = some n) :
    ∃ walk : topology.graph.Walk i j, Below k walk ∧ walk.length = n :=
  exists_walk_of_follows (follows_after built kLe iLt jLt) reached

/-! ## Completeness -/

theorem length?_ofTopology_le
    (built : (ofTopology topology).outcome = .ok base)
    (iLt : i < topology.nodes.toNat)
    (jLt : j < topology.nodes.toNat)
    (walk : topology.graph.Walk i j)
    (below : Below 0 walk) :
    ∃ n, (base.cell i j).length? = some n ∧ n ≤ walk.length := by
  by_cases same : i = j
  · subst same
    exact ⟨0, by rw [cell_self_of_ofTopology built iLt, Route.length?_self], Nat.zero_le _⟩
  · -- The first step must already lead to the other end.
    obtain ⟨next, adjacent, rest, rfl⟩ := walk.exists_eq_cons_of_ne same
    have nextVisited : next ∈ (Walk.cons adjacent rest).support := by simp
    rcases below next nextVisited with rfl | rfl | lt
    · exact absurd rfl adjacent.1
    · obtain ⟨-, link, last⟩ := adj_iff_lastLink.1 adjacent
      refine ⟨1, ?_, by simp⟩
      rw [cell_of_ofTopology built iLt jLt same, last]
      rfl
    · exact absurd lt (Nat.not_lt_zero _)

/-- No walk with inner nodes below `k` has fewer steps than the cell has hops. -/
theorem length?_after_le
    (built : (ofTopology topology).outcome = .ok base)
    (kLe : k ≤ topology.nodes.toNat)
    (iLt : i < topology.nodes.toNat)
    (jLt : j < topology.nodes.toNat)
    (walk : topology.graph.Walk i j)
    (below : Below k walk) :
    ∃ n, ((base.after k).cell i j).length? = some n ∧ n ≤ walk.length := by
  induction k generalizing i j with
  | zero => exact length?_ofTopology_le built iLt jLt walk below
  | succ k induction =>
      have size := size_of_ofTopology built
      have inRange := inRange_of_ofTopology built
      have isPath := walk.bypass_isPath
      have shorter := walk.length_bypass_le_length
      rw [(selfDiagonal_of_ofTopology built).cell_after_succ
        (by omega) (by omega) (by omega)]
      by_cases inner : k ∈ walk.bypass.support ∧ k ≠ i ∧ k ≠ j
      · obtain ⟨visited, notFirst, notLast⟩ := inner
        obtain ⟨first, rest, -, -, whole⟩ := isPath.mem_support_iff_exists_append.1 visited
        have bounded := inRange.length_lt_of_isPath isPath iLt
        have pathBelow := below.bypass
        rw [whole] at isPath pathBelow
        rw [whole, Walk.length_append] at shorter bounded
        obtain ⟨firstBelow, restBelow⟩ := pathBelow.split isPath notFirst notLast
        obtain ⟨m, toPivot, mLe⟩ := induction (by omega) iLt kLe first firstBelow
        obtain ⟨n, fromPivot, nLe⟩ := induction (by omega) kLe jLt rest restBelow
        have word := topology.nodes.toNat_lt
        obtain ⟨joined, joins, joinedLength⟩ :=
          Route.exists_join toPivot fromPivot (by omega)
        rw [joins]
        obtain ⟨d, kept, dLe⟩ :=
          Route.length?_keep_le ((base.after k).cell i j) joinedLength
        exact ⟨d, kept, by omega⟩
      · have pathBelow : Below k walk.bypass := by
          intro node visited
          rcases below.bypass node visited with rfl | rfl | lt
          · exact Or.inl rfl
          · exact Or.inr (Or.inl rfl)
          · grind
        obtain ⟨n, reached, nLe⟩ := induction (by omega) iLt jLt walk.bypass pathBelow
        obtain ⟨m, kept, mLe⟩ := (Route.keep_upgrades _ _).length?_le reached
        exact ⟨m, kept, by omega⟩

end RouteTable

end NetRun
