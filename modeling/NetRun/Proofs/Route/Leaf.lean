import NetRun.Proofs.Route.TieBreak

/-!
# Nodes with one neighbour

Nothing is routed through a node with one neighbour, and everything that
starts there passes the neighbour first.  The two rows are filled in different
stages and each settles its ties by itself.  Still they agree: the pivot that
routes the pair of the node is its neighbour or the pivot that routes the pair
of the neighbour.
-/

namespace NetRun

open SimpleGraph

namespace Topology

variable
    {topology : Topology}
    {a b c host router node j : Nat}
    {link : Link}

/-- The node has no two neighbours. -/
def Leaf
    (topology : Topology)
    (node : Nat) :
    Prop :=
  ∀ a b, topology.graph.Adj node a → topology.graph.Adj node b → a = b

/-- A path leaves an inner node for another neighbour than the one it came from. -/
theorem Leaf.not_mem_inner
    (leaf : topology.Leaf node)
    {path : topology.graph.Walk a b}
    (isPath : path.IsPath) :
    node ∉ inner path := by
  intro isInner
  rcases (mem_inner_iff isPath).1 isInner with ⟨visited, notFirst, notLast⟩
  rcases isPath.mem_support_iff_exists_append.1 visited with ⟨first, rest, -, -, rfl⟩
  rcases first.reverse.exists_eq_cons_of_ne notFirst with ⟨before, back, toward, reversed⟩
  rcases rest.exists_eq_cons_of_ne notLast with ⟨behind, forth, onward, rfl⟩
  have inFirst : before ∈ first.support := by
    rw [← List.mem_reverse, ← Walk.support_reverse, reversed]
    simp
  have inRest : behind ∈ (Walk.cons forth onward).support := by simp
  apply isPath.ne_of_mem_support_of_append forth.ne' inFirst inRest
  exact leaf before behind back forth

/-- The router is the one neighbour of the host, and the link is the last one between them. -/
structure Hangs
    (topology : Topology)
    (host router : Nat)
    (link : Link) :
    Prop where
  adjacent : topology.graph.Adj host router
  last : topology.lastLink host router = some link
  only : ∀ node, topology.graph.Adj host node → node = router

theorem Hangs.leaf
    (hangs : topology.Hangs host router link) :
    topology.Leaf host := by
  intro a b toA toB
  rw [hangs.only a toA, hangs.only b toB]

/-- A walk from the host begins with the step to the router. -/
theorem Hangs.exists_cons
    (hangs : topology.Hangs host router link)
    (apart : host ≠ j)
    (walk : topology.graph.Walk host j) :
    ∃ rest : topology.graph.Walk router j, walk = .cons hangs.adjacent rest := by
  rcases walk.exists_eq_cons_of_ne apart with ⟨next, adjacent, rest, rfl⟩
  have same := hangs.only next adjacent
  subst same
  exact ⟨rest, rfl⟩

/-- The shortest walks from the host are those of the router with one step more. -/
theorem Hangs.shortest_cons_iff
    (hangs : topology.Hangs host router link)
    (apart : host ≠ j)
    {walk : topology.graph.Walk router j} :
    Shortest (.cons hangs.adjacent walk) ↔ Shortest walk := by
  constructor
  · intro shortest other
    have le := shortest (.cons hangs.adjacent other)
    rw [Walk.length_cons, Walk.length_cons] at le
    exact Nat.le_of_succ_le_succ le
  · intro shortest other
    rcases hangs.exists_cons apart other with ⟨rest, rfl⟩
    rw [Walk.length_cons, Walk.length_cons]
    exact Nat.succ_le_succ (shortest rest)

theorem mem_inner_cons
    (adjacent : topology.graph.Adj a c)
    (walk : topology.graph.Walk c b)
    (apart : c ≠ b) :
    node ∈ inner (.cons adjacent walk) ↔ node = c ∨ node ∈ inner walk := by
  rcases walk.exists_eq_cons_of_ne apart with ⟨next, onward, rest, rfl⟩
  rw [inner_cons, inner_cons, Walk.support_cons, List.dropLast_cons_of_ne_nil rest.support_ne_nil,
    List.mem_cons]

theorem ne_of_mem_tops
    {top : Nat}
    (isTop : top ∈ topology.tops a b) :
    top ≠ a ∧ top ≠ b := by
  rcases isTop with ⟨walk, shortest, used, -⟩
  exact ((mem_inner_iff shortest.isPath).1 used).2

/-- The pair of the host is routed over the router, or over the same node as the router's pair. -/
theorem Hangs.isLeast_tops
    (hangs : topology.Hangs host router link)
    (hostApart : host ≠ j)
    (routerApart : router ≠ j)
    {pivot : Nat}
    (least : IsLeast (topology.tops host j) pivot) :
    pivot = router ∨ IsLeast (topology.tops router j) pivot := by
  rcases least with ⟨⟨walk, shortest, used, greatest⟩, lower⟩
  rcases hangs.exists_cons hostApart walk with ⟨rest, rfl⟩
  have restShortest := (hangs.shortest_cons_iff hostApart).1 shortest
  have inner_iff {node} (other : topology.graph.Walk router j) :=
    @mem_inner_cons topology host j router node hangs.adjacent other routerApart
  rcases (inner_iff rest).1 used with atRouter | usedLater
  · exact Or.inl atRouter
  by_cases atRouter : pivot = router
  · exact Or.inl atRouter
  right
  have routerLe : router ≤ pivot := greatest ((inner_iff rest).2 (Or.inl rfl))
  constructor
  · refine ⟨rest, restShortest, usedLater, ?_⟩
    intro node isInner
    exact greatest ((inner_iff rest).2 (Or.inr isInner))
  · rintro top ⟨other, otherShortest, topUsed, topGreatest⟩
    -- On the walk from the host the router is one more inner node, but a smaller one.
    by_contra smaller
    have longer :
        max router top ∈ topology.tops host j := by
      refine ⟨.cons hangs.adjacent other, (hangs.shortest_cons_iff hostApart).2 otherShortest, ?_⟩
      constructor
      · apply (inner_iff other).2
        rcases max_choice router top with atRouter | atTop
        · exact Or.inl atRouter
        · rw [atTop]
          exact Or.inr topUsed
      · intro node isInner
        rcases (inner_iff other).1 isInner with rfl | isInner
        · exact le_max_left _ _
        · exact le_max_of_le_right (topGreatest isInner)
    have pivotLe := lower longer
    rcases le_max_iff.1 pivotLe with leRouter | leTop
    · exact atRouter (Nat.le_antisymm leRouter routerLe)
    · exact smaller leTop

theorem two_le_length_of_mem_inner
    {walk : topology.graph.Walk a b}
    (isInner : node ∈ inner walk) :
    2 ≤ walk.length := by
  have some := List.length_pos_of_mem isInner
  rw [inner, List.length_dropLast, List.length_tail, Walk.length_support] at some
  omega

end Topology

namespace Route

/-- The route that begins with a link and goes on with another route, if there is one. -/
def past
    (link : Link)
    (route : Route) :
    Route :=
  ((direct link).join route).getD unreached

theorem past_eq_of_join
    {link : Link}
    {route joined : Route}
    (joins : (direct link).join route = some joined) :
    past link route = joined := by
  rw [past, joins, Option.getD_some]

@[simp]
theorem past_unreached
    (link : Link) :
    past link unreached = unreached := by
  rw [past, join_unreached length?_unreached, Option.getD_none]

/-- Hops and delay of a route behind a link do not depend on any bandwidth. -/
theorem past_congr
    {link other : Link}
    {route next : Route}
    (sameLink : link.delay = other.delay)
    (sameHops : route.hops = next.hops)
    (sameDelay : route.delay = next.delay) :
    (past link route).hops = (past other next).hops ∧
      (past link route).delay = (past other next).delay := by
  rw [past, past, join, join, direct, direct, sameHops, sameDelay, sameLink]
  cases next.hops with
  | none => exact ⟨rfl, rfl⟩
  | some hops =>
      dsimp only [Option.bind_eq_bind, Option.bind_some]
      cases addHops 1 hops with
      | none => exact ⟨rfl, rfl⟩
      | some sum => exact ⟨rfl, rfl⟩

theorem reachedDelay_congr
    {route next : Route}
    (sameHops : route.hops = next.hops)
    (sameDelay : route.delay = next.delay) :
    route.reachedDelay = next.reachedDelay := by
  rw [reachedDelay, reachedDelay, sameHops, sameDelay]

theorem bottleneck_past
    {link : Link}
    {route : Route}
    (reached : (past link route).isReached = true) :
    route.isReached = true ∧
      (past link route).bottleneck =
        (Bottleneck.limited link.bandwidth).narrower route.bottleneck := by
  cases joins : (direct link).join route with
  | none =>
      rw [past, joins] at reached
      cases reached
  | some joined =>
      rcases join_eq_some_iff.1 joins with ⟨a, b, sum, -, next, -, rfl⟩
      rw [past_eq_of_join joins, isReached, next]
      exact ⟨rfl, rfl⟩

end Route

namespace RouteTable

open NetRun.Topology

variable
    {topology : Topology}
    {base table : RouteTable}
    {host router i j k d : Nat}
    {link : Link}

/-- Neighbours are routed over the last link between them. -/
theorem cell_after_eq_direct
    (built : (ofTopology topology).outcome = .ok base)
    (adjacent : topology.graph.Adj i j)
    (last : topology.lastLink i j = some link) :
    (base.after topology.nodes.toNat).cell i j = .direct link := by
  rcases (inRange_of_ofTopology built).lt_of_adj adjacent with ⟨iLt, jLt⟩
  have shortest : Shortest adjacent.toWalk := by
    intro other
    rw [Adj.length_toWalk]
    exact Walk.not_nil_iff_lt_length.1 (Walk.not_nil_of_ne adjacent.1)
  have final := (length?_after_nodes_iff built iLt jLt adjacent.toWalk).2 shortest
  have initial : base.cell i j = .direct link := by
    rw [cell_of_ofTopology built iLt jLt adjacent.1, last]
    rfl
  rw [← cell_after_eq_of_length?_eq built iLt jLt (Nat.zero_le _), after_zero, initial]
  rw [final, after_zero, initial, Adj.length_toWalk, Route.length?_direct]

/-- Where the router's row is reached, the host's row is one link further. -/
theorem join_cell_after
    (built : (ofTopology topology).outcome = .ok base)
    (hangs : topology.Hangs host router link)
    (jLt : j < topology.nodes.toNat)
    (apart : host ≠ j)
    (reached : ((base.after topology.nodes.toNat).cell router j).length? = some d) :
    (Route.direct link).join ((base.after topology.nodes.toNat).cell router j) =
      some ((base.after topology.nodes.toNat).cell host j) := by
  have size := size_of_ofTopology built
  rcases (inRange_of_ofTopology built).lt_of_adj hangs.adjacent with ⟨hostLt, routerLt⟩
  have access := cell_after_eq_direct built hangs.adjacent hangs.last
  induction d using Nat.strong_induction_on generalizing j with
  | _ d induction =>
      by_cases routerApart : router = j
      · subst routerApart
        have diagonal := (selfDiagonal_of_ofTopology built).after (Nat.le_of_eq size.symm)
        rw [diagonal router (by rwa [size_after, size]), Route.join_self rfl, access]
      rcases exists_walk_of_length?_after built (Nat.le_refl _) routerLt jLt reached with
        ⟨walk, -, rfl⟩
      have shortest := (length?_after_nodes_iff built routerLt jLt walk).1 reached
      have longer := (hangs.shortest_cons_iff apart).2 shortest
      have long : 2 ≤ (Walk.cons hangs.adjacent walk).length := by
        rw [Walk.length_cons]
        apply Nat.succ_le_succ
        exact Walk.not_nil_iff_lt_length.1 (Walk.not_nil_of_ne routerApart)
      rcases exists_pivot built hostLt jLt longer long with ⟨pivot, pivotLt, least, joins, -, -⟩
      rcases hangs.isLeast_tops apart routerApart least with rfl | routerLeast
      · rwa [access] at joins
      -- Both pairs have the same pivot, and the router is closer to it than to the end.
      rcases routerLeast.1 with ⟨other, otherShortest, used, -⟩
      rcases exists_pivot built routerLt jLt otherShortest (two_le_length_of_mem_inner used) with
        ⟨same, -, sameLeast, routerJoins, -, -⟩
      have same := sameLeast.unique routerLeast
      subst same
      rcases Route.length?_of_join routerJoins with ⟨m, n, toPivot, fromPivot, whole⟩
      rw [reached, Option.some.injEq] at whole
      have further : n ≠ 0 := by
        rintro rfl
        rcases exists_walk_of_length?_after built (Nat.le_refl _) pivotLt jLt fromPivot with
          ⟨rest, -, noStep⟩
        exact (ne_of_mem_tops least.1).2 (Walk.eq_of_length_eq_zero noStep)
      have closer := induction m (by omega) pivotLt (ne_of_mem_tops least.1).1.symm toPivot
      rw [← Route.join_assoc closer routerJoins, joins]

/-- Where the last nodes are leaves, the others are routed without them. -/
theorem cell_after_eq_of_leaves
    (built : (ofTopology topology).outcome = .ok base)
    (kLe : k ≤ topology.nodes.toNat)
    (leaves : ∀ node, k ≤ node → topology.Leaf node)
    (iLt : i < k)
    (jLt : j < k) :
    (base.after k).cell i j = (base.after topology.nodes.toNat).cell i j := by
  have iInside := Nat.lt_of_lt_of_le iLt kLe
  have jInside := Nat.lt_of_lt_of_le jLt kLe
  apply cell_after_eq_of_length?_eq built iInside jInside kLe
  cases final : ((base.after topology.nodes.toNat).cell i j).length? with
  | none =>
      cases early : ((base.after k).cell i j).length? with
      | none => rfl
      | some n =>
          rcases exists_walk_of_length?_after built kLe iInside jInside early with ⟨walk, below, -⟩
          rcases length?_after_le built (Nat.le_refl _) iInside jInside walk
            (below.mono kLe) with ⟨m, late, -⟩
          rw [final] at late
          cases late
  | some n =>
      rcases exists_walk_of_length?_after built (Nat.le_refl _) iInside jInside final with
        ⟨walk, -, rfl⟩
      have shortest := (length?_after_nodes_iff built iInside jInside walk).1 final
      have below : Below k walk := by
        apply (below_iff_of_isPath shortest.isPath).2
        intro node isInner
        by_contra large
        exact (leaves node (Nat.le_of_not_lt large)).not_mem_inner shortest.isPath isInner
      exact ((length?_after_iff built iInside jInside kLe shortest).2
        ⟨walk, shortest, below⟩).symm

section Computed

variable
    (computed : (compute topology).outcome = .ok table)

include computed

section Hanging

variable
    (hangs : topology.Hangs host router link)
    (jLt : j < topology.nodes.toNat)
    (apart : host ≠ j)

include hangs jLt apart

/-- Where the router has a route, the host has the same one with its link in front. -/
theorem join_cell_of_hangs
    (reached : (table.cell router j).isReached = true) :
    (Route.direct link).join (table.cell router j) = some (table.cell host j) := by
  rcases Route.isReached_iff.1 reached with ⟨d, length⟩
  rcases exists_after_of_compute computed with ⟨base, built, rfl⟩
  exact join_cell_after built hangs jLt apart length

/-- Where the router has no route, the host has none. -/
theorem cell_eq_unreached_of_hangs
    (missing : (table.cell router j).isReached = false) :
    table.cell host j = .unreached := by
  rcases (inRange_of_compute computed).lt_of_adj hangs.adjacent with ⟨hostLt, routerLt⟩
  have separate :=
    (length?_eq_none_iff_of_compute computed routerLt jLt).1
      (Route.isReached_eq_false_iff.1 missing)
  apply cell_eq_unreached_of_compute computed hostLt jLt
  apply (length?_eq_none_iff_of_compute computed hostLt jLt).2
  rintro ⟨walk⟩
  rcases hangs.exists_cons apart walk with ⟨rest, -⟩
  exact separate ⟨rest⟩

/-- A route from a node on one link begins with the link. -/
theorem cell_eq_past_of_hangs :
    table.cell host j = .past link (table.cell router j) := by
  cases reached : (table.cell router j).isReached with
  | true => exact (Route.past_eq_of_join (join_cell_of_hangs computed hangs jLt apart reached)).symm
  | false =>
      have routerLt := ((inRange_of_compute computed).lt_of_adj hangs.adjacent).2
      rw [cell_eq_unreached_of_hangs computed hangs jLt apart reached,
        cell_eq_unreached_of_compute computed routerLt jLt
          (Route.isReached_eq_false_iff.1 reached),
        Route.past_unreached]

end Hanging

/-- A node without links has no route to another node. -/
theorem cell_eq_unreached_of_isolated
    (isolated : ∀ node, ¬ topology.graph.Adj host node)
    (hostLt : host < topology.nodes.toNat)
    (jLt : j < topology.nodes.toNat)
    (apart : host ≠ j) :
    table.cell host j = .unreached := by
  apply cell_eq_unreached_of_compute computed hostLt jLt
  apply (length?_eq_none_iff_of_compute computed hostLt jLt).2
  rintro ⟨walk⟩
  rcases walk.exists_eq_cons_of_ne apart with ⟨next, adjacent, rest, -⟩
  exact isolated next adjacent

end Computed

end RouteTable

end NetRun
