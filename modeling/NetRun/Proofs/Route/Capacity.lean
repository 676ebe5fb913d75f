import NetRun.Proofs.Route.Shortest
import NetRun.Proofs.Route.Updates

/-!
# Capacities of reached routes

Only the empty route is reached and has no capacity.  Between different nodes,
a table of links alone has a capacity for exactly the routes that are reached,
and no stage of its relaxation changes this: what a stage offers is a join of
two such routes, or a route that the cell already holds.
-/

namespace NetRun

namespace Route

/-- The route has a capacity if it is reached, and none if it is not. -/
def CapacityIffReached
    (route : Route) :
    Prop :=
  route.bottleneck.capacity?.isSome = route.isReached

theorem capacityIffReached_unreached :
    unreached.CapacityIffReached :=
  rfl

theorem capacityIffReached_direct
    (link : Link) :
    (direct link).CapacityIffReached :=
  rfl

/-- Two routes with capacities are joined to a route with a capacity. -/
theorem CapacityIffReached.join
    {route next joined : Route}
    (first : route.CapacityIffReached)
    (second : next.CapacityIffReached)
    (success : route.join next = some joined) :
    joined.CapacityIffReached := by
  rcases join_eq_some_iff.1 success with ⟨a, b, sum, firstHops, secondHops, -, rfl⟩
  rw [CapacityIffReached, isReached, firstHops, Option.isSome_some] at first
  rw [CapacityIffReached, isReached, secondHops, Option.isSome_some] at second
  rw [CapacityIffReached]
  cases capacity : route.bottleneck with
  | unconstrained => simp [capacity, Bottleneck.capacity?] at first
  | limited a =>
      cases nextCapacity : next.bottleneck with
      | unconstrained => simp [nextCapacity, Bottleneck.capacity?] at second
      | limited b => rfl

theorem CapacityIffReached.keep_join
    {current route next : Route}
    (held : current.CapacityIffReached)
    (first : route.CapacityIffReached)
    (second : next.CapacityIffReached) :
    (current.keep (route.join next)).CapacityIffReached := by
  cases offer : route.join next with
  | none => exact held
  | some candidate =>
      rw [keep_some]
      split
      case isTrue => exact first.join second offer
      case isFalse => exact held

end Route

namespace RouteTable

/-- Between different nodes, exactly the reached routes have a capacity. -/
def Capacitated
    (table : RouteTable) :
    Prop :=
  ∀ i < table.size, ∀ j < table.size, i ≠ j → (table.cell i j).CapacityIffReached

/-- In a table of links alone, the links bring their capacities. -/
theorem capacitated_of_ofTopology
    {topology : Topology}
    {base : RouteTable}
    (built : (ofTopology topology).outcome = .ok base) :
    base.Capacitated := by
  intro i iLt j jLt distinct
  rw [size_of_ofTopology built] at iLt jLt
  rw [cell_of_ofTopology built iLt jLt distinct]
  cases topology.lastLink i j with
  | none => exact Route.capacityIffReached_unreached
  | some link => exact Route.capacityIffReached_direct link

/-- A stage offers its pivot's own row and column nothing, and joins two capacities elsewhere. -/
theorem Capacitated.after
    {table : RouteTable}
    (capacitated : table.Capacitated)
    (diagonal : table.SelfDiagonal)
    {k : Nat}
    (kLe : k ≤ table.size) :
    (table.after k).Capacitated := by
  induction k with
  | zero => exact capacitated
  | succ k induction =>
      have previous := induction (Nat.le_of_succ_le kLe)
      unfold Capacitated at previous ⊢
      rw [size_after] at previous ⊢
      intro i iLt j jLt distinct
      by_cases sourceIsPivot : i = k
      · subst sourceIsPivot
        rw [diagonal.cell_pivot_after_succ kLe jLt]
        exact previous i iLt j jLt distinct
      · by_cases targetIsPivot : j = k
        · subst targetIsPivot
          rw [diagonal.cell_after_succ_pivot kLe iLt]
          exact previous i iLt j jLt distinct
        · rw [diagonal.cell_after_succ kLe iLt jLt]
          exact (previous i iLt j jLt distinct).keep_join
            (previous i iLt k kLe sourceIsPivot)
            (previous k kLe j jLt (Ne.symm targetIsPivot))

theorem Capacitated.relaxed
    {table : RouteTable}
    (capacitated : table.Capacitated)
    (diagonal : table.SelfDiagonal)
    (times : Nat) :
    (table.relaxed times).Capacitated := by
  induction times with
  | zero => exact capacitated
  | succ times induction => exact induction.after (diagonal.relaxed times) (Nat.le_refl _)

theorem capacitated_of_compute
    {topology : Topology}
    {table : RouteTable}
    (computed : (compute topology).outcome = .ok table) :
    table.Capacitated := by
  rcases outcome_compute_eq_ok_iff.1 computed with ⟨base, built, rfl⟩
  exact (capacitated_of_ofTopology built).relaxed (selfDiagonal_of_ofTopology built) 1

end RouteTable

end NetRun
