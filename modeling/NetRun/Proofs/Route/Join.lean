import NetRun.Route.Basic
import Mathlib.Algebra.BigOperators.Group.List.Basic
import Mathlib.Algebra.Ring.Nat
import Mathlib.Order.Lattice.Nat
import Mathlib.Order.WithBot

/-!
# The arithmetic of routes

Joining routes adds their hops, adds their delays up to the largest word and
takes the narrower bottleneck.  Each of the three is commutative and
associative and has the empty route as its neutral element, so a chain of
joined routes depends on the links it runs over and not on how the chain was
put together.

Hops are read as numbers through `length?`.  A join fails exactly when a half
is unreached or the sum of the hops leaves its word.

A list of routes in a row is summed up by `inRow`.  The route `along` a list of
links is that of the routes over each of them.
-/

namespace NetRun

namespace Bottleneck

@[simp]
theorem unconstrained_narrower
    (bottleneck : Bottleneck) :
    unconstrained.narrower bottleneck = bottleneck := by
  cases bottleneck <;> rfl

@[simp]
theorem narrower_unconstrained
    (bottleneck : Bottleneck) :
    bottleneck.narrower unconstrained = bottleneck := by
  cases bottleneck <;> rfl

/-- How much passes through: nothing limits a path without links. -/
def width :
    Bottleneck → WithTop Nat
  | limited capacity => .some capacity.toNat
  | unconstrained => ⊤

theorem width_injective :
    Function.Injective width := by
  intro a b same
  cases a with
  | unconstrained =>
      cases b with
      | unconstrained => rfl
      | limited b => cases same
  | limited a =>
      cases b with
      | unconstrained => cases same
      | limited b => rw [UInt64.toNat_inj.1 (WithTop.coe_inj.1 same)]

/-- The narrower of two bottlenecks is the one of smaller width. -/
theorem width_narrower
    (a b : Bottleneck) :
    (a.narrower b).width = min a.width b.width := by
  cases a with
  | unconstrained => exact (top_inf_eq _).symm
  | limited a =>
      cases b with
      | unconstrained => exact (inf_top_eq _).symm
      | limited b =>
          simp only [narrower, width, ← WithTop.coe_min, UInt64.lt_iff_toNat_lt]
          split
          case isTrue less => rw [Nat.min_eq_right (Nat.le_of_lt less)]
          case isFalse notLess => rw [Nat.min_eq_left (Nat.le_of_not_lt notLess)]

theorem narrower_comm
    (a b : Bottleneck) :
    a.narrower b = b.narrower a := by
  apply width_injective
  rw [width_narrower, width_narrower, min_comm]

theorem narrower_assoc
    (a b c : Bottleneck) :
    (a.narrower b).narrower c = a.narrower (b.narrower c) := by
  apply width_injective
  simp only [width_narrower, min_assoc]

end Bottleneck

namespace Route

/-! ## Hops as numbers -/

/-- The number of links of a route, if there is a route. -/
def length?
    (route : Route) :
    Option Nat :=
  route.hops.map UInt32.toNat

@[simp]
theorem length?_self :
    self.length? = some 0 :=
  rfl

@[simp]
theorem length?_unreached :
    unreached.length? = none :=
  rfl

@[simp]
theorem length?_direct
    (link : Link) :
    (direct link).length? = some 1 :=
  rfl

theorem length?_eq_none_iff
    {route : Route} :
    route.length? = none ↔ route.hops = none := by
  simp [length?]

theorem length?_eq_some_iff
    {route : Route}
    {n : Nat} :
    route.length? = some n ↔
      ∃ hops, route.hops = some hops ∧ hops.toNat = n := by
  simp [length?]

theorem length?_lt
    {route : Route}
    {n : Nat}
    (reached : route.length? = some n) :
    n < 4294967296 := by
  obtain ⟨hops, -, rfl⟩ := length?_eq_some_iff.1 reached
  exact hops.toNat_lt

theorem isReached_iff
    {route : Route} :
    route.isReached = true ↔ ∃ n, route.length? = some n := by
  rw [isReached, Option.isSome_iff_exists]
  constructor
  · rintro ⟨hops, reached⟩
    exact ⟨hops.toNat, length?_eq_some_iff.2 ⟨hops, reached, rfl⟩⟩
  · rintro ⟨n, reached⟩
    obtain ⟨hops, reached, -⟩ := length?_eq_some_iff.1 reached
    exact ⟨hops, reached⟩

theorem isReached_eq_false_iff
    {route : Route} :
    route.isReached = false ↔ route.length? = none := by
  rw [isReached, Option.isSome_eq_false_iff, Option.isNone_iff_eq_none, length?_eq_none_iff]

/-! ## Joining -/

/-- Hops are added exactly, or not at all. -/
theorem addHops_eq_some_iff
    {a b sum : UInt32} :
    addHops a b = some sum ↔
      sum.toNat = a.toNat + b.toNat := by
  change (if a.toNat + b.toNat < 4294967296 then
      some (UInt32.ofNat (a.toNat + b.toNat)) else none) = some sum ↔ _
  split
  case isTrue fits =>
    rw [Option.some.injEq, ← UInt32.toNat_inj, UInt32.toNat_ofNat_of_lt' fits, eq_comm]
  case isFalse exceeds =>
    have bounded := sum.toNat_lt
    constructor
    · intro equal
      cases equal
    · intro equal
      omega

@[simp]
theorem toNat_addDelays
    (a b : UInt64) :
    (addDelays a b).toNat = min (a.toNat + b.toNat) 18446744073709551615 := by
  rw [addDelays, UInt64.toNat_ofNat_of_lt']
  exact Nat.lt_of_le_of_lt (Nat.min_le_right _ _) (by decide)

theorem addDelays_comm
    (a b : UInt64) :
    addDelays a b = addDelays b a := by
  simp only [addDelays, Nat.add_comm]

/-- A sum that has reached the largest word stays there. -/
theorem addDelays_assoc
    (a b c : UInt64) :
    addDelays (addDelays a b) c = addDelays a (addDelays b c) := by
  rw [← UInt64.toNat_inj]
  simp only [toNat_addDelays]
  omega

/-- Two reached routes are joined field by field. -/
theorem join_eq_some_iff
    {route next joined : Route} :
    route.join next = some joined ↔
      ∃ a b sum,
        route.hops = some a ∧ next.hops = some b ∧
          sum.toNat = a.toNat + b.toNat ∧
          joined =
            ⟨some sum, addDelays route.delay next.delay,
              route.bottleneck.narrower next.bottleneck⟩ := by
  simp only [join, Option.bind_eq_bind, Option.bind_eq_some_iff, addHops_eq_some_iff,
    Option.pure_def, Option.some.injEq]
  constructor
  · rintro ⟨a, first, b, second, sum, added, equal⟩
    exact ⟨a, b, sum, first, second, added, equal.symm⟩
  · rintro ⟨a, b, sum, first, second, added, equal⟩
    exact ⟨a, first, b, second, sum, added, equal.symm⟩

/-- The hops of a join are the sum of the hops of its halves. -/
theorem length?_of_join
    {route next joined : Route}
    (success : route.join next = some joined) :
    ∃ m n,
      route.length? = some m ∧ next.length? = some n ∧
        joined.length? = some (m + n) := by
  obtain ⟨a, b, sum, first, second, added, rfl⟩ := join_eq_some_iff.1 success
  exact
    ⟨a.toNat, b.toNat, length?_eq_some_iff.2 ⟨a, first, rfl⟩,
      length?_eq_some_iff.2 ⟨b, second, rfl⟩,
      length?_eq_some_iff.2 ⟨sum, rfl, added⟩⟩

/-- Reached halves whose hops fit one word do join. -/
theorem exists_join
    {route next : Route}
    {m n : Nat}
    (first : route.length? = some m)
    (second : next.length? = some n)
    (fits : m + n < 4294967296) :
    ∃ joined,
      route.join next = some joined ∧
        joined.length? = some (m + n) := by
  obtain ⟨a, firstHops, rfl⟩ := length?_eq_some_iff.1 first
  obtain ⟨b, secondHops, rfl⟩ := length?_eq_some_iff.1 second
  have sum : (UInt32.ofNat (a.toNat + b.toNat)).toNat = a.toNat + b.toNat :=
    UInt32.toNat_ofNat_of_lt' fits
  exact
    ⟨_, join_eq_some_iff.2 ⟨a, b, _, firstHops, secondHops, sum, rfl⟩,
      length?_eq_some_iff.2 ⟨_, rfl, sum⟩⟩

theorem join_unreached
    {route next : Route}
    (missing : next.length? = none) :
    route.join next = none := by
  rw [length?_eq_none_iff] at missing
  simp [join, missing]

theorem unreached_join
    {route next : Route}
    (missing : route.length? = none) :
    route.join next = none := by
  rw [length?_eq_none_iff] at missing
  simp [join, missing]

/-- The order of the halves does not matter. -/
theorem join_comm
    (route next : Route) :
    route.join next = next.join route := by
  ext joined
  simp only [join_eq_some_iff]
  constructor
  · rintro ⟨a, b, sum, first, second, added, rfl⟩
    refine ⟨b, a, sum, second, first, by omega, ?_⟩
    rw [addDelays_comm, Bottleneck.narrower_comm]
  · rintro ⟨a, b, sum, first, second, added, rfl⟩
    refine ⟨b, a, sum, second, first, by omega, ?_⟩
    rw [addDelays_comm, Bottleneck.narrower_comm]

/-- How three routes in a row are bracketed does not matter when both brackets join. -/
theorem join_assoc
    {first second third left right : Route}
    (leftJoins : first.join second = some left)
    (rightJoins : second.join third = some right) :
    left.join third = first.join right := by
  obtain ⟨a, b, ab, firstHops, secondHops, leftSum, rfl⟩ := join_eq_some_iff.1 leftJoins
  obtain ⟨b', c, bc, secondHops', thirdHops, rightSum, rfl⟩ := join_eq_some_iff.1 rightJoins
  rw [secondHops] at secondHops'
  cases secondHops'
  ext joined
  simp only [join_eq_some_iff]
  constructor
  · rintro ⟨x, y, sum, xHops, yHops, added, rfl⟩
    cases xHops
    rw [thirdHops] at yHops
    cases yHops
    refine ⟨a, bc, sum, firstHops, rfl, by omega, ?_⟩
    rw [addDelays_assoc, Bottleneck.narrower_assoc]
  · rintro ⟨x, y, sum, xHops, yHops, added, rfl⟩
    cases yHops
    rw [firstHops] at xHops
    cases xHops
    refine ⟨ab, c, sum, rfl, thirdHops, by omega, ?_⟩
    rw [addDelays_assoc, Bottleneck.narrower_assoc]

/-- Joining the empty route changes nothing. -/
theorem join_self
    {route : Route}
    (reached : route.isReached = true) :
    route.join self = some route := by
  obtain ⟨hops, reached⟩ := Option.isSome_iff_exists.1 reached
  refine join_eq_some_iff.2 ⟨hops, 0, hops, reached, rfl, rfl, ?_⟩
  have delays : addDelays route.delay 0 = route.delay := by
    rw [← UInt64.toNat_inj, toNat_addDelays]
    have bounded := route.delay.toNat_lt
    change min (route.delay.toNat + 0) _ = _
    omega
  cases route
  cases reached
  simpa [self] using delays.symm

theorem self_join
    {route : Route}
    (reached : route.isReached = true) :
    self.join route = some route := by
  rw [join_comm, join_self reached]

/-! ## Routes in a row -/

/-- The hops of a list of routes together, without a bound. -/
def totalHops
    (routes : List Route) :
    Nat :=
  (routes.filterMap length?).sum

/-- The delays of a list of routes together, without a bound. -/
def totalDelay
    (routes : List Route) :
    Nat :=
  (routes.map fun route => route.delay.toNat).sum

/-- The narrowest bottleneck of a list of routes. -/
def narrowestOf
    (routes : List Route) :
    Bottleneck :=
  routes.foldr (fun route rest => route.bottleneck.narrower rest) .unconstrained

/-- The route that follows a list of routes. -/
def inRow
    (routes : List Route) :
    Route where
  hops := some (UInt32.ofNat (totalHops routes))
  delay := UInt64.ofNat (min (totalDelay routes) 18446744073709551615)
  bottleneck := narrowestOf routes

variable
    {routes rest : List Route}

@[simp]
theorem totalHops_append
    (routes rest : List Route) :
    totalHops (routes ++ rest) = totalHops routes + totalHops rest := by
  rw [totalHops, List.filterMap_append, List.sum_append, totalHops, totalHops]

@[simp]
theorem totalDelay_append
    (routes rest : List Route) :
    totalDelay (routes ++ rest) = totalDelay routes + totalDelay rest := by
  rw [totalDelay, List.map_append, List.sum_append, totalDelay, totalDelay]

theorem narrowestOf_append
    (routes rest : List Route) :
    narrowestOf (routes ++ rest) = (narrowestOf routes).narrower (narrowestOf rest) := by
  induction routes with
  | nil => simp [narrowestOf]
  | cons route routes induction =>
      simp only [narrowestOf, List.cons_append, List.foldr_cons] at induction ⊢
      rw [induction, Bottleneck.narrower_assoc]

theorem totalHops_singleton
    {route : Route}
    {n : Nat}
    (reached : route.length? = some n) :
    totalHops [route] = n := by
  rw [totalHops, List.filterMap_cons_some reached, List.filterMap_nil, List.sum_singleton]

theorem length?_inRow
    (fits : totalHops routes < 4294967296) :
    (inRow routes).length? = some (totalHops routes) :=
  length?_eq_some_iff.2 ⟨_, rfl, UInt32.toNat_ofNat_of_lt' fits⟩

theorem toNat_delay_inRow
    (routes : List Route) :
    (inRow routes).delay.toNat = min (totalDelay routes) 18446744073709551615 := by
  rw [inRow, UInt64.toNat_ofNat_of_lt']
  exact Nat.lt_of_le_of_lt (Nat.min_le_right _ _) (by decide)

/-- One route in a row is the route. -/
theorem inRow_singleton
    {route : Route}
    (reached : route.isReached = true) :
    inRow [route] = route := by
  obtain ⟨hops, reached⟩ := Option.isSome_iff_exists.1 reached
  have count : totalHops [route] = hops.toNat :=
    totalHops_singleton (length?_eq_some_iff.2 ⟨hops, reached, rfl⟩)
  have sameHops : (inRow [route]).hops = route.hops := by
    rw [inRow, count, UInt32.ofNat_toNat, reached]
  have sameDelay : (inRow [route]).delay = route.delay := by
    have bounded := route.delay.toNat_lt
    rw [← UInt64.toNat_inj, toNat_delay_inRow, totalDelay, List.map_singleton,
      List.sum_singleton, Nat.min_eq_left (by omega)]
  have sameBottleneck : (inRow [route]).bottleneck = route.bottleneck :=
    Bottleneck.narrower_unconstrained route.bottleneck
  calc inRow [route]
      = ⟨(inRow [route]).hops, (inRow [route]).delay, (inRow [route]).bottleneck⟩ := rfl
    _ = ⟨route.hops, route.delay, route.bottleneck⟩ := by
        rw [sameHops, sameDelay, sameBottleneck]

/-- Following a list of routes and then another is following both in a row. -/
theorem inRow_join_inRow
    (fits : totalHops routes + totalHops rest < 4294967296) :
    (inRow routes).join (inRow rest) = some (inRow (routes ++ rest)) := by
  refine
    join_eq_some_iff.2
      ⟨_, _, UInt32.ofNat (totalHops (routes ++ rest)), rfl, rfl, ?_, ?_⟩
  · have count (n : Nat) (bounded : n < 4294967296) : (UInt32.ofNat n).toNat = n :=
      UInt32.toNat_ofNat_of_lt' bounded
    rw [totalHops_append, count _ fits, count _ (by omega), count _ (by omega)]
  · have delays :
        (inRow (routes ++ rest)).delay = addDelays (inRow routes).delay (inRow rest).delay := by
      rw [← UInt64.toNat_inj]
      simp only [toNat_addDelays, toNat_delay_inRow, totalDelay_append]
      omega
    rw [← delays]
    simp only [inRow, narrowestOf_append]

/-! ## Routes over links -/

/-- The narrowest bottleneck that a list of links sets. -/
def narrowest
    (links : List Link) :
    Bottleneck :=
  links.foldr (fun link rest => (Bottleneck.limited link.bandwidth).narrower rest)
    .unconstrained

/-- The route that follows a list of links. -/
def along
    (links : List Link) :
    Route where
  hops := some (UInt32.ofNat links.length)
  delay := UInt64.ofNat
    (min (links.map fun link => link.delay.toNat).sum 18446744073709551615)
  bottleneck := narrowest links

theorem totalHops_map_direct
    (links : List Link) :
    totalHops (links.map direct) = links.length := by
  induction links with
  | nil => rfl
  | cons link links induction =>
      rw [List.map_cons, ← List.singleton_append, totalHops_append, induction,
        totalHops_singleton (length?_direct link), List.length_cons, Nat.add_comm]

/-- Following links is following the routes over each of them in a row. -/
theorem inRow_map_direct
    (links : List Link) :
    inRow (links.map direct) = along links := by
  rw [inRow, along, totalHops_map_direct, totalDelay, List.map_map, narrowestOf, List.foldr_map,
    narrowest]
  rfl

theorem toNat_delay_along
    (links : List Link) :
    (along links).delay.toNat =
      min (links.map fun link => link.delay.toNat).sum 18446744073709551615 := by
  rw [← inRow_map_direct, toNat_delay_inRow, totalDelay, List.map_map]
  rfl

theorem length?_along
    {links : List Link}
    (fits : links.length < 4294967296) :
    (along links).length? = some links.length :=
  length?_eq_some_iff.2 ⟨_, rfl, UInt32.toNat_ofNat_of_lt' fits⟩

@[simp]
theorem along_singleton
    (link : Link) :
    along [link] = direct link := by
  rw [← inRow_map_direct, List.map_singleton, inRow_singleton rfl]

/-- Following a list of links and then another is following both in a row. -/
theorem along_join_along
    {links rest : List Link}
    (fits : links.length + rest.length < 4294967296) :
    (along links).join (along rest) = some (along (links ++ rest)) := by
  rw [← inRow_map_direct, ← inRow_map_direct, ← inRow_map_direct, List.map_append]
  apply inRow_join_inRow
  rwa [totalHops_map_direct, totalHops_map_direct]

/-- Over at least one link, the bottleneck is the smallest of the bandwidths. -/
theorem narrowest_eq_limited
    {links : List Link}
    {bandwidth : UInt64}
    (smallest : (links.map Link.bandwidth).min? = some bandwidth) :
    narrowest links = .limited bandwidth := by
  induction links generalizing bandwidth with
  | nil => cases smallest
  | cons link links induction =>
      rw [List.map_cons, List.min?_cons] at smallest
      cases rest : (links.map Link.bandwidth).min? with
      | none =>
          rw [rest] at smallest
          cases smallest
          rw [List.min?_eq_none_iff, List.map_eq_nil_iff] at rest
          subst rest
          simp [narrowest]
      | some smaller =>
          rw [rest] at smallest
          cases smallest
          change (Bottleneck.limited link.bandwidth).narrower (narrowest links) = _
          rw [induction rest, Bottleneck.narrower, Option.elim_some, Bottleneck.limited.injEq]
          change _ = if link.bandwidth ≤ smaller then link.bandwidth else smaller
          grind

end Route

end NetRun
