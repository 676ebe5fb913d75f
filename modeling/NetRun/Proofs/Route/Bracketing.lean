import NetRun.Proofs.Route.Join

/-!
# Brackets and order of joins

A list of routes can be joined in many ways: in any order, and with brackets
set in any way.  A join may fail because its hops leave their word, and its
delay may reach the largest word, at any point on the way.  Yet all ways end
alike.  They fail exactly when one of the routes is unreached or the hops of
all of them together leave their word, and else they end in the same route,
which is read off the list: its hops and its delay are those of all routes
together, the latter up to the largest word, and its bottleneck is the
narrowest of theirs.

A route alone is not joined, and stays as it is even if it is unreached.  So
the list is of at least two routes, or all of its routes are reached.
-/

namespace NetRun

namespace Route

/-! ## Lists that join -/

/-- All routes are reached, and their hops together fit one word. -/
structure Joinable
    (routes : List Route) :
    Prop where
  reached : ∀ route ∈ routes, route.isReached = true
  fits : totalHops routes < 4294967296

variable
    {routes rest : List Route}
    {route joined : Route}

theorem not_joinable_iff :
    ¬ Joinable routes ↔
      (∃ route ∈ routes, route.isReached = false) ∨ 2 ^ 32 - 1 < totalHops routes := by
  constructor
  · intro apart
    by_cases missing : ∃ route ∈ routes, route.isReached = false
    · exact Or.inl missing
    · refine Or.inr (Nat.lt_of_not_le fun fits => apart ⟨?_, by omega⟩)
      intro route listed
      exact Bool.eq_true_of_not_eq_false fun unreached => missing ⟨route, listed, unreached⟩
  · rintro (⟨route, listed, missing⟩ | exceeds) ⟨reached, fits⟩
    · exact Bool.false_ne_true (missing.symm.trans (reached route listed))
    · omega

/-- Two lists in a row join if each of them does and their hops together fit. -/
theorem joinable_append_iff :
    Joinable (routes ++ rest) ↔
      Joinable routes ∧ Joinable rest ∧ totalHops routes + totalHops rest < 4294967296 := by
  constructor
  · rintro ⟨reached, fits⟩
    rw [totalHops_append] at fits
    rw [List.forall_mem_append] at reached
    exact ⟨⟨reached.1, by omega⟩, ⟨reached.2, by omega⟩, fits⟩
  · rintro ⟨first, second, fits⟩
    refine ⟨List.forall_mem_append.2 ⟨first.reached, second.reached⟩, ?_⟩
    rwa [totalHops_append]

theorem joinable_singleton_iff :
    Joinable [route] ↔ route.isReached = true := by
  constructor
  · intro joinable
    exact joinable.reached route (List.mem_singleton_self route)
  · intro reached
    refine ⟨List.forall_mem_singleton.2 reached, ?_⟩
    rcases isReached_iff.1 reached with ⟨n, length⟩
    rw [totalHops_singleton length]
    exact length?_lt length

theorem isReached_of_join
    {next : Route}
    (joins : route.join next = some joined) :
    route.isReached = true ∧ next.isReached = true ∧ joined.isReached = true := by
  rcases length?_of_join joins with ⟨m, n, first, second, sum⟩
  exact ⟨isReached_iff.2 ⟨m, first⟩, isReached_iff.2 ⟨n, second⟩, isReached_iff.2 ⟨_, sum⟩⟩

/-! ## The order of a list -/

theorem totalHops_perm
    (reordered : routes.Perm rest) :
    totalHops routes = totalHops rest :=
  (reordered.filterMap length?).sum_eq

theorem totalDelay_perm
    (reordered : routes.Perm rest) :
    totalDelay routes = totalDelay rest := by
  rw [totalDelay, totalDelay]
  exact (reordered.map _).sum_eq

theorem narrowestOf_perm
    (reordered : routes.Perm rest) :
    narrowestOf routes = narrowestOf rest := by
  apply reordered.foldr_eq'
  intro first _ second _ bottleneck
  rw [← Bottleneck.narrower_assoc, Bottleneck.narrower_comm second.bottleneck,
    Bottleneck.narrower_assoc]

theorem inRow_perm
    (reordered : routes.Perm rest) :
    inRow routes = inRow rest := by
  rw [inRow, totalHops_perm reordered, totalDelay_perm reordered, narrowestOf_perm reordered,
    inRow]

theorem joinable_perm
    (reordered : routes.Perm rest) :
    Joinable routes ↔ Joinable rest := by
  have sameRoutes : (∀ route ∈ routes, route.isReached = true) ↔
      ∀ route ∈ rest, route.isReached = true :=
    forall_congr' fun _ => imp_congr_left reordered.mem_iff
  have sameHops := totalHops_perm reordered
  constructor
  · rintro ⟨reached, fits⟩
    exact ⟨sameRoutes.1 reached, by omega⟩
  · rintro ⟨reached, fits⟩
    exact ⟨sameRoutes.2 reached, by omega⟩

/-! ## The empty route in a list -/

theorem inRow_self_cons
    (routes : List Route) :
    inRow (self :: routes) = inRow routes := by
  have hops : totalHops (self :: routes) = totalHops routes := by
    rw [← List.singleton_append, totalHops_append, totalHops_singleton length?_self, Nat.zero_add]
  have delay : totalDelay (self :: routes) = totalDelay routes := Nat.zero_add _
  have bottleneck : narrowestOf (self :: routes) = narrowestOf routes :=
    Bottleneck.unconstrained_narrower _
  rw [inRow, hops, delay, bottleneck, inRow]

theorem joinable_self_cons_iff :
    Joinable (self :: routes) ↔ Joinable routes := by
  rw [← List.singleton_append, joinable_append_iff, joinable_singleton_iff,
    totalHops_singleton length?_self, Nat.zero_add]
  constructor
  · rintro ⟨-, joinable, -⟩
    exact joinable
  · intro joinable
    exact ⟨rfl, joinable, joinable.fits⟩

/-! ## The narrowest of a list -/

theorem width_narrowestOf_le
    (listed : route ∈ routes) :
    (narrowestOf routes).width ≤ route.bottleneck.width := by
  induction routes with
  | nil => cases listed
  | cons first routes induction =>
      change (first.bottleneck.narrower (narrowestOf routes)).width ≤ _
      rw [Bottleneck.width_narrower]
      rcases List.mem_cons.1 listed with rfl | later
      · exact min_le_left _ _
      · exact (min_le_right _ _).trans (induction later)

/-- The narrowest bottleneck of a list is that of one of its routes. -/
theorem exists_narrowestOf_eq
    (nonempty : routes ≠ []) :
    ∃ route ∈ routes, route.bottleneck = narrowestOf routes := by
  induction routes with
  | nil => exact absurd rfl nonempty
  | cons first routes induction =>
      have widths := Bottleneck.width_narrower first.bottleneck (narrowestOf routes)
      change (narrowestOf (first :: routes)).width = _ at widths
      by_cases last : routes = []
      · subst last
        exact ⟨first, List.mem_cons_self, (Bottleneck.narrower_unconstrained _).symm⟩
      · rcases le_total first.bottleneck.width (narrowestOf routes).width with here | later
        · rw [min_eq_left here] at widths
          exact ⟨first, List.mem_cons_self, (Bottleneck.width_injective widths).symm⟩
        · rw [min_eq_right later] at widths
          rcases induction last with ⟨route, listed, narrowest⟩
          exact ⟨route, List.mem_cons_of_mem _ listed,
            narrowest.trans (Bottleneck.width_injective widths).symm⟩

/-- What the join of a list of routes says about them. -/
structure SumsUp
    (routes : List Route)
    (joined : Route) :
    Prop where
  reached : ∀ route ∈ routes, route.isReached = true
  hops : joined.hops.map UInt32.toNat = some (totalHops routes)
  delay : joined.delay.toNat = min (2 ^ 64 - 1) (totalDelay routes)
  listed : ∃ route ∈ routes, route.bottleneck = joined.bottleneck
  narrowest : ∀ route ∈ routes, joined.bottleneck.width ≤ route.bottleneck.width

theorem Joinable.sumsUp
    (joinable : Joinable routes)
    (nonempty : routes ≠ []) :
    SumsUp routes (inRow routes) where
  reached := joinable.reached
  hops := length?_inRow joinable.fits
  delay := (toNat_delay_inRow routes).trans (Nat.min_comm _ _)
  listed := exists_narrowestOf_eq nonempty
  narrowest _ listed := width_narrowestOf_le listed

end Route

open Route

/-! ## Brackets -/

/-- A way to join routes: any two that have been joined are joined next. -/
inductive Bracketing where
  | alone (route : Route)
  | pair (left right : Bracketing)

namespace Bracketing

/-- The routes that are joined, from left to right. -/
def routes :
    Bracketing → List Route
  | alone route => [route]
  | pair left right => left.routes ++ right.routes

/-- The route that comes out, unless a join on the way fails. -/
def joined :
    Bracketing → Option Route
  | alone route => some route
  | pair left right => do
    let first ← left.joined
    let second ← right.joined
    first.join second

theorem joined_pair_eq_some_iff
    {left right : Bracketing}
    {route : Route} :
    (pair left right).joined = some route ↔
      ∃ first second,
        left.joined = some first ∧ right.joined = some second ∧
          first.join second = some route := by
  simp only [joined, Option.bind_eq_bind, Option.bind_eq_some_iff]
  constructor
  · rintro ⟨first, leftJoins, second, rightJoins, joins⟩
    exact ⟨first, second, leftJoins, rightJoins, joins⟩
  · rintro ⟨first, second, leftJoins, rightJoins, joins⟩
    exact ⟨first, leftJoins, second, rightJoins, joins⟩

variable
    {bracketing other : Bracketing}
    {route : Route}

/-- However the brackets are set, routes that join together join on the way. -/
theorem joined_of_joinable
    (joinable : Joinable bracketing.routes) :
    bracketing.joined = some (inRow bracketing.routes) := by
  induction bracketing with
  | alone route =>
      rw [joined, routes, inRow_singleton (joinable_singleton_iff.1 joinable)]
  | pair left right leftInduction rightInduction =>
      rcases joinable_append_iff.1 joinable with ⟨leftJoinable, rightJoinable, fits⟩
      exact joined_pair_eq_some_iff.2
        ⟨_, _, leftInduction leftJoinable, rightInduction rightJoinable, inRow_join_inRow fits⟩

/-- Routes that join on the way, into a reached one, join together. -/
theorem joinable_of_joined
    (joins : bracketing.joined = some route)
    (reached : route.isReached = true) :
    Joinable bracketing.routes := by
  induction bracketing generalizing route with
  | alone single =>
      cases joins
      exact joinable_singleton_iff.2 reached
  | pair left right leftInduction rightInduction =>
      rcases joined_pair_eq_some_iff.1 joins with ⟨first, second, leftJoins, rightJoins, halves⟩
      rcases isReached_of_join halves with ⟨firstReached, secondReached, -⟩
      have leftJoinable := leftInduction leftJoins firstReached
      have rightJoinable := rightInduction rightJoins secondReached
      -- The halves are those of the lists in a row, so their hops are added by the last join.
      rw [joined_of_joinable leftJoinable] at leftJoins
      rw [joined_of_joinable rightJoinable] at rightJoins
      cases leftJoins
      cases rightJoins
      rcases length?_of_join halves with ⟨m, n, firstLength, secondLength, sum⟩
      rw [length?_inRow leftJoinable.fits] at firstLength
      rw [length?_inRow rightJoinable.fits] at secondLength
      cases firstLength
      cases secondLength
      exact joinable_append_iff.2 ⟨leftJoinable, rightJoinable, length?_lt sum⟩

/-- At least two routes are joined, or all of them are reached. -/
def Settles
    (bracketing : Bracketing) :
    Prop :=
  2 ≤ bracketing.routes.length ∨ ∀ route ∈ bracketing.routes, route.isReached = true

theorem Settles.isReached
    (settles : bracketing.Settles)
    (joins : bracketing.joined = some route) :
    route.isReached = true := by
  cases bracketing with
  | alone single =>
      cases joins
      rcases settles with several | reached
      · exact absurd several (by decide : ¬ 2 ≤ 1)
      · exact reached route (List.mem_singleton_self route)
  | pair left right =>
      rcases joined_pair_eq_some_iff.1 joins with ⟨first, second, -, -, halves⟩
      exact (isReached_of_join halves).2.2

/-- What comes out of a bracketing is read off its routes. -/
theorem Settles.joined_eq_some_iff
    (settles : bracketing.Settles) :
    bracketing.joined = some route ↔
      Joinable bracketing.routes ∧ inRow bracketing.routes = route := by
  constructor
  · intro joins
    have joinable := joinable_of_joined joins (settles.isReached joins)
    rw [joined_of_joinable joinable] at joins
    exact ⟨joinable, Option.some.inj joins⟩
  · rintro ⟨joinable, rfl⟩
    exact joined_of_joinable joinable

theorem Settles.joined_eq_none_iff
    (settles : bracketing.Settles) :
    bracketing.joined = none ↔ ¬ Joinable bracketing.routes := by
  rw [Option.eq_none_iff_forall_ne_some]
  constructor
  · intro fails joinable
    exact fails _ (joined_of_joinable joinable)
  · intro apart route joins
    exact apart (settles.joined_eq_some_iff.1 joins).1

/-- Bracketings of lists that say the same end alike. -/
theorem Settles.joined_eq
    (settles : bracketing.Settles)
    (otherSettles : other.Settles)
    (sameJoinable : Joinable bracketing.routes ↔ Joinable other.routes)
    (sameRow : inRow bracketing.routes = inRow other.routes) :
    bracketing.joined = other.joined := by
  ext route
  rw [settles.joined_eq_some_iff, otherSettles.joined_eq_some_iff, sameJoinable, sameRow]

/-! ## All ways end alike -/

/--
At least two routes, joined in any order and with any brackets, give no route
exactly when one of them is unreached or their hops exceed the largest word,
and else a route that sums them up.  Any other order and other brackets give
the same, and so does putting the empty route among reached ones.
-/
theorem brackets_and_order_do_not_matter
    {routes : List Route}
    (several : 2 ≤ routes.length)
    (ordered : bracketing.routes.Perm routes) :
    (bracketing.joined = none ↔
        (∃ route ∈ routes, route.isReached = false) ∨ 2 ^ 32 - 1 < totalHops routes) ∧
      (∀ joined, bracketing.joined = some joined → SumsUp routes joined) ∧
        (∀ other : Bracketing,
          other.routes.Perm routes → other.joined = bracketing.joined) ∧
          ∀ reached other : Bracketing,
            (∀ route ∈ reached.routes, route.isReached = true) →
              other.routes.Perm (self :: reached.routes) → other.joined = reached.joined := by
  have settles {ways : Bracketing} (reordered : ways.routes.Perm routes) : ways.Settles :=
    Or.inl (reordered.length_eq ▸ several)
  refine ⟨?_, ?_, ?_, ?_⟩
  · rw [(settles ordered).joined_eq_none_iff, joinable_perm ordered, not_joinable_iff]
  · intro joined joins
    rcases (settles ordered).joined_eq_some_iff.1 joins with ⟨joinable, rfl⟩
    rw [inRow_perm ordered]
    apply ((joinable_perm ordered).1 joinable).sumsUp
    rintro rfl
    exact absurd several (by decide : ¬ 2 ≤ 0)
  · intro other reordered
    have sameRoutes := reordered.trans ordered.symm
    exact (settles reordered).joined_eq (settles ordered) (joinable_perm sameRoutes)
      (inRow_perm sameRoutes)
  · intro reached other allReached inserted
    have otherReached : ∀ route ∈ other.routes, route.isReached = true := by
      intro route listed
      rcases List.mem_cons.1 (inserted.mem_iff.1 listed) with rfl | among
      · rfl
      · exact allReached route among
    apply Settles.joined_eq (Or.inr otherReached) (Or.inr allReached)
    · rw [joinable_perm inserted, joinable_self_cons_iff]
    · rw [inRow_perm inserted, inRow_self_cons]

/-- Three routes, the delay of the first of which is the largest word. -/
def slowRow :
    List Route :=
  [⟨some 1, 18446744073709551615, .limited 10⟩, ⟨some 2, 5, .unconstrained⟩,
    ⟨some 3, 1, .limited 7⟩]

theorem slowRow_brackets_and_order_do_not_matter :
    ∃ bracketing turned padded : Bracketing,
      bracketing.routes = slowRow ∧ turned.routes = slowRow.reverse ∧
        padded.routes = self :: slowRow ∧
          bracketing.joined = some ⟨some 6, 18446744073709551615, .limited 7⟩ ∧
            turned.joined = bracketing.joined ∧ padded.joined = bracketing.joined := by
  let first := alone ⟨some 1, 18446744073709551615, .limited 10⟩
  let second := alone ⟨some 2, 5, .unconstrained⟩
  let third := alone ⟨some 3, 1, .limited 7⟩
  let bracketing := pair (pair first second) third
  rcases brackets_and_order_do_not_matter (show 2 ≤ slowRow.length by decide)
    (show bracketing.routes.Perm slowRow from .refl _) with ⟨-, -, alike, unmoved⟩
  refine ⟨bracketing, pair third (pair second first), pair (pair (alone self) first)
    (pair second third), rfl, rfl, rfl, rfl, ?_, ?_⟩
  · exact alike _ (List.reverse_perm slowRow)
  · exact unmoved bracketing _ (by decide) (.refl _)

end Bracketing

end NetRun
