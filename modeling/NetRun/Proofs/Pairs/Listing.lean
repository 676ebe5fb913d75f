import NetRun.Proofs.Pairs.Collect
import NetRun.Proofs.Route.Shortest
import NetRun.Proofs.Route.Updates

/-!
# Which pairs are listed

From any set of hosts, the pairs that are listed are those of two different hosts
of the network which the site filter, if there is one, tells apart.  They come by
source and then by target, each once and with its own route, and asking for these
routes never ends in a crash.  A host outside the network is warned of once.
-/

namespace NetRun

/-- The nodes are not of one site, as far as the filter leaves out pairs of one site. -/
def PairFilter.TellsApart
    (filter : PairFilter)
    (source target : NodeId) :
    Prop :=
  ∀ modulus,
    filter.excludeSameSite = some modulus → 0 < modulus → source % modulus ≠ target % modulus

/-- A pair is admitted if its nodes differ and the filter tells them apart. -/
theorem PairFilter.admits_iff
    {filter : PairFilter}
    {source target : NodeId} :
    filter.admits source target = true ↔ source ≠ target ∧ filter.TellsApart source target := by
  rcases filter with ⟨modulus | modulus⟩
  · simp [admits, TellsApart]
  · have positive : 0 < modulus ↔ modulus ≠ 0 := UInt32.pos_iff_ne_zero
    simp only [admits, TellsApart, Option.some.injEq, forall_eq', positive]
    by_cases same : source = target
    · simp [same]
    · simp [same, or_iff_not_imp_left]

namespace PairRoute

open NetRun.Log

/-- The first pair comes before the second: by its source or, for one source, by its target. -/
def Before
    (first second : PairRoute) :
    Prop :=
  Prod.Lex (· < ·) (· < ·) (first.source, first.target) (second.source, second.target)

/-- The pair shows this route: its hops, its bottleneck and, if it is reached, its delay. -/
structure Shows
    (pair : PairRoute)
    (route : Route) :
    Prop where
  hops : pair.hops = route.hops
  bottleneck : pair.bottleneck = route.bottleneck
  delay : pair.delay = if route.isReached then some route.delay else none

theorem shows_ofRoute
    (source target : NodeId)
    (route : Route) :
    (ofRoute source target route).Shows route where
  hops := rfl
  bottleneck := rfl
  delay := by
    rw [ofRoute, Route.reachedDelay, Route.isReached]
    cases route.hops with
    | none => rfl
    | some hops => rfl

/--
In a table of the links of a network, relaxed any number of times, the pairs of any
hosts under any filter are collected without a crash.  They strictly ascend by
source and target, so none is listed twice, and they are exactly the pairs of two
different hosts of the network that the filter tells apart.  Each shows the route
that the table has for it, with a delay only if it is reached.  One warning is
given for each host outside the network, and no other.
-/
theorem collect_lists_hosts_told_apart
    {topology : Topology}
    {base : RouteTable}
    (built : (RouteTable.ofTopology topology).outcome = .ok base)
    (times : Nat)
    (hosts : HostSet)
    (filter : PairFilter) :
    ∃ pairs,
      (collect (base.relaxed times) hosts filter).outcome = .ok pairs ∧
        pairs.Pairwise Before ∧
        (pairs.map fun pair => (pair.source, pair.target)).Nodup ∧
        (∀ source target,
          (source, target) ∈ (pairs.map fun pair => (pair.source, pair.target)) ↔
            (source ∈ hosts ∧ source < topology.nodes) ∧
              (target ∈ hosts ∧ target < topology.nodes) ∧
                source ≠ target ∧ filter.TellsApart source target) ∧
        (∀ pair ∈ pairs,
          ∃ route,
            (base.relaxed times).route pair.source pair.target = .ok route ∧ pair.Shows route) ∧
        (collect (base.relaxed times) hosts filter).entries.filter Entry.isWarning =
          (hosts.members.filter fun host => ¬ host < topology.nodes).map fun host =>
            warning s!"End host {host} is not a node of the topology; skipping" := by
  have known (host : NodeId) :
      (base.relaxed times).contains host = true ↔ host < topology.nodes := by
    rw [RouteTable.contains_iff, RouteTable.size_relaxed, RouteTable.size_of_ofTopology built,
      UInt32.lt_iff_toNat_lt]
  have ascending := hosts.ascending.filter (base.relaxed times).contains
  have ends :
      (((admitted filter (hosts.members.filter (base.relaxed times).contains)).map
            (inTable (base.relaxed times))).map
          fun pair => (pair.source, pair.target)) =
        admitted filter (hosts.members.filter (base.relaxed times).contains) := by
    rw [List.map_map]
    exact List.map_id _
  refine ⟨_, outcome_collect _ _ _, List.pairwise_map.2 (pairwise_admitted ascending), ?_, ?_, ?_,
    ?_⟩
  · rw [ends]
    exact nodup_admitted ascending
  · intro source target
    rw [ends, mem_admitted_iff, PairFilter.admits_iff, List.mem_filter, List.mem_filter, known,
      known]
    exact Iff.rfl
  · intro pair listed
    rcases List.mem_map.1 listed with ⟨⟨source, target⟩, isAdmitted, rfl⟩
    rcases mem_admitted_iff.1 isAdmitted with ⟨isSource, isTarget, -⟩
    refine ⟨_, RouteTable.route_eq_ok_iff.2 ⟨⟨?_, ?_⟩, rfl⟩, shows_ofRoute source target _⟩
    · exact (List.mem_filter.1 isSource).2
    · exact (List.mem_filter.1 isTarget).2
  · rw [warnings_collect]
    apply congrArg
    apply List.filter_congr
    intro host _
    rw [Bool.eq_iff_iff, Bool.not_eq_true', ← Bool.not_eq_true, known, decide_eq_true_eq]

/-- A pair of one site is left out, one without a path is listed, a host outside is warned of. -/
theorem diamond_collect_lists_hosts_told_apart :
    ∃ base pairs,
      (RouteTable.ofTopology RouteTable.diamond).outcome = .ok base ∧
        (collect (base.relaxed 1) (.ofList [9, 4, 3, 1, 0]) ⟨some 3⟩).outcome = .ok pairs ∧
          (∃ pair ∈ pairs,
            (pair.source, pair.target) = (3, 1) ∧ pair.Shows ⟨some 1, 2, .limited 8⟩) ∧
          (∃ pair ∈ pairs, (pair.source, pair.target) = (0, 4) ∧ pair.delay = none) ∧
          (0, 3) ∉ (pairs.map fun pair => (pair.source, pair.target)) ∧
          (collect (base.relaxed 1) (.ofList [9, 4, 3, 1, 0]) ⟨some 3⟩).entries.filter
              Entry.isWarning =
            [warning "End host 9 is not a node of the topology; skipping"] := by
  have built : (RouteTable.ofTopology RouteTable.diamond).outcome = .ok _ := rfl
  rcases collect_lists_hosts_told_apart built 1 (.ofList [9, 4, 3, 1, 0]) ⟨some 3⟩ with
    ⟨pairs, collected, -, -, listed, shown, warned⟩
  have inside {node : NodeId} (listed : node ∈ [9, 4, 3, 1, 0]) (small : node < 5) :
      node ∈ (.ofList [9, 4, 3, 1, 0] : HostSet) ∧ node < RouteTable.diamond.nodes :=
    ⟨Ordered.SortedSet.mem_ofList.2 listed, small⟩
  have apart {source target : NodeId} (different : source % 3 ≠ target % 3) :
      (⟨some 3⟩ : PairFilter).TellsApart source target := by
    rintro _ ⟨⟩ -
    exact different
  have reached : (3, 1) ∈ (pairs.map fun pair => (pair.source, pair.target)) :=
    (listed 3 1).2 ⟨inside (by decide) (by decide), inside (by decide) (by decide), by decide,
      apart (by decide)⟩
  have unreached : (0, 4) ∈ (pairs.map fun pair => (pair.source, pair.target)) :=
    (listed 0 4).2 ⟨inside (by decide) (by decide), inside (by decide) (by decide), by decide,
      apart (by decide)⟩
  refine ⟨_, pairs, built, collected, ?_, ?_, ?_, warned⟩
  · rcases List.mem_map.1 reached with ⟨pair, isPair, ends⟩
    rcases shown pair isPair with ⟨route, found, shows⟩
    rw [(Prod.mk.inj ends).1, (Prod.mk.inj ends).2] at found
    have isRoute : .ok ⟨some 1, 2, .limited 8⟩ = (Except.ok route : Except Crash Route) := found
    cases isRoute
    exact ⟨pair, isPair, ends, shows⟩
  · rcases List.mem_map.1 unreached with ⟨pair, isPair, ends⟩
    rcases shown pair isPair with ⟨route, found, shows⟩
    rw [(Prod.mk.inj ends).1, (Prod.mk.inj ends).2] at found
    have isRoute : .ok .unreached = (Except.ok route : Except Crash Route) := found
    cases isRoute
    exact ⟨pair, isPair, ends, shows.delay⟩
  · intro sameSite
    exact ((listed 0 3).1 sameSite).2.2.2 3 rfl (by decide) rfl

end PairRoute

end NetRun
