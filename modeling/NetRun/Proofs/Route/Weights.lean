import NetRun.Proofs.Route.Shortest
import NetRun.Proofs.Route.Updates
import NetRun.Proofs.Traversal
import NetRun.Topology.Delay

/-!
# Routes do not depend on weights

Which route a cell keeps is decided by hops alone.  So two topologies with the
same nodes and the same ends of links are refused alike, relaxed by the same
updates and given the same hops, whatever their bandwidths and delays are.

An aspect of a route is something else that a join makes out of the same aspect
of its halves, such as the delay or the bottleneck.  If the links of the two
topologies agree in an aspect, so do all their routes: the two relaxations are
followed cell by cell, and every step keeps the two tables in agreement.
-/

namespace NetRun

open NetRun.Log

/-- The two ends of a link, in the order in which they are written. -/
def Link.ends
    (link : Link) :
    NodeId × NodeId :=
  (link.first, link.second)

theorem Link.ends_eq_iff
    {link other : Link} :
    link.ends = other.ends ↔ link.first = other.first ∧ link.second = other.second :=
  Prod.mk_inj

namespace Route

/-- What a route says besides its hops, if a join makes it out of what its halves say. -/
structure Aspect (α : Type) where
  read : Route → α
  combine : α → α → α
  read_join :
    ∀ {route next joined : Route},
      route.join next = some joined → read joined = combine (read route) (read next)

namespace Aspect

/-- Nothing at all. -/
def nothing :
    Aspect Unit where
  read _ := ()
  combine _ _ := ()
  read_join _ := rfl

/-- The delay. -/
def delay :
    Aspect UInt64 where
  read := Route.delay
  combine := addDelays
  read_join joins := by
    rcases join_eq_some_iff.1 joins with ⟨_, _, _, -, -, -, rfl⟩
    rfl

/-- The bottleneck. -/
def bottleneck :
    Aspect Bottleneck where
  read := Route.bottleneck
  combine := Bottleneck.narrower
  read_join joins := by
    rcases join_eq_some_iff.1 joins with ⟨_, _, _, -, -, -, rfl⟩
    rfl

end Aspect

/-- The routes have the same hops and say the same in an aspect. -/
structure Agree
    {α : Type}
    (aspect : Aspect α)
    (route other : Route) :
    Prop where
  hops : route.hops = other.hops
  read : aspect.read route = aspect.read other

variable
    {α : Type}
    {aspect : Aspect α}
    {first second other otherSecond : Route}

theorem Agree.refl
    (route : Route) :
    Agree aspect route route :=
  ⟨rfl, rfl⟩

/-- Whether a route improves another is a matter of hops. -/
theorem Agree.improves_eq
    (firsts : Agree aspect first other)
    (seconds : Agree aspect second otherSecond) :
    first.improves second = other.improves otherSecond := by
  rw [improves, improves, firsts.hops, seconds.hops]

theorem Agree.isReached_eq
    (agree : Agree aspect first other) :
    first.isReached = other.isReached := by
  rw [isReached, isReached, agree.hops]

/-- Whether routes join, and over how many links, is a matter of hops. -/
theorem hops_join_congr
    (firsts : first.hops = other.hops)
    (seconds : second.hops = otherSecond.hops) :
    (first.join second).map Route.hops = (other.join otherSecond).map Route.hops := by
  have hops_join (route next : Route) :
      (route.join next).map Route.hops =
        route.hops.bind fun a => next.hops.bind fun b => (addHops a b).map some := by
    rw [join]
    cases route.hops with
    | none => rfl
    | some a =>
        cases next.hops with
        | none => rfl
        | some b => cases sum : addHops a b <;> simp [sum]
  rw [hops_join, hops_join, firsts, seconds]

/-- Halves that agree join to routes that agree, or both of them do not join. -/
theorem Agree.join
    (firsts : Agree aspect first other)
    (seconds : Agree aspect second otherSecond) :
    Option.Rel (Agree aspect) (first.join second) (other.join otherSecond) := by
  have hops := hops_join_congr firsts.hops seconds.hops
  cases joins : first.join second with
  | none =>
      rw [joins, Option.map_none, eq_comm, Option.map_eq_none_iff] at hops
      rw [hops]
      exact .none
  | some joined =>
      rw [joins, Option.map_some, eq_comm, Option.map_eq_some_iff] at hops
      rcases hops with ⟨otherJoined, otherJoins, sameHops⟩
      rw [otherJoins]
      refine .some ⟨sameHops.symm, ?_⟩
      rw [aspect.read_join joins, aspect.read_join otherJoins, firsts.read, seconds.read]

end Route

namespace RouteTable

open NetRun.Route

variable
    {α : Type}
    {aspect : Aspect α}

/-! ## Tables that agree -/

/-- Tables of one size whose cells agree. -/
structure Agree
    (aspect : Aspect α)
    (table other : RouteTable) :
    Prop where
  size : table.size = other.size
  cell : ∀ i j, Route.Agree aspect (table.cell i j) (other.cell i j)

variable
    {table other : RouteTable}
    {state otherState : RouteTable × Nat}
    {route otherRoute : Route}
    {pivot source target : Nat}

theorem Agree.refl
    (table : RouteTable) :
    Agree aspect table table :=
  ⟨rfl, fun _ _ => .refl _⟩

/-- Tables keep agreeing when routes that agree are put into the same cell. -/
theorem Agree.setCell
    (agree : Agree aspect table other)
    (routes : Route.Agree aspect route otherRoute) :
    Agree aspect (table.setCell source target route) (other.setCell source target otherRoute) where
  size := by
    rw [size_setCell, size_setCell, agree.size]
  cell i j := by
    by_cases inside : source < table.size ∧ target < table.size
    · rw [cell_setCell inside.1 inside.2,
        cell_setCell (agree.size ▸ inside.1) (agree.size ▸ inside.2)]
      split
      · exact routes
      · exact agree.cell i j
    · rw [RouteTable.setCell, if_neg inside, RouteTable.setCell, if_neg (agree.size ▸ inside)]
      exact agree.cell i j

/-- Tables that agree, reached by the same number of updates. -/
structure AgreeInState
    (aspect : Aspect α)
    (state other : RouteTable × Nat) :
    Prop where
  table : Agree aspect state.1 other.1
  updates : state.2 = other.2

/-! ## The relaxation, step by step -/

/-- The same offers are made to a cell of both tables, and both take them or neither does. -/
theorem AgreeInState.relaxCell
    (agree : AgreeInState aspect state otherState)
    (firsts : Route.Agree aspect route otherRoute)
    (target : Nat) :
    AgreeInState aspect (relaxCell pivot source route state target)
      (relaxCell pivot source otherRoute otherState target) := by
  have offers := firsts.join (agree.table.cell pivot target)
  rw [RouteTable.relaxCell, RouteTable.relaxCell]
  generalize route.join (state.1.cell pivot target) = offer at offers ⊢
  generalize otherRoute.join (otherState.1.cell pivot target) = otherOffer at offers ⊢
  cases offers with
  | none => exact agree
  | some candidates =>
      dsimp only
      rw [candidates.improves_eq (agree.table.cell source target)]
      split
      · exact ⟨agree.table.setCell candidates, congrArg (· + 1) agree.updates⟩
      · exact agree

theorem AgreeInState.relaxRow
    (agree : AgreeInState aspect state otherState)
    (source : Nat) :
    AgreeInState aspect (relaxRow pivot state source) (relaxRow pivot otherState source) := by
  have firsts := agree.table.cell source pivot
  rw [RouteTable.relaxRow, RouteTable.relaxRow, firsts.isReached_eq, agree.table.size]
  split
  · exact List.foldl_rel agree fun target _ _ _ states => states.relaxCell firsts target
  · exact agree

theorem AgreeInState.relaxStage
    (agree : AgreeInState aspect state otherState)
    (pivot : Nat) :
    AgreeInState aspect (relaxStage state pivot) (relaxStage otherState pivot) := by
  rw [RouteTable.relaxStage, RouteTable.relaxStage, agree.table.size]
  exact List.foldl_rel agree fun source _ _ _ states => states.relaxRow source

/-- Tables that agree are relaxed by the same number of updates into tables that agree. -/
theorem Agree.relax
    (agree : Agree aspect table other) :
    AgreeInState aspect table.relax other.relax := by
  rw [RouteTable.relax, RouteTable.relax, agree.size]
  exact List.foldl_rel ⟨agree, rfl⟩ fun pivot _ _ _ states => states.relaxStage pivot

theorem Agree.relaxed
    (agree : Agree aspect table other)
    (times : Nat) :
    Agree aspect (table.relaxed times) (other.relaxed times) := by
  induction times with
  | zero => exact agree
  | succ times induction => exact induction.relax.table

/-! ## Tables of topologies that agree -/

/-- The links stand between the same nodes in the same order and agree in an aspect. -/
structure LinksAgree
    (aspect : Aspect α)
    (links others : List Link) :
    Prop where
  ends : links.map Link.ends = others.map Link.ends
  aspects :
    (links.map fun link => aspect.read (direct link)) =
      others.map fun link => aspect.read (direct link)

theorem linksAgree_nothing
    {links others : List Link}
    (sameEnds : links.map Link.ends = others.map Link.ends) :
    LinksAgree Aspect.nothing links others where
  ends := sameEnds
  aspects := by
    have lengths := congrArg List.length sameEnds
    rw [List.length_map, List.length_map] at lengths
    change (links.map fun _ => ()) = others.map fun _ => ()
    rw [List.map_const', List.map_const', lengths]

theorem linksAgree_bottleneck
    {links others : List Link}
    (sameEnds : links.map Link.ends = others.map Link.ends)
    (sameBandwidths : links.map Link.bandwidth = others.map Link.bandwidth) :
    LinksAgree Aspect.bottleneck links others where
  ends := sameEnds
  aspects := by
    have limits := congrArg (List.map Bottleneck.limited) sameBandwidths
    rw [List.map_map, List.map_map] at limits
    exact limits

theorem linksAgree_delay
    {links others : List Link}
    (sameEnds : links.map Link.ends = others.map Link.ends)
    (sameDelays : links.map Link.delay = others.map Link.delay) :
    LinksAgree Aspect.delay links others where
  ends := sameEnds
  aspects := sameDelays

/-- Other delays leave the ends of the links and their bandwidths as they are. -/
theorem linksAgree_assignDelays
    (topology : Topology)
    (hosts : HostSet)
    (access core : UInt64) :
    LinksAgree Aspect.bottleneck (topology.assignDelays hosts access core).links
      topology.links := by
  apply linksAgree_bottleneck
  · rw [Topology.assignDelays, List.map_map]
    rfl
  · rw [Topology.assignDelays, List.map_map]
    rfl

/-- A link is refused for both tables, or put into both. -/
theorem Agree.endAlike_place
    (agree : Agree aspect table other)
    {link otherLink : Link}
    (ends : link.ends = otherLink.ends)
    (aspects : aspect.read (direct link) = aspect.read (direct otherLink))
    (nodes : UInt32)
    (index : Nat) :
    EndAlike (Agree aspect) (place nodes table link index).outcome
      (place nodes other otherLink index).outcome := by
  rcases Link.ends_eq_iff.1 ends with ⟨firsts, seconds⟩
  have directs : Route.Agree aspect (direct link) (direct otherLink) := ⟨rfl, aspects⟩
  rw [outcome_place, outcome_place, lay, lay, firsts, seconds]
  split
  · split
    · apply EndAlike.succeeded
      split
      · exact agree
      · exact (agree.setCell directs).setCell directs
    · exact .failed _
  · exact .failed _

theorem Agree.endAlike_foldlM_place
    (agree : Agree aspect table other)
    {links others : List Link}
    (linksAgree : LinksAgree aspect links others)
    (nodes : UInt32)
    (start : Nat) :
    EndAlike (Agree aspect)
      ((links.zipIdx start).foldlM
        (fun table (link, index) => place nodes table link index) table).outcome
      ((others.zipIdx start).foldlM
        (fun table (link, index) => place nodes table link index) other).outcome := by
  rcases linksAgree with ⟨ends, aspects⟩
  induction links generalizing table other others start with
  | nil =>
      rw [List.map_nil, eq_comm, List.map_eq_nil_iff] at ends
      rw [ends]
      exact .succeeded agree
  | cons link links induction =>
      cases others with
      | nil => cases ends
      | cons otherLink others =>
          simp only [List.map_cons, List.cons.injEq] at ends aspects
          rw [List.zipIdx_cons, List.foldlM_cons, Logged.outcome_bind, List.zipIdx_cons,
            List.foldlM_cons, Logged.outcome_bind]
          apply EndAlike.bind (agree.endAlike_place ends.1 aspects.1 nodes start)
          intro placed otherPlaced placedAgree
          exact induction placedAgree (start + 1) ends.2 aspects.2

variable
    {topology otherTopology : Topology}

/-- Tables of topologies that agree are refused for one cause, or agree. -/
theorem endAlike_ofTopology
    (sameNodes : topology.nodes = otherTopology.nodes)
    (linksAgree : LinksAgree aspect topology.links otherTopology.links) :
    EndAlike (Agree aspect) (ofTopology topology).outcome (ofTopology otherTopology).outcome := by
  rw [ofTopology, ofTopology, sameNodes]
  dsimp only
  split
  · exact .failed _
  · exact (Agree.refl _).endAlike_foldlM_place linksAgree _ 0

theorem endAlike_compute
    (sameNodes : topology.nodes = otherTopology.nodes)
    (linksAgree : LinksAgree aspect topology.links otherTopology.links) :
    EndAlike (Agree aspect) (compute topology).outcome (compute otherTopology).outcome := by
  rw [compute, compute, Logged.outcome_bind, Logged.outcome_bind]
  apply EndAlike.bind (endAlike_ofTopology sameNodes linksAgree)
  intro base otherBase agree
  exact .succeeded agree.relax.table

/-! ## What weights decide -/

/--
Two topologies with the same nodes whose links have the same ends are refused
for one cause, or their tables are built, relaxed by the same number of updates
each time, and give the same hops.  Their bottlenecks are the same if their
bandwidths are, and their delays if the delays of their links are.  So giving
links other delays, by whatever hosts, changes no hops and no bottleneck.
-/
theorem weights_do_not_choose_routes
    (sameNodes : topology.nodes = otherTopology.nodes)
    (sameEnds : topology.links.map Link.ends = otherTopology.links.map Link.ends)
    (hosts : HostSet)
    (access core : UInt64) :
    EndAlike
        (fun base otherBase =>
          ∀ times, (base.relaxed times).relax.2 = (otherBase.relaxed times).relax.2)
        (ofTopology topology).outcome (ofTopology otherTopology).outcome ∧
      EndAlike
        (fun table otherTable => ∀ i j, (table.cell i j).hops = (otherTable.cell i j).hops)
        (compute topology).outcome (compute otherTopology).outcome ∧
      (topology.links.map Link.bandwidth = otherTopology.links.map Link.bandwidth →
        EndAlike
          (fun table otherTable =>
            ∀ i j, (table.cell i j).bottleneck = (otherTable.cell i j).bottleneck)
          (compute topology).outcome (compute otherTopology).outcome) ∧
      (topology.links.map Link.delay = otherTopology.links.map Link.delay →
        EndAlike
          (fun table otherTable => ∀ i j, (table.cell i j).delay = (otherTable.cell i j).delay)
          (compute topology).outcome (compute otherTopology).outcome) ∧
      EndAlike
        (fun assigned table =>
          ∀ i j,
            (assigned.cell i j).hops = (table.cell i j).hops ∧
              (assigned.cell i j).bottleneck = (table.cell i j).bottleneck)
        (compute (topology.assignDelays hosts access core)).outcome
        (compute topology).outcome := by
  have unweighted := linksAgree_nothing sameEnds
  refine ⟨?_, ?_, ?_, ?_, ?_⟩
  · apply (endAlike_ofTopology sameNodes unweighted).imp
    intro base otherBase agree times
    exact (agree.relaxed times).relax.updates
  · apply (endAlike_compute sameNodes unweighted).imp
    intro table otherTable agree i j
    exact (agree.cell i j).hops
  · intro sameBandwidths
    apply (endAlike_compute sameNodes (linksAgree_bottleneck sameEnds sameBandwidths)).imp
    intro table otherTable agree i j
    exact (agree.cell i j).read
  · intro sameDelays
    apply (endAlike_compute sameNodes (linksAgree_delay sameEnds sameDelays)).imp
    intro table otherTable agree i j
    exact (agree.cell i j).read
  · have unmoved : (topology.assignDelays hosts access core).nodes = topology.nodes := rfl
    apply (endAlike_compute unmoved (linksAgree_assignDelays topology hosts access core)).imp
    intro assigned table agree i j
    exact ⟨(agree.cell i j).hops, (agree.cell i j).read⟩

/-- The diamond with other delays: the way over 2, which is not taken, has none. -/
def delayedDiamond :
    Topology :=
  .ofLinks 5
    [⟨0, 1, 10, 100⟩, ⟨1, 3, 70, 500⟩, ⟨0, 2, 50, 0⟩, ⟨2, 3, 50, 0⟩, ⟨3, 1, 8, 200⟩, ⟨4, 4, 1, 7⟩]

theorem diamond_weights_do_not_choose_routes :
    ∃ table other,
      (compute diamond).outcome = .ok table ∧
        (compute delayedDiamond).outcome = .ok other ∧
          table.cell 0 3 = ⟨some 2, 3, .limited 8⟩ ∧
            other.cell 0 3 = ⟨some 2, 300, .limited 8⟩ ∧
              ∀ i j,
                (table.cell i j).hops = (other.cell i j).hops ∧
                  (table.cell i j).bottleneck = (other.cell i j).bottleneck := by
  obtain ⟨table, computed, cell⟩ :
      ∃ table,
        (compute diamond).outcome = .ok table ∧ table.cell 0 3 = ⟨some 2, 3, .limited 8⟩ :=
    ⟨_, rfl, rfl⟩
  obtain ⟨other, otherComputed, otherCell⟩ :
      ∃ other,
        (compute delayedDiamond).outcome = .ok other ∧
          other.cell 0 3 = ⟨some 2, 300, .limited 8⟩ :=
    ⟨_, rfl, rfl⟩
  rcases weights_do_not_choose_routes (show diamond.nodes = delayedDiamond.nodes from rfl) rfl
    .empty 0 0 with ⟨-, sameHops, sameBottlenecks, -, -⟩
  rcases sameHops.exists_of_eq_ok computed with ⟨_, again, hops⟩
  rw [otherComputed] at again
  cases again
  rcases (sameBottlenecks rfl).exists_of_eq_ok computed with ⟨_, again, bottlenecks⟩
  rw [otherComputed] at again
  cases again
  exact ⟨table, other, computed, otherComputed, cell, otherCell,
    fun i j => ⟨hops i j, bottlenecks i j⟩⟩

end RouteTable

end NetRun
