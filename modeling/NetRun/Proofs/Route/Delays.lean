import NetRun.Proofs.Route.Access
import NetRun.Topology.Delay
import Mathlib.Tactic.Ring

/-!
# Delays of routes after assignment

When the links that touch an end host have one delay and all others another,
the delay of a route is settled by its hops and by its two ends.  End hosts
are never inner nodes of a shortest walk, so only the first and the last step
of a route can run over an access link.
-/

namespace NetRun

open SimpleGraph
open NetRun.Ordered

/-- One of the hosts has this number. -/
def HostSet.standsAt
    (hosts : HostSet)
    (number : Nat) :
    Bool :=
  hosts.members.any fun node => node.toNat == number

theorem HostSet.standsAt_iff
    {hosts : HostSet}
    {number : Nat} :
    hosts.standsAt number = true ↔ ∃ node ∈ hosts, node.toNat = number := by
  simp [standsAt, SortedSet.mem_iff]

theorem HostSet.standsAt_toNat
    (hosts : HostSet)
    (node : NodeId) :
    hosts.standsAt node.toNat = hosts.contains node := by
  rw [Bool.eq_iff_iff, standsAt_iff, SortedSet.contains_iff]
  constructor
  · rintro ⟨other, isHost, same⟩
    rwa [← UInt32.toNat_inj.1 same]
  · intro isHost
    exact ⟨node, isHost, rfl⟩

/-- How many of two nodes are hosts. -/
def HostSet.among
    (hosts : HostSet)
    (a b : NodeId) :
    Nat :=
  [a, b].countP hosts.contains

theorem HostSet.among_eq
    (hosts : HostSet)
    (a b : NodeId) :
    hosts.among a b = (hosts.standsAt a.toNat).toNat + (hosts.standsAt b.toNat).toNat := by
  rw [standsAt_toNat, standsAt_toNat, among]
  cases first : hosts.contains a with
  | false =>
      cases second : hosts.contains b with
      | false => simp [first, second]
      | true => simp [first, second]
  | true =>
      cases second : hosts.contains b with
      | false => simp [first, second]
      | true => simp [first, second]

/-! ## Access links of a walk -/

/-- A link between two nodes touches a host if one of the nodes is a host. -/
theorem Link.isAccess_of_joins
    {link : Link}
    {hosts : HostSet}
    {a b : Nat}
    (joins : link.joins a b = true) :
    link.isAccess hosts = (hosts.standsAt a || hosts.standsAt b) := by
  rw [isAccess, ← HostSet.standsAt_toNat, ← HostSet.standsAt_toNat]
  rcases Link.joins_iff.1 joins with ⟨rfl, rfl⟩ | ⟨rfl, rfl⟩
  · rfl
  · exact Bool.or_comm _ _

namespace Topology

variable
    {topology : Topology}
    {hosts : HostSet}
    {access core : UInt64}
    {a b c : Nat}

theorem isAccess_linkOf
    (step : topology.graph.Dart) :
    (topology.linkOf step).isAccess hosts =
      (hosts.standsAt step.fst || hosts.standsAt step.snd) :=
  Link.isAccess_of_joins (joins_of_lastLink (topology.lastLink_eq_linkOf step)).2

theorem dropLast_support_cons
    (adjacent : topology.graph.Adj a c)
    (walk : topology.graph.Walk c b) :
    (Walk.cons adjacent walk).support.dropLast = a :: walk.support.dropLast :=
  List.dropLast_cons_of_ne_nil walk.support_ne_nil

/-- If no node but the last is a host, only the last step can take an access link. -/
theorem countP_isAccess_of_dropLast
    {walk : topology.graph.Walk a b}
    (notNil : ¬ walk.Nil)
    (free : ∀ node ∈ walk.support.dropLast, hosts.standsAt node = false) :
    (topology.linksAlong walk).countP (Link.isAccess hosts) = (hosts.standsAt b).toNat := by
  induction walk with
  | nil => exact absurd Walk.nil_nil notNil
  | cons adjacent rest induction =>
      rw [dropLast_support_cons, List.forall_mem_cons] at free
      rcases free with ⟨first, later⟩
      rw [linksAlong_cons, List.countP_cons, isAccess_linkOf, first, Bool.false_or]
      cases rest with
      | nil => cases hosts.standsAt _ <;> rfl
      | cons onward rest =>
          rw [induction Walk.not_nil_cons later]
          rw [dropLast_support_cons, List.forall_mem_cons] at later
          rw [later.1]
          rfl

/-- If no inner node is a host, only the first and the last step can take access links. -/
theorem countP_isAccess_of_inner
    {walk : topology.graph.Walk a b}
    (notNil : ¬ walk.Nil)
    (free : ∀ node ∈ inner walk, hosts.standsAt node = false) :
    (topology.linksAlong walk).countP (Link.isAccess hosts) =
      min ((hosts.standsAt a).toNat + (hosts.standsAt b).toNat) walk.length := by
  cases walk with
  | nil => exact absurd Walk.nil_nil notNil
  | cons adjacent rest =>
      cases rest with
      | nil =>
          rw [linksAlong_cons, List.countP_cons, isAccess_linkOf]
          cases hosts.standsAt a <;> cases hosts.standsAt b <;> rfl
      | cons onward rest =>
          have few := Nat.add_le_add (hosts.standsAt a).toNat_le (hosts.standsAt b).toNat_le
          rw [linksAlong_cons, List.countP_cons, isAccess_linkOf,
            countP_isAccess_of_dropLast Walk.not_nil_cons free]
          rw [inner_cons, dropLast_support_cons, List.forall_mem_cons] at free
          rw [free.1, Bool.or_false, Walk.length_cons, Walk.length_cons,
            Nat.min_eq_left (by omega), Nat.add_comm]
          cases hosts.standsAt a <;> rfl

/-! ## Assigned delays -/

/-- The delays of assigned links add up by how many links of each kind there are. -/
theorem sum_delay_of_isAccess
    {links : List Link}
    (assigned :
      ∀ link ∈ links, link.delay = if link.isAccess hosts then access else core) :
    (links.map fun link => link.delay.toNat).sum =
      links.countP (Link.isAccess hosts) * access.toNat +
        (links.length - links.countP (Link.isAccess hosts)) * core.toNat := by
  rw [List.length_eq_countP_add_countP (Link.isAccess hosts), Nat.add_sub_cancel_left]
  induction links with
  | nil => simp
  | cons link links induction =>
      have rest := induction fun other listed => assigned other (List.mem_cons_of_mem _ listed)
      rw [List.map_cons, List.sum_cons, rest, assigned link List.mem_cons_self,
        List.countP_cons, List.countP_cons]
      by_cases touches : link.isAccess hosts = true
      · simp only [touches, if_true, not_true_eq_false, decide_false, Bool.false_eq_true,
          if_false]
        ring
      · simp only [touches, Bool.false_eq_true, if_false, not_false_eq_true, decide_true, if_true]
        ring

/-- Every assigned link has the delay of its kind. -/
theorem delay_of_mem_assignDelays
    {link : Link}
    (listed : link ∈ (topology.assignDelays hosts access core).links) :
    link.delay = if link.isAccess hosts then access else core := by
  rcases List.mem_map.1 listed with ⟨original, -, rfl⟩
  rfl

/-- Where nodes stand does not depend on delays. -/
theorem endHosts_assignDelays :
    (topology.assignDelays hosts access core).endHosts = topology.endHosts := by
  have stands :
      endpoints (topology.assignDelays hosts access core).links = endpoints topology.links := by
    rw [endpoints, endpoints, assignDelays, List.zipIdx_map, List.flatMap_map]
    rfl
  rw [endHosts, endHosts, placesByNode, placesByNode, stands]

/-- No path has an end host as an inner node. -/
theorem standsAt_eq_false_of_mem_inner
    {path : topology.graph.Walk a b}
    (isPath : path.IsPath)
    {node : Nat}
    (isInner : node ∈ inner path) :
    (HostSet.ofEndHosts topology.endHosts).standsAt node = false := by
  rw [Bool.eq_false_iff]
  intro isHost
  rcases HostSet.standsAt_iff.1 isHost with ⟨number, listed, rfl⟩
  rcases List.mem_map.1 (SortedSet.mem_ofList.1 listed) with ⟨host, hostListed, rfl⟩
  rcases exists_link_of_mem_endHosts hostListed with ⟨link, linkListed, stands⟩
  have hangs := hangs_of_mem_endHosts hostListed linkListed stands
  exact hangs.leaf.not_mem_inner isPath isInner

end Topology

namespace RouteTable

open NetRun.Topology

variable
    {topology : Topology}
    {table : RouteTable}
    {i j n : Nat}

theorem lt_size_of_isReached
    (reached : (table.cell i j).isReached = true) :
    i < table.size ∧ j < table.size := by
  by_contra outside
  rw [cell, if_neg outside] at reached
  cases reached

/-- A reached cell holds the route along a shortest walk. -/
theorem exists_shortest_along
    (computed : (compute topology).outcome = .ok table)
    (reached : (table.cell i j).length? = some n) :
    ∃ walk : topology.graph.Walk i j,
      Shortest walk ∧ walk.length = n ∧ table.cell i j = .along (topology.linksAlong walk) := by
  rcases lt_size_of_isReached (Route.isReached_iff.2 ⟨n, reached⟩) with ⟨iLt, jLt⟩
  rw [size_of_compute computed] at iLt jLt
  rcases follows_of_compute computed iLt jLt with missing | ⟨walk, -, fits, equal⟩
  · rw [missing] at reached
    cases reached
  · have length : walk.length = n := by
      rw [equal, Route.length?_along (by simpa using fits), length_linksAlong] at reached
      exact Option.some.inj reached
    have least := ((length?_eq_some_iff_of_compute computed iLt jLt).1 reached).2
    refine ⟨walk, ?_, length, equal⟩
    intro other
    rw [length]
    exact least other

/--
After links have been given their delays by kind, the delay of a route between
different nodes depends on its hops and on how many of its two ends are end
hosts: as many of its links are access links, but no more than there are.
-/
theorem delay_eq_of_assignDelays
    {access core : UInt64}
    (computed :
      (compute
        (topology.assignDelays (.ofEndHosts topology.endHosts) access core)).outcome =
          .ok table)
    {source target : NodeId}
    (apart : source ≠ target)
    {hops : UInt32}
    (reached : (table.cell source.toNat target.toNat).hops = some hops) :
    (table.cell source.toNat target.toNat).delay.toNat =
      min (2 ^ 64 - 1)
        (min ((HostSet.ofEndHosts topology.endHosts).among source target) hops.toNat *
            access.toNat +
          (hops.toNat -
              min ((HostSet.ofEndHosts topology.endHosts).among source target) hops.toNat) *
            core.toNat) := by
  rcases exists_shortest_along computed (Route.length?_eq_some_iff.2 ⟨hops, reached, rfl⟩) with
    ⟨walk, shortest, length, equal⟩
  have notNil : ¬ walk.Nil := by
    apply Walk.not_nil_of_ne
    intro same
    exact apart (UInt32.toNat_inj.1 same)
  have free :
      ∀ node ∈ inner walk, (HostSet.ofEndHosts topology.endHosts).standsAt node = false := by
    intro node isInner
    have notHost := standsAt_eq_false_of_mem_inner shortest.isPath isInner
    rwa [endHosts_assignDelays] at notHost
  have touching := countP_isAccess_of_inner notNil free
  have assigned :
      ∀ link ∈ Topology.linksAlong _ walk,
        link.delay =
          if link.isAccess (.ofEndHosts topology.endHosts) then access else core := by
    intro link taken
    exact delay_of_mem_assignDelays (mem_links_of_mem_linksAlong taken)
  have sum := sum_delay_of_isAccess assigned
  rw [touching, length_linksAlong, length, ← HostSet.among_eq] at sum
  rw [equal, Route.toNat_delay_along, sum, Nat.min_comm]
  rfl

theorem kite_delay_eq_of_assignDelays :
    ∃ table,
      (compute (kite.assignDelays (.ofEndHosts kite.endHosts) 3 10)).outcome = .ok table ∧
        (table.cell 4 5).hops = some 4 ∧ (table.cell 4 5).delay = 26 ∧
          (table.cell 0 5).hops = some 3 ∧ (table.cell 0 5).delay = 23 := by
  have computed :
      (compute (kite.assignDelays (.ofEndHosts kite.endHosts) 3 10)).outcome = .ok _ := rfl
  have between :=
    delay_eq_of_assignDelays computed (show (4 : NodeId) ≠ 5 by decide) rfl
  have toward :=
    delay_eq_of_assignDelays computed (show (0 : NodeId) ≠ 5 by decide) rfl
  exact ⟨_, rfl, rfl, UInt64.toNat_inj.1 between, rfl, UInt64.toNat_inj.1 toward⟩

end RouteTable

end NetRun
