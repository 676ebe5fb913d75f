import NetRun.Proofs.Route.Leaf
import NetRun.Proofs.Topology.EndHosts

/-!
# Routes of end hosts

An end host has one link, and the node at the link's other side is its router.
Whatever the order in which pivots are taken, the row of the host is the row of
its router with the link in front.
-/

namespace NetRun

open SimpleGraph

namespace Topology

variable
    {topology : Topology}
    {link : Link}
    {host : EndHost}

/-- A link that touches the node of an end host is the host's link, at the host's side. -/
theorem eq_of_mem_endHosts
    (isHost : host ∈ topology.endHosts)
    (listed : topology.links[host.place.link]? = some link)
    {other : Link}
    (otherListed : other ∈ topology.links)
    {side : Side}
    (stands : other.node side = host.node) :
    other = link ∧ side = host.place.side := by
  rcases List.mem_iff_getElem?.1 otherListed with ⟨index, found⟩
  have same : Place.mk index side = host.place :=
    eq_place_of_mem_endHosts isHost found stands
  rw [← same] at listed ⊢
  rw [found] at listed
  exact ⟨Option.some.inj listed, rfl⟩

/-- The two sides of an end host's link are different nodes. -/
theorem opposite_ne_of_mem_endHosts
    (isHost : host ∈ topology.endHosts)
    (listed : topology.links[host.place.link]? = some link) :
    link.node host.place.side.opposite ≠ host.node := by
  intro loop
  have same :=
    (eq_of_mem_endHosts isHost listed (List.mem_of_getElem? listed) loop).2
  cases side : host.place.side with
  | first =>
      rw [side] at same
      cases same
  | second =>
      rw [side] at same
      cases same

/-- An end host hangs off the node at the other side of its link. -/
theorem hangs_of_mem_endHosts
    (isHost : host ∈ topology.endHosts)
    (listed : topology.links[host.place.link]? = some link)
    (stands : link.node host.place.side = host.node) :
    topology.Hangs host.node.toNat (link.node host.place.side.opposite).toNat link := by
  have inLinks := List.mem_of_getElem? listed
  have only {other : Link} (otherListed : other ∈ topology.links) {node : Nat}
      (joins : other.joins host.node.toNat node = true) :
      other = link ∧ node = (link.node host.place.side.opposite).toNat := by
    rcases joins_iff_exists_side.1 joins with ⟨side, atHost, rfl⟩
    rcases eq_of_mem_endHosts isHost listed otherListed (UInt32.toNat_inj.1 atHost) with
      ⟨rfl, rfl⟩
    exact ⟨rfl, rfl⟩
  have joins :
      link.joins host.node.toNat (link.node host.place.side.opposite).toNat = true :=
    joins_iff_exists_side.2 ⟨host.place.side, by rw [stands], rfl⟩
  have adjacent :
      topology.graph.Adj host.node.toNat (link.node host.place.side.opposite).toNat := by
    refine ⟨?_, link, inLinks, joins⟩
    intro loop
    exact opposite_ne_of_mem_endHosts isHost listed (UInt32.toNat_inj.1 loop.symm)
  refine ⟨adjacent, ?_, ?_⟩
  · rcases adj_iff_lastLink.1 adjacent with ⟨-, last, isLast⟩
    rcases joins_of_lastLink isLast with ⟨lastListed, lastJoins⟩
    rw [isLast, (only lastListed lastJoins).1]
  · rintro node ⟨-, other, otherListed, otherJoins⟩
    exact (only otherListed otherJoins).2

end Topology

namespace RouteTable

open NetRun.Topology

variable
    {topology : Topology}
    {table : RouteTable}

/--
The route of an end host to another node is its link followed by the route of
the node at the link's other side.  Where that node has no route, neither has
the host.
-/
theorem end_host_follows_its_router
    (computed : (compute topology).outcome = .ok table)
    {host : EndHost}
    (isHost : host ∈ topology.endHosts) :
    ∃ link router,
      topology.links[host.place.link]? = some link ∧
        link.node host.place.side = host.node ∧
          link.node host.place.side.opposite = router ∧
            ∀ target < topology.nodes, target ≠ host.node →
              ((table.cell router.toNat target.toNat).isReached = true →
                (Route.direct link).join (table.cell router.toNat target.toNat) =
                  some (table.cell host.node.toNat target.toNat)) ∧
                ((table.cell router.toNat target.toNat).isReached = false →
                  table.cell host.node.toNat target.toNat = .unreached) := by
  rcases exists_link_of_mem_endHosts isHost with ⟨link, listed, stands⟩
  have hangs := hangs_of_mem_endHosts isHost listed stands
  refine ⟨link, _, listed, stands, rfl, ?_⟩
  intro target targetLt other
  have inside := UInt32.lt_iff_toNat_lt.1 targetLt
  have apart : host.node.toNat ≠ target.toNat := by
    intro same
    exact other (UInt32.toNat_inj.1 same.symm)
  exact
    ⟨join_cell_of_hangs computed hangs inside apart,
      cell_eq_unreached_of_hangs computed hangs inside apart⟩

/-- Two ways of equal length between 0 and 3, and a host on each of the two nodes. -/
def kite :
    Topology :=
  .ofLinks 6
    [⟨5, 3, 40, 1⟩, ⟨0, 2, 50, 9⟩, ⟨2, 3, 50, 9⟩, ⟨0, 1, 10, 1⟩, ⟨1, 3, 70, 5⟩, ⟨0, 4, 60, 2⟩]

theorem kite_end_host_follows_its_router :
    ∃ table,
      (compute kite).outcome = .ok table ∧
        ⟨4, ⟨5, .second⟩⟩ ∈ kite.endHosts ∧
          table.cell 0 5 = ⟨some 3, 7, .limited 10⟩ ∧
            (Route.direct ⟨0, 4, 60, 2⟩).join (table.cell 0 5) = some (table.cell 4 5) := by
  have isHost : ⟨4, ⟨5, .second⟩⟩ ∈ kite.endHosts := by decide
  refine ⟨_, rfl, isHost, rfl, ?_⟩
  rcases end_host_follows_its_router (show (compute kite).outcome = .ok _ from rfl) isHost with
    ⟨link, router, listed, -, isRouter, follows⟩
  cases listed
  cases isRouter
  exact (follows 5 (by decide) (by decide)).1 rfl

end RouteTable

end NetRun
