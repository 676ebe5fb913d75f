import NetRun.Proofs.Topology.EndHosts
import Mathlib.Algebra.Ring.Nat
import Mathlib.Data.Finset.Card
import Mathlib.Data.Fintype.Prod

/-!
# Degrees of nodes

The degree of a node is the number of places where it stands: a link from a node
to itself counts twice for it, and each of several links between two nodes
counts.  No place is listed twice when the places are sorted by nodes, so the
end hosts are the nodes of degree one, whatever numbers the links mention.
-/

namespace NetRun

instance :
    Fintype Side where
  elems := {.first, .second}
  complete side := by
    cases side with
    | first => decide
    | second => decide

namespace Topology

variable
    {topology : Topology}
    {links : List Link}
    {node : NodeId}

/-- The places where a node stands, each an index of a link and a side of it. -/
def places
    (links : List Link)
    (node : NodeId) :
    Finset (Fin links.length × Side) :=
  Finset.univ.filter fun place => links[place.1].node place.2 = node

/-- The number of places where a node stands. -/
def degree
    (topology : Topology)
    (node : NodeId) :
    Nat :=
  (places topology.links node).card

/-- An index and a side, taken as a place of a list of links. -/
def toPlace
    (length : Nat) :
    Fin length × Side ↪ Place where
  toFun place := ⟨place.1, place.2⟩
  inj' := by
    rintro ⟨index, side⟩ ⟨other, otherSide⟩ same
    rcases Place.mk.inj same with ⟨sameIndex, sameSide⟩
    exact Prod.ext (Fin.ext sameIndex) sameSide

/-- The places are listed link by link, for each link its first side before its second. -/
theorem map_snd_endpoints :
    (endpoints links).map Prod.snd =
      (List.range links.length).flatMap fun index =>
        [⟨index, .first⟩, ⟨index, .second⟩] := by
  rw [List.range_eq_range', ← List.zipIdx_map_snd 0 links, List.flatMap_map, endpoints,
    List.map_flatMap]
  rfl

/-- No place is listed twice. -/
theorem nodup_placesOf :
    (placesOf links node).Nodup := by
  have nodup : ((endpoints links).map Prod.snd).Nodup := by
    rw [map_snd_endpoints, List.nodup_flatMap]
    refine ⟨fun index _ => ?_, List.nodup_range.imp fun different => ?_⟩
    · simp
    · simpa [Function.onFun] using different.symm
  exact nodup.sublist (List.filter_sublist.map Prod.snd)

/-- A node stands at as many places as are listed for it. -/
theorem degree_eq_length_placesOf
    (topology : Topology)
    (node : NodeId) :
    topology.degree node = (placesOf topology.links node).length := by
  have same :
      (places topology.links node).map (toPlace topology.links.length) =
        (placesOf topology.links node).toFinset := by
    ext place
    rw [List.mem_toFinset, mem_placesOf_iff, Finset.mem_map]
    constructor
    · rintro ⟨⟨index, side⟩, stands, rfl⟩
      exact ⟨_, List.getElem?_eq_getElem index.isLt, (Finset.mem_filter.1 stands).2⟩
    · rintro ⟨link, listed, stands⟩
      rcases List.getElem?_eq_some_iff.1 listed with ⟨isIndex, rfl⟩
      exact ⟨(⟨place.link, isIndex⟩, place.side),
        Finset.mem_filter.2 ⟨Finset.mem_univ _, stands⟩, rfl⟩
  rw [degree, ← Finset.card_map (toPlace topology.links.length), same,
    List.toFinset_card_of_nodup nodup_placesOf]

/-- Each link adds to the degree of a node the number of its own ends that are the node. -/
theorem degree_eq_sum
    (topology : Topology)
    (node : NodeId) :
    topology.degree node =
      (topology.links.map fun link => [link.first, link.second].count node).sum := by
  have ends :
      (endpoints topology.links).map Prod.fst =
        topology.links.flatMap fun link => [link.first, link.second] := by
    conv_rhs => rw [← List.zipIdx_map_fst 0 topology.links, List.flatMap_map]
    rw [endpoints, List.map_flatMap]
    rfl
  have counted := congrArg (List.count node) ends
  rw [List.count_flatMap, List.count_eq_countP, List.countP_map] at counted
  rw [degree_eq_length_placesOf, placesOf, List.length_map, ← List.countP_eq_length_filter]
  exact counted

/-- The nodes of the end hosts are those of degree one. -/
theorem mem_map_node_endHosts_iff :
    node ∈ topology.endHosts.map EndHost.node ↔ topology.degree node = 1 := by
  rw [degree_eq_length_placesOf, List.length_eq_one_iff, List.mem_map]
  constructor
  · rintro ⟨host, isHost, rfl⟩
    exact ⟨host.place, mem_endHosts_iff.1 isHost⟩
  · rintro ⟨place, single⟩
    exact ⟨⟨node, place⟩, mem_endHosts_iff.2 single, rfl⟩

/--
In any topology, with numbers inside its range or not, the end hosts come in
strictly ascending order of their nodes, none twice.  They are exactly the nodes
that stand at one place, where a link counts once for each of its ends, and each
is recorded with that place: an index of the list of links, and the side of the
link there that is the node.
-/
theorem endHosts_stand_at_one_place
    (topology : Topology) :
    topology.endHosts.Pairwise (fun host later => host.node < later.node) ∧
      (topology.endHosts.map EndHost.node).Nodup ∧
        (∀ node, node ∈ topology.endHosts.map EndHost.node ↔ topology.degree node = 1) ∧
          (∀ node,
            topology.degree node =
              (topology.links.map fun link => [link.first, link.second].count node).sum) ∧
            ∀ host ∈ topology.endHosts,
              ∃ isIndex : host.place.link < topology.links.length,
                topology.links[host.place.link].node host.place.side = host.node := by
  have ascending := topology.ascending_endHosts
  refine ⟨List.pairwise_map.1 ascending, ascending.imp UInt32.ne_of_lt,
    fun node => mem_map_node_endHosts_iff, topology.degree_eq_sum, ?_⟩
  intro host isHost
  rcases exists_link_of_mem_endHosts isHost with ⟨link, listed, stands⟩
  rcases List.getElem?_eq_some_iff.1 listed with ⟨isIndex, rfl⟩
  exact ⟨isIndex, stands⟩

/--
Two links between one pair of nodes, a link from a node to itself, a host written
first whose number is out of range, and a link between two hosts.
-/
def tangle :
    Topology :=
  .ofLinks 3 [⟨0, 1, 10, 1⟩, ⟨1, 0, 10, 1⟩, ⟨2, 2, 10, 1⟩, ⟨7, 0, 10, 1⟩, ⟨9, 8, 10, 1⟩]

theorem tangle_endHosts_stand_at_one_place :
    tangle.endHosts = [⟨7, 3, .first⟩, ⟨8, 4, .second⟩, ⟨9, 4, .first⟩] ∧
      (tangle.degree 8 = 1 ∧ tangle.links[4].node .second = 8) ∧
        (tangle.degree 1 = 2 ∧ 1 ∉ tangle.endHosts.map EndHost.node) ∧
          tangle.degree 2 = 2 ∧ 2 ∉ tangle.endHosts.map EndHost.node := by
  rcases endHosts_stand_at_one_place tangle with ⟨-, -, single, sums, stand⟩
  have isHost : ⟨8, 4, .second⟩ ∈ tangle.endHosts := by decide
  rcases stand _ isHost with ⟨isIndex, stands⟩
  have parallel : tangle.degree 1 = 2 := sums 1
  have loop : tangle.degree 2 = 2 := sums 2
  refine ⟨rfl, ⟨(single 8).1 (List.mem_map_of_mem isHost), stands⟩, ⟨parallel, ?_⟩, loop, ?_⟩
  · rw [single, parallel]
    decide
  · rw [single, loop]
    decide

end Topology

end NetRun
