import NetRun.Proofs.Ordered.Accumulate
import NetRun.Proofs.Topology.Graph
import NetRun.Topology.EndHost

/-!
# The places of nodes

A node stands at a place if it is that end of the link listed there.  Sorting
all places by their nodes loses none and keeps their order, so an end host is
a node with one place: no other end of any link is the node.
-/

namespace NetRun

/-- The other side of a link. -/
def Side.opposite :
    Side → Side
  | .first => .second
  | .second => .first

namespace Topology

open NetRun.Ordered

variable
    {topology : Topology}
    {links : List Link}
    {link : Link}
    {node : NodeId}
    {place : Place}
    {host : EndHost}

/-- A link stands between two nodes if one of its sides has the first and the other the second. -/
theorem joins_iff_exists_side
    {a b : Nat} :
    link.joins a b = true ↔
      ∃ side, (link.node side).toNat = a ∧ (link.node side.opposite).toNat = b := by
  rw [Link.joins_iff]
  constructor
  · rintro (⟨rfl, rfl⟩ | ⟨rfl, rfl⟩)
    · exact ⟨.first, rfl, rfl⟩
    · exact ⟨.second, rfl, rfl⟩
  · rintro ⟨side, rfl, rfl⟩
    cases side with
    | first => exact Or.inl ⟨rfl, rfl⟩
    | second => exact Or.inr ⟨rfl, rfl⟩

/-- A node stands at a place if the place is an end of the link listed there. -/
theorem mem_endpoints_iff :
    (node, place) ∈ endpoints links ↔
      ∃ link, links[place.link]? = some link ∧ link.node place.side = node := by
  rcases place with ⟨index, side⟩
  simp only [endpoints, List.mem_flatMap, List.mem_zipIdx_iff_getElem?, Prod.exists]
  constructor
  · rintro ⟨link, position, listed, isEnd⟩
    rcases List.mem_pair.1 isEnd with equal | equal
    · cases equal
      exact ⟨link, listed, rfl⟩
    · cases equal
      exact ⟨link, listed, rfl⟩
  · rintro ⟨link, listed, rfl⟩
    refine ⟨link, index, listed, List.mem_pair.2 ?_⟩
    cases side with
    | first => exact Or.inl rfl
    | second => exact Or.inr rfl

/-- The places where a node stands, in order. -/
def placesOf
    (links : List Link)
    (node : NodeId) :
    List Place :=
  ((endpoints links).filter fun stand => stand.1 = node).map Prod.snd

theorem mem_placesOf_iff :
    place ∈ placesOf links node ↔
      ∃ link, links[place.link]? = some link ∧ link.node place.side = node := by
  rw [← mem_endpoints_iff]
  simp [placesOf]

/-- Sorted by nodes, all places are still there. -/
theorem getD_get?_placesByNode :
    ((placesByNode links).get? node).getD [] = placesOf links node := by
  have accumulated :=
    @SortedMap.getD_get?_foldl_accumulate NodeId (List Place) (NodeId × Place) _ _ _ _ _ _
      Prod.fst (fun places stand => places ++ [stand.2]) [] .empty node (endpoints links)
  rw [List.foldl_append_eq_append, ← List.flatMap_def, ← List.map_eq_flatMap] at accumulated
  exact accumulated

/-- An end host is a node with a single place. -/
theorem mem_endHosts_iff :
    host ∈ topology.endHosts ↔ placesOf topology.links host.node = [host.place] := by
  have single {places : Option (List Place)} :
      places = some [host.place] ↔ places.getD [] = [host.place] := by
    cases places with
    | none => simp
    | some places => simp
  rw [← getD_get?_placesByNode, ← single, ← SortedMap.mem_entries_iff, endHosts,
    List.mem_filterMap]
  constructor
  · rintro ⟨⟨node, places⟩, listed, found⟩
    dsimp only at found
    split at found
    case h_1 place =>
      cases found
      exact listed
    case h_2 => cases found
  · intro listed
    exact ⟨_, listed, rfl⟩

/-- The node of an end host stands at no other place. -/
theorem eq_place_of_mem_endHosts
    (isHost : host ∈ topology.endHosts)
    (listed : topology.links[place.link]? = some link)
    (stands : link.node place.side = host.node) :
    place = host.place := by
  have isPlace := mem_placesOf_iff.2 ⟨link, listed, stands⟩
  rw [mem_endHosts_iff.1 isHost] at isPlace
  exact List.mem_singleton.1 isPlace

/-- The link of an end host is listed where its place says. -/
theorem exists_link_of_mem_endHosts
    (isHost : host ∈ topology.endHosts) :
    ∃ link, topology.links[host.place.link]? = some link ∧
      link.node host.place.side = host.node := by
  apply mem_placesOf_iff.1
  rw [mem_endHosts_iff.1 isHost]
  exact List.mem_singleton_self _

/-- End hosts come in the order of their nodes, each node once. -/
theorem ascending_endHosts
    (topology : Topology) :
    (topology.endHosts.map EndHost.node).Pairwise (· < ·) := by
  apply List.pairwise_map.2
  apply List.Pairwise.filterMap _ _ (placesByNode topology.links).ascending
  rintro ⟨_, places⟩ ⟨_, others⟩ before host found other foundOther
  dsimp only at found foundOther before
  split at found
  case h_2 => cases found
  case h_1 =>
    split at foundOther
    case h_2 => cases foundOther
    case h_1 =>
      cases found
      cases foundOther
      exact before

end Topology

/-- There are no more nodes below a bound than the bound. -/
theorem length_le_of_nodup
    {nodes : List NodeId}
    {bound : Nat}
    (distinct : nodes.Nodup)
    (below : ∀ node ∈ nodes, node.toNat < bound) :
    nodes.length ≤ bound := by
  have distinctNumbers : (nodes.map UInt32.toNat).Nodup :=
    distinct.map fun _ _ => UInt32.toNat_inj.1
  have inside : nodes.map UInt32.toNat ⊆ List.range bound := by
    intro number listed
    rcases List.mem_map.1 listed with ⟨node, isNode, rfl⟩
    exact List.mem_range.2 (below node isNode)
  have bounded := (List.subperm_of_subset distinctNumbers inside).length_le
  rwa [List.length_map, List.length_range] at bounded

/-- The set of the end hosts has their nodes and no other. -/
theorem HostSet.members_ofEndHosts
    (topology : Topology) :
    (HostSet.ofEndHosts topology.endHosts).members = topology.endHosts.map EndHost.node := by
  have setAscends := (HostSet.ofEndHosts topology.endHosts).ascending
  apply setAscends.eq_of_mem_iff topology.ascending_endHosts
  intro node
  exact Ordered.SortedSet.mem_ofList

end NetRun
