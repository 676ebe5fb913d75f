import NetRun.Log.Entry
import NetRun.Topology.Basic

/-!
# End hosts

An end host is a node that stands at exactly one end of exactly one link.  A
link from a node to itself has that node at both of its ends.
-/

namespace NetRun

open NetRun.Ordered

/-- One of the two ends of a link. -/
inductive Side where
  | first
  | second
deriving DecidableEq, Repr

/-- The number of a side, as tables show it. -/
def Side.index :
    Side → Nat
  | .first => 0
  | .second => 1

/-- The node at a side of a link. -/
def Link.node
    (link : Link) :
    Side → NodeId
  | .first => link.first
  | .second => link.second

/-- A place at a link: the link's index and a side of it. -/
structure Place where
  link : Nat
  side : Side
deriving DecidableEq, Repr

/-- A node with the one place where it stands. -/
structure EndHost where
  node : NodeId
  place : Place
deriving DecidableEq, Repr

/-- Every place of every link with the node that stands there, in order. -/
def endpoints
    (links : List Link) :
    List (NodeId × Place) :=
  links.zipIdx.flatMap fun (link, index) =>
    [(link.first, ⟨index, .first⟩), (link.second, ⟨index, .second⟩)]

/-- The places of each node, in order. -/
def placesByNode
    (links : List Link) :
    SortedMap NodeId (List Place) :=
  (endpoints links).foldl (fun places (node, place) => places.append node place)
    SortedMap.empty

/-- The end hosts of a network, in ascending order. -/
def Topology.endHosts
    (topology : Topology) :
    List EndHost :=
  (placesByNode topology.links).entries.filterMap fun (node, places) =>
    match places with
    | [place] => some ⟨node, place⟩
    | _ => none

/-- What there is to report about the end hosts found. -/
def Topology.endHostsNotice
    (topology : Topology)
    (hosts : List EndHost) :
    Log.Entry :=
  let found := hosts.length
  let nodes := topology.nodes
  Log.info s!"Found {found} end hosts among {nodes} nodes"

/-- The nodes of a list of end hosts. -/
def HostSet.ofEndHosts
    (hosts : List EndHost) :
    HostSet :=
  SortedSet.ofList (hosts.map EndHost.node)

end NetRun
