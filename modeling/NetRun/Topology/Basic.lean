import NetRun.Ordered.Set

/-!
# Topologies

A topology declares a number of nodes and a number of links and lists its
links.  The declared number of links is what its table says and need not be
the number listed.
-/

namespace NetRun

/-- A node's number. -/
abbrev NodeId :=
  UInt32

/-- An undirected link, its two ends in the order in which they are written. -/
structure Link where
  first : NodeId
  second : NodeId
  bandwidth : UInt64
  delay : UInt64
deriving DecidableEq, Repr

/-- A network: its nodes are the numbers below `nodes`. -/
structure Topology where
  nodes : UInt32
  declaredLinks : UInt64
  links : List Link
deriving DecidableEq, Repr

/-- The network without nodes. -/
def Topology.empty :
    Topology :=
  ⟨0, 0, []⟩

/-- A network that declares as many links as it lists. -/
def Topology.ofLinks
    (nodes : UInt32)
    (links : List Link) :
    Topology :=
  ⟨nodes, UInt64.ofNat links.length, links⟩

/-- Every end of every link is a node of the network. -/
def Topology.InRange
    (topology : Topology) :
    Prop :=
  ∀ link ∈ topology.links, link.first < topology.nodes ∧ link.second < topology.nodes

/-- The nodes that send or receive traffic. -/
abbrev HostSet :=
  Ordered.SortedSet NodeId

end NetRun
