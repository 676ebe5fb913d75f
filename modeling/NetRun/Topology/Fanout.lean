import NetRun.Log.Entry
import NetRun.Stop
import NetRun.Topology.EdgeList

/-!
# Fanout of a topology

The lower half of the nodes are core nodes, and the upper half holds one host
for each of them.  Fanout replaces every host by a number of replicas: a link
whose second node is a host becomes one link per replica, the replicas spaced
by the number of core nodes and sharing the bandwidth.
-/

namespace NetRun

/-- Why a topology cannot be fanned out. -/
inductive FanoutError where
  | zeroFanout
  | tooFewLinks (declared : UInt64) (core : UInt32)
  | overflow
deriving DecidableEq, Repr

/-- What a refusal says. -/
def FanoutError.message :
    FanoutError → String
  | .zeroFanout => "fanout must be at least 1"
  | .tooFewLinks declared core =>
    s!"topology declares {declared} links but has {core} core nodes; " ++
      "expected at least one access link per core node"
  | .overflow => "expanded topology does not fit in 32-bit node ids"

/-- A number as a node, if it is below 2^32. -/
def nodeId?
    (n : Nat) :
    Option NodeId :=
  if n < 4294967296 then some (UInt32.ofNat n) else none

/-- The number of core nodes. -/
def Topology.core
    (topology : Topology) :
    UInt32 :=
  topology.nodes / 2

/-- One replica of an access link, moved by a number of times the core. -/
def Link.replica
    (link : Link)
    (core fanout : UInt32)
    (index : Nat) :
    Except FanoutError Link :=
  match nodeId? (link.second.toNat + index * core.toNat) with
  | some second =>
    .ok { link with second := second, bandwidth := link.bandwidth / fanout.toUInt64 }
  | none => .error .overflow

/-- The links that stand for a link after fanout. -/
def Link.fan
    (link : Link)
    (core fanout : UInt32) :
    Except FanoutError (List Link) :=
  if core ≤ link.second then (List.range fanout.toNat).mapM (link.replica core fanout)
  else .ok [link]

/--
Replace every host by `fanout` replicas.  The count of declared links is taken
exactly.  Beyond 64 bits unchecked arithmetic would wrap it round; here such a
count crashes, as every count does for which there is no room.
-/
def Topology.expandFanout
    (topology : Topology)
    (fanout : UInt32) :
    Except (Stop FanoutError) Topology := do
  if fanout = 0 then
    throw (.refused .zeroFanout)
  let core := topology.core
  let hosts := core.toNat * fanout.toNat
  let some nodes := nodeId? (core.toNat + hosts) | throw (.refused .overflow)
  if topology.declaredLinks.toNat < core.toNat then
    throw (.refused (.tooFewLinks topology.declaredLinks core))
  let declared := topology.declaredLinks.toNat - core.toNat + hosts
  reserve declared EdgeList.linkBytes
  let links ← refusing (topology.links.mapM fun link => link.fan core fanout)
  return ⟨nodes, UInt64.ofNat declared, links.flatten⟩

/-- What there is to report about a fanned out topology. -/
def Topology.fanoutNotice
    (topology expanded : Topology)
    (fanout : UInt32) :
    Log.Entry :=
  let core := topology.core
  let nodes := expanded.nodes
  let links := expanded.declaredLinks
  Log.info s!"Expanded {core} core nodes with fanout {fanout}: {nodes} nodes, {links} links"

end NetRun
