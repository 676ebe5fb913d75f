import NetRun.Route.Table

/-!
# Pairs of hosts

A report lists the routes between the ordered pairs of distinct hosts.  Hosts
that the route table does not have are left out with a warning, and a filter
may leave out pairs of the same site.
-/

namespace NetRun

open NetRun.Log

/-- Which pairs of hosts are reported. -/
structure PairFilter where
  /-- Leave out pairs whose numbers agree modulo this; zero leaves out none. -/
  excludeSameSite : Option UInt32
deriving DecidableEq, Repr

/-- The pair is reported. -/
def PairFilter.admits
    (filter : PairFilter)
    (source target : NodeId) :
    Bool :=
  if source == target then false
  else
    match filter.excludeSameSite with
    | some modulus => modulus == 0 || source % modulus != target % modulus
    | none => true

/-- The route between two hosts; without a path it has neither hops nor delay. -/
structure PairRoute where
  source : NodeId
  target : NodeId
  hops : Option UInt32
  delay : Option UInt64
  bottleneck : Bottleneck
deriving DecidableEq, Repr

namespace PairRoute

/-- The pair with its route. -/
def ofRoute
    (source target : NodeId)
    (route : Route) :
    PairRoute :=
  ⟨source, target, route.hops, route.reachedDelay, route.bottleneck⟩

/-- The admitted ordered pairs of a list of hosts, by source and then by target. -/
def admitted
    (filter : PairFilter)
    (hosts : List NodeId) :
    List (NodeId × NodeId) :=
  hosts.flatMap fun source =>
    (hosts.filter (filter.admits source)).map fun target => (source, target)

/-- What is reported about a host that the table does not have. -/
def unknownHost
    (host : NodeId) :
    Entry :=
  warning s!"End host {host} is not a node of the topology; skipping"

/-- The admitted pairs of hosts with their routes. -/
def collect
    (table : RouteTable)
    (hosts : HostSet)
    (filter : PairFilter) :
    Logged Crash (List PairRoute) := do
  let known := hosts.members.filter table.contains
  let unknown := hosts.members.filter fun host => !table.contains host
  .report (unknown.map unknownHost)
  let pairs ← .ofExcept <|
    (admitted filter known).mapM fun (source, target) =>
      (table.route source target).map (ofRoute source target)
  let count := pairs.length
  let used := known.length
  .note (debug s!"Collected {count} pairs from {used} end hosts")
  return pairs

end PairRoute

end NetRun
