import NetRun.Topology.Basic

/-!
# Routes

A route carries three things along one path: the number of links, the sum of
their delays and the smallest of their bandwidths.  Following one route and
then another adds, adds and takes the smaller one.
-/

namespace NetRun

/-- The narrowest capacity on a path; a path without links has none. -/
inductive Bottleneck where
  | limited (capacity : UInt64)
  | unconstrained
deriving DecidableEq, Repr

namespace Bottleneck

/-- The capacity, if the path has one. -/
def capacity? :
    Bottleneck → Option UInt64
  | limited capacity => some capacity
  | unconstrained => none

/-- The narrower of two bottlenecks; every capacity is narrower than none. -/
def narrower :
    Bottleneck → Bottleneck → Bottleneck
  | limited a, limited b => limited (if b < a then b else a)
  | limited a, unconstrained => limited a
  | unconstrained, other => other

/-- What is shown for the bottleneck of a path without links. -/
def shownIfUnconstrained :
    UInt64 :=
  1000000000

/-- The bottleneck as reports show it. -/
def shown
    (bottleneck : Bottleneck) :
    String :=
  toString (bottleneck.capacity?.getD shownIfUnconstrained)

end Bottleneck

/-- The best route known between two nodes; without hops there is none yet. -/
structure Route where
  hops : Option UInt32
  delay : UInt64
  bottleneck : Bottleneck
deriving DecidableEq, Repr

namespace Route

/-- The route from a node to itself. -/
def self :
    Route :=
  ⟨some 0, 0, .unconstrained⟩

/-- No route. -/
def unreached :
    Route :=
  ⟨none, 0, .unconstrained⟩

instance : Inhabited Route :=
  ⟨unreached⟩

/-- The route over one link. -/
def direct
    (link : Link) :
    Route :=
  ⟨some 1, link.delay, .limited link.bandwidth⟩

/-- There is a route. -/
def isReached
    (route : Route) :
    Bool :=
  route.hops.isSome

/-- The delay, if there is a route. -/
def reachedDelay
    (route : Route) :
    Option UInt64 :=
  route.hops.map fun _ => route.delay

/-- The number of links of two routes in a row, unless it exceeds its word. -/
def addHops
    (a b : UInt32) :
    Option UInt32 :=
  let sum := a.toNat + b.toNat
  if sum < 4294967296 then some (UInt32.ofNat sum) else none

/-- The delay of two routes in a row, at most the largest word. -/
def addDelays
    (a b : UInt64) :
    UInt64 :=
  UInt64.ofNat (min (a.toNat + b.toNat) 18446744073709551615)

/-- Follow one route and then another; both must be reached. -/
def join
    (route next : Route) :
    Option Route := do
  let first ← route.hops
  let second ← next.hops
  let hops ← addHops first second
  return ⟨some hops, addDelays route.delay next.delay,
    route.bottleneck.narrower next.bottleneck⟩

/-- The candidate has fewer hops, or is the first route at all. -/
def improves
    (candidate current : Route) :
    Bool :=
  match candidate.hops, current.hops with
  | some new, some old => new < old
  | some _, none => true
  | none, _ => false

end Route

end NetRun
