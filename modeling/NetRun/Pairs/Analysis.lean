import NetRun.Pairs.Basic

/-!
# Analysis of pairs

The delays of the reached pairs are summed up by their largest, smallest and
mean, and the pairs are counted by bottleneck.  Pairs without a path stay in
the list, and count in neither.
-/

namespace NetRun

open NetRun.Log
open NetRun.Ordered

/-- The extent of a list of delays. -/
structure DelaySummary where
  max : UInt64
  min : UInt64
  mean : Float
  count : Nat
deriving DecidableEq

/-- The exact sum of a list of delays. -/
def totalDelay
    (delays : List UInt64) :
    Nat :=
  delays.foldl (fun total delay => total + delay.toNat) 0

/--
The extent of a list of delays that is not empty.  The mean is the exact sum,
rounded, divided by the count.
-/
def DelaySummary.ofDelays
    (delays : List UInt64) :
    Option DelaySummary := do
  let max ← delays.max?
  let min ← delays.min?
  return ⟨max, min, Float.ofNat (totalDelay delays) / Float.ofNat delays.length,
    delays.length⟩

/-- The number of pairs of each capacity. -/
def bottleneckHistogram
    (pairs : List PairRoute) :
    SortedMap UInt64 Nat :=
  (pairs.filterMap fun pair => pair.bottleneck.capacity?).foldl
    (fun counts capacity => counts.upsert capacity fun count => count.getD 0 + 1)
    SortedMap.empty

/-- All that a report says about a set of pairs. -/
structure PathAnalysis where
  pairs : List PairRoute
  summary : Option DelaySummary
  histogram : SortedMap UInt64 Nat
  unreached : Nat

namespace PathAnalysis

/-- The analysis of a list of pairs. -/
def ofPairs
    (pairs : List PairRoute) :
    PathAnalysis :=
  let delays := pairs.filterMap PairRoute.delay
  { pairs := pairs
    summary := DelaySummary.ofDelays delays
    histogram := bottleneckHistogram pairs
    unreached := pairs.length - delays.length }

/-- The warning about pairs without a path, if there are any. -/
def notices
    (analysis : PathAnalysis) :
    List Entry :=
  let unreached := analysis.unreached
  if unreached = 0 then []
  else
    [warning <|
      s!"{unreached} end-host pairs have no path and are excluded from delay statistics"]

/-- Collect the pairs of a set of hosts and analyse them. -/
def ofHosts
    (table : RouteTable)
    (hosts : HostSet)
    (filter : PairFilter) :
    Logged Crash PathAnalysis := do
  let pairs ← PairRoute.collect table hosts filter
  let analysis := ofPairs pairs
  .report analysis.notices
  return analysis

end PathAnalysis

end NetRun
