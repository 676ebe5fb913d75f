import NetRun.Ordered.Map
import NetRun.Workload.Fanout

/-!
# Offered load

The bytes that each source sends, as a share of what its access link can carry
during the run.
-/

namespace NetRun

open NetRun.Ordered

/-- The bytes that a node sends and their share of its link in percent. -/
structure NodeLoad where
  node : NodeId
  bytes : UInt64
  percent : Float
deriving DecidableEq, Repr

/-- The bytes sent by each source, counted in 64-bit words. -/
def bytesBySource
    (flows : List Flow) :
    SortedMap NodeId UInt64 :=
  flows.foldl
    (fun totals flow => totals.upsert flow.source fun bytes => bytes.getD 0 + flow.size)
    SortedMap.empty

/-- A number of bytes as a percentage of a number of bits. -/
def bytePercent
    (bytes : UInt64)
    (capacity : Float) :
    Float :=
  bytes.toFloat * 8.0 * 100.0 / capacity

/-- The load of every source, in ascending order of the nodes. -/
def offeredLoad
    (flows : List Flow)
    (seconds : Float)
    (bitsPerSecond : UInt64) :
    Except WorkloadError (List NodeLoad) :=
  if ¬ 0.0 < seconds then .error (.nonPositiveDuration seconds)
  else if bitsPerSecond = 0 then .error .zeroLinkRate
  else
    let capacity := bitsPerSecond.toFloat * seconds
    .ok <| (bytesBySource flows).entries.map fun (node, bytes) =>
      ⟨node, bytes, bytePercent bytes capacity⟩

end NetRun
