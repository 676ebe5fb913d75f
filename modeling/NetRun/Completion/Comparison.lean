import NetRun.Completion.Log
import NetRun.Statistics.Quantity

/-!
# Comparison of two runs

Only flows that finished in both runs are compared.  They are taken in
ascending order of size and number, and every table of the comparison keeps
that order, so that the same place always belongs to the same flow.
-/

namespace NetRun

open NetRun.Log
open NetRun.Ordered

/-- A flow that finished in both runs, with its two completion times. -/
structure CommonFlow where
  size : UInt64
  flow : UInt64
  regular : Float
  alternative : Float
deriving DecidableEq, Repr

/-- The flows of one size that finished in both runs. -/
def commonOfSize
    (size : UInt64)
    (regular alternative : SortedMap UInt64 Float) :
    List CommonFlow :=
  alternative.entries.filterMap fun (flow, time) =>
    (regular.get? flow).map fun regularTime => ⟨size, flow, regularTime, time⟩

/-- The flows that finished in both runs, by size and then by number. -/
def commonFlows
    (regular alternative : CompletionRun) :
    List CommonFlow :=
  alternative.entries.flatMap fun (size, flows) =>
    match regular.get? size with
    | some regularFlows => commonOfSize size regularFlows flows
    | none => []

/-- The completion times of the compared flows in one run. -/
structure Samples where
  /-- The times of the flows of each size. -/
  bySize : SortedMap UInt64 (List Float)
  /-- The times of all flows. -/
  times : List Float
  /-- The times of all flows, each multiplied by the size of its flow. -/
  weighted : List Float

/-- No samples. -/
def Samples.empty :
    Samples :=
  ⟨SortedMap.empty, [], []⟩

/-- The samples with one more flow at their end. -/
def Samples.push
    (samples : Samples)
    (size : UInt64)
    (time : Float) :
    Samples :=
  ⟨samples.bySize.append size time, samples.times ++ [time],
    samples.weighted ++ [time * size.toFloat]⟩

/-- The samples of both runs, flow by flow, and the sizes of the flows. -/
structure Comparison where
  regular : Samples
  alternative : Samples
  sizes : List Float

namespace Comparison

/-- Nothing compared. -/
def empty :
    Comparison :=
  ⟨Samples.empty, Samples.empty, []⟩

/-- The comparison with one more flow at its end. -/
def push
    (comparison : Comparison)
    (flow : CommonFlow) :
    Comparison :=
  ⟨comparison.regular.push flow.size flow.regular,
    comparison.alternative.push flow.size flow.alternative,
    comparison.sizes ++ [flow.size.toFloat]⟩

/-- Compare two runs. -/
def ofRuns
    (regular alternative : CompletionRun) :
    Comparison :=
  (commonFlows regular alternative).foldl push empty

/-- The number of flows compared. -/
def count
    (comparison : Comparison) :
    Nat :=
  comparison.sizes.length

/-- The sum of the sizes of the flows compared. -/
def totalBytes
    (comparison : Comparison) :
    Float :=
  total comparison.sizes

/-- What there is to report about a comparison. -/
def notices
    (regular alternative : CompletionRun)
    (comparison : Comparison) :
    List Entry :=
  let missing := alternative.keys.filter fun size => (regular.get? size).isNone
  let flows := comparison.count
  let sizes := comparison.alternative.bySize.size
  missing.map (fun size => debug s!"Size {size} has no completed flows in the regular run") ++
    [info s!"Compared {flows} flows across {sizes} sizes"]

end Comparison

end NetRun
