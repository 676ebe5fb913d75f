import NetRun.Workload.Trace

/-!
# Fanout of a workload

Every flow is moved to replicas of its two hosts.  Replica `r` of a node is
`r` times the number of core nodes further on, and `r` is drawn anew for each
end of each flow, the source first.
-/

namespace NetRun

/-- Why a workload is refused. -/
inductive WorkloadError where
  | zeroFanout
  | nonPositiveDuration (seconds : Float)
  | zeroLinkRate
  | overflow (node : UInt32) (offset : UInt64)
deriving DecidableEq, Repr

/-- What a refusal says. -/
def WorkloadError.message :
    WorkloadError → String
  | .zeroFanout => "fanout must be at least 1"
  | .nonPositiveDuration seconds =>
    "duration must be positive, got " ++ Decimal.plain.write seconds
  | .zeroLinkRate => "link rate must be non-zero"
  | .overflow node offset =>
    s!"node {node} shifted by {offset} does not fit in a 32-bit node id"

/-- A computation that draws from a stream and may be refused on the way. -/
abbrev Drawing (σ : Type) :=
  ExceptT WorkloadError (StateM σ)

section

variable {σ : Type}

/-- A node moved by a number of times the core. -/
def shiftNode
    (core : UInt32)
    (node : NodeId)
    (index : UInt32) :
    Except WorkloadError NodeId :=
  let offset := index.toUInt64 * core.toUInt64
  let shifted := node.toUInt64 + offset
  if shifted.toNat < 4294967296 then .ok shifted.toUInt32 else .error (.overflow node offset)

/-- A replica of a node, its index drawn from the stream. -/
def drawReplica
    (draw : σ → UInt32 × σ)
    (core : UInt32)
    (node : NodeId) :
    Drawing σ NodeId :=
  ExceptT.mk fun stream =>
    let (index, rest) := draw stream
    (shiftNode core node index, rest)

/-- Move the two ends of a flow. -/
def Flow.spread
    (draw : σ → UInt32 × σ)
    (core : UInt32)
    (flow : Flow) :
    Drawing σ Flow := do
  let source ← drawReplica draw core flow.source
  let target ← drawReplica draw core flow.target
  return { flow with source := source, target := target }

/-- Move every flow of a workload; `draw` draws a number below the bound that it is given. -/
def spreadFlows
    (draw : UInt32 → σ → UInt32 × σ)
    (flows : List Flow)
    (fanout core : UInt32) :
    Drawing σ (List Flow) :=
  if fanout = 0 then throw .zeroFanout
  else flows.mapM (Flow.spread (draw fanout) core)

end

/-- What there is to report about a workload that has been moved. -/
def spreadNotice
    (flows : List Flow)
    (fanout : UInt32) :
    Log.Entry :=
  let count := flows.length
  Log.info s!"Spread {count} flows over fanout {fanout}"

end NetRun
