import NetRun.Decimal.Layout
import NetRun.Log.Logged
import NetRun.Table.Render
import NetRun.Table.Row
import NetRun.Topology.Basic

/-!
# Workload traces

A trace has one row per flow: its start time, its size in bytes, its source
and its destination.  If the first line has a single word, that word is the
number of flows.  A start time keeps its text, so that a trace that is read
and written again shows it unchanged.
-/

namespace NetRun

open NetRun.Log
open NetRun.Table

/-- A start time in seconds and the text that it is written as. -/
structure StartTime where
  text : String
  seconds : Float
deriving DecidableEq, Repr

/-- The start time that a text denotes. -/
def StartTime.ofText?
    (text : String) :
    Option StartTime :=
  (Decimal.real? text).map fun seconds => ⟨text, seconds⟩

/-- A number of seconds as a start time, in plain digits. -/
def StartTime.ofSeconds
    (seconds : Float) :
    StartTime :=
  ⟨Decimal.plain.write seconds, seconds⟩

/-- A transfer of bytes from one node to another. -/
structure Flow where
  start : StartTime
  size : UInt64
  source : NodeId
  target : NodeId
deriving DecidableEq, Repr

/-- A trace as it is written: the declared number of flows, if any, and the flows. -/
structure Trace where
  declared : Option UInt64
  flows : List Flow
deriving DecidableEq, Repr

namespace Trace

/-- What a text that is no file is called in messages. -/
def unnamed :
    String :=
  "<workload>"

/-- The flow of a row. -/
def readFlow
    (row : Row) :
    Except ReadError Flow := do
  let start ← row.number StartTime.ofText? 0 "start time"
  let size ← row.word64 1 "flow size"
  let source ← row.word32 2 "source node"
  let target ← row.word32 3 "destination node"
  return ⟨start, size, source, target⟩

/-- The flows of the rows that are not blank. -/
def readFlows
    (rows : List Row) :
    Except ReadError (List Flow) :=
  (rows.filter fun row => !row.isBlank).mapM readFlow

/-- The trace that a text describes. -/
def parse
    (origin text : String) :
    Except ReadError Trace :=
  match rows origin text with
  | [] => .ok ⟨none, []⟩
  | head :: rest =>
    if head.size = 1 then do
      let declared ← head.word64 0 "flow count"
      let flows ← readFlows rest
      return ⟨some declared, flows⟩
    else do
      let flows ← readFlows (head :: rest)
      return ⟨none, flows⟩

/-- What there is to report about a trace that has been read. -/
def notices
    (origin : String)
    (trace : Trace) :
    List Entry :=
  let read := trace.flows.length
  let mismatch :=
    match trace.declared with
    | some declared =>
      if read = declared.toNat then []
      else [warning s!"{origin}: header declares {declared} flows but {read} were read"]
    | none => []
  mismatch ++ [debug s!"Parsed {read} flows from {origin}"]

/-- Read the flows of a trace and report on it. -/
def read
    (origin text : String) :
    Logged ReadError (List Flow) := do
  let trace ← .ofExcept (parse origin text)
  .report (notices origin trace)
  return trace.flows

/-- The text of a trace with its number of flows. -/
def render
    (flows : List Flow) :
    String :=
  Table.render <|
    [toString flows.length] ::
      flows.map fun flow =>
        [flow.start.text, toString flow.size, toString flow.source, toString flow.target]

end Trace

end NetRun
