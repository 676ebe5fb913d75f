import NetRun.Log.Logged
import NetRun.Ordered.Map
import NetRun.Table.Row

/-!
# Completion logs

A run logs one row per finished flow: its size in bytes, its completion time,
its start time and its number.  Only flows that started after the warm-up and
finished by the deadline count; of several rows of one flow that count, the
last one stays.
-/

namespace NetRun

open NetRun.Log
open NetRun.Ordered
open NetRun.Table

/-- The completion times of a run, by flow size and then by flow number. -/
abbrev CompletionRun :=
  SortedMap UInt64 (SortedMap UInt64 Float)

/-- Which flows count. -/
structure Window where
  /-- The latest time by which a flow must have finished. -/
  deadline : Float
  /-- The earliest start time. -/
  warmup : Float
deriving DecidableEq, Repr

/-- The flow counts. -/
def Window.admits
    (window : Window)
    (completion start : Float) :
    Bool :=
  decide (completion + start ≤ window.deadline) && decide (window.warmup ≤ start)

/-- A row of a log. -/
structure Completion where
  size : UInt64
  time : Float
  start : Float
  flow : UInt64
deriving DecidableEq, Repr

namespace Completion

/-- The record of a row. -/
def read
    (row : Row) :
    Except ReadError Completion := do
  let size ← row.word64 0 "flow size"
  let time ← row.real 1 "completion time"
  let start ← row.real 2 "start time"
  let flow ← row.word64 3 "flow id"
  return ⟨size, time, start, flow⟩

/-- The record counts. -/
def isAdmitted
    (window : Window)
    (record : Completion) :
    Bool :=
  window.admits record.time record.start

/-- Put a record into a run, in place of an earlier one of the same flow. -/
def enter
    (run : CompletionRun)
    (record : Completion) :
    CompletionRun :=
  run.upsert record.size fun flows =>
    (flows.getD SortedMap.empty).insert record.flow record.time

end Completion

namespace CompletionRun

/-- What a text that is no file is called in messages. -/
def unnamed :
    String :=
  "<fct log>"

/-- The run of the records that count. -/
def ofRecords
    (window : Window)
    (records : List Completion) :
    CompletionRun :=
  (records.filter (Completion.isAdmitted window)).foldl Completion.enter SortedMap.empty

/-- The records of the rows that are not blank. -/
def readRecords
    (origin text : String) :
    Except ReadError (List Completion) :=
  ((rows origin text).filter fun row => !row.isBlank).mapM Completion.read

/-- The run that a text logs. -/
def parse
    (origin text : String)
    (window : Window) :
    Except ReadError CompletionRun :=
  (readRecords origin text).map (ofRecords window)

/-- What there is to report about a log that has been read. -/
def notice
    (origin : String)
    (window : Window)
    (records : List Completion) :
    Entry :=
  let kept := (records.filter (Completion.isAdmitted window)).length
  let total := records.length
  debug s!"{origin}: kept {kept} of {total} flows"

/-- Read a run and report on it. -/
def read
    (origin text : String)
    (window : Window) :
    Logged ReadError CompletionRun := do
  let records ← .ofExcept (readRecords origin text)
  .note (notice origin window records)
  return ofRecords window records

end CompletionRun

end NetRun
