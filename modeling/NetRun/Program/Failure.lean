import NetRun.Completion.Reduction
import NetRun.Route.Table
import NetRun.Settings.Basic
import NetRun.Store.Basic
import NetRun.Table.Row
import NetRun.Topology.Fanout
import NetRun.Workload.Fanout

/-!
# Failures of a command

Every failure is told from the outside in: what was being done, and then what
went wrong.
-/

namespace NetRun.Program

open NetRun.Table

/-- What a file is read as. -/
inductive InputKind where
  | topology
  | hosts
  | workload
  | regularLog
  | alternativeLog
  | statistics
deriving DecidableEq, Repr

/-- What was being done when a file could not be read. -/
def InputKind.task
    (kind : InputKind)
    (path : String) :
    String :=
  match kind with
  | .topology => s!"Failed to load topology '{path}'"
  | .hosts => s!"Failed to load end hosts '{path}'"
  | .workload => s!"Failed to load workload '{path}'"
  | .regularLog => s!"Failed to load regular FCT log {path}"
  | .alternativeLog => s!"Failed to load alternative FCT log {path}"
  | .statistics => s!"Failed to read statistics {path}"

/-- Why a command fails. -/
inductive Failure where
  | settingsFile (path : String) (fault : Fault)
  | settingsText (path : String)
  | settings (cause : SettingsError)
  | input (kind : InputKind) (path : String) (cause : ReadError)
  | routes (path : String) (cause : RouteError)
  | noReachedPair (topology hosts : String)
  | fanout (cause : FanoutError)
  | workload (cause : WorkloadError)
  | noCommonFlow (regular alternative : String)
  | noSamples (label : String)
  | reduction (cause : ReductionError)
  /-- A table or a topology could not be written. -/
  | output (path : String) (fault : Fault)
  /-- A JSON report could not be written. -/
  | report (path : String) (fault : Fault)
  /-- A directory could not be made. -/
  | directory (path : String) (fault : Fault)
deriving DecidableEq, Repr

namespace Failure

/-- The failure is one of creating or writing an output. -/
def isOutput :
    Failure → Bool
  | output _ _ => true
  | report _ _ => true
  | directory _ _ => true
  | _ => false

/-- The failure from the outside in. -/
def chain :
    Failure → List String
  | settingsFile path fault => [s!"Failed to open configuration '{path}'", fault.message]
  | settingsText path => [s!"Failed to parse configuration '{path}'"]
  | settings cause => [cause.message]
  | input kind path cause => kind.task path :: cause.chain
  | routes path cause => [s!"Failed to compute routes for '{path}'", cause.message]
  | noReachedPair topology hosts =>
    [s!"No reachable end-host pairs in '{topology}' for the hosts in '{hosts}'"]
  | fanout cause => [cause.message]
  | workload cause => [cause.message]
  | noCommonFlow regular alternative =>
    [s!"No flow completed within the deadlines in both {regular} and {alternative}"]
  | noSamples label => [s!"No samples for run '{label}'"]
  | reduction cause => [cause.message]
  | output path fault => (ReadError.inaccessible path fault.message).chain
  | report path fault => [s!"Failed to write JSON report to {path}", fault.message]
  | directory path fault =>
    [s!"Failed to create output directory: {path}", fault.message]

end Failure

end NetRun.Program
