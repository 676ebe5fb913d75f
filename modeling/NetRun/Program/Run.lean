import NetRun.Log.Threshold
import NetRun.Program.Plan

/-!
# Runs of the program

A run takes words and a store and ends in one of few ways.  Whether it failed
while it worked things out or while it did them, it shows what it printed and
reported until then.
-/

namespace NetRun.Program

open NetRun.Log

/-- How a run ends. -/
inductive Ending where
  | finished
  | helped
  | failed (failure : Failure)
  | misused
  | crashed (crash : Crash)
deriving DecidableEq, Repr

/-- The code that a run ends with. -/
def Ending.code :
    Ending → Nat
  | finished => 0
  | helped => 0
  | failed _ => 1
  | misused => 2
  | crashed _ => 101

/-- What is told about a failure. -/
def Ending.errors :
    Ending → List String
  | failed failure => failure.chain
  | _ => []

/-- The ending of a run that is stopped. -/
def Ending.ofStop :
    Stop Failure → Ending
  | .refused failure => failed failure
  | .crashed crash => crashed crash

/-- What a run leaves. -/
structure Run where
  ending : Ending
  printed : String
  entries : List Entry
  store : Store

/-- A run that does nothing. -/
def Run.idle
    (store : Store)
    (ending : Ending)
    (printed : String) :
    Run :=
  ⟨ending, printed, [], store⟩

/-- The version of the program. -/
def version :
    String :=
  "0.1.0"

/-- The line that names a tool and its version. -/
def versionText
    (tool : Tool) :
    String :=
  tool.name ++ " " ++ version ++ "\n"

/-- The commands of a tool. -/
def helpText
    (tool : Tool) :
    String :=
  printedLines <|
    ("Usage: " ++ tool.name ++ " [OPTIONS] <COMMAND>") :: "" :: "Commands:" ::
      (forms tool).map fun form => "  " ++ form.name

/-- Do what has been worked out. -/
def carryOut
    (store : Store)
    (plan : Planning (List Deed)) :
    Run :=
  match plan.outcome with
  | .error stop => ⟨.ofStop stop, "", plan.entries, store⟩
  | .ok deeds =>
    let (progress, stop) := performAll deeds ⟨store, "", plan.entries⟩
    let ending :=
      match stop with
      | some stop => Ending.ofStop stop
      | none => .finished
    ⟨ending, progress.printed, progress.entries, progress.store⟩

/-- What a command finds that runs on a store. -/
def surroundings
    (store : Store)
    (time : String)
    (key : Keystream.Key) :
    Surroundings :=
  ⟨store.readText, time, key⟩

/-- Run an invocation on a store. -/
def Invocation.run
    (store : Store)
    (time : String)
    (key : Keystream.Key)
    (invocation : Invocation) :
    Run :=
  carryOut store (invocation.plan (surroundings store time key))

/-- The entries that a run shows; a word from outside comes before that of the invocation. -/
def Invocation.shownEntries
    (invocation : Invocation)
    (outside : Option String)
    (entries : List Entry) :
    List Entry :=
  shown (outside.getD invocation.logWord) entries

/-- Run a tool with some words on a store; the entries left are those shown. -/
def run
    (tool : Tool)
    (words : List String)
    (outside : Option String)
    (time : String)
    (key : Keystream.Key)
    (store : Store) :
    Run :=
  match Invocation.read tool words with
  | .help => .idle store .helped (helpText tool)
  | .version => .idle store .helped (versionText tool)
  | .misuse => .idle store .misused ""
  | .accepted invocation =>
    let run := invocation.run store time key
    { run with entries := invocation.shownEntries outside run.entries }

end NetRun.Program
