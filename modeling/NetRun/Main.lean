import NetRun.Program.Run
import Std.Time.Format

/-!
# The program

The first word is the name that the program is called by, and the others are
the words of that tool.  What the words may read is read beforehand, what to do
is worked out from it, and then it is done.
-/

open NetRun
open NetRun.Log
open NetRun.Program

namespace NetRun.Main

/-- The code of a refusal is a number, or its negative. -/
def isCode
    (number code : UInt32) :
    Bool :=
  code == number || code == 0 - number

/-- Why the machine refused something. -/
def faultOf :
    IO.Error → Fault
  | .noFileOrDirectory .. => .notFound
  | .alreadyExists .. => .exists
  | .inappropriateType _ code _ => if isCode 21 code then .isDirectory else .notDirectory
  | error@(.invalidArgument _ code _) =>
    if isCode 36 code then .nameTooLong else .other (toString error)
  | error => .other (toString error)

/-- Do something with files, or tell why it cannot be done. -/
def attempt
    {α : Type}
    (action : IO α) :
    IO (Except Fault α) := do
  match ← action.toBaseIO with
  | .ok value => return .ok value
  | .error error => return .error (faultOf error)

/-- Read the text of a file. -/
def readText
    (path : String) :
    IO (Except Fault String) := do
  match ← attempt (IO.FS.readBinFile path) with
  | .error fault => return .error fault
  | .ok content =>
    match String.fromUTF8? content with
    | some text => return .ok text
    | none => return .error .notText

/-- The files that an invocation may read, with what was found there. -/
def snapshot
    (invocation : Invocation) :
    IO (List (String × Except Fault String)) :=
  invocation.inputs.mapM fun path => return (path, ← readText path)

/-- The time of the clock, with its offset. -/
def clockText :
    IO String := do
  let now ← Std.Time.Timestamp.now
  let time := Std.Time.DateTime.ofTimestampWithZone now Std.Time.TimeZone.UTC
  return time.format "uuuu-MM-dd\x27T\x27HH:mm:ss.SSSSSSSSSxxx"

/-- A fresh key. -/
def randomKey :
    IO Keystream.Key := do
  let bytes ← IO.getRandomBytes 8
  return Keystream.Key.ofSeed (bytes.toList.foldl (fun n byte => n * 256 + byte.toUInt64) 0)

/-- Show the entries that an invocation shows. -/
def showEntries
    (invocation : Invocation)
    (outside : Option String)
    (entries : List Entry) :
    IO Unit :=
  (invocation.shownEntries outside entries).forM fun entry => IO.eprintln entry.render

/-- Do one thing, or tell what stopped it. -/
def perform
    (showing : List Entry → IO Unit)
    (deed : Deed) :
    IO (Option (Stop Failure)) := do
  match deed with
  | .note entry => showing [entry]; return none
  | .print text => IO.print text; return none
  | .write path text =>
    match ← attempt (IO.FS.writeFile path text) with
    | .ok () => showing [wroteEntry path text]; return none
    | .error fault => return some (.refused (.output path fault))
  | .writeReport path text =>
    match ← attempt (IO.FS.writeFile path text) with
    | .ok () => return none
    | .error fault => return some (.refused (.report path fault))
  | .makeDirectories path =>
    match ← attempt (IO.FS.createDirAll path) with
    | .ok () => return none
    | .error fault => return some (.refused (.directory path fault))
  | .giveUp failure => return some (.refused failure)
  | .crashWith crash => return some (.crashed crash)

/-- Do things in order until one fails. -/
def performAll
    (showing : List Entry → IO Unit) :
    List Deed → IO Ending
  | [] => return .finished
  | deed :: deeds => do
    match ← perform showing deed with
    | none => performAll showing deeds
    | some stop => return .ofStop stop

/-- Work out what an invocation does, and do it. -/
def carryOut
    (invocation : Invocation)
    (outside : Option String) :
    IO Ending := do
  let found ← snapshot invocation
  let here : Surroundings :=
    { read := fun path => (found.lookup path).getD (.error .notFound)
      time := ← clockText
      key := ← randomKey }
  let plan := invocation.plan here
  let showing := showEntries invocation outside
  showing plan.entries
  match plan.outcome with
  | .ok deeds => performAll showing deeds
  | .error stop => return .ofStop stop

/-- Tell how a run ended, if it did not end well. -/
def tell :
    Ending → IO Unit
  | .failed failure => do
    IO.eprintln "Error:"
    failure.chain.zipIdx.forM fun (text, depth) => IO.eprintln s!"   {depth}: {text}"
  | .misused => IO.eprintln "error: the arguments are not valid; try --help"
  | .crashed crash => IO.eprintln crash.message
  | _ => return ()

/-- Run a tool with some words. -/
def runTool
    (tool : Tool)
    (words : List String) :
    IO Ending := do
  match Invocation.read tool words with
  | .help => IO.print (helpText tool); return .helped
  | .version => IO.print (versionText tool); return .helped
  | .misuse => return .misused
  | .accepted invocation => carryOut invocation (← IO.getEnv "NETRUN_LOG")

end NetRun.Main

/-- The program. -/
def main
    (words : List String) :
    IO UInt32 := do
  let tool? := [Tool.network, Tool.completion].find? fun tool =>
    words.head? == some tool.name
  match tool? with
  | none =>
    IO.eprintln "usage: netsim-analysis ... | fct-analyzer ..."
    return 2
  | some tool =>
    let ending ← NetRun.Main.runTool tool (words.drop 1)
    NetRun.Main.tell ending
    return UInt32.ofNat ending.code
