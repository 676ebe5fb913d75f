import NetRun.Log.Entry
import NetRun.Program.Failure

/-!
# Deeds

A command first works out what to do and then does it.  What it does is a list
of deeds: printing, writing files, making directories, reporting, giving up and
crashing.  They are done in order, and the first one that fails is the last.
-/

namespace NetRun.Program

open NetRun.Log

/-- One thing that a command does. -/
inductive Deed where
  | note (entry : Entry)
  | print (text : String)
  | write (path text : String)
  | writeReport (path text : String)
  | makeDirectories (path : String)
  /-- Fail, whatever has been done before. -/
  | giveUp (failure : Failure)
  /-- End at once, whatever has been done before. -/
  | crashWith (crash : Crash)
deriving DecidableEq, Repr

/-- What has been done so far. -/
structure Progress where
  store : Store
  printed : String
  entries : List Entry

namespace Progress

/-- The same progress with another store. -/
def withStore
    (progress : Progress)
    (store : Store) :
    Progress :=
  { progress with store := store }

/-- The progress with one more entry. -/
def withEntry
    (progress : Progress)
    (entry : Entry) :
    Progress :=
  { progress with entries := progress.entries ++ [entry] }

end Progress

/-- What is reported when a file has been written. -/
def wroteEntry
    (path text : String) :
    Entry :=
  let bytes := text.utf8ByteSize
  debug s!"Wrote {bytes} bytes to {path}"

/-- Do one thing. -/
def Deed.perform
    (deed : Deed)
    (progress : Progress) :
    Except (Stop Failure) Progress :=
  match deed with
  | .note entry => .ok (progress.withEntry entry)
  | .print text => .ok { progress with printed := progress.printed ++ text }
  | .write path text =>
    match progress.store.writeText path text with
    | .ok store => .ok ((progress.withStore store).withEntry (wroteEntry path text))
    | .error fault => .error (.refused (.output path fault))
  | .writeReport path text =>
    match progress.store.writeText path text with
    | .ok store => .ok (progress.withStore store)
    | .error fault => .error (.refused (.report path fault))
  | .makeDirectories path =>
    match progress.store.makeDirectories path with
    | .ok store => .ok (progress.withStore store)
    | .error fault => .error (.refused (.directory path fault))
  | .giveUp failure => .error (.refused failure)
  | .crashWith crash => .error (.crashed crash)

/-- Do things in order until one fails. -/
def performAll :
    List Deed → Progress → Progress × Option (Stop Failure)
  | [], progress => (progress, none)
  | deed :: deeds, progress =>
    match deed.perform progress with
    | .ok progress => performAll deeds progress
    | .error stop => (progress, some stop)

end NetRun.Program
