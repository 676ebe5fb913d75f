/-!
# Log entries

What a run reports about its work besides its results: a severity and a text.
-/

namespace NetRun.Log

/-- How severe an entry is, the most severe first. -/
inductive Level where
  | error
  | warn
  | info
  | debug
  | trace
deriving DecidableEq, Repr

/-- The place of a level in the order of severity, counted from the most severe. -/
def Level.rank :
    Level → Nat
  | .error => 1
  | .warn => 2
  | .info => 3
  | .debug => 4
  | .trace => 5

/-- The name in front of an entry. -/
def Level.name :
    Level → String
  | .error => "ERROR"
  | .warn => "WARN"
  | .info => "INFO"
  | .debug => "DEBUG"
  | .trace => "TRACE"

/-- One reported message. -/
structure Entry where
  level : Level
  text : String
deriving DecidableEq, Repr

/-- A warning. -/
def warning
    (text : String) :
    Entry :=
  ⟨.warn, text⟩

/-- A note on the progress of a run. -/
def info
    (text : String) :
    Entry :=
  ⟨.info, text⟩

/-- A detail for whoever looks into a run. -/
def debug
    (text : String) :
    Entry :=
  ⟨.debug, text⟩

/-- The entry is a warning or worse. -/
def Entry.isWarning
    (entry : Entry) :
    Bool :=
  entry.level.rank ≤ Level.warn.rank

/-- The entry as it is shown, its level in front. -/
def Entry.render
    (entry : Entry) :
    String :=
  entry.level.name ++ " " ++ entry.text

end NetRun.Log
