import NetRun.Completion.Comparison
import NetRun.Path
import NetRun.Statistics.Row

/-!
# Summaries of a compared run

Three tables sum up the samples of one run: one row per flow size, one row
over all flows, and one row in which every flow weighs as many times as it has
bytes.  Each table has a file of its own.
-/

namespace NetRun

/-- The statistics tables of one run. -/
structure Summary where
  bySize : List (StatsRow Float)
  flows : StatsRow Float
  bytes : StatsRow Float
deriving DecidableEq

/-- The tables of a run, given the bytes of all flows compared; no samples have none. -/
def Samples.summarize
    (samples : Samples)
    (totalBytes : Float) :
    Except Crash (Option Summary) := do
  let bySize ← samples.bySize.entries.mapM fun (size, times) =>
    StatsRow.ofValues? (toString size) times
  match ← StatsRow.ofValues? "avg_over_flows" samples.times with
  | none => return none
  | some flows =>
    let average := total samples.weighted / totalBytes
    let bytes ← StatsRow.withAverage? "avg_over_bytes" average samples.weighted
    return bytes.map fun bytes => ⟨bySize.filterMap id, flows, bytes⟩

/-- The files of the three tables. -/
structure SummaryPaths where
  bySize : String
  flows : String
  bytes : String
deriving DecidableEq, Repr

/-- The files of a run, named for its label and a suffix. -/
def SummaryPaths.ofLabel
    (directory label suffix : String) :
    SummaryPaths :=
  ⟨Path.join directory s!"{label}-{suffix}",
    Path.join directory s!"{label}-bulk-{suffix}",
    Path.join directory s!"{label}-weighted-{suffix}"⟩

/-- The texts of the three tables under the paths of their files. -/
def Summary.files
    (summary : Summary)
    (paths : SummaryPaths) :
    List (String × String) :=
  [ (paths.bySize, Table.render (summary.bySize.map StatsRow.fields)),
    (paths.flows, Table.render [summary.flows.fields]),
    (paths.bytes, Table.render [summary.bytes.fields]) ]

end NetRun
