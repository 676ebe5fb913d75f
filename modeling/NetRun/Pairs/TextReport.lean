import NetRun.Decimal.Layout
import NetRun.Pairs.Analysis

/-!
# The text report

One line per pair, then the largest, the smallest and the mean delay, and in
the full report the number of pairs of each bottleneck.  Numbers stand in for
what a pair does not have, so that every line has the same columns.
-/

namespace NetRun

/-- How much a text report says. -/
inductive ReportMode where
  /-- Delay and bottleneck of each pair, and the pairs by bottleneck. -/
  | full
  /-- The delay of each pair. -/
  | delayOnly
deriving DecidableEq, Repr

namespace TextReport

/-- What is shown for the delay of a pair without a path. -/
def delayIfUnreached :
    UInt64 :=
  100000

/-- The line of a pair. -/
def pairLine
    (mode : ReportMode)
    (pair : PairRoute) :
    String :=
  let source := pair.source
  let target := pair.target
  let delay := pair.delay.getD delayIfUnreached
  let bottleneck := pair.bottleneck.shown
  match mode with
  | .full => s!"{source}->{target}:\t{delay}\t{bottleneck}"
  | .delayOnly => s!"{source}->{target}:\t{delay}"

/-- The pairs of each bottleneck, in one line. -/
def histogramLine
    (histogram : Ordered.SortedMap UInt64 Nat) :
    String :=
  let counts := histogram.entries.map fun (capacity, count) => s!"{capacity}: {count}"
  "\x7b" ++ ", ".intercalate counts ++ "\x7d"

/-- The lines of a report. -/
def lines
    (mode : ReportMode)
    (analysis : PathAnalysis)
    (summary : DelaySummary) :
    List String :=
  analysis.pairs.map (pairLine mode) ++
    [toString summary.max, toString summary.min, Decimal.plain.write summary.mean] ++
    match mode with
    | .full => [histogramLine analysis.histogram]
    | .delayOnly => []

/-- The text of a report. -/
def render
    (mode : ReportMode)
    (analysis : PathAnalysis)
    (summary : DelaySummary) :
    String :=
  String.ofList <|
    (lines mode analysis summary).flatMap fun line => line.toList ++ ['\n']

end TextReport

end NetRun
