import NetRun.Decimal.Layout
import NetRun.Json.Pretty
import NetRun.Pairs.Analysis

/-!
# The JSON report

The same data as the full text report, with what was analysed and when.
-/

namespace NetRun

/-- What was analysed and when. -/
structure ReportMetadata where
  timestamp : String
  topologyFile : String
  hostFile : String
  nodes : UInt32
  links : Nat
  hosts : Nat
deriving DecidableEq, Repr

namespace JsonReport

open NetRun.Json

/--
Means are written like in tables, but a positive exponent has a sign and of
two equally close shortest decimals the even one is taken.
-/
def meanLayout :
    Decimal.Layout :=
  { Decimal.tabular with exponentMark := "+", tie := .toEven }

/-- A bottleneck: a capacity under a name, or a word. -/
def bottleneck :
    Bottleneck → Value
  | .limited capacity => .object [("limited", natural capacity.toNat)]
  | .unconstrained => .string "unconstrained"

/-- A pair with its route. -/
def pair
    (pair : PairRoute) :
    Value :=
  .object
    [ ("src", natural pair.source.toNat),
      ("dst", natural pair.target.toNat),
      ("hops", optional (fun hops => natural hops.toNat) pair.hops),
      ("delay", optional (fun delay => natural delay.toNat) pair.delay),
      ("bottleneck", bottleneck pair.bottleneck) ]

/-- The extent of the delays. -/
def summary
    (summary : DelaySummary) :
    Value :=
  .object
    [ ("max", natural summary.max.toNat),
      ("min", natural summary.min.toNat),
      ("mean", .number (meanLayout.write summary.mean)),
      ("count", natural summary.count) ]

/-- What was analysed and when. -/
def metadata
    (metadata : ReportMetadata) :
    Value :=
  .object
    [ ("analysis_timestamp", .string metadata.timestamp),
      ("topology_file", .string metadata.topologyFile),
      ("end_host_file", .string metadata.hostFile),
      ("total_nodes", natural metadata.nodes.toNat),
      ("total_links", natural metadata.links),
      ("total_end_hosts", natural metadata.hosts) ]

/-- The analysis of the pairs. -/
def analysis
    (analysis : PathAnalysis) :
    Value :=
  .object
    [ ("pairs", .array (analysis.pairs.map pair)),
      ("summary", optional summary analysis.summary),
      ("bottleneck_histogram",
        .object (analysis.histogram.entries.map fun (capacity, count) =>
          (toString capacity, natural count))),
      ("unreached_pairs", natural analysis.unreached) ]

/-- The text of a report. -/
def render
    (origin : ReportMetadata)
    (paths : PathAnalysis) :
    String :=
  pretty (.object [("metadata", metadata origin), ("analysis", analysis paths)])

end JsonReport

end NetRun
