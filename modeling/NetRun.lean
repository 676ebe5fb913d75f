import NetRun.Completion.Comparison
import NetRun.Completion.Log
import NetRun.Completion.Reduction
import NetRun.Completion.Summary
import NetRun.Decimal.Layout
import NetRun.Decimal.Natural
import NetRun.Decimal.Nearest
import NetRun.Decimal.Numeral
import NetRun.Decimal.Places
import NetRun.Decimal.Shortest
import NetRun.Json.Pretty
import NetRun.Log.Entry
import NetRun.Log.Logged
import NetRun.Log.Threshold
import NetRun.Main
import NetRun.Ordered.Map
import NetRun.Ordered.Set
import NetRun.Pairs.Analysis
import NetRun.Pairs.Basic
import NetRun.Pairs.JsonReport
import NetRun.Pairs.TextReport
import NetRun.Path
import NetRun.Program.Arguments
import NetRun.Program.Command
import NetRun.Program.Deed
import NetRun.Program.Failure
import NetRun.Program.Plan
import NetRun.Program.Run
import NetRun.Proofs.Completion.Bytes
import NetRun.Proofs.Completion.Comparison
import NetRun.Proofs.Completion.Counts
import NetRun.Proofs.Completion.Files
import NetRun.Proofs.Completion.Log
import NetRun.Proofs.Completion.Pairing
import NetRun.Proofs.Completion.Reduction
import NetRun.Proofs.Completion.Summary
import NetRun.Proofs.Decimal.Layout
import NetRun.Proofs.Decimal.Natural
import NetRun.Proofs.Ordered.Accumulate
import NetRun.Proofs.Ordered.Groups
import NetRun.Proofs.Pairs.Collect
import NetRun.Proofs.Pairs.Counts
import NetRun.Proofs.Pairs.EndHosts
import NetRun.Proofs.Pairs.Listing
import NetRun.Proofs.Pairs.Replicas
import NetRun.Proofs.Pairs.Report
import NetRun.Proofs.Pairs.Totals
import NetRun.Proofs.Pairs.Twins
import NetRun.Proofs.Parity
import NetRun.Proofs.Program.Outputs
import NetRun.Proofs.Program.Refusals
import NetRun.Proofs.Program.Tables
import NetRun.Proofs.Route.Access
import NetRun.Proofs.Route.Bracketing
import NetRun.Proofs.Route.Capacity
import NetRun.Proofs.Route.Delays
import NetRun.Proofs.Route.Frozen
import NetRun.Proofs.Route.Homed
import NetRun.Proofs.Route.Join
import NetRun.Proofs.Route.LastLinks
import NetRun.Proofs.Route.Leaf
import NetRun.Proofs.Route.Links
import NetRun.Proofs.Route.Settled
import NetRun.Proofs.Route.Shortest
import NetRun.Proofs.Route.Stage
import NetRun.Proofs.Route.Symmetry
import NetRun.Proofs.Route.TieBreak
import NetRun.Proofs.Route.Updates
import NetRun.Proofs.Route.Walks
import NetRun.Proofs.Route.Weights
import NetRun.Proofs.Sorting.Few
import NetRun.Proofs.Sorting.Many
import NetRun.Proofs.Sorting.Runs
import NetRun.Proofs.Statistics.Ascending
import NetRun.Proofs.Statistics.Doubles
import NetRun.Proofs.Statistics.Numbers
import NetRun.Proofs.Statistics.Percentile
import NetRun.Proofs.Statistics.Ranks
import NetRun.Proofs.Statistics.Sums
import NetRun.Proofs.Store.Changes
import NetRun.Proofs.Store.Overwriting
import NetRun.Proofs.Table.Columns
import NetRun.Proofs.Table.Rows
import NetRun.Proofs.Text.Pieces
import NetRun.Proofs.Text.Spelling
import NetRun.Proofs.Topology.Degree
import NetRun.Proofs.Topology.EdgeList
import NetRun.Proofs.Topology.EndHosts
import NetRun.Proofs.Topology.Fanout
import NetRun.Proofs.Topology.FanoutRange
import NetRun.Proofs.Topology.FanoutRule
import NetRun.Proofs.Topology.Grammar
import NetRun.Proofs.Topology.Graph
import NetRun.Proofs.Topology.HostLinks
import NetRun.Proofs.Topology.HostList
import NetRun.Proofs.Topology.LinkCount
import NetRun.Proofs.Topology.Replicas
import NetRun.Proofs.Traversal
import NetRun.Proofs.Workload.Drawing
import NetRun.Proofs.Workload.Fairness
import NetRun.Proofs.Workload.Grammar
import NetRun.Proofs.Workload.Load
import NetRun.Proofs.Workload.Replicas
import NetRun.Proofs.Workload.Rewriting
import NetRun.Proofs.Workload.Spreading
import NetRun.Proofs.Workload.Uniform
import NetRun.Route.Basic
import NetRun.Route.Table
import NetRun.Settings.Basic
import NetRun.Settings.Document
import NetRun.Sorting.Few
import NetRun.Sorting.Many
import NetRun.Sorting.Runs
import NetRun.Statistics.Percentile
import NetRun.Statistics.Quantity
import NetRun.Statistics.Row
import NetRun.Stop
import NetRun.Store.Basic
import NetRun.Store.Reading
import NetRun.Table.Render
import NetRun.Table.Row
import NetRun.Text.Blank
import NetRun.Text.Quoted
import NetRun.Text.Shapeless
import NetRun.Text.Split
import NetRun.Topology.Basic
import NetRun.Topology.Delay
import NetRun.Topology.EdgeList
import NetRun.Topology.EndHost
import NetRun.Topology.Fanout
import NetRun.Topology.HostList
import NetRun.Workload.Fanout
import NetRun.Workload.Keystream
import NetRun.Workload.Load
import NetRun.Workload.Trace
import NetRun.Workload.Uniform
import NetRun.Yaml.BlockText
import NetRun.Yaml.Collection
import NetRun.Yaml.Cursor
import NetRun.Yaml.Document
import NetRun.Yaml.Node
import NetRun.Yaml.Property
import NetRun.Yaml.Scalar
import NetRun.Yaml.Token
import NetRun.Yaml.Tokens
import NetRun.Yaml.Value
