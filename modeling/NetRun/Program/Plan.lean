import NetRun.Completion.Summary
import NetRun.Decimal.Places
import NetRun.Pairs.JsonReport
import NetRun.Pairs.TextReport
import NetRun.Program.Command
import NetRun.Program.Deed
import NetRun.Settings.Document
import NetRun.Text.Quoted
import NetRun.Topology.Delay
import NetRun.Topology.HostList
import NetRun.Workload.Keystream
import NetRun.Workload.Load

/-!
# What a command will do

Each command reads its inputs and works out a list of deeds, or fails before
any deed is done.  Reading is the only thing that it needs of its surroundings
on the way, besides a time to put into reports and a key to draw from where no
seed is given.
-/

namespace NetRun.Program

open NetRun.Log
open NetRun.Table

/-- What a command finds where it runs. -/
structure Surroundings where
  /-- The text of a file. -/
  read : String → Except Fault String
  /-- The time that reports show. -/
  time : String
  /-- What to draw from where no seed is given. -/
  key : Keystream.Key

/-- A computation that reports, and may fail or crash. -/
abbrev Planning :=
  Logged (Stop Failure)

/-- Fail. -/
def refuse
    {α : Type}
    (failure : Failure) :
    Planning α :=
  .fail (.refused failure)

/-- The text of an input file, in the words of table reading. -/
def Surroundings.inputText
    (here : Surroundings)
    (path : String) :
    Except ReadError String :=
  (here.read path).mapError fun fault => .inaccessible path fault.message

/-- Read an input file with a reader of tables. -/
def Surroundings.input
    {α : Type}
    (here : Surroundings)
    (kind : InputKind)
    (path : String)
    (read : String → String → Logged (Stop ReadError) α) :
    Planning α :=
  let table : Logged (Stop ReadError) α := do
    let text ← .ofExcept (refusing (here.inputText path))
    read path text
  table.mapError (Stop.map (Failure.input kind path))

/-- A reader of tables that never crashes. -/
def steady
    {α : Type}
    (read : String → String → Logged ReadError α) :
    String → String → Logged (Stop ReadError) α :=
  fun origin text => (read origin text).mapError Stop.refused

/-- Read a topology. -/
def Surroundings.topology
    (here : Surroundings)
    (path : String) :
    Planning Topology :=
  here.input .topology path EdgeList.read

/-- Read a list of hosts. -/
def Surroundings.hosts
    (here : Surroundings)
    (path : String) :
    Planning HostSet :=
  here.input .hosts path (steady HostList.read)

/-- Read a workload. -/
def Surroundings.workload
    (here : Surroundings)
    (path : String) :
    Planning (List Flow) :=
  here.input .workload path (steady Trace.read)

/-- Read the settings, or take the defaults if no file is given. -/
def Surroundings.settings
    (here : Surroundings) :
    Option String → Planning Settings
  | none => do
    .note (debug "No configuration file given; using defaults")
    return {}
  | some path => do
    let shown := Text.quoted path
    .note (info s!"Loading configuration from: {shown}")
    match here.read path with
    | .error .isDirectory => refuse (.settingsText path)
    | .error .notText => refuse (.settingsText path)
    | .error fault => refuse (.settingsFile path fault)
    | .ok text =>
      match Settings.ofText? text with
      | none => refuse (.settingsText path)
      | some settings =>
        match settings.validate with
        | .error cause => refuse (.settings cause)
        | .ok () => return settings

/-- The deeds of writing a table and saying so. -/
def writeAndNote
    (path text note : String) :
    List Deed :=
  [.write path text, .note (info note)]

/-- Lines, each closed by a line feed. -/
def printedLines
    (lines : List String) :
    String :=
  String.ofList (lines.flatMap fun line => line.toList ++ ['\n'])

/-- Report delay and bottleneck between hosts. -/
def planPaths
    (here : Surroundings)
    (settings : PathSettings)
    (topologyPath hostsPath : String)
    (delayOnly : Bool)
    (exclude : Option UInt32)
    (json : Option String) :
    Planning (List Deed) := do
  let topology ← here.topology topologyPath
  let hosts ← here.hosts hostsPath
  let nodes := topology.nodes
  let links := topology.links.length
  let count := hosts.size
  .note (info s!"Loaded {nodes} nodes, {links} links and {count} end hosts")
  let table ← (RouteTable.compute topology).mapError fun cause =>
    .refused (.routes topologyPath cause)
  let filter : PairFilter := ⟨exclude <|> settings.excludeSameSite⟩
  let analysis ← (PathAnalysis.ofHosts table hosts filter).mapError Stop.crashed
  match analysis.summary with
  | none => refuse (.noReachedPair topologyPath hostsPath)
  | some summary =>
    let mode : ReportMode := if delayOnly || settings.delayOnly then .delayOnly else .full
    let report := .print (TextReport.render mode analysis summary)
    match json with
    | none => return [report]
    | some path =>
      let origin : ReportMetadata :=
        ⟨here.time, topologyPath, hostsPath, nodes, links, count⟩
      return [report, .writeReport path (JsonReport.render origin analysis),
        .note (info s!"JSON report written to {path}")]

/-- The line that is printed for an end host. -/
def hostLine
    (host : EndHost) :
    String :=
  let node := host.node
  let link := host.place.link
  let side := host.place.side.index
  s!"{node}\t({link}, {side})"

/-- List the end hosts of a topology. -/
def planEndHosts
    (here : Surroundings)
    (topologyPath output : String) :
    Planning (List Deed) := do
  let topology ← here.topology topologyPath
  let hosts := topology.endHosts
  .note (topology.endHostsNotice hosts)
  let count := hosts.length
  return .print (printedLines (hosts.map hostLine)) ::
    writeAndNote output (HostList.render hosts) s!"Wrote {count} end hosts to {output}"

/-- Give access links and core links new delays. -/
def planAssignDelay
    (here : Surroundings)
    (settings : DelaySettings)
    (topologyPath hostsPath output : String)
    (access core : Option UInt64) :
    Planning (List Deed) := do
  let topology ← here.topology topologyPath
  let hosts ← here.hosts hostsPath
  let access := access.getD settings.access
  let core := core.getD settings.core
  let assigned := topology.assignDelays hosts access core
  .note (assigned.delaysNotice access core)
  return writeAndNote output (EdgeList.render assigned)
    s!"Wrote delay-assigned topology to {output}"

/-- Replicate the hosts of a topology. -/
def planFanoutTopology
    (here : Surroundings)
    (topologyPath : String)
    (fanout : UInt32)
    (output : String) :
    Planning (List Deed) := do
  let topology ← here.topology topologyPath
  let expanded ← .ofExcept ((topology.expandFanout fanout).mapError (Stop.map .fanout))
  .note (topology.fanoutNotice expanded fanout)
  return writeAndNote output (EdgeList.render expanded) s!"Wrote fanout topology to {output}"

/-- Move the flows of a workload to replicas of their hosts. -/
def planFanoutWorkload
    (here : Surroundings)
    (settings : WorkloadSettings)
    (workloadPath : String)
    (fanout core : UInt32)
    (output : String)
    (seed : Option UInt64) :
    Planning (List Deed) := do
  let flows ← here.workload workloadPath
  let key :=
    match seed <|> settings.seed with
    | some seed => Keystream.Key.ofSeed seed
    | none => here.key
  let drawn := (spreadFlows Keystream.Stream.below flows fanout core).run (.ofKey key)
  match drawn.1 with
  | .error cause => refuse (.workload cause)
  | .ok moved =>
    .note (spreadNotice moved fanout)
    let count := moved.length
    return writeAndNote output (Trace.render moved) s!"Wrote {count} flows to {output}"

/-- The line that is printed for the load of a node. -/
def loadLine
    (load : NodeLoad) :
    String :=
  let node := load.node
  let percent := Decimal.plain.write load.percent
  s!"{node}\t{percent}"

/-- Show what each source sends as a share of its link. -/
def planLinkUtil
    (here : Surroundings)
    (settings : WorkloadSettings)
    (workloadPath : String)
    (duration : Float)
    (rate : Option UInt64) :
    Planning (List Deed) := do
  let flows ← here.workload workloadPath
  match offeredLoad flows duration (rate.getD settings.linkRate) with
  | .error cause => refuse (.workload cause)
  | .ok loads => return [.print (printedLines (loads.map loadLine))]

/-- Seconds in a printed summary. -/
def shownSeconds
    (value : Float) :
    String :=
  Decimal.writePlaces 6 value ++ "s"

/-- What is printed about the tables of one run. -/
def summaryText
    (label : String)
    (summary : Summary) :
    String :=
  printedLines
    [ "",
      label ++ ":",
      "  Sizes: " ++ toString summary.bySize.length,
      "  Avg over flows: " ++ shownSeconds summary.flows.average,
      "  Median: " ++ shownSeconds summary.flows.median,
      "  P99: " ++ shownSeconds summary.flows.p99,
      "  Avg over bytes: " ++ shownSeconds summary.bytes.average ]

/--
The deeds of writing and printing the tables of one run, which gives up without
samples and ends at once if their sums could not be worked out.
-/
def summaryDeeds
    (directory label suffix : String) :
    Except Crash (Option Summary) → List Deed
  | .error crash => [.crashWith crash]
  | .ok none => [.giveUp (.noSamples label)]
  | .ok (some summary) =>
    let paths := SummaryPaths.ofLabel directory label suffix
    let main := paths.bySize
    (summary.files paths).map (fun (path, text) => Deed.write path text) ++
      [.note (info s!"Statistics for '{label}' written to {main}"),
        .print (summaryText label summary)]

/-- The settings of a comparison with what the command says about them. -/
def CompletionSettings.override
    (settings : CompletionSettings)
    (regularDeadline alternativeDeadline warmup : Option Float) :
    CompletionSettings :=
  { settings with
    regularDeadline := regularDeadline.getD settings.regularDeadline
    alternativeDeadline := alternativeDeadline.getD settings.alternativeDeadline
    warmup := warmup.getD settings.warmup }

/-- Write the statistics tables of two runs. -/
def planStats
    (here : Surroundings)
    (settings : CompletionSettings)
    (regularPath alternativePath regularSuffix alternativeSuffix : String)
    (directory : String) :
    Planning (List Deed) := do
  let regularWindow : Window := ⟨settings.regularDeadline, settings.warmup⟩
  let alternativeWindow : Window := ⟨settings.alternativeDeadline, settings.warmup⟩
  .note (info "Loading FCT logs...")
  let regular ← here.input .regularLog regularPath
    (steady fun origin text => CompletionRun.read origin text regularWindow)
  let alternative ← here.input .alternativeLog alternativePath
    (steady fun origin text => CompletionRun.read origin text alternativeWindow)
  let comparison := Comparison.ofRuns regular alternative
  .report (Comparison.notices regular alternative comparison)
  if comparison.count = 0 then
    refuse (.noCommonFlow regularPath alternativePath)
  else
    let bytes := comparison.totalBytes
    let count := comparison.count
    return [.makeDirectories directory,
        .print s!"\n=== FCT COMPARISON SUMMARY ===\n\nCommon flows: {count}\n"] ++
      summaryDeeds directory settings.regularLabel regularSuffix
        (comparison.regular.summarize bytes) ++
      summaryDeeds directory settings.alternativeLabel alternativeSuffix
        (comparison.alternative.summarize bytes) ++
      [.print "\n"]

/-- The line that is printed for a reduction. -/
def reductionLine
    (settings : CompletionSettings)
    (reduction : Reduction) :
    String :=
  let write := Decimal.plain.write
  settings.regularLabel ++ ": " ++ write reduction.regular ++ "; " ++
    settings.alternativeLabel ++ ": " ++ write reduction.alternative ++ "; Reduction: " ++
    write reduction.percent

/-- Write how much lower the averages of the alternative run are. -/
def planImprovement
    (here : Surroundings)
    (settings : CompletionSettings)
    (regularPath alternativePath pattern directory : String) :
    Planning (List Deed) := do
  let averages : String → String → Logged (Stop ReadError) (List AverageRow) :=
    fun origin text => .ofExcept (refusing (AverageRow.parse origin text))
  let regular ← here.input .statistics regularPath averages
  let alternative ← here.input .statistics alternativePath averages
  match Reduction.ofTables regular alternative with
  | .error cause => refuse (.reduction cause)
  | .ok reductions =>
    let path := Path.join directory s!"avgreduction-{pattern}.txt"
    return [.write path (Reduction.render reductions),
      .print (printedLines (reductions.map (reductionLine settings))),
      .note (info s!"Reductions written to {path}")]

/-- What a command will do under given settings. -/
def Command.plan
    (here : Surroundings)
    (settings : Settings) :
    Command → Planning (List Deed)
  | .paths topology hosts delayOnly exclude json =>
    planPaths here settings.paths topology hosts delayOnly exclude json
  | .endHosts topology output => planEndHosts here topology output
  | .assignDelay topology hosts output access core =>
    planAssignDelay here settings.delays topology hosts output access core
  | .fanoutTopology topology fanout output =>
    planFanoutTopology here topology fanout output
  | .fanoutWorkload workload fanout core output seed =>
    planFanoutWorkload here settings.workload workload fanout core output seed
  | .linkUtil workload duration rate =>
    planLinkUtil here settings.workload workload duration rate
  | .stats regular alternative regularSuffix alternativeSuffix directory regularDeadline
      alternativeDeadline warmup => do
    let completion := CompletionSettings.override settings.completion regularDeadline
      alternativeDeadline warmup
    match Settings.validate { settings with completion := completion } with
    | .error cause => refuse (.settings cause)
    | .ok () =>
      planStats here completion regular alternative regularSuffix alternativeSuffix
        (directory.getD completion.outputDirectory)
  | .improvement regular alternative pattern directory =>
    planImprovement here settings.completion regular alternative pattern directory

/-- What a run will do: the settings are read first. -/
def Invocation.plan
    (here : Surroundings)
    (invocation : Invocation) :
    Planning (List Deed) := do
  let settings ← here.settings invocation.settings
  invocation.command.plan here settings

/-- The files that a run may read. -/
def Invocation.inputs
    (invocation : Invocation) :
    List String :=
  invocation.settings.toList ++
    match invocation.command with
    | .paths topology hosts _ _ _ => [topology, hosts]
    | .endHosts topology _ => [topology]
    | .assignDelay topology hosts _ _ _ => [topology, hosts]
    | .fanoutTopology topology _ _ => [topology]
    | .fanoutWorkload workload _ _ _ _ => [workload]
    | .linkUtil workload _ _ => [workload]
    | .stats regular alternative _ _ _ _ _ _ => [regular, alternative]
    | .improvement regular alternative _ _ => [regular, alternative]

end NetRun.Program
