import NetRun.Settings.Basic
import NetRun.Yaml.Value

/-!
# Settings from a document

Settings are written as a YAML mapping of sections.  What is not mentioned
keeps its default, and names that mean nothing are skipped; a name that does
mean something may be given only once.
-/

namespace NetRun.Settings

open NetRun.Yaml

/-- The members of a section; a name that means something is given once at most. -/
def sectionMembers?
    (anchors : Anchors)
    (names : List String)
    (node : Node) :
    Option (List (String × Node)) :=
  (node.members? anchors).filter fun members =>
    names.all fun name => (members.filter fun member => member.1 == name).length ≤ 1

/-- The value of a name, or its default. -/
def value?
    {α : Type}
    (members : List (String × Node))
    (name : String)
    (read : Node → Option α)
    (default : α) :
    Option α :=
  match members.lookup name with
  | some node => read node
  | none => some default

/-- The settings of path reports. -/
def paths?
    (anchors : Anchors)
    (node : Node) :
    Option PathSettings := do
  let default : PathSettings := {}
  let members ← sectionMembers? anchors ["delay_only", "exclude_same_site"] node
  let delayOnly ← value? members "delay_only" Node.bool? default.delayOnly
  let exclude ← value? members "exclude_same_site" (Node.optional? Node.word32?)
    default.excludeSameSite
  return ⟨delayOnly, exclude⟩

/-- The delays that links are assigned. -/
def delays?
    (anchors : Anchors)
    (node : Node) :
    Option DelaySettings := do
  let default : DelaySettings := {}
  let members ← sectionMembers? anchors ["access_delay", "core_delay"] node
  let access ← value? members "access_delay" Node.word64? default.access
  let core ← value? members "core_delay" Node.word64? default.core
  return ⟨access, core⟩

/-- The settings of workloads. -/
def workload?
    (anchors : Anchors)
    (node : Node) :
    Option WorkloadSettings := do
  let default : WorkloadSettings := {}
  let members ← sectionMembers? anchors ["link_rate_bps", "seed"] node
  let rate ← value? members "link_rate_bps" Node.word64? default.linkRate
  let seed ← value? members "seed" (Node.optional? Node.word64?) default.seed
  return ⟨rate, seed⟩

/-- The settings of the comparison of two runs. -/
def completion?
    (anchors : Anchors)
    (node : Node) :
    Option CompletionSettings := do
  let default : CompletionSettings := {}
  let members ← sectionMembers? anchors
    ["regular_label", "alternative_label", "regular_deadline", "alternative_deadline",
      "warmup", "output_dir"] node
  let regular ← value? members "regular_label" Node.text? default.regularLabel
  let alternative ← value? members "alternative_label" Node.text? default.alternativeLabel
  let regularDeadline ← value? members "regular_deadline" Node.real?
    default.regularDeadline
  let alternativeDeadline ← value? members "alternative_deadline" Node.real?
    default.alternativeDeadline
  let warmup ← value? members "warmup" Node.real? default.warmup
  let directory ← value? members "output_dir" Node.text? default.outputDirectory
  return ⟨regular, alternative, regularDeadline, alternativeDeadline, warmup, directory⟩

/-- The settings of a document. -/
def ofDocument?
    (document : Yaml.Document) :
    Option Settings := do
  let anchors := document.anchors
  let default : Settings := {}
  let members ← sectionMembers? anchors ["paths", "topology", "workload", "fct"]
    document.root
  let paths ← value? members "paths" (paths? anchors) default.paths
  let delays ← value? members "topology" (delays? anchors) default.delays
  let workload ← value? members "workload" (workload? anchors) default.workload
  let completion ← value? members "fct" (completion? anchors) default.completion
  return ⟨paths, delays, workload, completion⟩

/-- The settings that a text describes. -/
def ofText?
    (text : String) :
    Option Settings :=
  (Yaml.Document.ofText? text).bind ofDocument?

end NetRun.Settings
