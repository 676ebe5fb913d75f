import NetRun.Decimal.Layout

/-!
# Settings

What a run can be told beforehand.  Every setting has a default, and not every
combination makes sense.
-/

namespace NetRun

/-- Settings of path reports. -/
structure PathSettings where
  /-- Show delays only. -/
  delayOnly : Bool := false
  /-- Leave out pairs whose numbers agree modulo this. -/
  excludeSameSite : Option UInt32 := none
deriving DecidableEq, Repr

/-- Delays that links are assigned. -/
structure DelaySettings where
  access : UInt64 := 1
  core : UInt64 := 10
deriving DecidableEq, Repr

/-- Settings of workloads. -/
structure WorkloadSettings where
  /-- The rate of an access link in bits per second. -/
  linkRate : UInt64 := 1000000000
  /-- What replicas are drawn from; nothing reproducible if absent. -/
  seed : Option UInt64 := none
deriving DecidableEq, Repr

/-- Settings of the comparison of two runs. -/
structure CompletionSettings where
  regularLabel : String := "regular"
  alternativeLabel : String := "rc3"
  /-- The time by which a flow of the regular run must have finished. -/
  regularDeadline : Float := 10.0
  /-- The time by which a flow of the alternative run must have finished. -/
  alternativeDeadline : Float := 5.0
  /-- The earliest start time. -/
  warmup : Float := 2.0
  /-- Where tables are written. -/
  outputDirectory : String := "improvements"
deriving DecidableEq, Repr

/-- All settings. -/
structure Settings where
  paths : PathSettings := {}
  delays : DelaySettings := {}
  workload : WorkloadSettings := {}
  completion : CompletionSettings := {}
deriving DecidableEq, Repr

/-- Why settings make no sense. -/
inductive SettingsError where
  | zeroModulus
  | zeroLinkRate
  | emptyLabel
  | equalLabels (label : String)
  | nonPositiveDeadline (name : String) (value : Float)
  | negativeWarmup (value : Float)
deriving DecidableEq, Repr

/-- The part of the settings that a refusal is about. -/
inductive SettingsPart where
  | paths
  | workload
  | completion
deriving DecidableEq, Repr

/-- The part of the settings that is refused. -/
def SettingsError.part :
    SettingsError → SettingsPart
  | .zeroModulus => .paths
  | .zeroLinkRate => .workload
  | _ => .completion

/-- The name of a part. -/
def SettingsPart.name :
    SettingsPart → String
  | .paths => "paths"
  | .workload => "workload"
  | .completion => "fct"

/-- What is wrong with the part. -/
def SettingsError.reason :
    SettingsError → String
  | .zeroModulus => "exclude_same_site must be at least 1"
  | .zeroLinkRate => "link_rate_bps must be non-zero"
  | .emptyLabel => "labels cannot be empty"
  | .equalLabels label => s!"regular and alternative labels must differ, both are '{label}'"
  | .nonPositiveDeadline name value =>
    name ++ " must be positive, got " ++ Decimal.plain.write value
  | .negativeWarmup value => "warmup cannot be negative, got " ++ Decimal.plain.write value

/-- What a refusal says. -/
def SettingsError.message
    (cause : SettingsError) :
    String :=
  let part := cause.part.name
  let reason := cause.reason
  s!"Invalid {part} configuration: {reason}"

namespace Settings

/-- A deadline is positive. -/
def checkDeadline
    (name : String)
    (value : Float) :
    Except SettingsError Unit :=
  if 0.0 < value then .ok () else .error (.nonPositiveDeadline name value)

/-- The two labels differ, and neither is empty. -/
def checkLabels
    (settings : CompletionSettings) :
    Except SettingsError Unit :=
  if settings.regularLabel.isEmpty || settings.alternativeLabel.isEmpty then
    .error .emptyLabel
  else if settings.regularLabel == settings.alternativeLabel then
    .error (.equalLabels settings.regularLabel)
  else .ok ()

/-- The settings make sense; the first thing that does not is told. -/
def validate
    (settings : Settings) :
    Except SettingsError Unit := do
  if settings.paths.excludeSameSite = some 0 then
    throw .zeroModulus
  if settings.workload.linkRate = 0 then
    throw .zeroLinkRate
  let completion := settings.completion
  checkLabels completion
  checkDeadline "regular_deadline" completion.regularDeadline
  checkDeadline "alternative_deadline" completion.alternativeDeadline
  if ¬ 0.0 ≤ completion.warmup then
    throw (.negativeWarmup completion.warmup)

end Settings

end NetRun
