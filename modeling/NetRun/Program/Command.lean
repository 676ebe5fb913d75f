import NetRun.Decimal.Numeral
import NetRun.Program.Arguments

/-!
# Commands

The program answers to two names.  Under one it works on topologies, paths and
workloads, and under the other it compares the completion times of two runs.
Options for the settings file and for the log may stand before or after the
name of a command; those after it count if both are there.
-/

namespace NetRun.Program

/-- The names that the program answers to. -/
inductive Tool where
  | network
  | completion
deriving DecidableEq, Repr

/-- The name as it is typed. -/
def Tool.name :
    Tool → String
  | .network => "netsim-analysis"
  | .completion => "fct-analyzer"

/-- What the program can be asked to do. -/
inductive Command where
  /-- Report delay and bottleneck between hosts. -/
  | paths (topology hosts : String) (delayOnly : Bool) (exclude : Option UInt32)
      (json : Option String)
  /-- List the end hosts of a topology. -/
  | endHosts (topology output : String)
  /-- Give access links and core links new delays. -/
  | assignDelay (topology hosts output : String) (access core : Option UInt64)
  /-- Replicate the hosts of a topology. -/
  | fanoutTopology (topology : String) (fanout : UInt32) (output : String)
  /-- Move the flows of a workload to replicas of their hosts. -/
  | fanoutWorkload (workload : String) (fanout core : UInt32) (output : String)
      (seed : Option UInt64)
  /-- Show what each source sends as a share of its link. -/
  | linkUtil (workload : String) (duration : Float) (rate : Option UInt64)
  /-- Write the statistics tables of two runs. -/
  | stats (regular alternative regularSuffix alternativeSuffix : String)
      (directory : Option String) (regularDeadline alternativeDeadline warmup : Option Float)
  /-- Write how much lower the averages of the alternative run are. -/
  | improvement (regular alternative pattern directory : String)
deriving DecidableEq, Repr

/-- A command with what is said about the run as a whole. -/
structure Invocation where
  settings : Option String
  logWord : String
  command : Command
deriving DecidableEq, Repr

/-- A path, which is not empty. -/
def path?
    (text : String) :
    Option String :=
  if text.isEmpty then none else some text

/-- A number below 2^32 and not below a least one; a sign of either kind may be written. -/
def count?
    (least : Int)
    (text : String) :
    Option UInt32 :=
  (Decimal.integer? text.toList).bind fun n =>
    if least ≤ n ∧ n < 4294967296 then some (UInt32.ofNat n.toNat) else none

/-- The values that a reader accepts. -/
def acceptedBy
    {α : Type}
    (read : String → Option α) :
    String → Bool :=
  fun text => (read text).isSome

/-- An option with a value. -/
def valueOption
    {α : Type}
    (name : String)
    (letter : Option Char)
    (read : String → Option α) :
    OptionForm :=
  ⟨name, letter, some (acceptedBy read)⟩

/-- The options that every command has. -/
def sharedOptions :
    List OptionForm :=
  [valueOption "config" (some 'c') path?, valueOption "log-level" none (some : String → _)]

/-- What one command takes. -/
def form
    (name : String)
    (places : List (String → Bool))
    (options : List OptionForm) :
    CommandForm :=
  ⟨name, places, options ++ sharedOptions⟩

/-- The commands of a tool. -/
def forms :
    Tool → List CommandForm
  | .network =>
    let path := acceptedBy path?
    [ form "paths" [path, path]
        [⟨"delay-only", none, none⟩, valueOption "exclude-same-site" none (count? 1),
          valueOption "json" none path?],
      form "end-hosts" [path, path] [],
      form "assign-delay" [path, path, path]
        [valueOption "access-delay" none Decimal.word64?,
          valueOption "core-delay" none Decimal.word64?],
      form "fanout-topology" [path, acceptedBy (count? 1), path] [],
      form "fanout-workload" [path, acceptedBy (count? 1), acceptedBy (count? 0), path]
        [valueOption "seed" none Decimal.word64?],
      form "link-util" [path, acceptedBy Decimal.real?]
        [valueOption "link-rate" none Decimal.word64?] ]
  | .completion =>
    let path := acceptedBy path?
    let any : String → Bool := fun _ => true
    [ form "stats" [path, path, any, any]
        [valueOption "output-dir" (some 'o') path?,
          valueOption "regular-deadline" none Decimal.real?,
          valueOption "alternative-deadline" none Decimal.real?,
          valueOption "warmup" none Decimal.real?],
      form "improvement" [path, path, any] [valueOption "output-dir" (some 'o') path?] ]

/-- The value of an option, read. -/
def Arguments.value
    {α : Type}
    (arguments : Arguments)
    (name : String)
    (read : String → Option α) :
    Option α :=
  (arguments.options.lookup name).bind read

/-- The command that a name and its arguments say. -/
def Command.ofArguments?
    (tool : Tool)
    (name : String)
    (arguments : Arguments) :
    Option Command :=
  match tool, name, arguments.places with
  | .network, "paths", [topology, hosts] =>
    some (.paths topology hosts (arguments.has "delay-only")
      (arguments.value "exclude-same-site" (count? 1)) (arguments.value "json" path?))
  | .network, "end-hosts", [topology, output] => some (.endHosts topology output)
  | .network, "assign-delay", [topology, hosts, output] =>
    some (.assignDelay topology hosts output
      (arguments.value "access-delay" Decimal.word64?)
      (arguments.value "core-delay" Decimal.word64?))
  | .network, "fanout-topology", [topology, fanout, output] =>
    (count? 1 fanout).map fun fanout => .fanoutTopology topology fanout output
  | .network, "fanout-workload", [workload, fanout, core, output] => do
    let fanout ← count? 1 fanout
    let core ← count? 0 core
    return .fanoutWorkload workload fanout core output
      (arguments.value "seed" Decimal.word64?)
  | .network, "link-util", [workload, duration] =>
    (Decimal.real? duration).map fun duration =>
      .linkUtil workload duration (arguments.value "link-rate" Decimal.word64?)
  | .completion, "stats", [regular, alternative, regularSuffix, alternativeSuffix] =>
    some (.stats regular alternative regularSuffix alternativeSuffix
      (arguments.value "output-dir" path?)
      (arguments.value "regular-deadline" Decimal.real?)
      (arguments.value "alternative-deadline" Decimal.real?)
      (arguments.value "warmup" Decimal.real?))
  | .completion, "improvement", [regular, alternative, pattern] =>
    some (.improvement regular alternative pattern
      ((arguments.value "output-dir" path?).getD "."))
  | _, _, _ => none

/-- Words behind the word that asks for help: one command's name at most. -/
def readHelp
    (tool : Tool) :
    List String → Reading Invocation
  | [] => .help
  | [name] =>
    if name == "help" || ((forms tool).any fun form => form.name == name) then .help
    else .misuse
  | _ => .misuse

/-- What the words behind a tool's name say. -/
def Invocation.read
    (tool : Tool)
    (words : List String) :
    Reading Invocation :=
  match Arguments.readFront sharedOptions .none words with
  | .help => .help
  | .version => .version
  | .misuse => .misuse
  | .accepted front =>
    match (forms tool).find? fun form => form.name == front.name with
    | none => if front.name == "help" then readHelp tool front.words else .misuse
    | some form =>
      match Arguments.read form .none front.words with
      | .help => .help
      | .version => .version
      | .misuse => .misuse
      | .accepted arguments =>
        match Command.ofArguments? tool front.name arguments with
        | some command =>
          if front.isSound then
            let shared := fun option => arguments.options.lookup option <|>
              front.arguments.options.lookup option
            .accepted ⟨shared "config", (shared "log-level").getD "info", command⟩
          else .misuse
        | none => .misuse

end NetRun.Program
