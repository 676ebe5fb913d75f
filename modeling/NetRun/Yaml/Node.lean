import NetRun.Yaml.Token

/-!
# YAML nodes

What a YAML document holds: scalars, sequences and mappings of nodes, and
references to nodes that are named elsewhere.  An empty node is a plain scalar
without text.
-/

namespace NetRun.Yaml

/-- A node of a document. -/
inductive Node where
  | scalar (style : Style) (tag : Option String) (text : String)
  | sequence (items : List Node)
  | mapping (members : List (Node × Node))
  /-- The node that is named with a number. -/
  | alias (number : Nat)

/-- The tag of a standard type. -/
def standardTag
    (type : String) :
    String :=
  "tag:yaml.org,2002:" ++ type

/-- The node that stands where nothing is written. -/
def Node.empty :
    Node :=
  .scalar .plain none ""

/-- The text of a scalar of any style. -/
def Node.text? :
    Node → Option String
  | .scalar _ _ text => some text
  | _ => none

/--
The named nodes of a document.  A name gets the number of names in front of it;
a name that is given again gets a new number, which the next new name shares,
and of nodes that share a number the last to start counts.
-/
structure Anchors where
  /-- The number of each name. -/
  numbers : List (String × Nat)
  /-- The number of each named node, the last node first. -/
  starts : List Nat
  /-- The named nodes, each with how many start in front of it. -/
  nodes : List (Nat × Node)

namespace Anchors

/-- No node is named. -/
def none :
    Anchors :=
  ⟨[], [], []⟩

/-- A node with a name starts. -/
def start
    (anchors : Anchors)
    (name : String) :
    Anchors :=
  let number := anchors.numbers.length
  { anchors with
    numbers := (name, number) :: anchors.numbers.filter fun entry => entry.1 != name
    starts := number :: anchors.starts }

/-- The named node with a count of others in front of it is this one. -/
def set
    (anchors : Anchors)
    (place : Nat)
    (node : Node) :
    Anchors :=
  { anchors with nodes := (place, node) :: anchors.nodes }

/-- The reference that a name stands for. -/
def alias?
    (anchors : Anchors)
    (name : String) :
    Option Node :=
  (anchors.numbers.lookup name).map Node.alias

/-- The node that a number refers to. -/
def node?
    (anchors : Anchors)
    (number : Nat) :
    Option Node :=
  let later := anchors.starts.takeWhile (· != number)
  anchors.nodes.lookup (anchors.starts.length - later.length - 1)

/-- A node, or the one that it refers to. -/
def follow
    (anchors : Anchors) :
    Node → Node
  | .alias number => (anchors.node? number).getD (.alias number)
  | node => node

end Anchors

end NetRun.Yaml
