import NetRun.Yaml.Node

/-!
# Nodes from tokens

A node is an alias, or it is a scalar or a collection that a name and a tag may
stand in front of.  In a block, dashes or keys make a collection; inside
brackets, commas separate its entries.  What is not written is an empty node.

`fuel` bounds the nesting and the number of entries; three times the number of
tokens is enough.
-/

namespace NetRun.Yaml

/-- The tokens that are left, the nodes named so far, and what handles of tags stand for. -/
structure Source where
  tokens : List Token
  anchors : Anchors
  handles : List (String × String)

/-- A reader of nodes. -/
abbrev Assembly :=
  StateT Source Option

namespace Assembly

/-- The next token. -/
def peek :
    Assembly (Option Token) :=
  return (← get).tokens.head?

/-- Take the next token. -/
def skip :
    Assembly Unit :=
  modify fun source => { source with tokens := source.tokens.tail }

/-- Take the next token if it is this one. -/
def skipIf
    (token : Token) :
    Assembly Bool := do
  if (← peek) = some token then
    skip
    return true
  else return false

/-- The next token is one of these. -/
def isAt
    (tokens : List Token) :
    Assembly Bool :=
  return (← peek).any tokens.contains

/-- Read a node, or take it for empty in front of one of some tokens. -/
def unlessAt
    (tokens : List Token)
    (node : Assembly Node) :
    Assembly Node := do
  if ← isAt tokens then return .empty else node

/-- The name in front of a node. -/
def name? :
    Assembly (Option String) := do
  match ← peek with
  | some (.anchor name) =>
    skip
    return some name
  | _ => return none

/-- The tag in front of a node, in full. -/
def tag? :
    Assembly (Option String) := do
  match ← peek with
  | some (.tag handle rest) =>
    skip
    if handle.isEmpty then return some rest
    else
      let meaning ← StateT.lift ((← get).handles.lookup handle)
      return some (meaning ++ rest)
  | _ => return none

/-- The name and the tag in front of a node, in either order. -/
def properties :
    Assembly (Option String × Option String) := do
  match ← name? with
  | some name => return (some name, ← tag?)
  | none =>
    let tag ← tag?
    if tag.isSome then return (← name?, tag) else return (none, none)

/-- Read a node that may have a name, under which it is known from its start on. -/
def named
    (name : Option String)
    (node : Assembly Node) :
    Assembly Node :=
  match name with
  | none => node
  | some name => do
    let place := (← get).anchors.starts.length
    modify fun source => { source with anchors := source.anchors.start name }
    let node ← node
    modify fun source => { source with anchors := source.anchors.set place node }
    return node

mutual

/-- A node, which may be a block, and as a key or a value dashes in the column of the keys. -/
def node
    (inBlock inMapping : Bool) :
    (fuel : Nat) → Assembly Node
  | 0 => failure
  | fuel + 1 => do
    match ← peek with
    | some (.alias name) =>
      skip
      StateT.lift ((← get).anchors.alias? name)
    | _ =>
      let (name, tag) ← properties
      named name (content inBlock inMapping (name.isSome || tag.isSome) tag fuel)

/-- What stands behind the name and the tag of a node, which is empty if it has one of them. -/
def content
    (inBlock inMapping mayBeEmpty : Bool)
    (tag : Option String) :
    (fuel : Nat) → Assembly Node
  | 0 => failure
  | fuel + 1 => do
    match ← peek with
    | some (.scalar style text) =>
      skip
      return .scalar style (tag.filter (· != "!")) text
    | some .openSequence =>
      skip
      bracketItems [] fuel
    | some .openMapping =>
      skip
      bracketMembers [] fuel
    | token =>
      if token = some .dash ∧ inMapping then dashedItems [] fuel
      else if token = some .sequenceBlock ∧ inBlock then
        skip
        blockItems [] fuel
      else if token = some .mappingBlock ∧ inBlock then
        skip
        blockMembers [] fuel
      else if mayBeEmpty then return .scalar .plain tag ""
      else failure

/-- The rest of a sequence in a block. -/
def blockItems
    (items : List Node) :
    (fuel : Nat) → Assembly Node
  | 0 => failure
  | fuel + 1 => do
    if ← skipIf .dash then
      let item ← unlessAt [.dash, .blockEnd] (node true false fuel)
      blockItems (item :: items) fuel
    else if ← skipIf .blockEnd then return .sequence items.reverse
    else failure

/-- The rest of a sequence whose dashes stand in the column of the keys around it. -/
def dashedItems
    (items : List Node) :
    (fuel : Nat) → Assembly Node
  | 0 => failure
  | fuel + 1 => do
    if ← skipIf .dash then
      let item ← unlessAt [.dash, .key, .value, .blockEnd] (node true false fuel)
      dashedItems (item :: items) fuel
    else return .sequence items.reverse

/-- The rest of a mapping in a block. -/
def blockMembers
    (members : List (Node × Node)) :
    (fuel : Nat) → Assembly Node
  | 0 => failure
  | fuel + 1 => do
    if ← skipIf .key then
      let ends := [.key, .value, .blockEnd]
      let key ← unlessAt ends (node true true fuel)
      let value ←
        if ← skipIf .value then unlessAt ends (node true true fuel) else pure .empty
      blockMembers ((key, value) :: members) fuel
    else if ← skipIf .blockEnd then return .mapping members.reverse
    else failure

/-- The rest of a sequence in brackets; an entry with a key is a mapping of its own. -/
def bracketItems
    (items : List Node) :
    (fuel : Nat) → Assembly Node
  | 0 => failure
  | fuel + 1 => do
    if ← skipIf .closeSequence then return .sequence items.reverse
    else
      if !items.isEmpty then
        guard (← skipIf .comma)
      if ← skipIf .closeSequence then return .sequence items.reverse
      else if ← skipIf .key then
        let key ←
          if ← isAt [.value, .comma, .closeSequence] then
            skip
            pure .empty
          else node false false fuel
        let value ←
          if ← skipIf .value then
            unlessAt [.comma, .closeSequence] (node false false fuel)
          else pure .empty
        bracketItems (.mapping [(key, value)] :: items) fuel
      else
        let item ← node false false fuel
        bracketItems (item :: items) fuel

/-- The rest of a mapping in brackets; an entry without a key has an empty value. -/
def bracketMembers
    (members : List (Node × Node)) :
    (fuel : Nat) → Assembly Node
  | 0 => failure
  | fuel + 1 => do
    if ← skipIf .closeMapping then return .mapping members.reverse
    else
      if !members.isEmpty then
        guard (← skipIf .comma)
      if ← skipIf .closeMapping then return .mapping members.reverse
      else if ← skipIf .key then
        let ends := [.comma, .closeMapping]
        let key ← unlessAt (.value :: ends) (node false false fuel)
        let value ←
          if ← skipIf .value then unlessAt ends (node false false fuel) else pure .empty
        bracketMembers ((key, value) :: members) fuel
      else
        let key ← node false false fuel
        bracketMembers ((key, .empty) :: members) fuel

end

end Assembly

end NetRun.Yaml
