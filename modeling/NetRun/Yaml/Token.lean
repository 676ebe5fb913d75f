/-!
# Tokens of a YAML text

A text is read as a sequence of tokens first.  Some of them stand for what is
written, and others for what indentation or a later colon says: that a block
starts or ends, and that the node which follows is a key.
-/

namespace NetRun.Yaml

/-- How a scalar is written. -/
inductive Style where
  | plain
  | quoted
  /-- A block behind a bar. -/
  | literal
  /-- A block behind an angle. -/
  | folded
deriving DecidableEq, Repr

/-- A token of a text. -/
inductive Token where
  /-- The version of the language, in front of a document. -/
  | version (major minor : Nat)
  /-- What a handle of tags stands for, in front of a document. -/
  | handle (name meaning : String)
  | documentStart
  | documentEnd
  | sequenceBlock
  | mappingBlock
  | blockEnd
  | openSequence
  | closeSequence
  | openMapping
  | closeMapping
  | comma
  | dash
  | key
  | value
  | alias (name : String)
  | anchor (name : String)
  /-- A tag: the name of a handle, and what stands behind it. -/
  | tag (handle rest : String)
  | scalar (style : Style) (text : String)
deriving DecidableEq, Repr

end NetRun.Yaml
