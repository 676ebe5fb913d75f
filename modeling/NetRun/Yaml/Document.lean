import NetRun.Yaml.Collection
import NetRun.Yaml.Tokens

/-!
# Documents

A text holds one document: directives and a line of dashes, a node, and lines
of dots.  Without directives the dashes may be missing, and dots may stand only
behind a node.  A text in which nothing is written holds the empty node; one
with a second document, or with anything left behind the node, holds none.
-/

namespace NetRun.Yaml

/-- A node and the nodes that are named in it. -/
structure Document where
  root : Node
  anchors : Anchors

/-- What handles of tags stand for unless a directive says otherwise. -/
def standardHandles :
    List (String × String) :=
  [("!", "!"), ("!!", standardTag "")]

/-- What the directives in front of a document say about handles, and the tokens behind them. -/
def readDirectives
    (handles : List (String × String))
    (hasVersion : Bool) :
    List Token → Option (List (String × String) × List Token)
  | .version major minor :: tokens => do
    guard (!hasVersion && major == 1 && (minor == 1 || minor == 2))
    readDirectives handles true tokens
  | .handle name meaning :: tokens => do
    guard (handles.lookup name).isNone
    readDirectives ((name, meaning) :: handles) hasVersion tokens
  | tokens => some (handles ++ standardHandles, tokens)

/-- The token starts a document with dashes, or a directive in front of them. -/
def Token.startsDocument :
    Token → Bool
  | .version .. => true
  | .handle .. => true
  | .documentStart => true
  | _ => false

/-- The token ends a document in which nothing is written. -/
def Token.endsDocument
    (token : Token) :
    Bool :=
  token.startsDocument || token = .documentEnd

/-- The document that is left once its node has been read, if nothing but dots follows. -/
def Document.ofNode?
    (root : Node)
    (source : Source) :
    Option Document :=
  if source.tokens.all (· = .documentEnd) then some ⟨root, source.anchors⟩ else none

/-- The one document that tokens make. -/
def Document.ofTokens?
    (tokens : List Token) :
    Option Document := do
  let read := fun tokens handles =>
    (Assembly.node true false (3 * tokens.length + 3)).run ⟨tokens, .none, handles⟩
  match tokens with
  | [] => return ⟨.empty, .none⟩
  | first :: _ =>
    if first.startsDocument then
      let (handles, tokens) ← readDirectives [] false tokens
      guard (tokens.head? = some .documentStart)
      let inside := tokens.tail
      if inside.head?.all Token.endsDocument then
        Document.ofNode? .empty ⟨inside, .none, handles⟩
      else
        let (root, source) ← read inside handles
        Document.ofNode? root source
    else
      let (root, source) ← read tokens standardHandles
      Document.ofNode? root source

/-- The one document that a text holds. -/
def Document.ofText?
    (text : String) :
    Option Document :=
  let characters := text.toList
  if characters.all isAllowed then
    (Token.ofText? (unifyBreaks characters)).bind Document.ofTokens?
  else none

end NetRun.Yaml
