import SpriteScript.Text.Position
import SpriteScript.Token.Basic
import SpriteScript.Syntax.Kind

-- Lossless syntax trees. The tokens of a tree, blanks and comments included, are those of the
-- text in their order; inner nodes only group them.
namespace SpriteScript

inductive Tree where
  | token (token : Token)
  -- `offset` is where the node starts; a node without children lies there too.
  | node (kind : NodeKind) (offset : Nat) (children : List Tree)
deriving Repr, Inhabited

namespace Tree

def start : Tree → Nat
  | token t => t.offset
  | node _ offset _ => offset

-- The end of a node is the end of its last child.
def stop : Tree → Nat
  | token t => t.stop
  | node _ offset children => stopOfAll offset children
where
  stopOfAll (offset : Nat) : List Tree → Nat
    | [] => offset
    | [t] => t.stop
    | _ :: rest => stopOfAll offset rest

def range (t : Tree) : Text.ByteRange := ⟨t.start, t.stop⟩

def kind? : Tree → Option NodeKind
  | token _ => none
  | node kind _ _ => some kind

def token? : Tree → Option Token
  | token t => some t
  | node .. => none

def isNode (t : Tree) : Bool := t.kind?.isSome

def isA (t : Tree) (kind : NodeKind) : Bool := t.kind? == some kind

def children : Tree → List Tree
  | token _ => []
  | node _ _ children => children

def childNodes (t : Tree) : List Tree := t.children.filter isNode

def childTokens (t : Tree) : List Token := t.children.filterMap token?

-- All tokens, in the order of the text.
def tokens : Tree → List Token
  | token t => [t]
  | node _ _ children => tokensOfAll children
where
  tokensOfAll : List Tree → List Token
    | [] => []
    | t :: rest => t.tokens ++ tokensOfAll rest

def text (t : Tree) : String := String.join (t.tokens.map (·.text))

-- The tree and everything below it, each with its depth, parents before their children.
def preorder (depth : Nat) : Tree → List (Nat × Tree)
  | t@(token _) => [(depth, t)]
  | t@(node _ _ children) => (depth, t) :: preorderOfAll (depth + 1) children
where
  preorderOfAll (depth : Nat) : List Tree → List (Nat × Tree)
    | [] => []
    | t :: rest => t.preorder depth ++ preorderOfAll depth rest

-- Every inner node of the tree, parents before their children.
def nodes (t : Tree) : List Tree :=
  ((t.preorder 0).map (·.2)).filter isNode

-- How deep nodes lie inside each other.
def height : Tree → Nat
  | token _ => 0
  | node _ _ children => heightOfAll children + 1
where
  heightOfAll : List Tree → Nat
    | [] => 0
    | t :: rest => max t.height (heightOfAll rest)

-- How many nodes there are.
def nodeCount : Tree → Nat
  | token _ => 0
  | node _ _ children => countOfAll children + 1
where
  countOfAll : List Tree → Nat
    | [] => 0
    | t :: rest => t.nodeCount + countOfAll rest

end Tree

end SpriteScript
