import SpriteScript.Syntax.Tree

-- Nodes and tokens of a tree, each with the nodes around it.
namespace SpriteScript

structure Place where
  tree : Tree
  -- the nearest first
  around : List Tree
deriving Inhabited

namespace Place

def chain (p : Place) : List Tree := p.tree :: p.around

def parent? (p : Place) : Option Place :=
  match p.around with
  | [] => none
  | outer :: rest => some ⟨outer, rest⟩

def isA (p : Place) (kind : NodeKind) : Bool := p.tree.isA kind

-- The parent, if it has the given kind.
def parentOf? (p : Place) (kind : NodeKind) : Option Place := p.parent?.filter (·.isA kind)

-- The place itself and the places around it, from the inside out.
def outward (p : Place) : List Place := go p.tree p.around
where
  go (t : Tree) : List Tree → List Place
    | [] => [⟨t, []⟩]
    | outer :: rest => ⟨t, outer :: rest⟩ :: go outer rest

-- A token that holds the offset or ends there.
def tokenAt? (p : Place) (offset : Nat) : Option Token :=
  p.tree.token?.filter fun t => t.offset ≤ offset && offset ≤ t.stop

end Place

namespace Tree

-- Every inner node, parents before their children.
def nodesWithin (around : List Tree) : Tree → List Place
  | token _ => []
  | t@(node _ _ children) => ⟨t, around⟩ :: nodesWithinAll (t :: around) children
where
  nodesWithinAll (around : List Tree) : List Tree → List Place
    | [] => []
    | t :: rest => t.nodesWithin around ++ nodesWithinAll around rest

def places (t : Tree) : List Place := t.nodesWithin []

-- Every token, and every node without children, in the order of the text.
def leavesWithin (around : List Tree) : Tree → List Place
  | t@(token _) => [⟨t, around⟩]
  | t@(node _ _ []) => [⟨t, around⟩]
  | t@(node _ _ (c :: cs)) => leavesWithinAll (t :: around) (c :: cs)
where
  leavesWithinAll (around : List Tree) : List Tree → List Place
    | [] => []
    | t :: rest => t.leavesWithin around ++ leavesWithinAll around rest

def leaves (t : Tree) : List Place := t.leavesWithin []

-- Nodes of one kind in one place are taken for the same.
def sameAs (a b : Tree) : Bool := a.kind? == b.kind? && a.range == b.range

end Tree

-- A token with the nodes around it.
structure TokenPlace where
  token : Token
  around : List Tree

namespace TokenPlace

def parent? (p : TokenPlace) : Option Place := (⟨.token p.token, p.around⟩ : Place).parent?

-- Between two tokens, the one before the offset.
def leftOf? (leaves : List Place) (offset : Nat) : Option TokenPlace :=
  leaves.findSome? fun p => (p.tokenAt? offset).map (⟨·, p.around⟩)

-- Between two tokens, the one behind the offset.
def rightOf? (leaves : List Place) (offset : Nat) : Option TokenPlace := leftOf? leaves.reverse offset

-- The leaves up to the offset, the last first.
def leavesBefore (offset : Nat) (seen : List Place) : List Place → List Place
  | [] => seen
  | p :: rest =>
      match p.tokenAt? offset with
      | some t => if t.stop ≤ offset then p :: seen else seen
      | none => leavesBefore offset (p :: seen) rest

-- The first token that is no blank and no comment. A node without children ends the search.
def firstSolid? : List Place → Option TokenPlace
  | ⟨.token t, around⟩ :: rest => if t.kind.isTrivia then firstSolid? rest else some ⟨t, around⟩
  | _ => none

-- The last token at or before the offset that is no blank and no comment.
def before? (leaves : List Place) (offset : Nat) : Option TokenPlace :=
  firstSolid? (leavesBefore offset [] leaves)

end TokenPlace

end SpriteScript
