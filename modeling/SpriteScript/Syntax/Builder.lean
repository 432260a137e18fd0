import SpriteScript.Syntax.Tree

-- Growing a tree from left to right. Finished trees wait in one row until the node around
-- them is finished; a checkpoint is a place in that row, so that a node can still be started
-- around trees that are there already.
namespace SpriteScript.Syntax

structure Builder where
  -- the nodes that are open, innermost first, each with the place of its first child
  opened : List (NodeKind × Nat) := []
  -- the finished trees that belong to no finished node
  forest : Array Tree := #[]
  -- whether every call so far was allowed
  lawful : Bool := true
deriving Inhabited

namespace Builder

def checkpoint (b : Builder) : Nat := b.forest.size

-- The place of the first child of the innermost open node.
def floor (b : Builder) : Nat := (b.opened.head?.map (·.2)).getD 0

def token (b : Builder) (t : Token) : Builder := { b with forest := b.forest.push (.token t) }

def start (b : Builder) (kind : NodeKind) : Builder :=
  { b with opened := (kind, b.checkpoint) :: b.opened }

-- Starts a node around the trees behind a checkpoint, which has to lie in the innermost open
-- node.
def startAt (b : Builder) (place : Nat) (kind : NodeKind) : Builder :=
  { b with
    opened := (kind, place) :: b.opened
    lawful := b.lawful && decide (b.floor ≤ place) && decide (place ≤ b.checkpoint) }

-- Finishes the innermost open node; one without children lies at `offset`.
def finish (b : Builder) (offset : Nat) : Builder :=
  match b.opened with
  | [] => { b with lawful := false }
  | (kind, place) :: opened =>
      let children := (b.forest.extract place).toList
      let tree := Tree.node kind ((children.head?.map Tree.start).getD offset) children
      { b with opened, forest := (b.forest.take place).push tree }

-- The one tree that is left when all nodes are finished.
def root (b : Builder) : Tree := b.forest[0]?.getD default

end Builder

end SpriteScript.Syntax
