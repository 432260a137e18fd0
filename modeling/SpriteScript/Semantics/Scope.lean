import SpriteScript.FileId
import SpriteScript.Text.Position
import SpriteScript.Semantics.Type

-- Regions of a program in which names are bound.
namespace SpriteScript

structure ScopeId where
  index : Nat
deriving DecidableEq, Repr, Inhabited, Hashable

inductive ScopeKind where
  -- what every program can use without declaring it
  | predeclared
  -- a bundled package
  | package
  -- what all files of the program share
  | unit
  | file
  -- a declared function
  | func
  -- a function literal or a lambda
  | lambda
  -- a block, a statement with a head, or a clause
  | block
deriving DecidableEq, Repr, Inhabited

def ScopeKind.label : ScopeKind → String
  | predeclared => "Universe"
  | package => "Package"
  | unit => "Unit"
  | file => "File"
  | func => "Func"
  | lambda => "Lambda"
  | block => "Block"

structure ScopeEntry where
  symbol : SymbolId
  -- the offset from which the name is bound
  visibleFrom : Nat
  -- bound by a statement at the top of a file; declared functions do not see it
  bodyLocal : Bool
deriving DecidableEq, Repr, Inhabited

structure Scope where
  kind : ScopeKind
  parent : Option ScopeId
  children : Array ScopeId := #[]
  file : Option FileId := none
  range : Text.ByteRange := ⟨0, 0⟩
  -- whether the offset behind the last byte belongs to the scope
  inclusiveEnd : Bool := true
  -- names in the order in which they were first bound
  entries : Array (String × ScopeEntry) := #[]
  -- the class whose members a file sees
  fileClass : Option NamedId := none
deriving Repr, Inhabited

namespace Scope

def contains (s : Scope) (file : FileId) (offset : Nat) : Bool :=
  s.file == some file && s.range.start ≤ offset &&
    (offset < s.range.stop || (s.inclusiveEnd && offset == s.range.stop))

def bound? (s : Scope) (name : String) : Option ScopeEntry :=
  (s.entries.find? (·.1 == name)).map (·.2)

-- Binds a name; one that is bound already keeps its place in the order.
def bind (s : Scope) (name : String) (entry : ScopeEntry) : Scope :=
  match s.entries.findIdx? (·.1 == name) with
  | some i => { s with entries := s.entries.modify i fun _ => (name, entry) }
  | none => { s with entries := s.entries.push (name, entry) }

end Scope

-- Whether a binding counts at an offset. Without an offset the order does not matter, and
-- neither does it outside of files.
def ScopeEntry.isVisible (e : ScopeEntry) (scope : Scope) (offset? : Option Nat) (insideFunc : Bool) : Bool :=
  (scope.file.isNone || offset?.all (e.visibleFrom ≤ ·)) && !(e.bodyLocal && insideFunc)

end SpriteScript
