import Std.Data.HashMap
import SpriteScript.Syntax.Access
import SpriteScript.Semantics.Model

-- What the checker finds out about the nodes of the syntax trees.
namespace SpriteScript

-- A node of a file by its kind and place.
structure NodeKey where
  file : FileId
  kind : NodeKind
  range : Text.ByteRange
deriving DecidableEq, Repr, Hashable

structure TypeAndValue where
  ty : Ty
  value : Option Constant
deriving Repr, Inhabited

-- How a call was understood.
structure CallInfo where
  callee : Option SymbolId := none
  -- the overload that was chosen
  signature : Option Signature := none
  -- the type of the value before the dot
  receiver : Option Ty := none
  -- the class whose method is called without a receiver
  implicitReceiver : Option NamedId := none
deriving Repr, Inhabited

def CallInfo.receiverType? (c : CallInfo) : Option Ty :=
  c.receiver <|> c.implicitReceiver.map .named

structure Info where
  types : Std.HashMap NodeKey TypeAndValue := {}
  -- types that the surroundings of an expression ask for
  expected : Std.HashMap NodeKey Ty := {}
  defs : Std.HashMap (FileId × Text.ByteRange) SymbolId := {}
  uses : Std.HashMap (FileId × Text.ByteRange) SymbolId := {}
  calls : Std.HashMap NodeKey CallInfo := {}
  -- the places where a symbol is used, latest first
  useSites : Std.HashMap SymbolId (List (FileId × Text.ByteRange)) := {}
deriving Inhabited

namespace Info

def key? (file : FileId) (t : Tree) : Option NodeKey := t.kind?.map fun kind => ⟨file, kind, t.range⟩

def recordType (i : Info) (file : FileId) (t : Tree) (tv : TypeAndValue) : Info :=
  match key? file t with
  | some key => { i with types := i.types.insert key tv }
  | none => i

def recordExpected (i : Info) (file : FileId) (t : Tree) (ty : Ty) : Info :=
  match key? file t with
  | some key => if ty.isInvalid then i else { i with expected := i.expected.insert key ty }
  | none => i

def recordCall (i : Info) (file : FileId) (t : Tree) (call : CallInfo) : Info :=
  match key? file t with
  | some key => { i with calls := i.calls.insert key call }
  | none => i

def recordDef (i : Info) (file : FileId) (range : Text.ByteRange) (s : SymbolId) : Info :=
  { i with defs := i.defs.insert (file, range) s }

-- A place that is in use keeps its first entry among the use sites, and takes the new symbol.
def recordUse (i : Info) (file : FileId) (range : Text.ByteRange) (s : SymbolId) : Info :=
  if i.uses.contains (file, range) then { i with uses := i.uses.insert (file, range) s }
  else
    { i with
      uses := i.uses.insert (file, range) s
      useSites := i.useSites.alter s fun sites => some ((file, range) :: sites.getD []) }

def type? (i : Info) (file : FileId) (t : Tree) : Option TypeAndValue :=
  (key? file t).bind (i.types[·]?)

def expected? (i : Info) (file : FileId) (t : Tree) : Option Ty := (key? file t).bind (i.expected[·]?)

def call? (i : Info) (file : FileId) (t : Tree) : Option CallInfo := (key? file t).bind (i.calls[·]?)

-- The symbol that the identifier declares.
def defAt? (i : Info) (file : FileId) (range : Text.ByteRange) : Option SymbolId := i.defs[(file, range)]?

-- The symbol that the identifier means.
def useAt? (i : Info) (file : FileId) (range : Text.ByteRange) : Option SymbolId := i.uses[(file, range)]?

def sitesOf (i : Info) (s : SymbolId) : List (FileId × Text.ByteRange) := (i.useSites.getD s []).reverse

def placesIn (file : FileId) (table : Std.HashMap (FileId × Text.ByteRange) SymbolId) :
    List (Text.ByteRange × SymbolId) :=
  let found := table.toList.filterMap fun ((f, range), s) => if f == file then some (range, s) else none
  found.mergeSort fun (a, _) (b, _) => a.start < b.start || (a.start == b.start && a.stop ≤ b.stop)

-- Identifiers of a file that declare something, by place.
def defsIn (i : Info) (file : FileId) : List (Text.ByteRange × SymbolId) := placesIn file i.defs

def usesIn (i : Info) (file : FileId) : List (Text.ByteRange × SymbolId) := placesIn file i.uses

-- The identifier at an offset or right before it, and its symbol.
def symbolAt? (i : Info) (file : FileId) (offset : Nat) : Option (Text.ByteRange × SymbolId) :=
  (i.defsIn file ++ i.usesIn file).find? fun (range, _) => range.touches offset

end Info

end SpriteScript
