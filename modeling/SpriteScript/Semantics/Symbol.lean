import SpriteScript.FileId
import SpriteScript.Text.CharClass
import SpriteScript.Text.Position
import SpriteScript.Semantics.Constant

-- Everything that has a name: symbols, and the types that are declared.
namespace SpriteScript

inductive SymbolKind where
  | var | param | field | const | typeName | func | method
  -- an imported package
  | package
  -- a function such as `len` that has rules of its own
  | builtin
deriving DecidableEq, Repr, Inhabited

namespace SymbolKind

-- The word for the kind in a message.
def word : SymbolKind → String
  | var => "variable"
  | param => "parameter"
  | field => "field"
  | const => "constant"
  | typeName => "type"
  | func => "function"
  | method => "method"
  | package => "package"
  | builtin => "builtin"

def label : SymbolKind → String
  | var => "Var"
  | param => "Param"
  | field => "Field"
  | const => "Const"
  | typeName => "TypeName"
  | func => "Func"
  | method => "Method"
  | package => "Package"
  | builtin => "Builtin"

def isCallable : SymbolKind → Bool
  | func | method | builtin => true
  | _ => false

-- What may stand on the left of an assignment.
def isVariable : SymbolKind → Bool
  | var | param | field => true
  | _ => false

end SymbolKind

-- Where the name of a symbol is declared.
structure DefSite where
  file : FileId
  range : Text.ByteRange
deriving DecidableEq, Repr, Inhabited

structure Symbol where
  name : String
  kind : SymbolKind
  -- the package that declares it; none for what is predeclared
  package : String
  -- the type of the value, and for a type name the type itself
  ty : Ty := .invalid
  -- the overloads of a function
  signatures : List Signature := []
  definedAt : Option DefSite := none
  -- the type whose field or method it is
  owner : Option NamedId := none
  value : Option Constant := none
  inFirstVarBlock : Bool := false
deriving Repr, Inhabited

namespace Symbol

-- Whether the symbol comes from a bundled package or is predeclared.
def isBuiltin (s : Symbol) : Bool :=
  match s.definedAt with
  | some site => site.file.isBundled
  | none => true

def isEventHandler (s : Symbol) : Bool := s.kind == .method && Text.isHandlerName s.name

end Symbol

inductive ClassKind where
  | game | sprite
deriving DecidableEq, Repr, Inhabited

def ClassKind.label : ClassKind → String
  | game => "Game"
  | sprite => "Sprite"

structure Field where
  symbol : SymbolId
  name : String
  ty : Ty
  embedded : Bool
deriving Repr, Inhabited

-- What a declared type stands for.
inductive Underlying where
  | pending
  | type (ty : Ty)
  | struct (fields : List Field)
  -- the methods that a type must have
  | interface (methods : List SymbolId)
deriving Repr, Inhabited

structure NamedType where
  name : String
  package : String
  underlying : Underlying := .pending
  -- methods in the order of their declarations
  methods : List SymbolId := []
  symbol : Option SymbolId := none
  classKind : Option ClassKind := none
deriving Repr, Inhabited

namespace NamedType

def isPending (n : NamedType) : Bool :=
  match n.underlying with
  | .pending => true
  | _ => false

def isStruct (n : NamedType) : Bool :=
  match n.underlying with
  | .struct _ => true
  | _ => false

def isInterface (n : NamedType) : Bool :=
  match n.underlying with
  | .interface _ => true
  | _ => false

def fields (n : NamedType) : List Field :=
  match n.underlying with
  | .struct fields => fields
  | _ => []

-- The symbols that the type itself declares, fields before methods.
def ownMembers (n : NamedType) : List SymbolId :=
  let declared :=
    match n.underlying with
    | .struct fields => fields.map (·.symbol)
    | .interface methods => methods
    | _ => []
  declared ++ n.methods

-- The declared types that the type embeds.
def embedded (n : NamedType) : List NamedId :=
  n.fields.filterMap fun f => if f.embedded then f.ty.named? else none

end NamedType

end SpriteScript
