import SpriteScript.Problem
import SpriteScript.Semantics.Info

-- The state of a check and the moves on it.
namespace SpriteScript.Check

-- Where the checker is.
structure Context where
  file : FileId
  scope : ScopeId
  -- the class that the file declares
  fileClass : Option NamedId
  -- the results of the function around, if there is one
  results : Option (List Ty)
  -- the package whose declarations are checked
  package : String
deriving Inhabited

inductive Progress where
  | untouched | running | finished
deriving DecidableEq, Repr, Inhabited

-- Names that a specification at package level declares. Their types are found when the first
-- of them is needed, so that the order of declarations does not matter.
structure PendingSpec where
  context : Context
  spec : Tree
  symbols : List SymbolId
  isConst : Bool
  progress : Progress
deriving Inhabited

-- A declaration whose types are still to be found.
structure PendingDecl where
  context : Context
  decl : Tree
deriving Inhabited

structure State where
  model : Model := {}
  info : Info := {}
  -- newest first
  problems : List (FileId × Text.ByteRange × Problem) := []
  context : Context := default
  specs : Array PendingSpec := #[]
  specOf : Std.HashMap SymbolId Nat := {}
  -- newest first
  typeDecls : List (NamedId × PendingDecl) := []
  -- types whose declarations are being looked into
  resolving : List NamedId := []
  -- newest first
  aliases : List (SymbolId × PendingDecl) := []
  -- newest first
  funcs : List (SymbolId × PendingDecl) := []
  classes : List (FileId × NamedId) := []
  gameClass : Option NamedId := none
  -- whether an argument was asked for that is not there, which ends the run
  crashed : Bool := false
deriving Inhabited

abbrev CheckM := StateM State

-- What an expression stands for.
inductive Mode where
  | invalid
  -- a call without results
  | noValue
  | value
  | type
  | package
  | builtin
deriving DecidableEq, Repr, Inhabited

structure Operand where
  mode : Mode
  ty : Ty
  value : Option Constant := none
  -- the symbol that the expression names
  symbol : Option SymbolId := none
deriving Inhabited

namespace Operand

def invalid : Operand := ⟨.invalid, .invalid, none, none⟩

def ofType (ty : Ty) : Operand := ⟨.value, ty, none, none⟩

def constant (ty : Ty) (value : Constant) : Operand := ⟨.value, ty, some value, none⟩

def noValue : Operand := ⟨.noValue, .void, none, none⟩

def isInvalid (o : Operand) : Bool := o.mode == .invalid

end Operand

-- Expressions and statements lead back to each other through these two.
structure Rules where
  expr : Tree → Option Ty → CheckM Operand
  statement : Tree → CheckM Unit

-- Questions

def model : CheckM Model := return (← get).model

def context : CheckM Context := return (← get).context

def symbol (id : SymbolId) : CheckM Symbol := return (← get).model.symbol id

def namedType (id : NamedId) : CheckM NamedType := return (← get).model.namedType id

def underlying (ty : Ty) : CheckM Ty := return (← get).model.underlying ty

def basicOf? (ty : Ty) : CheckM (Option BasicKind) := return (← get).model.basicOf? ty

def display (ty : Ty) : CheckM String := return (← get).model.display ty

def assignable (source target : Ty) : CheckM Bool := return (← get).model.assignable source target

-- What the name means at the offset.
def lookup? (name : String) (offset? : Option Nat) : CheckM (Option SymbolId) := do
  let s ← get
  return s.model.lookup? s.context.scope name offset?

def boundIn? (scope : ScopeId) (name : String) : CheckM (Option ScopeEntry) :=
  return ((← get).model.scope scope).bound? name

-- Changes

def modifyModel (f : Model → Model) : CheckM Unit := modify fun s => { s with model := f s.model }

def modifyInfo (f : Info → Info) : CheckM Unit := modify fun s => { s with info := f s.info }

def addSymbol (symbol : Symbol) : CheckM SymbolId :=
  modifyGet fun s =>
    let (id, model) := s.model.addSymbol symbol
    (id, { s with model })

def addNamed (named : NamedType) : CheckM NamedId :=
  modifyGet fun s =>
    let (id, model) := s.model.addNamed named
    (id, { s with model })

def addScope (scope : Scope) : CheckM ScopeId :=
  modifyGet fun s =>
    let (id, model) := s.model.addScope scope
    (id, { s with model })

def problemIn (file : FileId) (range : Text.ByteRange) (p : Problem) : CheckM Unit :=
  modify fun s => { s with problems := (file, range, p) :: s.problems }

def problem (range : Text.ByteRange) (p : Problem) : CheckM Unit := do
  problemIn (← context).file range p

def crash : CheckM Unit := modify fun s => { s with crashed := true }

def within {α : Type} (c : Context) (body : CheckM α) : CheckM α := do
  let saved ← modifyGet fun s => (s.context, { s with context := c })
  let result ← body
  modify fun s => { s with context := saved }
  return result

-- Runs `body` in a new scope.
def inScope {α : Type} (kind : ScopeKind) (range : Text.ByteRange) (inclusiveEnd : Bool) (body : CheckM α) :
    CheckM α := do
  let c ← context
  let scope ← addScope { kind, parent := some c.scope, file := some c.file, range, inclusiveEnd }
  modify fun s => { s with context := { s.context with scope } }
  let result ← body
  modify fun s => { s with context := { s.context with scope := c.scope } }
  return result

-- Runs `body` as the body of a function with the given results.
def returning {α : Type} (results : List Ty) (body : CheckM α) : CheckM α := do
  let saved := (← context).results
  modify fun s => { s with context := { s.context with results := some results } }
  let result ← body
  modify fun s => { s with context := { s.context with results := saved } }
  return result

def recordType (t : Tree) (ty : Ty) (value : Option Constant) : CheckM Unit := do
  let file := (← context).file
  modifyInfo (·.recordType file t ⟨ty, value⟩)

def recordExpected (t : Tree) (ty : Ty) : CheckM Unit := do
  let file := (← context).file
  modifyInfo (·.recordExpected file t ty)

def recordDef (range : Text.ByteRange) (s : SymbolId) : CheckM Unit := do
  let file := (← context).file
  modifyInfo (·.recordDef file range s)

def recordUse (range : Text.ByteRange) (s : SymbolId) : CheckM Unit := do
  let file := (← context).file
  modifyInfo (·.recordUse file range s)

def recordCall (t : Tree) (call : CallInfo) : CheckM Unit := do
  let file := (← context).file
  modifyInfo (·.recordCall file t call)

def rangeOf (t : Token) : Text.ByteRange := ⟨t.offset, t.stop⟩

-- A new symbol of the current package, declared by the token.
def declared (ident : Token) (kind : SymbolKind) : CheckM Symbol := do
  let c ← context
  return { name := ident.text, kind, package := c.package, definedAt := some ⟨c.file, rangeOf ident⟩ }

-- Binds a local name, a blank one excepted. Binding a name twice in one scope is reported, and
-- the later binding counts.
def declareLocal (ident : Token) (kind : SymbolKind) (ty : Ty) (visibleFrom : Nat) (value : Option Constant) :
    CheckM Unit := do
  let id ← addSymbol { (← declared ident kind) with ty, value }
  recordDef (rangeOf ident) id
  if ident.text != "_" then
    let scope := (← context).scope
    let bodyLocal := ((← model).scope scope).kind == .file
    if (← boundIn? scope ident.text).isSome then
      problem (rangeOf ident) (.redeclared ident.text)
    modifyModel (·.declare scope ident.text ⟨id, visibleFrom, bodyLocal⟩)

-- Binds a name at package level. A second binding is reported and does not count.
def bind (scope : ScopeId) (name : String) (id : SymbolId) (range : Text.ByteRange) : CheckM Unit := do
  if (← boundIn? scope name).isSome then
    problem range (.redeclared name)
  else
    modifyModel (·.declare scope name ⟨id, 0, false⟩)

end SpriteScript.Check
