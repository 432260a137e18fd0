import Std.Data.HashSet
import SpriteScript.Semantics.Scope
import SpriteScript.Semantics.Symbol
import SpriteScript.Semantics.Vocabulary

-- All symbols, declared types and scopes of a program, and questions about them.
namespace SpriteScript

-- A member of a type, and how many embeddings lie between.
structure Member where
  symbol : SymbolId
  depth : Nat
deriving DecidableEq, Repr, Inhabited

structure Model where
  symbols : Array Symbol := #[]
  named : Array NamedType := #[]
  scopes : Array Scope := #[]
  predeclared : ScopeId := ⟨0⟩
  unitScope : ScopeId := ⟨0⟩
  -- the bundled packages by import path
  packages : List (String × ScopeId) := []
  fileScopes : List (FileId × ScopeId) := []
deriving Inhabited

namespace Model

-- Tables

def symbol (m : Model) (id : SymbolId) : Symbol := m.symbols[id.index]?.getD default

def namedType (m : Model) (id : NamedId) : NamedType := m.named[id.index]?.getD default

def scope (m : Model) (id : ScopeId) : Scope := m.scopes[id.index]?.getD default

def addSymbol (m : Model) (s : Symbol) : SymbolId × Model :=
  (⟨m.symbols.size⟩, { m with symbols := m.symbols.push s })

def addNamed (m : Model) (n : NamedType) : NamedId × Model :=
  (⟨m.named.size⟩, { m with named := m.named.push n })

def modifySymbol (m : Model) (id : SymbolId) (f : Symbol → Symbol) : Model :=
  { m with symbols := m.symbols.modify id.index f }

def modifyNamed (m : Model) (id : NamedId) (f : NamedType → NamedType) : Model :=
  { m with named := m.named.modify id.index f }

def modifyScope (m : Model) (id : ScopeId) (f : Scope → Scope) : Model :=
  { m with scopes := m.scopes.modify id.index f }

def addScope (m : Model) (s : Scope) : ScopeId × Model :=
  let id : ScopeId := ⟨m.scopes.size⟩
  let m := { m with scopes := m.scopes.push s }
  match s.parent with
  | some parent => (id, m.modifyScope parent fun p => { p with children := p.children.push id })
  | none => (id, m)

def declare (m : Model) (scope : ScopeId) (name : String) (entry : ScopeEntry) : Model :=
  m.modifyScope scope (·.bind name entry)

def packageScope? (m : Model) (path : String) : Option ScopeId :=
  (m.packages.find? (·.1 == path)).map (·.2)

def fileScope? (m : Model) (file : FileId) : Option ScopeId :=
  (m.fileScopes.find? (·.1 == file)).map (·.2)

-- A type that a bundled package declares.
def packageType? (m : Model) (package name : String) : Option NamedId := do
  let entry ← (m.scope (← m.packageScope? package)).bound? name
  let s := m.symbol entry.symbol
  if s.kind == .typeName then s.ty.named? else none

-- Members

-- Visits types breadth first, each once. `fuel` bounds the number of visits.
def walkTypes (m : Model) : Nat → List (NamedId × Nat) → List NamedId → List (NamedId × Nat)
  | 0, _, _ => []
  | _, [], _ => []
  | fuel + 1, (id, depth) :: queue, visited =>
      if visited.contains id then m.walkTypes fuel queue visited
      else
        let next := (m.namedType id).embedded.map (·, depth + 1)
        (id, depth) :: m.walkTypes fuel (queue ++ next) (id :: visited)

-- Every embedding is entered at most once, since its type is.
def walkFuel (m : Model) : Nat := m.named.foldl (fun n t => n + t.embedded.length) 1

-- The type itself and those it embeds, directly or not, nearest first.
def embeddedTypes (m : Model) (id : NamedId) : List (NamedId × Nat) :=
  m.walkTypes m.walkFuel [(id, 0)] []

-- Keeps the first member of each name.
def firstOfName (m : Model) : List Member → Std.HashSet String → List Member
  | [], _ => []
  | member :: rest, seen =>
      let name := (m.symbol member.symbol).name
      if seen.contains name then m.firstOfName rest seen
      else member :: m.firstOfName rest (seen.insert name)

def allMembers (m : Model) (id : NamedId) : List Member :=
  (m.embeddedTypes id).flatMap fun (t, depth) => (m.namedType t).ownMembers.map fun s => ⟨s, depth⟩

-- The members of a type, its own first and then by depth of embedding. Of several with one
-- name the nearest counts.
def members (m : Model) (id : NamedId) : List Member := m.firstOfName (m.allMembers id) {}

def member? (m : Model) (id : NamedId) (name : String) : Option SymbolId :=
  ((m.allMembers id).find? fun member => (m.symbol member.symbol).name == name).map (·.symbol)

def memberOf? (m : Model) (ty : Ty) (name : String) : Option SymbolId :=
  ty.named?.bind (m.member? · name)

-- Scopes

-- The scope and those around it, from the inside out. A scope lies behind the one around it in
-- the table, so that its number bounds their count.
def scopeChain (m : Model) (id : ScopeId) : List ScopeId := go (id.index + 1) id
where
  go : Nat → ScopeId → List ScopeId
    | 0, _ => []
    | fuel + 1, id =>
        id :: match (m.scope id).parent with
          | some parent => go fuel parent
          | none => []

-- The chain with, for each scope, whether a declared function lies between.
def chainWithFuncs (m : Model) (insideFunc : Bool) : List ScopeId → List (Scope × Bool)
  | [] => []
  | id :: rest =>
      let scope := m.scope id
      (scope, insideFunc) :: m.chainWithFuncs (insideFunc || scope.kind == .func) rest

def lookupIn (m : Model) (name : String) (offset? : Option Nat) (scope : Scope) (insideFunc : Bool) :
    Option SymbolId :=
  let bound := (scope.bound? name).filter (·.isVisible scope offset? insideFunc)
  match bound with
  | some entry => some entry.symbol
  | none => scope.fileClass.bind (m.member? · name)

-- What a name means in a scope: its nearest binding. With an offset, bindings that come later
-- in the file do not count.
def lookup? (m : Model) (scope : ScopeId) (name : String) (offset? : Option Nat) : Option SymbolId :=
  (m.chainWithFuncs false (m.scopeChain scope)).findSome? fun (s, insideFunc) =>
    m.lookupIn name offset? s insideFunc

-- Names with what they are bound to in one scope, members of the class behind the bindings.
def visibleIn (m : Model) (offset? : Option Nat) (scope : Scope) (insideFunc : Bool) :
    List (String × SymbolId) :=
  let bound := (scope.entries.toList.filter (·.2.isVisible scope offset? insideFunc)).map
    fun (name, entry) => (name, entry.symbol)
  let inherited := (scope.fileClass.map m.members).getD []
  bound ++ inherited.map fun member => ((m.symbol member.symbol).name, member.symbol)

def firstOfKey : List (String × SymbolId) → Std.HashSet String → List SymbolId
  | [], _ => []
  | (name, s) :: rest, seen =>
      if seen.contains name then firstOfKey rest seen else s :: firstOfKey rest (seen.insert name)

-- Everything that a name can mean in a scope, from the inside out; shadowed bindings are left
-- out.
def visibleSymbols (m : Model) (scope : ScopeId) (offset? : Option Nat) : List SymbolId :=
  firstOfKey ((m.chainWithFuncs false (m.scopeChain scope)).flatMap fun (s, insideFunc) =>
    m.visibleIn offset? s insideFunc) {}

-- The innermost scope around an offset. Children lie behind their parent in the table.
def innermostScope? (m : Model) (file : FileId) (offset : Nat) : Option ScopeId :=
  (m.fileScope? file).map (go m.scopes.size)
where
  go : Nat → ScopeId → ScopeId
    | 0, id => id
    | fuel + 1, id =>
        match (m.scope id).children.find? fun child => (m.scope child).contains file offset with
        | some child => go fuel child
        | none => id

-- Types

-- How many declared types may stand for each other in a row.
def maxAliases : Nat := 16

-- What a type stands for; structs and interfaces keep their name.
def underlying (m : Model) (ty : Ty) : Ty := go maxAliases ty
where
  go : Nat → Ty → Ty
    | 0, _ => .invalid
    | fuel + 1, .named id =>
        match (m.namedType id).underlying with
        | .type inner => go fuel inner
        | _ => .named id
    | _ + 1, ty => ty

def basicOf? (m : Model) (ty : Ty) : Option BasicKind := (m.underlying ty).basic?

def isStruct (m : Model) (ty : Ty) : Bool := ty.named?.any fun id => (m.namedType id).isStruct

def isInterface (m : Model) : Ty → Bool
  | .any => true
  | .named id => (m.namedType id).isInterface
  | _ => false

-- Whether a type has every method of an interface.
def implements (m : Model) (ty : Ty) (interface : NamedId) : Bool :=
  match (m.namedType interface).underlying with
  | .interface required =>
      match ty with
      | .named id =>
          required.all fun method =>
            (m.member? id (m.symbol method).name).any fun s => (m.symbol s).kind == .method
      | _ => required.isEmpty
  | _ => false

def engineTypeName? (m : Model) (ty : Ty) : Option String :=
  ty.named?.bind fun id =>
    let named := m.namedType id
    if named.package == Vocabulary.enginePackage then some named.name else none

def isEngineType (m : Model) (ty : Ty) (name : String) : Bool := m.engineTypeName? ty == some name

-- The kind of resource that values of the type name.
def resourceNameKind? (m : Model) (ty : Ty) : Option ResourceKind :=
  (m.engineTypeName? ty).bind Vocabulary.resourceNameKind?

def enumDomain? (m : Model) (ty : Ty) : Option Vocabulary.EnumDomain :=
  (m.engineTypeName? ty).bind Vocabulary.EnumDomain.ofTypeName?

def classKind? (m : Model) (ty : Ty) : Option ClassKind :=
  ty.named?.bind fun id => (m.namedType id).classKind

def isSpriteClass (m : Model) (ty : Ty) : Bool := m.classKind? ty == some .sprite

-- The kind of resource that a field of the type stands for.
def resourceFieldKind? (m : Model) (ty : Ty) : Option ResourceKind :=
  if m.isSpriteClass ty then some .sprite
  else (m.engineTypeName? ty).bind Vocabulary.resourceFieldKind?

-- Pointers are not told apart from what they point to, so nil also stands for a missing object.
def nilAssignable (m : Model) (target : Ty) : Bool :=
  match m.underlying target with
  | .slice _ | .map .. | .chan _ | .func .. | .any => true
  | .named id => (m.namedType id).isStruct || (m.namedType id).isInterface
  | _ => false

-- Whether an untyped constant may become a value of the type.
def untypedAssignable (m : Model) (kind : BasicKind) (target : Ty) : Bool :=
  if kind == .untypedNil then m.nilAssignable target
  else
    match target with
    | .any => true
    | .named id =>
        if (m.namedType id).isInterface then m.implements (.basic kind.defaulted) id
        else fits kind (m.basicOf? target)
    | _ => fits kind (m.basicOf? target)
where
  fits (kind : BasicKind) : Option BasicKind → Bool
    | none => false
    | some target =>
        match kind with
        | .untypedInt => target.isNumeric
        | .untypedFloat => target == .float64
        | .untypedString => target.isString
        | .untypedBool => target.isBoolean
        | _ => false

def hasName : Ty → Bool
  | .named _ | .basic _ => true
  | _ => false

-- Whether a value of one type may be assigned to a variable of another. Names of resources and
-- plain strings are interchangeable.
def assignable (m : Model) (source target : Ty) : Bool :=
  if source.isInvalid || target.isInvalid || source == target then true
  else
    match target, source with
    | .any, .tuple _ => false
    | .any, _ => true
    | _, _ =>
        if source.isUntyped then source.basic?.any (m.untypedAssignable · target)
        else if ((m.resourceNameKind? source).isSome || (m.resourceNameKind? target).isSome) &&
            m.basicOf? source == some .string && m.basicOf? target == some .string then true
        else if let some id := target.named?.filter fun id => (m.namedType id).isInterface then
          m.implements source id
        else if hasName source && hasName target then false
        else m.underlying source == m.underlying target

-- The text of a type in messages. Types of the program itself need no package.
def display (m : Model) : Ty → String
  | .invalid => "invalid type"
  | .basic kind => kind.name
  | .any => "any"
  | .named id =>
      let named := m.namedType id
      if named.package.isEmpty || named.package == "main" then named.name
      else named.package ++ "." ++ named.name
  | .slice elem => "[]" ++ m.display elem
  | .map key value => "map[" ++ m.display key ++ "]" ++ m.display value
  | .chan elem => "chan " ++ m.display elem
  | .func params variadic results =>
      let head := "func(" ++ ", ".intercalate (displayParams m variadic params) ++ ")"
      match results with
      | [] => head
      | [single] => head ++ " " ++ m.display single
      | r :: rs => head ++ " (" ++ ", ".intercalate (m.display r :: displayAll m rs) ++ ")"
  | .tuple items => "(" ++ ", ".intercalate (displayAll m items) ++ ")"
where
  displayAll (m : Model) : List Ty → List String
    | [] => []
    | t :: rest => m.display t :: displayAll m rest
  displayParams (m : Model) (variadic : Bool) : List Ty → List String
    | [] => []
    | [.slice elem] => [(if variadic then "..." else "[]") ++ m.display elem]
    | [t] => [m.display t]
    | t :: rest => m.display t :: displayParams m variadic rest

end Model

end SpriteScript
