import SpriteScript.Editor.Context
import SpriteScript.Editor.Docs

-- Suggestions for what to write at a cursor.
namespace SpriteScript.Editor

-- Kinds of suggestions, the most wanted first.
inductive CompletionKind where
  | resource | var | field | method | func | const | classType | interface | package | keyword
deriving DecidableEq, Repr, Inhabited

namespace CompletionKind

def all : List CompletionKind :=
  [resource, var, field, method, func, const, classType, interface, package, keyword]

-- The place of the kind among all suggestions.
def rank (k : CompletionKind) : Nat := all.idxOf k

-- The number of the kind in the language server protocol.
def number : CompletionKind → Nat
  | resource => 12
  | var => 6
  | field => 5
  | method => 2
  | func => 3
  | const => 21
  | classType => 7
  | interface => 8
  | package => 9
  | keyword => 14

def ofSymbol (m : Model) (s : Symbol) : CompletionKind :=
  match s.kind with
  | .var | .param => var
  | .field => field
  | .method => method
  | .func | .builtin => func
  | .const => const
  | .typeName => if m.isInterface s.ty then interface else classType
  | .package => package

end CompletionKind

structure CompletionItem where
  label : String
  kind : CompletionKind
  detail : Option String := none
  documentation : Option String := none
  -- what to insert when it is not the label
  insertText : Option String := none
  resource : Option ResourceId := none
  symbol : Option SymbolId := none
deriving Repr, Inhabited

namespace CompletionItem

-- By kind, and within a kind by label.
def le (a b : CompletionItem) : Bool :=
  a.kind.rank < b.kind.rank || (a.kind == b.kind && !decide (b.label < a.label))

def detailOf? (m : Model) (s : Symbol) : Option String :=
  match s.kind with
  | .func | .method =>
      match s.signatures with
      | [] => none
      | [g] => some (m.display g.toTy)
      | g :: more => some (m.display g.toTy ++ " (+" ++ toString more.length ++ " overloads)")
  | .package => some ("package " ++ s.package)
  | .builtin => some "builtin"
  | _ => if s.ty.isInvalid then none else some (m.display s.ty)

def ofSymbol (m : Model) (docs : Docs) (id : SymbolId) : CompletionItem :=
  let s := m.symbol id
  { label := s.name, kind := .ofSymbol m s, detail := detailOf? m s
    documentation := (docKey? m s).bind docs, symbol := some id }

def quoted (name : String) : String := "\"" ++ name ++ "\""

def ofResource (id : ResourceId) (inQuotes : Bool) : CompletionItem where
  label := id.name
  kind := .resource
  detail := some (id.kind.word ++ " resource")
  insertText := if inQuotes then none else some (quoted id.name)
  resource := some id

def ofPackage (path : String) (inQuotes : Bool) : CompletionItem where
  label := path
  kind := .package
  detail := some ("package " ++ path)
  insertText := if inQuotes then none else some (quoted path)

end CompletionItem

-- Whether a symbol can give a value of one of the types. Functions count by their one result.
def fits (m : Model) (types : List Ty) (s : Symbol) : Bool :=
  match s.kind with
  | .var | .param | .field | .const => types.any (m.assignable s.ty)
  | .func | .method =>
      s.signatures.any fun g =>
        match g.results with
        | [result] => types.any (m.assignable result)
        | _ => false
  | .package => true
  | .typeName | .builtin => false

-- Whether a place lies in the body of an event handler.
def inHandler (d : Document) (place : Place) : Bool :=
  place.outward.any fun p =>
    if p.isA .lambdaExpr || p.isA .funcLit then
      let call? := ((p.parentOf? .argList).bind Place.parent?).filter (·.tree.isCall)
      let s? := (call?.bind (·.tree.expr?)).bind d.calleeSymbol?
      s?.any fun s => (d.model.symbol s).isEventHandler
    else p.isA .funcDecl && p.tree.name?.any fun name => Text.isHandlerName name.text

-- The visible names that can stand at the cursor. Handlers are not called inside of handlers.
def scopeItems (d : Document) (docs : Docs) (offset : Nat) (wanted : Wanted) : List CompletionItem :=
  let insideHandler := wanted.anchor.any (inHandler d)
  (d.visibleAt offset).filterMap fun id =>
    let s := d.model.symbol id
    let misplaced := insideHandler && s.kind == .method && Text.isHandlerName s.name
    if wanted.targets.contains id || isHidden s || misplaced then none
    else if !wanted.types.isEmpty && !fits d.model wanted.types s then none
    else some (.ofSymbol d.model docs id)

def memberItems (m : Model) (docs : Docs) : Option MemberBase → List CompletionItem
  | some (.package path) =>
      match m.packageScope? path with
      | some scope =>
          let exported := (m.scope scope).entries.toList.filter fun (_, e) =>
            (m.symbol e.symbol).name.toList.head?.any Text.isUpper
          exported.map fun (_, e) => .ofSymbol m docs e.symbol
      | none => []
  | some (.value ty) =>
      match ty.named? with
      | some id => (m.members id).map fun member => .ofSymbol m docs member.symbol
      | none => []
  | none => []

-- The fields that a literal does not set yet.
def keyItems (m : Model) (docs : Docs) (struct : NamedId) (present : List String) : List CompletionItem :=
  let missing := (m.namedType struct).fields.filter fun f => !f.embedded && !present.contains f.name
  missing.map fun f => .ofSymbol m docs f.symbol

-- The resources that a type names. Costumes and animations need a sprite.
def resourcesOf (d : Document) (anchor : Option Place) (ty : Ty) : List ResourceId :=
  match d.model.resourceNameKind? ty with
  | none => []
  | some kind =>
      if kind.isSpriteScoped then
        match anchor.bind d.spriteAt? with
        | some sprite => d.program.catalog.ids kind (some sprite)
        | none => []
      else d.program.catalog.ids kind none

def resourceItems (d : Document) (wanted : Wanted) (inQuotes : Bool) : List CompletionItem :=
  (wanted.types.flatMap (resourcesOf d wanted.anchor)).eraseDups.map (CompletionItem.ofResource · inQuotes)

def itemsAt (d : Document) (docs : Docs) (offset : Nat) : List CompletionItem :=
  match contextOf d offset with
  | .comment => []
  | .string wanted => resourceItems d wanted true
  | .importPath inQuotes => Prelude.packages.map fun p => .ofPackage p.path inQuotes
  | .member base => memberItems d.model docs base
  | .structKey struct present => keyItems d.model docs struct present
  | .expr _ wanted => scopeItems d docs offset wanted ++ resourceItems d wanted false
  | .general anchor startsLine =>
      let keywords : List CompletionItem :=
        if startsLine then TokenKind.keywords.map fun (word, _) => { label := word, kind := .keyword } else []
      scopeItems d docs offset { anchor := some anchor } ++ keywords

-- The suggestions at a position; none where there is no such line.
def completions (p : Program) (docs : Docs) (path : String) (position : Text.Position) :
    Except RequestError (List CompletionItem) := do
  let d ← Document.open? p path
  let some offset := d.offset? position | return []
  return (itemsAt d docs offset).mergeSort CompletionItem.le

end SpriteScript.Editor
