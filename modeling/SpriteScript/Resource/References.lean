import SpriteScript.Program.Source
import SpriteScript.Resource.Catalog
import SpriteScript.Syntax.Place

-- The places where a program names its resources.
namespace SpriteScript

-- How a place names a resource: by a text, by a constant, by declaring a field of the
-- resource's name, or by using such a field.
inductive RefKind where
  | stringLiteral | constantReference | autoBinding | autoBindingReference
deriving DecidableEq, Repr, Inhabited, Hashable

def RefKind.label : RefKind → String
  | stringLiteral => "StringLiteral"
  | constantReference => "ConstantReference"
  | autoBinding => "AutoBinding"
  | autoBindingReference => "AutoBindingReference"

structure ResourceRef where
  id : ResourceId
  kind : RefKind
  file : FileId
  range : Text.ByteRange
deriving DecidableEq, Repr, Inhabited, Hashable

structure ResourceIndex where
  refs : Array ResourceRef := #[]
  seen : Std.HashSet ResourceRef := {}
  -- fields with the resources that they are bound to
  bindings : List (SymbolId × ResourceId) := []

namespace ResourceIndex

def add (i : ResourceIndex) (r : ResourceRef) : ResourceIndex :=
  if i.seen.contains r then i
  else { i with refs := i.refs.push r, seen := i.seen.insert r }

def refsTo (i : ResourceIndex) (id : ResourceId) : List ResourceRef := i.refs.toList.filter (·.id == id)

def refsIn (i : ResourceIndex) (file : FileId) : List ResourceRef := i.refs.toList.filter (·.file == file)

-- The place at an offset, or right before it.
def refAt? (i : ResourceIndex) (file : FileId) (offset : Nat) : Option ResourceRef :=
  i.refs.find? fun r => r.file == file && r.range.touches offset

end ResourceIndex

-- The sprite that a node speaks of: that of the nearest call on a sprite, from the node itself
-- outwards.
def spriteContext? (m : Model) (info : Info) (file : FileId) (place : Place) : Option String :=
  place.chain.findSome? fun t =>
    if t.isCall then
      ((info.call? file t).bind (·.receiverType?)).bind fun ty =>
        if m.isSpriteClass ty then ty.named?.map fun id => (m.namedType id).name else none
    else none

namespace Resource

structure State where
  index : ResourceIndex := {}
  report : Report := {}

-- The checked program whose resources are looked for.
structure World where
  model : Model
  info : Info
  catalog : Catalog
  entryName : String

abbrev Resolve := ReaderT World (StateM State)

def problem (file : FileId) (range : Text.ByteRange) (p : Problem) : Resolve Unit :=
  modify fun s => { s with report := s.report.add (p.diagnostic file range) }

def addRef (r : ResourceRef) : Resolve Unit := modify fun s => { s with index := s.index.add r }

-- Whether the resource exists; reports it if not.
def checkExists (file : FileId) (range : Text.ByteRange) (id : ResourceId) : Resolve Bool := do
  if id.name.isEmpty then
    problem file range (.resourceUnnamed id.kind)
    return false
  if !(← read).catalog.contains id then
    problem file range (.resourceMissing id.kind id.name)
    return false
  return true

-- Binds a field to the resource of its name.
def bindField (file : FileId) (range : Text.ByteRange) (s : SymbolId) (id : ResourceId) : Resolve Unit := do
  if ← checkExists file range id then
    addRef ⟨id, .autoBinding, file, range⟩
    for (useFile, useRange) in (← read).info.sitesOf s do
      addRef ⟨id, .autoBindingReference, useFile, useRange⟩
    modify fun st => { st with index := { st.index with bindings := (s, id) :: st.index.bindings } }

-- A field in the first block of the entry file is bound; any other is warned of.
def checkField (file : FileId) (eligible : Bool) (ident : Token) : Resolve Unit := do
  let w ← read
  let range := Check.rangeOf ident
  let some s := w.info.defAt? file range | return
  let symbol := w.model.symbol s
  let some kind := w.model.resourceFieldKind? symbol.ty | return
  if eligible then
    if let some id := ResourceId.topLevel? kind symbol.name then
      bindField file range s id
  else
    problem file range (.misplacedField kind symbol.name w.entryName)

def checkFields (f : SourceFile) : Resolve Unit := do
  for (decl, index) in (f.tree.childrenOf .varDecl).zipIdx do
    for spec in decl.specs do
      for ident in spec.names.filterMap Tree.ident? do
        checkField f.file (f.isEntry && index == 0) ident

def addName (file : FileId) (place : Place) (kind : ResourceKind) (name : String) (how : RefKind) :
    Resolve Unit := do
  let w ← read
  let id? :=
    if kind.isSpriteScoped then
      (spriteContext? w.model w.info file place).bind fun owner => ResourceId.ofSprite? kind owner name
    else ResourceId.topLevel? kind name
  if let some id := id? then
    if ← checkExists file place.tree.range id then
      addRef ⟨id, how, file, place.tree.range⟩

-- A text or a constant whose type names resources.
def checkExpr (file : FileId) (place : Place) : Resolve Unit := do
  let w ← read
  let t := place.tree
  let some tv := w.info.type? file t | return
  let some kind := w.model.resourceNameKind? tv.ty | return
  let add := addName file place kind
  match t.kind? with
  | some .literal =>
      if t.literalKind? == some .string then
        add (t.stringValue?.getD "") .stringLiteral
  | some .nameRef =>
      let s? := t.ident?.bind fun ident => w.info.useAt? file (Check.rangeOf ident)
      if s?.any fun s => (w.model.symbol s).kind == .const then
        if let some name := tv.value.bind Constant.text? then
          add name .constantReference
  | _ => return

-- All references of a program, and what is wrong with them. Fields come before expressions.
def resolve (w : World) (files : List SourceFile) (report : Report) : ResourceIndex × Report :=
  let checked := files.filter (!·.excluded)
  let all : Resolve Unit := do
    checked.forM checkFields
    for f in checked do
      f.tree.places.forM (checkExpr f.file)
  let s := ((all.run w).run { report }).2
  (s.index, s.report)

-- The folder of the assets: the first argument of the first call of the engine's `run` at the
-- top of the entry file, if it is a constant text.
def assetRoot (config : Config) (m : Model) (info : Info) (entryFile? : Option SourceFile) (report : Report) :
    String × Report :=
  let isRun (file : FileId) (call : Tree) : Bool :=
    ((info.call? file call).bind (·.callee)).any fun s =>
      (m.symbol s).name == "run" && (m.symbol s).package == Vocabulary.enginePackage
  let found? := entryFile?.bind fun f =>
    ((f.tree.childrenOf .exprStmt).filterMap Tree.expr?).findSome? fun call =>
      if call.isCall && isRun f.file call then some (f.file, call) else none
  match found?.bind fun (file, call) => call.args.head?.map (file, ·) with
  | some (file, arg) =>
      match ((info.type? file arg).bind (·.value)).bind Constant.text? with
      | some root => (root, report)
      | none => (config.assetRoot, report.add (Problem.rootNotConstant.diagnostic file arg.range))
  | none => (config.assetRoot, report)

end Resource

end SpriteScript
