import SpriteScript.Editor.Docs
import SpriteScript.Editor.Document

-- Questions with a place as their answer: where a name leads, where a resource is named, and
-- where something is wrong.
namespace SpriteScript.Editor

inductive DefinitionTarget where
  | source (path : String) (span : Text.Span) (name : String)
  -- the package is empty for what is predeclared
  | builtin (key : DocKey)
  | resource (id : ResourceId)
deriving DecidableEq, Repr, Inhabited

def targetOf? (d : Document) (s : Symbol) : Option DefinitionTarget :=
  if s.isBuiltin then some (.builtin ((docKey? d.model s).getD ⟨"", s.name⟩))
  else do
    let site ← s.definedAt
    let file ← d.program.file? site.file
    return .source file.path (file.lines.span site.range) s.name

-- Where the name at a position leads. A field that is bound to a resource leads to its
-- declaration and to the resource.
def definitions (p : Program) (path : String) (position : Text.Position) :
    Except RequestError (List DefinitionTarget) := do
  let d ← Document.open? p path
  let some offset := d.offset? position | return []
  let symbol? := (d.info.symbolAt? d.file.file offset).map fun (_, id) => d.model.symbol id
  let ref? := p.resources.refAt? d.file.file offset
  return (symbol?.bind (targetOf? d)).toList ++ (ref?.map fun r => .resource r.id).toList

structure ResourceLocation where
  path : String
  span : Text.Span
  kind : RefKind
deriving DecidableEq, Repr, Inhabited

-- Every place that names a resource.
def resourceLocations (p : Program) (id : ResourceId) : List ResourceLocation :=
  (p.resources.refsTo id).filterMap fun r =>
    (p.file? r.file).map fun file => ⟨file.path, file.lines.span r.range, r.kind⟩

-- The resource that is named at a position.
def resourceAt? (p : Program) (path : String) (position : Text.Position) :
    Except RequestError (Option ResourceId) := do
  let d ← Document.open? p path
  return ((d.offset? position).bind (p.resources.refAt? d.file.file)).map (·.id)

-- A report about a document, by line and column.
structure Finding where
  span : Text.Span
  severity : Severity
  code : Option String
  message : String
deriving DecidableEq, Repr, Inhabited

def findings (p : Program) (path : String) : Except RequestError (List Finding) := do
  let d ← Document.open? p path
  return (p.diagnosticsOf d.file.file).map fun r => ⟨d.span r.range, r.severity, r.code, r.message⟩

end SpriteScript.Editor
