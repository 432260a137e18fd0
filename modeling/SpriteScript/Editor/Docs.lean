import Std.Data.HashMap
import SpriteScript.Prelude.Basic
import SpriteScript.Semantics.Model
import SpriteScript.Syntax.Access
import SpriteScript.Syntax.Comment

-- Documentation of the bundled declarations: the comments above them.
namespace SpriteScript.Editor

-- A bundled declaration by its package and name; members are called `Type.name`.
structure DocKey where
  package : String
  name : String
deriving DecidableEq, Repr, Hashable, Inhabited

abbrev Docs := DocKey → Option String

namespace Docs

def empty : Docs := fun _ => none

abbrev Table := Std.HashMap DocKey String

-- Adds a comment; overloads keep that of the first declaration.
def add (package name : String) (table : Table) (before : List Tree) : Table :=
  match Syntax.leadingComment? before with
  | some comment => table.insertIfNew ⟨package, name⟩ comment
  | none => table

def funcName? (decl : Tree) : Option String := do
  let name ← decl.name?.bind Tree.identText?
  match (decl.receiver?.bind (·.child? .param)).bind Tree.type? with
  | some type => return String.ofList (type.text.toList.dropWhile (· == '*')) ++ "." ++ name
  | none => return name

-- The comment of a variable or a constant stands above it or above its declaration.
def addSpecs (package : String) (table : Table) (decl : Tree) (before : List Tree) : Table :=
  (Syntax.withBefore [] decl.children).foldl (fun table (spec, beforeSpec) =>
    if spec.isA .varSpec || spec.isA .constSpec then
      (spec.names.filterMap Tree.identText?).foldl (fun table name =>
        add package name (add package name table beforeSpec) before) table
    else table) table

def addItem (package : String) (table : Table) (item : Tree) (before : List Tree) : Table :=
  match item.kind? with
  | some .funcDecl =>
      match funcName? item with
      | some name => add package name table before
      | none => table
  | some .typeDecl =>
      match item.name?.bind Tree.identText? with
      | some name => add package name table before
      | none => table
  | some .constDecl | some .varDecl => addSpecs package table item before
  | _ => table

def bundledTable : Table :=
  Prelude.packages.foldl (fun table p =>
    (Syntax.withBefore [] p.tree.children).foldl (fun table (item, before) =>
      addItem p.path table item before) table) {}

-- The comments of all bundled packages.
def bundled : Docs := fun key => bundledTable[key]?

end Docs

-- Under what a symbol is documented; nothing for what a program declares itself.
def docKey? (m : Model) (s : Symbol) : Option DocKey :=
  if !s.isBuiltin || s.package.isEmpty then none
  else
    match s.owner with
    | some owner => some ⟨s.package, (m.namedType owner).name ++ "." ++ s.name⟩
    | none => some ⟨s.package, s.name⟩

end SpriteScript.Editor
