import SpriteScript.Program.Basic

-- What an editor asks about: a file of a program, by its path.
namespace SpriteScript.Editor

-- A question that has no answer because of how it is put.
inductive RequestError where
  | unknownDocument (path : String)
  | unsupportedExtension (path : String)
  | documentCount (count : Nat)
deriving DecidableEq, Repr, Inhabited

def RequestError.message : RequestError → String
  | unknownDocument path => "unknown document: " ++ path
  | unsupportedExtension path => "unsupported document extension: " ++ path
  | documentCount count => "expected exactly one document, got " ++ toString count

structure Document where
  program : Program
  file : SourceFile

namespace Document

def open? (p : Program) (path : String) : Except RequestError Document :=
  if !p.config.isSourcePath path then .error (.unsupportedExtension path)
  else
    match p.fileOfPath? path with
    | some file => .ok ⟨p, file⟩
    | none => .error (.unknownDocument path)

def model (d : Document) : Model := d.program.model

def info (d : Document) : Info := d.program.info

-- The offset of a position, unless its line is not there.
def offset? (d : Document) (p : Text.Position) : Option Nat :=
  if p.line < d.file.lines.lineCount then some (d.file.lines.offset p) else none

def span (d : Document) (r : Text.ByteRange) : Text.Span := d.file.lines.span r

-- What the check found out

def typeAndValue? (d : Document) (t : Tree) : Option TypeAndValue := d.info.type? d.file.file t

def type? (d : Document) (t : Tree) : Option Ty := (d.typeAndValue? t).map (·.ty)

def expected? (d : Document) (t : Tree) : Option Ty := d.info.expected? d.file.file t

def used? (d : Document) (ident : Token) : Option SymbolId := d.info.useAt? d.file.file (Check.rangeOf ident)

-- The symbol that an identifier declares or else means.
def bound? (d : Document) (ident : Token) : Option SymbolId :=
  d.info.defAt? d.file.file (Check.rangeOf ident) <|> d.used? ident

-- The symbol that the expression of a call's function means.
def calleeSymbol? (d : Document) (callee : Tree) : Option SymbolId :=
  let t := callee.unparen
  match t.kind? with
  | some .nameRef | some .selectorExpr => t.ident?.bind d.used?
  | _ => none

-- The innermost scope at an offset; all of the program outside of checked files.
def scopeAt (d : Document) (offset : Nat) : ScopeId :=
  (d.model.innermostScope? d.file.file offset).getD d.model.unitScope

-- Everything that a name can mean at an offset.
def visibleAt (d : Document) (offset : Nat) : List SymbolId :=
  d.model.visibleSymbols (d.scopeAt offset) (some offset)

-- The sprite before the dot of the nearest call, or of a method that stands alone as a
-- statement.
def receiverSprite? (d : Document) (place : Place) : Option String := do
  let callee ← place.outward.findSome? fun p =>
    if p.tree.isCall then p.tree.expr?
    else if p.isA .selectorExpr && (p.parentOf? .exprStmt).isSome then some p.tree
    else none
  let callee := callee.unparen
  if !callee.isA .selectorExpr then none
  else
    let ty ← d.type? (← callee.expr?)
    if d.model.isSpriteClass ty then ty.named?.map fun id => (d.model.namedType id).name else none

-- The sprite whose class the file declares.
def ownSprite? (d : Document) : Option String := do
  let scope ← d.model.fileScope? d.file.file
  let id ← (d.model.scope scope).fileClass
  let named := d.model.namedType id
  if named.classKind == some .sprite then some named.name else none

-- The sprite whose costumes and animations are meant at a place.
def spriteAt? (d : Document) (place : Place) : Option String :=
  d.receiverSprite? place <|> spriteContext? d.model d.info d.file.file place <|> d.ownSprite?

end Document

-- Bundled declarations that are not meant for programs: those that start with a small letter.
def isHidden (s : Symbol) : Bool :=
  s.isBuiltin && s.owner.isNone && s.kind != .builtin && !s.package.isEmpty &&
    s.name.toList.head?.any Text.isLower

end SpriteScript.Editor
