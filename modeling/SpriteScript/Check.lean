import SpriteScript.Check.Declarations
import SpriteScript.Prelude.Basic

-- The check of a whole program: its files with the bundled packages around them.
namespace SpriteScript.Check

-- A file of the program as the checker sees it.
structure Source where
  file : FileId
  tree : Tree
  className : String
  isEntry : Bool
deriving Inhabited

def declareName (s : Symbol) : CheckM Unit := do
  let id ← addSymbol s
  modifyModel fun m => m.declare m.predeclared s.name ⟨id, 0, false⟩

def predeclaredSymbols : List Symbol :=
  [{ name := "bool", kind := .typeName, package := "", ty := .basic .bool },
   { name := "int", kind := .typeName, package := "", ty := .basic .int },
   { name := "float64", kind := .typeName, package := "", ty := .basic .float64 },
   { name := "string", kind := .typeName, package := "", ty := .basic .string },
   { name := "any", kind := .typeName, package := "", ty := .any },
   { name := "true", kind := .const, package := "", ty := .basic .untypedBool, value := some (.bool true) },
   { name := "false", kind := .const, package := "", ty := .basic .untypedBool, value := some (.bool false) },
   { name := "nil", kind := .const, package := "", ty := .basic .untypedNil },
   { name := "append", kind := .builtin, package := "" },
   { name := "len", kind := .builtin, package := "" },
   { name := "println", kind := .builtin, package := "" }]

def declarePredeclared : CheckM Unit := do
  let scope ← addScope { kind := .predeclared, parent := none }
  modifyModel ({ · with predeclared := scope })
  predeclaredSymbols.forM declareName

def declarePackage (p : Prelude.Package) : CheckM Unit := do
  let outer := (← model).predeclared
  let scope ← addScope { kind := .package, parent := some outer }
  modifyModel fun m => { m with packages := m.packages ++ [(p.path, scope)] }
  within ⟨p.file, scope, none, none, p.path⟩ do
    declareTypeNames p.tree scope
    declareMembers scope none true p.tree.items

-- No expression or statement lies deeper than there are nodes, those of the declarations that
-- it needs included.
def rulesFor (trees : List Tree) : Rules := rules (trees.foldl (fun n t => n + t.nodeCount) 1)

-- What every check starts with: the predeclared names and the bundled packages.
def prelude : State :=
  let build : CheckM Unit := do
    declarePredeclared
    Prelude.packages.forM declarePackage
    resolveDeclarations (rulesFor (Prelude.packages.map (·.tree)))
  let s := (build.run {}).2
  { model := s.model, info := s.info }

def classOf? (file : FileId) : CheckM (Option NamedId) :=
  return ((← get).classes.find? (·.1 == file)).map (·.2)

-- Declares the class of a file, and the scope in which the file sees its members.
def declareClass (package : String) (unit : ScopeId) (source : Source) : CheckM Unit := do
  let id ← addNamed {
    name := source.className, package, underlying := .struct []
    classKind := some (if source.isEntry then .game else .sprite) }
  let s ← addSymbol {
    name := source.className, kind := .typeName, package, ty := .named id
    definedAt := some ⟨source.file, .empty 0⟩ }
  modifyModel (·.modifyNamed id fun n => { n with symbol := some s })
  modifyModel (·.declare unit source.className ⟨s, 0, false⟩)
  modify fun st => { st with
    classes := st.classes ++ [(source.file, id)]
    gameClass := if source.isEntry then some id else st.gameClass }
  let scope ← addScope {
    kind := .file, parent := some unit, file := some source.file, range := source.tree.range
    fileClass := some id }
  modifyModel fun m => { m with fileScopes := m.fileScopes ++ [(source.file, scope)] }

-- Builds a class on another one, whose members it takes over.
def embed (owner base : NamedId) : CheckM Unit := do
  let m ← model
  let name := (m.namedType base).name
  let id ← addSymbol {
    name, kind := .field, package := (m.namedType owner).package, ty := .named base, owner := some owner }
  modifyModel (·.modifyNamed owner fun n =>
    match n.underlying with
    | .struct fields => { n with underlying := .struct (fields ++ [⟨id, name, .named base, true⟩]) }
    | _ => n)

-- The class of the entry file is the game; the others are sprites, and see the game as well.
def embedBases (source : Source) : CheckM Unit := do
  let some owner ← classOf? source.file | return
  let m ← model
  let gameBase? := m.packageType? Vocabulary.enginePackage Vocabulary.gameBase
  if source.isEntry then
    if let some base := gameBase? then
      embed owner base
  else
    if let some base := m.packageType? Vocabulary.enginePackage Vocabulary.spriteBase then
      embed owner base
    if let some game := (← get).gameClass <|> gameBase? then
      embed owner game

def withinSource (package : String) (source : Source) (body : ScopeId → Option NamedId → CheckM Unit) :
    CheckM Unit := do
  let some scope := (← model).fileScope? source.file | return
  let fileClass ← classOf? source.file
  within ⟨source.file, scope, fileClass, none, package⟩ (body scope fileClass)

def declareSources (package : String) (sources : List Source) : CheckM Unit := do
  let m ← model
  let outer := (m.packageScope? Vocabulary.enginePackage).getD m.predeclared
  let unit ← addScope { kind := .unit, parent := some outer }
  modifyModel ({ · with unitScope := unit })
  sources.forM (declareClass package unit)
  sources.forM embedBases
  for source in sources do
    withinSource package source fun _ _ => declareTypeNames source.tree unit
  for source in sources do
    withinSource package source fun _ fileClass => declareMembers unit fileClass true source.tree.items

-- The body of a function, with its parameters and named results.
def checkFuncBody (r : Rules) (decl : Tree) : CheckM Unit := do
  let some body := decl.block? | return
  let s ← get
  let symbol? := ((decl.name?.bind Tree.ident?).bind fun ident =>
    s.info.defAt? s.context.file (rangeOf ident)).map s.model.symbol
  let signature := (symbol?.bind (·.signatures.head?)).getD {}
  inScope .func decl.range false do
    returning signature.results do
      if let some param := decl.receiver?.bind (·.child? .param) then
        if param.type?.isSome then
          if let some ident := param.name?.bind Tree.ident? then
            declareLocal ident .param (((symbol?.bind (·.owner)).map Ty.named).getD .invalid) 0 none
      if let some list := decl.paramList? then
        declareParams (paramIdents list) signature.params .param
      if let some list := decl.result?.bind Tree.paramList? then
        declareParams (paramIdents list) signature.results .var
      checkStatements r body.statements

def checkItem (r : Rules) (item : Tree) : CheckM Unit := do
  match item.kind? with
  | some .funcDecl => checkFuncBody r item
  | some .importDecl | some .varDecl | some .constDecl | some .typeDecl => return
  | _ => r.statement item

def checkSources (r : Rules) (package : String) (sources : List Source) : CheckM Unit := do
  for source in sources do
    withinSource package source fun _ _ => source.tree.items.forM (checkItem r)

structure Result where
  model : Model
  info : Info
  problems : List (FileId × Text.ByteRange × Problem)
  crashed : Bool
deriving Inhabited

-- Checks the files of a program together. Problems of the bundled packages are dropped.
def checkProgram (package : String) (sources : List Source) : Result :=
  let r := rulesFor (sources.map (·.tree))
  let all : CheckM Unit := do
    declareSources package sources
    resolveDeclarations r
    checkSources r package sources
  let s := (all.run prelude).2
  ⟨s.model, s.info, s.problems.reverse.filter (!·.1.isBundled), s.crashed⟩

end SpriteScript.Check
