import SpriteScript.Check.Statements

-- Declarations: first all names are bound, then their types are found.
namespace SpriteScript.Check

-- Binding

def declareTypeName (scope : ScopeId) (decl : Tree) : CheckM Unit := do
  let some ident := decl.name?.bind Tree.ident? | return
  let pending : PendingDecl := ⟨← context, decl⟩
  let s ← declared ident .typeName
  let id ← if decl.isAlias then do
      let id ← addSymbol s
      modify fun st => { st with aliases := (id, pending) :: st.aliases }
      pure id
    else do
      let named ← addNamed { name := ident.text, package := s.package }
      let id ← addSymbol { s with ty := .named named }
      modifyModel (·.modifyNamed named fun n => { n with symbol := some id })
      modify fun st => { st with typeDecls := (named, pending) :: st.typeDecls }
      pure id
  recordDef (rangeOf ident) id
  bind scope ident.text id (rangeOf ident)

def declareTypeNames (root : Tree) (scope : ScopeId) : CheckM Unit :=
  (root.childrenOf .typeDecl).forM (declareTypeName scope)

-- The last part of an import path.
def lastPart (path : String) : String := ((Text.splitText '/' path).getLast?).getD path

def declareImport (spec : Tree) : CheckM Unit := do
  match spec.importPath?, spec.pathToken? with
  | some path, some token =>
      if ((← model).packageScope? path).isNone then
        problem (rangeOf token) (.unknownImport path)
      else
        let alias? := spec.name?.bind Tree.ident?
        let name := (alias?.map (·.text)).getD (lastPart path)
        let range := rangeOf (alias?.getD token)
        let c ← context
        let id ← addSymbol { name, kind := .package, package := path, definedAt := some ⟨c.file, range⟩ }
        recordDef range id
        bind c.scope name id range
  | _, _ => return

def pushSpec (spec : Tree) (symbols : List SymbolId) (isConst : Bool) : CheckM Unit := do
  let c ← context
  modify fun s =>
    let index := s.specs.size
    { s with
      specs := s.specs.push ⟨c, spec, symbols, isConst, .untouched⟩
      specOf := symbols.foldl (fun table id => table.insert id index) s.specOf }

-- A variable in the first block of a file is a field of the file's class.
def declareField (owner : NamedId) (ident : Token) : CheckM SymbolId := do
  let id ← addSymbol { (← declared ident .field) with owner := some owner, inFirstVarBlock := true }
  recordDef (rangeOf ident) id
  if (← namedType owner).fields.any (·.name == ident.text) then
    problem (rangeOf ident) (.duplicateField ident.text)
  else
    modifyModel (·.modifyNamed owner fun n =>
      { n with underlying := .struct (n.fields ++ [⟨id, ident.text, .invalid, false⟩]) })
  return id

def declareFields (owner : NamedId) (decl : Tree) : CheckM Unit := do
  for spec in decl.specs do
    let symbols ← (spec.names.filterMap Tree.ident?).mapM (declareField owner)
    pushSpec spec symbols false

def declareSpecName (scope : ScopeId) (kind : SymbolKind) (ident : Token) : CheckM SymbolId := do
  let id ← addSymbol (← declared ident kind)
  recordDef (rangeOf ident) id
  if ident.text != "_" then
    bind scope ident.text id (rangeOf ident)
  return id

def declareSpecs (scope : ScopeId) (isConst : Bool) (decl : Tree) : CheckM Unit := do
  for spec in decl.specs do
    let symbols ← (spec.names.filterMap Tree.ident?).mapM
      (declareSpecName scope (if isConst then .const else .var))
    pushSpec spec symbols isConst

-- The type that a receiver names.
def receiverNamed? (receiver : Tree) : CheckM (Option NamedId) := do
  let some param := receiver.child? .param | return none
  let ident? := match param.type? with
    | some ty => embeddedName? ty
    | none => param.name?.bind Tree.ident?
  let some ident := ident? | return none
  match ← typeSymbol? ident.text with
  | some id =>
      recordUse (rangeOf ident) id
      return (← symbol id).ty.named?
  | none =>
      problem (rangeOf ident) (.undefined ident.text)
      return none

def declareMethod (owner : NamedId) (ident : Token) : CheckM SymbolId := do
  let c ← context
  let m ← model
  let existing? := (m.namedType owner).methods.find? fun id => (m.symbol id).name == ident.text
  let fresh := addSymbol { (← declared ident .method) with owner := some owner }
  match existing? with
  | some existing =>
      if c.file.isBundled then
        return existing
      else
        problem (rangeOf ident) (.duplicateMethod ident.text)
        fresh
  | none =>
      let id ← fresh
      modifyModel (·.modifyNamed owner fun n => { n with methods := n.methods ++ [id] })
      return id

def declareFunction (scope : ScopeId) (ident : Token) : CheckM SymbolId := do
  let c ← context
  let m ← model
  let existing? := ((m.scope scope).bound? ident.text).filter fun e => (m.symbol e.symbol).kind == .func
  match existing? with
  | some existing =>
      if c.file.isBundled then
        return existing.symbol
  | none => pure ()
  let id ← addSymbol (← declared ident .func)
  bind scope ident.text id (rangeOf ident)
  return id

-- Functions of a file are methods of its class. Only bundled packages may declare a function
-- several times, each time with another signature.
def declareFunc (scope : ScopeId) (fileClass : Option NamedId) (decl : Tree) : CheckM Unit := do
  let some ident := decl.name?.bind Tree.ident? | return
  let owner? ← match decl.receiver? with
    | some receiver => receiverNamed? receiver
    | none => pure fileClass
  let id ← match owner? with
    | some owner => declareMethod owner ident
    | none => declareFunction scope ident
  recordDef (rangeOf ident) id
  let c ← context
  modify fun s => { s with funcs := (id, ⟨c, decl⟩) :: s.funcs }

-- Binds everything but types. `isFirst` says whether no block of variables came before.
def declareMembers (scope : ScopeId) (fileClass : Option NamedId) (isFirst : Bool) : List Tree → CheckM Unit
  | [] => return
  | item :: rest => do
      match item.kind?, fileClass with
      | some .importDecl, _ => (item.childrenOf .importSpec).forM declareImport
      | some .varDecl, some owner =>
          if isFirst then declareFields owner item else declareSpecs scope false item
      | some .varDecl, none => declareSpecs scope false item
      | some .constDecl, _ => declareSpecs scope true item
      | some .funcDecl, _ => declareFunc scope fileClass item
      | _, _ => pure ()
      declareMembers scope fileClass (isFirst && !item.isA .varDecl) rest

-- Finding types

def underlyingOf (m : Model) (ty : Ty) : Underlying :=
  match ty with
  | .named id =>
      match (m.namedType id).underlying with
      | .pending => .type .invalid
      | underlying => underlying
  | ty => .type ty

-- Finds what a declared type stands for. A type that stands for itself is an error.
def resolveNamed : Nat → NamedId → CheckM Unit
  | 0, _ => return
  | fuel + 1, id => do
      let named ← namedType id
      if !named.isPending then
        return
      let some (_, pending) := (← get).typeDecls.find? (·.1 == id) | return
      if (← get).resolving.contains id then
        let range := (pending.decl.name?.map Tree.range).getD pending.decl.range
        problemIn pending.context.file range (.recursiveType named.name)
        modifyModel (·.modifyNamed id fun n => { n with underlying := .type .invalid })
      else
        modify fun s => { s with resolving := id :: s.resolving }
        let underlying ← within pending.context do
          match pending.decl.type? with
          | some t =>
              match t.kind? with
              | some .structType => return .struct (← structFields typeOf t id)
              | some .interfaceType => return .interface (← interfaceMethods typeOf t id)
              | _ =>
                  let ty ← typeOf t
                  if let some other := ty.named? then
                    resolveNamed fuel other
                  return underlyingOf (← model) ty
          | none => return .type .invalid
        modify fun s => { s with resolving := s.resolving.erase id }
        if (← namedType id).isPending then
          modifyModel (·.modifyNamed id fun n => { n with underlying })

def resolveAlias (id : SymbolId) (pending : PendingDecl) : CheckM Unit := do
  let ty ← within pending.context do
    match pending.decl.type? with
    | some t => typeOf t
    | none => return .invalid
  modifyModel (·.modifySymbol id fun s => { s with ty })

-- The first signature of a function is its type.
def resolveFunc (id : SymbolId) (pending : PendingDecl) : CheckM Unit := do
  let signature ← within pending.context (signatureOf pending.decl)
  modifyModel (·.modifySymbol id fun s =>
    { s with
      signatures := s.signatures ++ [signature]
      ty := if s.signatures.isEmpty then signature.toTy else s.ty })

-- Finds the types of all that is declared: types first, then aliases, functions and variables.
def resolveDeclarations (r : Rules) : CheckM Unit := do
  let declared := (← get).typeDecls.reverse
  for (id, _) in declared do
    resolveNamed (declared.length + 1) id
  let aliases ← modifyGet fun s => (s.aliases.reverse, { s with aliases := [] })
  for (id, pending) in aliases do
    resolveAlias id pending
  let funcs ← modifyGet fun s => (s.funcs.reverse, { s with funcs := [] })
  for (id, pending) in funcs do
    resolveFunc id pending
  for index in List.range (← get).specs.size do
    resolveSpec r index

end SpriteScript.Check
