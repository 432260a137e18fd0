import SpriteScript.Check.Basic

-- The types that type expressions stand for.
namespace SpriteScript.Check

-- The nearest type of that name; values and members of the class are passed over.
def typeSymbol? (name : String) : CheckM (Option SymbolId) := do
  let s ← get
  return (s.model.scopeChain s.context.scope).findSome? fun id =>
    ((s.model.scope id).bound? name).bind fun entry =>
      if (s.model.symbol entry.symbol).kind == .typeName then some entry.symbol else none

def typeOfName (ident : Token) : CheckM Ty := do
  match ← typeSymbol? ident.text with
  | some id =>
      recordUse (rangeOf ident) id
      return (← symbol id).ty
  | none =>
      let isValue := (← lookup? ident.text none).isSome
      problem (rangeOf ident) (if isValue then .notType ident.text else .undefinedType ident.text)
      return .invalid

-- The package that the token names.
def packageOf? (ident : Token) : CheckM (Option Symbol) := do
  match ← lookup? ident.text (some ident.offset) with
  | some id =>
      let s ← symbol id
      if s.kind == .package then
        recordUse (rangeOf ident) id
        return some s
      else
        problem (rangeOf ident) (.undefined ident.text)
        return none
  | none =>
      problem (rangeOf ident) (.undefined ident.text)
      return none

def typeOfQualified (qualifier ident : Token) : CheckM Ty := do
  let some package ← packageOf? qualifier | return .invalid
  let m ← model
  let some scope := m.packageScope? package.package | return .invalid
  match (m.scope scope).bound? ident.text with
  | some entry =>
      if (m.symbol entry.symbol).kind == .typeName then
        recordUse (rangeOf ident) entry.symbol
        return (m.symbol entry.symbol).ty
      else
        problem (rangeOf ident) (.undefinedTypeIn qualifier.text ident.text)
        return .invalid
  | none =>
      problem (rangeOf ident) (.undefinedTypeIn qualifier.text ident.text)
      return .invalid

-- The name of a type behind any pointers; an embedded field has it as its own.
def embeddedName? (t : Tree) : Option Token := go (t.height + 1) t
where
  go : Nat → Tree → Option Token
    | 0, _ => none
    | fuel + 1, t =>
        match t.kind? with
        | some .typeRef => t.typeName?
        | some .pointerType => t.type?.bind (go fuel)
        | _ => none

-- Types of parameters from the last to the first; one without a type shares that of the next.
def typesFromLast (resolve : Tree → CheckM Ty) : List Tree → CheckM (List Ty × Ty)
  | [] => return ([], .invalid)
  | param :: rest => do
      let (types, carried) ← typesFromLast resolve rest
      match param.type? with
      | some t =>
          let ty ← resolve t
          return ((if param.isVariadic then .slice ty else ty) :: types, ty)
      | none => return (carried :: types, carried)

structure Params where
  types : List Ty := []
  names : List (Option String) := []
  variadic : Bool := false

-- The parameters of a list. In a list without any type the names are types.
def paramsOf (resolve : Tree → CheckM Ty) (list : Tree) : CheckM Params := do
  let params := list.params
  if params.any (·.type?.isSome) then
    let (types, _) ← typesFromLast resolve params
    return ⟨types, params.map fun p => p.name?.bind Tree.identText?, params.getLast?.any Tree.isVariadic⟩
  else
    let types ← params.mapM fun p =>
      match p.name?.bind Tree.ident? with
      | some ident => typeOfName ident
      | none => return .invalid
    return ⟨types, params.map fun _ => none, false⟩

-- The names of a list of parameters, in step with their types.
def paramIdents (list : Tree) : List (Option Token) :=
  if list.params.any (·.type?.isSome) then list.params.map fun p => p.name?.bind Tree.ident?
  else list.params.map fun _ => none

def resultTypes (resolve : Tree → CheckM Ty) (result : Tree) : CheckM (List Ty) := do
  match result.type?, result.paramList? with
  | some ty, _ => return [← resolve ty]
  | none, some list => return (← paramsOf resolve list).types
  | none, none => return []

-- The signature of a node with parameters and a result.
def signatureWith (resolve : Tree → CheckM Ty) (t : Tree) : CheckM Signature := do
  let params := (← t.paramList?.mapM (paramsOf resolve)).getD {}
  let results := (← t.result?.mapM (resultTypes resolve)).getD []
  return ⟨params.types, params.names, params.variadic, results⟩

def fieldIdents (field type : Tree) : List (Token × Bool) :=
  if field.isEmbedded then (embeddedName? type).toList.map (·, true)
  else (field.names.filterMap Tree.ident?).map (·, false)

-- Adds the field that `ident` names, unless there is one of its name. An embedded field is
-- declared where its type is.
def addField (owner : NamedId) (ty : Ty) (fields : List Field) (ident : Token) (embedded : Bool) :
    CheckM (List Field) := do
  let s := { (← declared ident .field) with ty, owner := some owner }
  let id ← addSymbol (if embedded then { s with definedAt := none } else s)
  if !embedded then
    recordDef (rangeOf ident) id
  if fields.any (·.name == ident.text) then
    problem (rangeOf ident) (.duplicateField ident.text)
    return fields
  else
    return fields ++ [⟨id, ident.text, ty, embedded⟩]

def structFields (resolve : Tree → CheckM Ty) (t : Tree) (owner : NamedId) : CheckM (List Field) :=
  (t.childrenOf .fieldDecl).foldlM (fun fields decl => do
    match decl.type? with
    | some type =>
        let ty ← resolve type
        (fieldIdents decl type).foldlM (fun fields (ident, embedded) =>
          addField owner ty fields ident embedded) fields
    | none => return fields) []

def interfaceMethods (resolve : Tree → CheckM Ty) (t : Tree) (owner : NamedId) : CheckM (List SymbolId) :=
  (t.childrenOf .methodSpec).filterMapM fun spec => do
    match spec.name?.bind Tree.ident? with
    | some ident =>
        let signature ← signatureWith resolve spec
        let id ← addSymbol { (← declared ident .method) with
          ty := signature.toTy, signatures := [signature], owner := some owner }
        recordDef (rangeOf ident) id
        return some id
    | none => return none

-- The type of a type expression, given the types of those inside. Pointers are not told apart
-- from what they point to.
def typeStep (resolve : Tree → CheckM Ty) (t : Tree) : CheckM Ty := do
  match t.kind? with
  | some .typeRef =>
      match t.typeName?, t.qualifier? with
      | some ident, some qualifier => typeOfQualified qualifier ident
      | some ident, none => typeOfName ident
      | none, _ => return .invalid
  | some .pointerType =>
      match t.type? with
      | some elem => resolve elem
      | none => return .invalid
  | some .sliceType =>
      match t.type? with
      | some elem => return .slice (← resolve elem)
      | none => return .invalid
  | some .mapType =>
      match t.type?, t.secondType? with
      | some key, some value =>
          let key ← resolve key
          return .map key (← resolve value)
      | _, _ => return .invalid
  | some .chanType =>
      match t.type? with
      | some elem => return .chan (← resolve elem)
      | none => return .invalid
  | some .funcType => return (← signatureWith resolve t).toTy
  | some .structType =>
      let id ← addNamed { name := "struct\x7b...\x7d", package := "" }
      let fields ← structFields resolve t id
      modifyModel (·.modifyNamed id fun n => { n with underlying := .struct fields })
      return .named id
  | some .interfaceType =>
      if (t.childrenOf .methodSpec).isEmpty then
        return .any
      else
        let id ← addNamed { name := "interface\x7b...\x7d", package := "" }
        let methods ← interfaceMethods resolve t id
        modifyModel (·.modifyNamed id fun n => { n with underlying := .interface methods })
        return .named id
  | _ => return .invalid

def typeWithin : Nat → Tree → CheckM Ty
  | 0, _ => return .invalid
  | fuel + 1, t => typeStep (typeWithin fuel) t

def typeOf (t : Tree) : CheckM Ty := typeWithin (t.height + 1) t

def signatureOf (t : Tree) : CheckM Signature := signatureWith typeOf t

end SpriteScript.Check
