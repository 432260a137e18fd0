import SpriteScript.Check.Values

-- Literals with elements: structs, slices, maps and lists.
namespace SpriteScript.Check

def checkElement (r : Rules) (value : Tree) (ty? : Option Ty) : CheckM Unit := do
  let o ← r.expr value ty?
  if let some ty := ty? then
    discard <| assignTo value o ty "struct literal"

-- The type of the field that a key names.
def keyedField? (fields : List Field) (ty : Ty) (key : Tree) : CheckM (Option Ty) := do
  if !key.isA .nameRef then
    return none
  let some ident := key.ident? | return none
  match fields.find? (·.name == ident.text) with
  | some field =>
      recordUse (rangeOf ident) field.symbol
      return some field.ty
  | none =>
      problem (rangeOf ident) (.unknownField ident.text (← display ty))
      return none

def checkStructElement (r : Rules) (fields : List Field) (ty : Ty) (position : Nat) (e : Tree) :
    CheckM Unit := do
  if e.isA .keyedElement then
    let fieldType? ← match e.expr? with
      | some key => keyedField? fields ty key
      | none => pure none
    if let some value := e.secondExpr? then
      checkElement r value fieldType?
  else
    let field? := fields[position]?
    if field?.isNone then
      problem e.range (.tooManyValues (← display ty))
    checkElement r e (field?.map (·.ty))

-- An element with a key, or a value alone.
def checkPair (r : Rules) (key value : Ty) (e : Tree) : CheckM Unit := do
  if e.isA .keyedElement then
    if let some k := e.expr? then
      checkElement r k (some key)
    if let some v := e.secondExpr? then
      checkElement r v (some value)
  else
    checkElement r e (some value)

-- The elements of a literal of the given type.
def checkBody (r : Rules) (body? : Option Tree) (ty : Ty) : CheckM Unit := do
  let some body := body? | return
  let elements := body.elements
  let badType (other : Ty) : CheckM Unit := do
    problem body.range (.badLiteralType (← display other))
  match ← underlying ty with
  | .named id =>
      let named ← namedType id
      if named.isStruct then
        for (e, position) in elements.zipIdx do
          checkStructElement r named.fields ty position e
      else
        badType (.named id)
  | .slice elem =>
      for e in elements do
        checkPair r (.basic .int) elem e
  | .map key value =>
      for e in elements do
        if !e.isA .keyedElement then
          problem e.range .missingKey
        checkPair r key value e
  | .invalid =>
      for e in elements do
        if e.isA .keyedElement then
          if let some value := e.secondExpr? then
            discard <| r.expr value none
        else
          discard <| r.expr e none
  | other => badType other

-- The type that a literal names in front of its body.
def literalType (r : Rules) (t : Tree) : CheckM Ty := do
  if t.isType then
    typeOf t
  else
    let o ← r.expr t none
    match o.mode with
    | .type => return o.ty
    | .invalid => return .invalid
    | _ =>
        problem t.range (.notType t.text)
        return .invalid

def checkComposite (r : Rules) (t : Tree) (expected? : Option Ty) : CheckM Operand := do
  let ty ← match t.literalType? with
    | some named => literalType r named
    | none => pure (expected?.getD .invalid)
  checkBody r t.literalBody? ty
  return .ofType ty

-- A list without a type of its own takes that of its first element, or the one expected.
def checkList (r : Rules) (t : Tree) (expected? : Option Ty) : CheckM Operand := do
  let elements := t.exprs
  let known? ← expected?.mapM underlying
  match expected?, known? with
  | some ty, some (.slice elem) =>
      for e in elements do
        let o ← r.expr e (some elem)
        discard <| assignTo e o elem "list literal"
      return .ofType ty
  | _, _ =>
      let elem? ← elements.foldlM (fun elem? e => do
        let o ← r.expr e elem?
        match elem? with
        | some elem =>
            discard <| assignTo e o elem "list literal"
            return elem?
        | none => return some (← defaultType e o)) (none : Option Ty)
      return .ofType (.slice (elem?.getD .any))

-- A map from texts. A name as a key stands for itself.
def checkTextMap (r : Rules) (t : Tree) : CheckM Operand := do
  let keyed := ((t.literalBody?.map Tree.elements).getD []).filter (·.isA .keyedElement)
  for e in keyed do
    if let some key := e.expr? then
      if key.isA .nameRef then
        recordType key (.basic .string) (some (.string (key.identText?.getD "")))
      else
        let o ← r.expr key (some (.basic .string))
        discard <| assignTo key o (.basic .string) "map literal"
    if let some value := e.secondExpr? then
      discard <| defaultType value (← r.expr value none)
  return .ofType (.map (.basic .string) .any)

-- Braces without a type: a map, or a struct where one is expected.
def checkMap (r : Rules) (t : Tree) (expected? : Option Ty) : CheckM Operand := do
  match expected? with
  | some expected =>
      let fits ← match ← underlying expected with
        | .map .. => pure true
        | .named id => pure (← namedType id).isStruct
        | _ => pure false
      if fits then
        checkBody r t.literalBody? expected
        return .ofType expected
      else
        checkTextMap r t
  | none => checkTextMap r t

end SpriteScript.Check
