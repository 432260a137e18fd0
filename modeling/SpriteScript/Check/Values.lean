import SpriteScript.Check.Types

-- Operands as values: what may be assigned where, and what untyped constants become.
namespace SpriteScript.Check

-- The expression and what it is, as messages put it.
def describe (t : Tree) (o : Operand) : CheckM String := do
  let m ← model
  let what :=
    match o.ty.basic? with
    | some .untypedNil => "untyped nil"
    | kind =>
        if let some kind := kind.filter BasicKind.isUntyped then kind.name ++ " constant"
        else if o.value.isSome then "constant of type " ++ m.display o.ty
        else if o.symbol.any fun s => (m.symbol s).kind.isVariable then
          "variable of type " ++ m.display o.ty
        else "value of type " ++ m.display o.ty
  return t.text ++ " (" ++ what ++ ")"

-- Why the operand is not one value, if it is not. What is invalid was reported before.
def valueProblem? (m : Model) (text : String) (o : Operand) : Option Problem :=
  match o.mode with
  | .invalid => none
  | .value =>
      match o.ty with
      | .tuple (_ :: _) => some (.severalValues text (m.display o.ty))
      | _ => none
  | .noValue => some (.noValue text)
  | .type => some (.typeAsValue text)
  | .package => some (.packageAsValue text)
  | .builtin => some (.builtinUncalled text)

-- Whether the operand is one value; reports it if not.
def checkValue (t : Tree) (o : Operand) : CheckM Bool := do
  if o.isInvalid then
    return false
  match valueProblem? (← model) t.text o with
  | some p =>
      problem t.range p
      return false
  | none => return true

-- The constant as a value of the type; nothing if there is no such value.
def convertedValue (ty : Ty) (value : Option Constant) : CheckM (Option Constant) := do
  match ← basicOf? ty with
  | some kind => return value.bind (·.convert? kind)
  | none => return value

-- Gives an untyped constant the type that it takes as a value of `target`.
def convertRecorded (t : Tree) (o : Operand) (target : Ty) : CheckM Operand := do
  let ty := if (← model).isInterface target then o.ty.defaulted else target
  if ty.basic? == some .untypedNil then
    return o
  let value ← convertedValue ty o.value
  recordType t ty value
  return { o with ty, value }

-- Whether the operand may be assigned to `target`; reports it if not.
def assignTo (t : Tree) (o : Operand) (target : Ty) (purpose : String) : CheckM Bool := do
  if !(← checkValue t o) then
    return o.isInvalid
  if target.isInvalid then
    return true
  if !(← assignable o.ty target) then
    problem t.range (.cannotUse (← describe t o) (← display target) purpose)
    return false
  if o.ty.isUntyped then
    discard <| convertRecorded t o target
  return true

-- The type of a variable that starts with the operand.
def defaultType (t : Tree) (o : Operand) : CheckM Ty := do
  if !(← checkValue t o) then
    return .invalid
  match o.ty with
  | .basic .untypedNil =>
      problem t.range .nilWithoutType
      return .invalid
  | .basic kind =>
      if kind.isUntyped then
        let ty := Ty.basic kind.defaulted
        discard <| convertRecorded t o ty
        return ty
      else
        return .basic kind
  | ty => return ty

-- The type and value of a name that starts with the operand.
def initialValue (t : Tree) (o : Operand) (type? : Option Ty) (isConst : Bool) :
    CheckM (Ty × Option Constant) := do
  if o.isInvalid then
    return (type?.getD .invalid, none)
  if isConst && o.value.isNone then
    problem t.range (.notConstant t.text)
  match type? with
  | some ty =>
      discard <| assignTo t o ty "variable declaration"
      return (ty, ← convertedValue ty o.value)
  | none =>
      if isConst then
        return (o.ty, o.value)
      else
        return (← defaultType t o, o.value)

-- The types and values of the names that a specification declares.
def specValues (r : Rules) (spec : Tree) (count : Nat) (isConst : Bool) :
    CheckM (List (Ty × Option Constant)) := do
  let type? ← spec.type?.mapM typeOf
  let values := spec.listed 0
  let plain := List.replicate count (type?.getD .invalid, none)
  let mismatch := Problem.countMismatch count values.length
  match values with
  | [] =>
      if isConst then
        problem spec.range .constWithoutValue
      else if type?.isNone then
        problem spec.range .noTypeNorValue
      return plain
  | value :: others =>
      if values.length == count then
        values.mapM fun value => do
          initialValue value (← r.expr value type?) type? isConst
      else if others.isEmpty && !isConst then
        let o ← r.expr value none
        match o.ty with
        | .tuple items =>
            if items.length == count then
              items.mapM fun item => do
                match type? with
                | some ty =>
                    discard <| assignTo value (.ofType item) ty "assignment"
                    return (ty, none)
                | none => return (item, none)
            else
              if !o.isInvalid then
                problem spec.range mismatch
              return plain
        | _ =>
            if !o.isInvalid then
              problem spec.range mismatch
            return plain
      else
        for value in values do
          discard <| r.expr value type?
        problem spec.range mismatch
        return plain

-- Gives a symbol its type, also as a field of the type that owns it.
def settle (isConst : Bool) (id : SymbolId) (ty : Ty) (value : Option Constant) : CheckM Unit := do
  if let some owner := (← symbol id).owner then
    modifyModel (·.modifyNamed owner fun n =>
      match n.underlying with
      | .struct fields =>
          { n with underlying := .struct (fields.map fun f => if f.symbol == id then { f with ty } else f) }
      | _ => n)
  modifyModel (·.modifySymbol id fun s => { s with ty, value := if isConst then value else s.value })

def setProgress (index : Nat) (progress : Progress) : CheckM Unit :=
  modify fun s => { s with specs := s.specs.modify index ({ · with progress }) }

-- Finds the types that a specification at package level declares. Needing one of them on the
-- way is a cycle.
def resolveSpec (r : Rules) (index : Nat) : CheckM Unit := do
  let some pending := (← get).specs[index]? | return
  match pending.progress with
  | .finished => return
  | .running =>
      let m ← model
      let name := (pending.symbols.head?.map fun first => (m.symbol first).name).getD ""
      problemIn pending.context.file pending.spec.range (.initCycle name)
  | .untouched =>
      setProgress index .running
      let values ← within pending.context (specValues r pending.spec pending.symbols.length pending.isConst)
      for (id, ty, value) in pending.symbols.zip values do
        settle pending.isConst id ty value
      setProgress index .finished

def ensureResolved (r : Rules) (id : SymbolId) : CheckM Unit := do
  if let some index := (← get).specOf[id]? then
    resolveSpec r index

end SpriteScript.Check
