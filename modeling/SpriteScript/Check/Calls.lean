import SpriteScript.Check.Expressions

-- Calls: the choice among overloads, conversions, and the functions with rules of their own.
namespace SpriteScript.Check

-- Arguments that get their type from the parameter.
def isDeferred (arg : Tree) : Bool :=
  match arg.unparen.kind? with
  | some .lambdaExpr | some .funcLit | some .mapLit | some .listLit => true
  | _ => false

-- An argument, with its operand unless it is deferred.
abbrev Argument := Tree × Option Operand

-- The arguments of a call, the last of which may be spread over a variadic tail.
structure Arguments where
  all : List Argument
  spread : Bool

namespace Arguments

def count (a : Arguments) : Nat := a.all.length

-- The type that the argument with the given number has to have.
def param? (a : Arguments) (s : Signature) (index : Nat) : Option Ty :=
  if a.spread && index + 1 == a.count then s.params.getLast? else s.param? index

end Arguments

def checkAll (r : Rules) (exprs : List Tree) : CheckM Unit := do
  for e in exprs do
    discard <| r.expr e none

-- Whether a deferred argument has the shape of a value of the type.
def deferredFits (m : Model) (arg : Tree) (param : Ty) : Bool :=
  if param.isInvalid then true
  else
    let inner := arg.unparen
    match inner.kind?, m.underlying param with
    | some .lambdaExpr, .func params _ _ => params.length == inner.lambdaParams.length
    | some .funcLit, .func params _ _ => params.length == ((inner.paramList?.map Tree.params).getD []).length
    | some .mapLit, .map .. => true
    | some .mapLit, .any => true
    | some .mapLit, .named id => (m.namedType id).isStruct
    | some .listLit, .slice _ => true
    | some .listLit, .any => true
    | _, _ => false

def argumentFits (m : Model) (param : Ty) : Argument → Bool
  | (_, some o) => o.isInvalid || (o.mode == .value && m.assignable o.ty param)
  | (arg, none) => deferredFits m arg param

def countFits (s : Signature) (a : Arguments) : Bool :=
  if a.spread then s.variadic && a.count == s.params.length else s.accepts a.count

-- Whether the arguments can be passed without an error.
def signatureFits (m : Model) (s : Signature) (a : Arguments) : Bool :=
  countFits s a && a.all.zipIdx.all fun (arg, index) =>
    (a.param? s index).any fun param => argumentFits m param arg

-- The type before the dot, or the class that the method is called on.
def receiverOf (callee : Tree) (id? : Option SymbolId) : CheckM (Option Ty × Option NamedId) := do
  let s ← get
  if !id?.any fun id => (s.model.symbol id).kind == .method then
    return (none, none)
  let inner := callee.unparen
  match inner.kind? with
  | some .selectorExpr =>
      return ((inner.expr?.bind (s.info.type? s.context.file)).map (·.ty), none)
  | some .nameRef => return (none, s.context.fileClass)
  | _ => return (none, none)

-- Where a wrong number of arguments is reported, and how. Too many are reported at the first
-- one that is too many, or at the last one.
def countProblem? (call : Tree) (name : String) (s : Signature) (a : Arguments) :
    Option (Text.ByteRange × Problem) :=
  if a.count < s.fixedCount then
    let close := (call.argList?.bind (·.tokenOf? .rParen)).map rangeOf
    some (close.getD call.range, .tooFewArguments name)
  else
    (a.all[min s.params.length (a.count - 1)]?).map fun (arg, _) => (arg.range, .tooManyArguments name)

-- Checks the arguments against the signature that was chosen.
def applySignature (r : Rules) (call : Tree) (name : String) (s : Signature) (a : Arguments) :
    CheckM Unit := do
  let fits := if a.spread then a.count == s.params.length else s.accepts a.count
  if !fits then
    match countProblem? call name s a with
    | some (range, p) => problem range p
    | none => crash
  for ((arg, checked?), index) in a.all.zipIdx do
    let param? := a.param? s index
    let o ← match checked? with
      | some o => do
          if let some param := param? then
            recordExpected arg param
          pure o
      | none => r.expr arg param?
    if let some param := param? then
      discard <| assignTo arg o param ("argument to " ++ name)

def resultOperand (s : Signature) : Operand :=
  if s.result.isVoid then .noValue else .ofType s.result

-- The overloads that an operand can be called with.
def overloads? (o : Operand) : CheckM (Option (List Signature)) := do
  let m ← model
  let declared := (o.symbol.map m.symbol).filter fun s => s.kind.isCallable && !s.signatures.isEmpty
  match declared, m.underlying o.ty with
  | some s, _ => return some s.signatures
  | none, .func params variadic results => return some [⟨params, params.map fun _ => none, variadic, results⟩]
  | none, _ => return none

def noOverload (r : Rules) (call : Tree) (name : String) (a : Arguments) : CheckM Operand := do
  let m ← model
  let types := a.all.map fun (_, checked?) => (checked?.map fun o => m.display o.ty).getD "func"
  problem call.range (.noOverload name (", ".intercalate types))
  checkAll r ((a.all.filter (·.2.isNone)).map (·.1))
  return .invalid

-- A call of something that has a function type.
def checkFuncCall (r : Rules) (call callee : Tree) (o : Operand) : CheckM Operand := do
  let name := callee.text
  let some signatures ← overloads? o | do
    problem callee.range (.notFunction (← describe callee o))
    checkAll r call.args
    return .invalid
  let (receiver, implicitReceiver) ← receiverOf callee o.symbol
  let all ← call.args.mapM fun arg => do
    return (arg, ← if isDeferred arg then pure none else some <$> r.expr arg none)
  let a : Arguments := ⟨all, call.argList?.any Tree.hasSpread⟩
  let m ← model
  let chosen? := (signatures.find? (signatureFits m · a)) <|>
    (match signatures with
    | [only] => some only
    | _ => none)
  match chosen? with
  | some s =>
      applySignature r call name s a
      recordCall call ⟨o.symbol, some s, receiver, implicitReceiver⟩
      return resultOperand s
  | none => noOverload r call name a

def convertible (m : Model) (source target : Ty) : Bool :=
  m.assignable source target ||
    match m.basicOf? source, m.basicOf? target with
    | some a, some b =>
        (a.isNumeric && b.isNumeric) || (a.isString && b.isString) || (a.isInteger && b.isString)
    | _, _ => m.underlying source == m.underlying target

def checkConversion (r : Rules) (call : Tree) (target : Ty) : CheckM Operand := do
  match call.args with
  | [arg] =>
      let o ← r.expr arg (some target)
      if o.isInvalid then
        return .ofType target
      if convertible (← model) o.ty target then
        let o ← if o.ty.isUntyped then convertRecorded arg o target else pure o
        return ⟨.value, target, ← convertedValue target o.value, none⟩
      else
        problem call.range (.cannotConvert (← describe arg o) (← display target))
        return .ofType target
  | args =>
      let name ← display target
      problem call.range (if args.isEmpty then .conversionWithout name else .conversionOfMany name)
      checkAll r args
      return .ofType target

def hasLength : Ty → Bool
  | .slice _ | .map .. | .chan _ => true
  | .basic kind => kind.isString
  | _ => false

-- The length of a constant text is a constant; it counts characters.
def checkLen (r : Rules) (call : Tree) : CheckM Operand := do
  match call.args with
  | [arg] =>
      let o ← r.expr arg none
      if o.isInvalid then
        return .ofType (.basic .int)
      if let some (.string text) := o.value then
        return .constant (.basic .int) (.int text.length)
      if !hasLength (← underlying o.ty) then
        problem arg.range (.lenOf (← describe arg o))
      return .ofType (.basic .int)
  | args =>
      problem call.range (.lenCount args.length)
      checkAll r args
      return .ofType (.basic .int)

def checkAppend (r : Rules) (call : Tree) (expected? : Option Ty) : CheckM Operand := do
  match call.args with
  | [] =>
      problem call.range .appendWithout
      return .invalid
  | first :: rest =>
      let o ← r.expr first expected?
      if o.isInvalid then
        checkAll r rest
        return .invalid
      match ← underlying o.ty with
      | .slice elem =>
          let spread := call.argList?.any Tree.hasSpread
          for (arg, index) in rest.zipIdx do
            let target := if spread && index + 1 == rest.length then o.ty else elem
            let value ← r.expr arg (some target)
            discard <| assignTo arg value target "argument to append"
          return .ofType o.ty
      | _ =>
          problem first.range (.appendTo (← describe first o))
          checkAll r rest
          return .invalid

def checkBuiltin (r : Rules) (call : Tree) (o : Operand) (expected? : Option Ty) : CheckM Operand := do
  let some id := o.symbol | return .invalid
  let result ← match (← symbol id).name with
    | "len" => checkLen r call
    | "append" => checkAppend r call expected?
    | _ => do
        for arg in call.args do
          discard <| defaultType arg (← r.expr arg none)
        pure .noValue
  recordCall call { callee := some id }
  return result

def checkCall (r : Rules) (call : Tree) (expected? : Option Ty) : CheckM Operand := do
  let some callee := call.expr? | do
    checkAll r call.args
    return .invalid
  let o ← r.expr callee none
  match o.mode with
  | .invalid =>
      checkAll r call.args
      return .invalid
  | .type => checkConversion r call o.ty
  | .builtin => checkBuiltin r call o expected?
  | .package =>
      problem callee.range (.packageCalled callee.text)
      return .invalid
  | .noValue | .value => checkFuncCall r call callee o

-- A function that stands alone as a statement is called without arguments.
def checkBareCall (t : Tree) (id : SymbolId) : CheckM Unit := do
  match (← symbol id).signatures.find? (·.accepts 0) with
  | some s =>
      let (receiver, implicitReceiver) ← receiverOf t (some id)
      recordCall t ⟨some id, some s, receiver, implicitReceiver⟩
      recordType t s.result none
  | none => problem t.range (.tooFewArguments t.text)

end SpriteScript.Check
