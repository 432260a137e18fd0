import SpriteScript.Check.Calls

-- Statements.
namespace SpriteScript.Check

def checkStatements (r : Rules) (statements : List Tree) : CheckM Unit := do
  for s in statements do
    r.statement s

def checkBlock (r : Rules) (t : Tree) : CheckM Unit :=
  inScope .block t.range false (checkStatements r t.statements)

-- Local names are bound behind their specification.
def checkLocalSpec (r : Rules) (isConst : Bool) (spec : Tree) : CheckM Unit := do
  let values ← specValues r spec spec.names.length isConst
  for (name, ty, value) in spec.names.zip values do
    if let some ident := name.ident? then
      declareLocal ident (if isConst then .const else .var) ty spec.stop (if isConst then value else none)

def checkExprStmt (r : Rules) (t : Tree) : CheckM Unit := do
  let some e := t.expr? | return
  let o ← r.expr e none
  if o.isInvalid || o.mode == .noValue then
    return
  let inner := e.unparen
  let callable? ← match inner.kind?, o.symbol with
    | some .nameRef, some id | some .selectorExpr, some id => do
        let kind := (← symbol id).kind
        pure (if kind == .func || kind == .method then some id else none)
    | _, _ => pure none
  match inner.kind?, callable? with
  | some .callExpr, _ | some .commandCall, _ => return
  | _, some id => checkBareCall e id
  | some .unaryExpr, none =>
      if inner.unaryOp? != some .arrow then
        problem e.range (.notUsed (← describe e o))
  | _, none =>
      if o.mode == .builtin then
        problem e.range (.builtinUncalled e.text)
      else
        problem e.range (.notUsed (← describe e o))

def checkIncDec (r : Rules) (t : Tree) : CheckM Unit := do
  if let some e := t.expr? then
    let o ← r.expr e none
    if !o.isInvalid && !(← basicOf? o.ty).any BasicKind.isNumeric then
      problem t.range (.notNumeric t.text (← describe e o))

def checkSend (r : Rules) (t : Tree) : CheckM Unit := do
  let elem? ← match t.expr? with
    | some channel => do
        let o ← r.expr channel none
        if o.isInvalid then
          pure none
        else
          match ← underlying o.ty with
          | .chan elem => pure (some elem)
          | _ => do
              problem t.range (.sendTo (← describe channel o))
              pure none
    | none => pure none
  if let some value := t.secondExpr? then
    let o ← r.expr value elem?
    if let some elem := elem? then
      discard <| assignTo value o elem "send"

-- The type of what is assigned to; none for the blank name, which takes anything.
def checkTarget (r : Rules) (target : Tree) : CheckM (Option Ty) := do
  if target.isA .nameRef && target.identText? == some "_" then
    return none
  let o ← r.expr target none
  if o.isInvalid then
    return some .invalid
  let m ← model
  if o.mode == .value && o.symbol.all fun s => (m.symbol s).kind.isVariable then
    return some o.ty
  else
    problem target.range (.cannotAssign (← describe target o))
    return some .invalid

def checkCompound (r : Rules) (t target value : Tree) : CheckM Unit := do
  let ty := (← checkTarget r target).getD .invalid
  let o ← r.expr value (some ty)
  let fits ← assignTo value o ty "assignment"
  if !fits || ty.isInvalid then
    return
  let isPlus := t.assignOp?.any (·.kind == .plusEq)
  if !(← basicOf? ty).any fun k => k.isNumeric || (isPlus && k.isString) then
    problem t.range
      (.noCompound ((t.assignOp?.map (·.text)).getD "") target.text (← display ty))

-- Several values on the right for the variables on the left: those of one call, or a mismatch.
-- Returns the types if they are as many as asked for; an empty result was reported or is in error.
def spreadTypes (r : Rules) (t : Tree) (count : Nat) (values : List Tree) : CheckM (Option (List Ty)) := do
  match values with
  | [value] =>
      let o ← r.expr value none
      if o.isInvalid then
        return none
      if let .tuple items := o.ty then
        if items.length == count then
          return some items
  | _ => checkAll r values
  problem t.range (.countMismatch count values.length)
  return none

def checkPlainAssign (r : Rules) (t : Tree) (lhs rhs : List Tree) : CheckM Unit := do
  let targets ← lhs.mapM (checkTarget r)
  if rhs.length == lhs.length then
    for (target?, value) in targets.zip rhs do
      let o ← r.expr value target?
      match target? with
      | some ty => discard <| assignTo value o ty "assignment"
      | none => discard <| defaultType value o
  else
    if let some items ← spreadTypes r t lhs.length rhs then
      for (target?, item) in targets.zip items do
        if let some ty := target? then
          for value in rhs do
            discard <| assignTo value (.ofType item) ty "assignment"

def checkAssign (r : Rules) (t : Tree) : CheckM Unit := do
  let lhs := t.listed 0
  let rhs := t.listed 1
  if t.isCompound then
    match lhs, rhs with
    | target :: _, value :: _ => checkCompound r t target value
    | _, _ => return
  else
    checkPlainAssign r t lhs rhs

-- Binds the names on the left of `:=`. A name that the scope has already is assigned instead;
-- at least one has to be new.
def bindDefined (t : Tree) (lhs : List Tree) (types : List Ty) : CheckM Unit := do
  let mut anyNew := false
  let mut anyBad := false
  for (target, ty) in lhs.zip types do
    match (if target.isA .nameRef then target.ident? else none) with
    | none =>
        problem target.range (.notName target.text)
        anyBad := true
    | some ident =>
        if ident.text != "_" then
          match ← boundIn? (← context).scope ident.text with
          | some entry =>
              recordUse (rangeOf ident) entry.symbol
              let existing := (← symbol entry.symbol).ty
              if !(← assignable ty existing) then
                problem (rangeOf ident) (.cannotReuse (← display ty) (← display existing))
          | none =>
              anyNew := true
              declareLocal ident .var ty t.stop none
  if !anyNew && !anyBad && !lhs.isEmpty then
    problem t.range .nothingNew

def checkDefine (r : Rules) (t : Tree) : CheckM Unit := do
  let lhs := t.listed 0
  let rhs := t.listed 1
  let types ← if rhs.length == lhs.length then
      rhs.mapM fun value => do defaultType value (← r.expr value none)
    else do
      pure ((← spreadTypes r t lhs.length rhs).getD (List.replicate lhs.length .invalid))
  bindDefined t lhs types

def checkReturn (r : Rules) (t : Tree) : CheckM Unit := do
  let values := t.listed 0
  match (← context).results with
  | none => checkAll r values
  | some results =>
      if values.isEmpty then
        return
      if values.length == results.length then
        for (value, result) in values.zip results do
          let o ← r.expr value (some result)
          discard <| assignTo value o result "return statement"
      else
        if let [value] := values then
          let o ← r.expr value none
          if o.isInvalid then
            return
          if let .tuple items := o.ty then
            if items.length == results.length then
              return
        else
          checkAll r values
        problem t.range (if results.length < values.length then .tooManyReturned else .tooFewReturned)

def checkCondition (r : Rules) (t : Tree) (purpose : String) : CheckM Unit := do
  let o ← r.expr t none
  if o.isInvalid then
    return
  if (← basicOf? o.ty).any BasicKind.isBoolean then
    if o.ty.isUntyped then
      discard <| convertRecorded t o (.basic .bool)
  else
    problem t.range (.notBoolean purpose (← describe t o))

def checkIf (r : Rules) (t : Tree) : CheckM Unit :=
  inScope .block t.range false do
    if let some init := t.simpleStatement? then
      r.statement init
    if let some condition := t.expr? then
      checkCondition r condition "if"
    if let some block := t.block? then
      checkBlock r block
    match t.elseBranch? with
    | some (.ifStmt nested) => r.statement nested
    | some (.block block) => checkBlock r block
    | none => pure ()

-- The types of the two variables of a `range` clause.
def rangeTypes (t : Tree) (o : Operand) : CheckM (Ty × Ty) := do
  if o.isInvalid then
    return (.invalid, .invalid)
  let other : CheckM (Ty × Ty) := do
    problem t.range (.cannotRange (← describe t o))
    return (.invalid, .invalid)
  match ← underlying o.ty with
  | .slice elem => return (.basic .int, elem)
  | .map key value => return (key, value)
  | .chan elem => return (elem, .invalid)
  | .basic kind =>
      if kind.isString then return (.basic .int, .basic .int)
      else if kind.isInteger then return (.basic .int, .invalid)
      else other
  | _ => other

def checkRangeClause (r : Rules) (clause : Tree) : CheckM Unit := do
  let (key, value) ← match clause.expr? with
    | some e => do rangeTypes e (← r.expr e none)
    | none => pure (.invalid, .invalid)
  let lhs := clause.listed 0
  if 2 < lhs.length then
    problem clause.range .tooManyRangeVariables
  if clause.has .colonEq then
    bindDefined clause lhs [key, value]
  else
    for (target, ty) in lhs.zip [key, value] do
      if let some targetTy ← checkTarget r target then
        if !(← assignable ty targetTy) then
          problem target.range (.cannotRangeInto target.text (← display ty) (← display targetTy))

def checkFor (r : Rules) (t : Tree) : CheckM Unit :=
  inScope .block t.range false do
    match t.child? .forClause, t.child? .rangeClause, t.expr? with
    | some clause, _, _ =>
        if let some init := clause.forInit? then
          r.statement init
        if let some condition := clause.forCondition? then
          checkCondition r condition "for"
        if let some post := clause.forPost? then
          r.statement post
    | none, some clause, _ => checkRangeClause r clause
    | none, none, some condition => checkCondition r condition "for"
    | none, none, none => pure ()
    if let some body := t.block? then
      checkBlock r body

-- A value of a clause, compared with what the statement switches on.
def checkCase (r : Rules) (tag : Tree) (tagTy : Ty) (value : Tree) : CheckM Unit := do
  let o ← r.expr value (some tagTy)
  if o.isInvalid || tagTy.isInvalid then
    return
  if ← assignable o.ty tagTy then
    if o.ty.isUntyped then
      discard <| convertRecorded value o tagTy
  else if !(← assignable tagTy o.ty) then
    problem value.range (.badCase value.text tag.text (← display o.ty) (← display tagTy))

def checkSwitch (r : Rules) (t : Tree) : CheckM Unit :=
  inScope .block t.range false do
    if let some init := t.simpleStatement? then
      r.statement init
    let tag? ← t.expr?.mapM fun tag => do
      return (tag, ← defaultType tag (← r.expr tag none))
    for clause in t.childrenOf .caseClause do
      for value in clause.listed 0 do
        match tag? with
        | some (tag, tagTy) => checkCase r tag tagTy value
        | none => checkCondition r value "case"
      inScope .block clause.range true (checkStatements r clause.clauseStatements)

def checkSelect (r : Rules) (t : Tree) : CheckM Unit := do
  for clause in t.childrenOf .commClause do
    inScope .block clause.range true do
      if let some comm := clause.commStatement? then
        r.statement comm
      checkStatements r clause.clauseStatements

def statementStep (r : Rules) (t : Tree) : CheckM Unit := do
  match t.kind? with
  | some .varDecl => (t.specs).forM (checkLocalSpec r false)
  | some .constDecl => (t.specs).forM (checkLocalSpec r true)
  | some .exprStmt => checkExprStmt r t
  | some .assignStmt => checkAssign r t
  | some .defineStmt => checkDefine r t
  | some .incDecStmt => checkIncDec r t
  | some .sendStmt => checkSend r t
  | some .returnStmt => checkReturn r t
  | some .ifStmt => checkIf r t
  | some .forStmt => checkFor r t
  | some .switchStmt => checkSwitch r t
  | some .selectStmt => checkSelect r t
  | some .block => checkBlock r t
  | _ => return

-- The operand that an expression stands for, which is recorded with the type that is expected.
def exprStep (r : Rules) (t : Tree) (expected? : Option Ty) : CheckM Operand := do
  let o ← match t.kind? with
    | some .nameRef => checkName r t
    | some .literal => checkLiteral t
    | some .parenExpr =>
        match t.expr? with
        | some inner => r.expr inner expected?
        | none => pure .invalid
    | some .selectorExpr => checkSelector r t
    | some .callExpr | some .commandCall => checkCall r t expected?
    | some .indexExpr => checkIndex r t
    | some .compositeLit => checkComposite r t expected?
    | some .unaryExpr => checkUnary r t
    | some .binaryExpr => checkBinary r t
    | some .funcLit => checkFuncLit r t
    | some .lambdaExpr => checkLambda r t expected?
    | some .listLit => checkList r t expected?
    | some .mapLit => checkMap r t expected?
    | _ => pure .invalid
  if o.mode == .value || o.mode == .noValue then
    recordType t o.ty o.value
  if let some expected := expected? then
    recordExpected t expected
  return o

-- Rules that may lead into each other `fuel` times.
def rules : Nat → Rules
  | 0 => ⟨fun _ _ => return .invalid, fun _ => return⟩
  | fuel + 1 =>
      ⟨fun t expected? => exprStep (rules fuel) t expected?, fun t => statementStep (rules fuel) t⟩

end SpriteScript.Check
