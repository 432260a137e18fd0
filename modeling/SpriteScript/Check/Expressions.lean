import SpriteScript.Check.Literals

-- Names, literals, operators and functions in expressions. Calls have a module of their own.
namespace SpriteScript.Check

-- What a reference to the symbol stands for.
def symbolOperand (id : SymbolId) : CheckM Operand := do
  let s ← symbol id
  return match s.kind with
    | .typeName => ⟨.type, s.ty, none, some id⟩
    | .package => ⟨.package, .invalid, none, some id⟩
    | .builtin => ⟨.builtin, .invalid, none, some id⟩
    | .const => ⟨.value, s.ty, s.value, some id⟩
    | _ => ⟨.value, s.ty, none, some id⟩

def useSymbol (r : Rules) (ident : Token) (id : SymbolId) : CheckM Operand := do
  recordUse (rangeOf ident) id
  ensureResolved r id
  symbolOperand id

def checkName (r : Rules) (t : Tree) : CheckM Operand := do
  let some ident := t.ident? | return .invalid
  if ident.text == "_" then
    problem (rangeOf ident) .blankValue
    return .invalid
  match ← lookup? ident.text (some ident.offset) with
  | some id => useSymbol r ident id
  | none =>
      problem (rangeOf ident) (.undefined ident.text)
      return .invalid

def checkLiteral (t : Tree) : CheckM Operand := do
  match t.literalKind?, t.literalToken? with
  | some .int, some token =>
      match Constant.intLiteral? token.text with
      | some n => return .constant (.basic .untypedInt) (.int n)
      | none =>
          problem (rangeOf token) (.intOverflow token.text)
          return .ofType (.basic .untypedInt)
  | some .float, some token =>
      return .constant (.basic .untypedFloat) (.float (Constant.floatLiteral token.text))
  | some .string, some _ =>
      return .constant (.basic .untypedString) (.string (t.stringValue?.getD ""))
  | _, _ => return .invalid

-- The package that an expression names, and where.
def namedPackage? (t : Tree) : CheckM (Option (Token × SymbolId × Symbol)) := do
  if !t.isA .nameRef then
    return none
  let some ident := t.ident? | return none
  let some id ← lookup? ident.text (some ident.offset) | return none
  let s ← symbol id
  return if s.kind == .package then some (ident, id, s) else none

def checkSelector (r : Rules) (t : Tree) : CheckM Operand := do
  let some base := t.expr? | return .invalid
  let some name := t.ident? | do
    discard <| r.expr base none
    return .invalid
  match ← namedPackage? base with
  | some (ident, id, package) =>
      recordUse (rangeOf ident) id
      let m ← model
      match (m.packageScope? package.package).bind fun scope => (m.scope scope).bound? name.text with
      | some entry => useSymbol r name entry.symbol
      | none =>
          problem (rangeOf name) (.undefinedIn ident.text name.text)
          return .invalid
  | none =>
      let o ← r.expr base none
      if o.isInvalid then
        return .invalid
      match (← model).memberOf? o.ty name.text with
      | some id => useSymbol r name id
      | none =>
          problem (rangeOf name) (.noMember base.text name.text (← display o.ty))
          return .invalid

-- The types of the key and of the element of what can be indexed.
def indexTypes? : Ty → Option (Ty × Ty)
  | .slice elem => some (.basic .int, elem)
  | .map key value => some (key, value)
  | .basic kind => if kind.isString then some (.basic .int, .basic .int) else none
  | _ => none

def checkIndex (r : Rules) (t : Tree) : CheckM Operand := do
  let some base := t.expr? | return .invalid
  let o ← r.expr base none
  let found? ← if o.isInvalid then pure none else do
    let found? := indexTypes? (← underlying o.ty)
    if found?.isNone then
      problem t.range (.cannotIndex (← describe base o))
    pure found?
  match found? with
  | some (keyType, elem) =>
      if let some key := t.secondExpr? then
        let k ← r.expr key (some keyType)
        discard <| assignTo key k keyType "index"
      return .ofType elem
  | none =>
      if let some key := t.secondExpr? then
        discard <| r.expr key none
      return .invalid

-- Operators

def opText (op : TokenKind) : String :=
  match op with
  | .plus | .minus | .star | .slash | .percent | .amp | .pipe | .caret | .shl | .shr | .ampAmp
  | .pipePipe | .bang | .eqEq | .bangEq | .lt | .ltEq | .gt | .gtEq | .arrow =>
      ((TokenKind.punctuation.find? (·.2 == op)).map (·.1)).getD "?"
  | _ => "?"

def noOperator (range : Text.ByteRange) (op : TokenKind) (t : Tree) (o : Operand) : CheckM Operand := do
  problem range (.noOperator (opText op) (← describe t o))
  return .invalid

def unaryAllowed (op : TokenKind) (kind? : Option BasicKind) : Bool :=
  match op with
  | .plus | .minus => kind?.any BasicKind.isNumeric
  | .bang => kind?.any BasicKind.isBoolean
  | .caret => kind?.any BasicKind.isInteger
  | _ => false

def checkReceive (t inner : Tree) (o : Operand) : CheckM Operand := do
  match ← underlying o.ty with
  | .chan elem => return .ofType elem
  | _ =>
      problem t.range (.receiveFrom (← describe inner o))
      return .invalid

def checkUnary (r : Rules) (t : Tree) : CheckM Operand := do
  match t.unaryOp?, t.expr? with
  | some op, some inner =>
      let o ← r.expr inner none
      if o.isInvalid then
        return .invalid
      if op == .arrow then
        checkReceive t inner o
      else if unaryAllowed op (← basicOf? o.ty) then
        match o.value.bind (Constant.foldUnary? op) with
        | some value => return .constant o.ty value
        | none => return .ofType o.ty
      else
        noOperator t.range op inner o
  | _, _ => return .invalid

-- The operand with the type of the other one.
def convertOperand (t side : Tree) (o other : Operand) : CheckM (Option Operand) := do
  if ← assignable o.ty other.ty then
    return some (← convertRecorded side o other.ty)
  else
    problem t.range (.mismatched t.text (← display o.ty) (← display other.ty))
    return none

-- Both operands with the type that they have in common.
def matchOperands (t lhs rhs : Tree) (left right : Operand) : CheckM (Option (Operand × Operand × Ty)) := do
  match left.ty.isUntyped, right.ty.isUntyped with
  | true, true =>
      match left.ty, right.ty with
      | .basic a, .basic b => return some (left, right, .basic (Constant.untypedResult a b))
      | _, _ => return none
  | true, false => return (← convertOperand t lhs left right).map fun left => (left, right, right.ty)
  | false, true => return (← convertOperand t rhs right left).map fun right => (left, right, left.ty)
  | false, false =>
      let compatible := (← assignable left.ty right.ty) && (← assignable right.ty left.ty)
      if left.ty == right.ty || compatible then
        return some (left, right, left.ty)
      else
        problem t.range (.mismatched t.text (← display left.ty) (← display right.ty))
        return none

-- The result of an operation, with its value if both operands have one.
def folded (range : Text.ByteRange) (op : TokenKind) (left right : Operand) (ty : Ty) : CheckM Operand := do
  match left.value, right.value with
  | some a, some b =>
      let integer :=
        (← basicOf? left.ty).any BasicKind.isInteger && (← basicOf? right.ty).any BasicKind.isInteger
      match Constant.foldBinary op a b integer with
      | .value value =>
          match ← basicOf? ty with
          | some kind =>
              return .constant ty (if kind.isUntyped then value else (value.convert? kind).getD value)
          | none => return .constant ty value
      | .unknown => return .ofType ty
      | .divisionByZero =>
          problem range .divisionByZero
          return .invalid
  | _, _ => return .ofType ty

def binaryAllowed (op : TokenKind) (kind? : Option BasicKind) : Bool :=
  match op with
  | .eqEq | .bangEq => true
  | .lt | .ltEq | .gt | .gtEq | .plus => kind?.any fun k => k.isNumeric || k.isString
  | .ampAmp | .pipePipe => kind?.any BasicKind.isBoolean
  | .minus | .star | .slash => kind?.any BasicKind.isNumeric
  | .percent | .amp | .pipe | .caret => kind?.any BasicKind.isInteger
  | _ => false

def isComparison : TokenKind → Bool
  | .eqEq | .bangEq | .lt | .ltEq | .gt | .gtEq => true
  | _ => false

-- The operands of a shift keep their own types.
def checkShift (t : Tree) (op : TokenKind) (left right : Operand) : CheckM Operand := do
  if (← basicOf? left.ty).any BasicKind.isInteger && (← basicOf? right.ty).any BasicKind.isInteger then
    folded t.range op left right left.ty
  else
    problem t.range .badShift
    return .invalid

def checkBinary (r : Rules) (t : Tree) : CheckM Operand := do
  match t.expr?, t.secondExpr?, t.binaryOp? with
  | some lhs, some rhs, some op =>
      let left ← r.expr lhs none
      let right ← r.expr rhs none
      if left.isInvalid || right.isInvalid then
        return .invalid
      if op == .shl || op == .shr then
        checkShift t op left right
      else
        let some (left, right, ty) ← matchOperands t lhs rhs left right | return .invalid
        if binaryAllowed op (← basicOf? ty) then
          folded t.range op left right (if isComparison op then .basic .untypedBool else ty)
        else
          noOperator t.range op lhs left
  | some lhs, _, _ =>
      discard <| r.expr lhs none
      return .invalid
  | none, _, _ => return .invalid

-- Functions

def declareParams (idents : List (Option Token)) (types : List Ty) (kind : SymbolKind) : CheckM Unit := do
  for (ident?, ty) in idents.zip types do
    if let some ident := ident? then
      declareLocal ident kind ty 0 none

def checkFuncLit (r : Rules) (t : Tree) : CheckM Operand := do
  let signature ← signatureOf t
  inScope .lambda t.range false do
    if let some list := t.paramList? then
      declareParams (paramIdents list) signature.params .param
    returning signature.results do
      for s in (t.block?.map Tree.statements).getD [] do
        r.statement s
  return .ofType signature.toTy

-- A lambda has the parameters and results of the function that is expected.
def checkLambda (r : Rules) (t : Tree) (expected? : Option Ty) : CheckM Operand := do
  let expectedFunc? ← match ← expected?.mapM underlying with
    | some (.func params variadic results) => pure (some (params, variadic, results))
    | _ => pure none
  let names := t.lambdaParams
  let expectedParams := (expectedFunc?.map (·.1)).getD []
  let results := (expectedFunc?.map (·.2.2)).getD []
  let types := (List.range names.length).map fun i => expectedParams[i]?.getD .invalid
  inScope .lambda t.range t.block?.isNone do
    declareParams (names.map Tree.ident?) types .param
    returning results do
      match t.block?, t.expr? with
      | some block, _ =>
          for s in block.statements do
            r.statement s
      | none, some body =>
          let o ← r.expr body results.head?
          if let some result := results.head? then
            discard <| assignTo body o result "return statement"
      | none, none => pure ()
  match expectedFunc? with
  | some (params, variadic, results) =>
      if params.length == names.length then
        return .ofType (.func params variadic results)
      else
        return .ofType (.func types false results)
  | none => return .ofType (.func types false results)

end SpriteScript.Check
