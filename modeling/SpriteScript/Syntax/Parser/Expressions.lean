import SpriteScript.Syntax.Parser.Types

-- Expressions: operands, what may follow them, and operators by binding power.
namespace SpriteScript.Syntax.Rules

-- Statements up to one of the tokens in `stops`.
def statementList (g : Rules) (stops : List TokenKind) : Action Unit :=
  repeatWhile g.fuel do
    g.separators
    if (← isAtEnd) || (← isAtAny stops) then
      return false
    let before := (← get).offset
    g.statement
    if !(← isAtAny stops) then
      g.statementEnd
    g.unlessMoved before
    return true

def block (g : Rules) : Action Unit :=
  node .block do
    discard <| expect .lBrace "'\x7b'"
    withLiterals true (g.statementList [.rBrace])
    discard <| expect .rBrace "'\x7d'"

def lambdaBody (g : Rules) : Action Unit := do
  discard <| expect .fatArrow "'=>'"
  withLiterals true do
    if ← isAt .lBrace then
      g.block
    else
      g.expr

-- A string literal; a missing closing quote is an error of the literal as a whole.
def stringToken : Action Unit := do
  if !((← get).current?.any fun t => Token.isTerminatedString t.text) then
    fault .unterminatedString
  bump

-- An element of a literal: a value, or a key and a value.
def element (g : Rules) : Action Unit := do
  let first ← checkpoint
  g.expr
  if ← eat .colon then
    g.newlines
    if (← isAt .comma) || (← isAt .rBrace) then
      fault (.expected "value")
    else
      g.expr
    nodeAt first .keyedElement (return ())

def literalBody (g : Rules) : Action Unit :=
  node .litBody do
    bump
    withLiterals true (g.commaList .rBrace g.element)
    discard <| expect .rBrace "'\x7d'"

def typedLiteral (g : Rules) : Action Unit :=
  node .compositeLit do
    g.type
    if ← isAt .lBrace then
      g.literalBody
    else
      fault (.expected "'\x7b'")

-- The parameters of a lambda, in parentheses.
def lambdaParams (g : Rules) : Action Unit :=
  node .lambdaParams do
    bump
    repeatWhile g.fuel do
      if ← isAt .ident then
        name "parameter"
        eat .comma
      else
        return false
    discard <| expect .rParen "')'"

-- An open parenthesis is the start of a lambda's parameters when an arrow follows its partner.
def parenthesized (g : Rules) : Action Unit := do
  if Cursor.kindPastParen? 0 (← get).solids == some .fatArrow then
    node .lambdaExpr do
      g.lambdaParams
      g.lambdaBody
  else
    node .parenExpr do
      bump
      withLiterals true do
        g.newlines
        g.expr
        g.newlines
      discard <| expect .rParen "')'"

def primary (g : Rules) : Action Unit := do
  match ← kind?, ← second? with
  | some .ident, some .fatArrow =>
      node .lambdaExpr do
        node .lambdaParams (name "parameter")
        g.lambdaBody
  | some .ident, _ => node .nameRef bump
  | some .int, _ | some .float, _ | some .rawStr, _ => node .literal bump
  | some .str, _ => node .literal stringToken
  | some .lParen, _ => g.parenthesized
  | some .fatArrow, _ => node .lambdaExpr g.lambdaBody
  | some .funcKw, _ =>
      node .funcLit do
        bump
        g.signature
        if ← isAt .lBrace then
          g.block
        else
          fault (.expected "function body")
  | some .lBracket, some .rBracket => g.typedLiteral
  | some .mapKw, _ => g.typedLiteral
  | some .lBracket, _ =>
      node .listLit do
        bump
        withLiterals true (g.commaList .rBracket g.expr)
        discard <| expect .rBracket "']'"
  | some .lBrace, _ => node .mapLit g.literalBody
  | _, _ => fault (.expected "expression")

def callArgs (g : Rules) : Action Unit :=
  node .argList do
    bump
    withLiterals true <| g.commaList .rParen do
      g.expr
      discard <| eat .ellipsis
    discard <| expect .rParen "')'"

-- One selector, call, index or literal body behind the operand at `first`, if one follows.
def postfixStep (g : Rules) (first : Nat) : Action Bool := do
  match ← kind? with
  | some .dot =>
      nodeAt first .selectorExpr do
        bump
        if ← isAt .ident then
          bump
        else
          fault (.expected "selector")
      return true
  | some .lParen =>
      nodeAt first .callExpr g.callArgs
      return true
  | some .lBracket =>
      nodeAt first .indexExpr do
        bump
        withLiterals true g.expr
        discard <| expect .rBracket "']'"
      return true
  | some .lBrace =>
      let s ← get
      if s.literalAllowed && s.lastSolid == some .ident then
        nodeAt first .compositeLit g.literalBody
        return true
      else
        return false
  | _ => return false

def postfixed (g : Rules) (first : Nat) : Action Unit := repeatWhile g.fuel (g.postfixStep first)

def unaryRule (g : Rules) : Action Unit := do
  if ← isAtAny unaryOps then
    node .unaryExpr (do bump; g.run .unary)
  else
    let first ← checkpoint
    g.primary
    g.postfixed first

-- One binary operator that binds tighter than `power`, and its right operand.
def binaryStep (g : Rules) (power first : Nat) : Action Bool := do
  match (← kind?).bind binaryPower? with
  | some own =>
      if power < own then
        nodeAt first .binaryExpr (do bump; g.run (.expr own))
        return true
      else
        return false
  | none => return false

def climb (g : Rules) (power first : Nat) : Action Unit :=
  repeatWhile g.fuel (g.binaryStep power first)

def exprRule (g : Rules) (power : Nat) : Action Unit := do
  let first ← checkpoint
  g.run .unary
  g.climb power first

end SpriteScript.Syntax.Rules
