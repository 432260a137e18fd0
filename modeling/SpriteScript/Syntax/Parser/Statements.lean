import SpriteScript.Syntax.Parser.Expressions

-- Statements.
namespace SpriteScript.Syntax.Rules

-- Names, a type and values, as after `var` and `const`.
def valueSpec (g : Rules) (kind : NodeKind) : Action Unit :=
  node kind do
    name "name"
    g.moreNames "name"
    if ← isAtAny typeStart then
      g.type
    if ← eat .eq then
      g.exprList

def specGroup (g : Rules) (decl spec : NodeKind) : Action Unit :=
  node decl do
    bump
    if ← eat .lParen then
      g.separators
      g.members .rParen (.expected "declaration") [.newline, .rParen] do
        g.valueSpec spec
        if !(← isAt .rParen) then
          g.statementEnd
        g.separators
      discard <| expect .rParen "')'"
    else
      g.valueSpec spec

-- A name and selectors, which may turn out to be what a command calls.
def commandHead (g : Rules) (first : Nat) : Action Unit := do
  node .nameRef bump
  repeatWhile g.fuel do
    if (← isAt .dot) && (← second?) == some .ident then
      nodeAt first .selectorExpr (do bump; bump)
      return true
    else
      return false

-- Whether the next token starts the first argument of a command. A sign does when it stands
-- right before its operand and apart from the name.
def atCommandArg : Action Bool := do
  match ← kind? with
  | some .ident | some .int | some .float | some .str | some .rawStr | some .fatArrow
  | some .funcKw => return true
  | some .lBracket => spaceBefore
  | some .minus | some .plus | some .bang | some .caret | some .arrow =>
      return (← spaceBefore) && !(← spaceAfter)
  | _ => return false

def commandArgs (g : Rules) : Action Unit :=
  node .argList do
    g.expr
    g.moreExprs true

-- A command call, or an expression that starts like one. The answer says which it is.
def commandOrExpr (g : Rules) : Action Bool := do
  let first ← checkpoint
  g.commandHead first
  if ← atCommandArg then
    nodeAt first .commandCall g.commandArgs
    return true
  else
    g.postfixed first
    g.climb 0 first
    return false

-- What follows the first expression of a statement decides what the statement is.
def simpleRest (g : Rules) (first : Nat) : Action Unit := do
  let kind ← kind?
  if kind == some .comma || kind == some .colonEq || kind.any assignOps.contains then
    g.moreExprs false
    nodeAt first .exprList (return ())
    let defines ← isAt .colonEq
    nodeAt first (if defines then .defineStmt else .assignStmt) do
      if defines || (← isAtAny assignOps) then
        bump
        if ← isAt .rangeKw then
          fault .unexpectedRange
        g.exprList
      else
        fault (.expected "':=' or '='")
  else if kind == some .plusPlus || kind == some .minusMinus then
    nodeAt first .incDecStmt bump
  else if kind == some .arrow then
    nodeAt first .sendStmt (do bump; g.expr)
  else
    nodeAt first .exprStmt (return ())

def simpleStmt (g : Rules) (commandAllowed : Bool) : Action Unit := do
  let first ← checkpoint
  if commandAllowed && (← isAt .ident) then
    if ← g.commandOrExpr then
      nodeAt first .exprStmt (return ())
    else
      g.simpleRest first
  else
    g.expr
    g.simpleRest first

-- The end of a simple statement that is the part of another one.
def atStatementEnd : Action Bool :=
  return (← isAtEnd) || (← isAtAny [.newline, .semicolon, .rBrace, .rParen])

def returnStmt (g : Rules) : Action Unit :=
  node .returnStmt do
    bump
    if !((← atStatementEnd) || (← isAtAny [.caseKw, .defaultKw])) then
      g.exprList

-- The tokens of a statement's head: those before the brace that opens its body, or before the
-- end of its line, paired with whether they lie outside all brackets.
def headTokens (depth : Int) : List Lexeme → List (TokenKind × Bool)
  | [] => []
  | l :: rest =>
      let kind := l.token.kind
      let outside := decide (depth ≤ 0)
      match kind with
      | .lParen | .lBracket => (kind, outside) :: headTokens (depth + 1) rest
      | .rParen | .rBracket | .rBrace => (kind, outside) :: headTokens (depth - 1) rest
      | .lBrace => if outside then [] else (kind, outside) :: headTokens (depth + 1) rest
      | .newline =>
          if !l.skipped && outside then [] else (kind, outside) :: headTokens depth rest
      | _ => (kind, outside) :: headTokens depth rest

def headHas (kind : TokenKind) : Action Bool :=
  return (headTokens 0 (← get).rest).contains (kind, true)

-- The statement before the semicolon in the head of an `if` or a `switch`, if there is one.
def initStmt (g : Rules) : Action Unit := do
  if ← headHas .semicolon then
    if !(← isAt .semicolon) then
      g.simpleStmt false
    discard <| expect .semicolon "';'"

def ifRule (g : Rules) : Action Unit :=
  node .ifStmt do
    bump
    withLiterals false do
      g.initStmt
      if ← isAt .lBrace then
        fault .missingCondition
      else
        g.expr
    g.block
    if ← eat .elseKw then
      if ← isAt .ifKw then
        g.run .ifStmt
      else
        g.block

-- What a `range` clause assigns to, and the sign behind it.
def rangeTargets (g : Rules) : Action Unit := do
  let first ← checkpoint
  g.expr
  g.moreExprs false
  nodeAt first .exprList (return ())
  if (← isAt .colonEq) || (← isAt .eq) then
    bump
  else
    fault (.expected "':=' or '='")

def rangeClause (g : Rules) : Action Unit :=
  node .rangeClause do
    if !(← isAt .rangeKw) then
      g.rangeTargets
    discard <| expect .rangeKw "range"
    g.expr

def forClause (g : Rules) : Action Unit :=
  node .forClause do
    if !(← isAt .semicolon) then
      g.simpleStmt false
    discard <| expect .semicolon "';'"
    if !(← isAt .semicolon) then
      g.expr
    discard <| expect .semicolon "';'"
    if !(← isAt .lBrace) then
      g.simpleStmt false

def forStmt (g : Rules) : Action Unit :=
  node .forStmt do
    bump
    withLiterals false do
      if !(← isAt .lBrace) then
        if ← headHas .rangeKw then
          g.rangeClause
        else if ← headHas .semicolon then
          g.forClause
        else
          g.expr
    g.block

def clause (g : Rules) (kind : NodeKind) : Action Unit :=
  node kind do
    if ← eat .caseKw then
      if kind == .commClause then
        g.simpleStmt false
      else
        g.exprList
    else
      bump
    discard <| expect .colon "':'"
    g.statementList [.caseKw, .defaultKw, .rBrace]

def clauses (g : Rules) (kind : NodeKind) : Action Unit := do
  if ← expect .lBrace "'\x7b'" then
    g.separators
    repeatWhile g.fuel do
      if (← isAtEnd) || (← isAt .rBrace) then
        return false
      let before := (← get).offset
      if (← isAt .caseKw) || (← isAt .defaultKw) then
        g.clause kind
      else
        g.skipTo (.expected "case or default") [.caseKw, .defaultKw, .rBrace]
      g.separators
      return (← get).offset != before
    discard <| expect .rBrace "'\x7d'"

def switchStmt (g : Rules) : Action Unit :=
  node .switchStmt do
    bump
    withLiterals false do
      g.initStmt
      if !(← isAt .lBrace) then
        g.expr
    g.clauses .caseClause

def selectStmt (g : Rules) : Action Unit :=
  node .selectStmt do
    bump
    g.clauses .commClause

def statementRule (g : Rules) : Action Unit := do
  match ← kind? with
  | some .varKw => g.specGroup .varDecl .varSpec
  | some .constKw => g.specGroup .constDecl .constSpec
  | some .returnKw => g.returnStmt
  | some .ifKw => g.run .ifStmt
  | some .forKw => g.forStmt
  | some .switchKw => g.switchStmt
  | some .selectKw => g.selectStmt
  | some .breakKw | some .continueKw => node .branchStmt bump
  | some .lBrace => g.block
  | some .importKw | some .typeKw | some .packageKw =>
      g.skipTo .misplacedDeclaration [.newline, .rBrace]
  | _ => g.simpleStmt true

end SpriteScript.Syntax.Rules
