import SpriteScript.Syntax.Parser

-- The loops of the grammar by what they do in one turn, and the rules by what they do before they
-- lead into each other.
namespace SpriteScript.Syntax

-- What the turns do

def eatStep (kinds : List TokenKind) : Action Bool := do
  if ← isAtAny kinds then
    bump
    return true
  else
    return false

def takeStep (stops : List TokenKind) : Action Bool := do
  if (← isAtEnd) || (← isAtAny stops) then
    return false
  else
    bump
    return true

namespace Rules

variable (g : Rules)

def commaStep (close : TokenKind) (element : Action Unit) : Action Bool := do
  if (← isAtEnd) || (← isAt close) then
    return false
  element
  g.newlines
  if ← eat .comma then
    g.newlines
    return true
  else
    return false

def memberStep (close : TokenKind) (f : Fault) (stops : List TokenKind) (member : Action Unit) :
    Action Bool := do
  if (← isAtEnd) || (← isAt close) then
    return false
  let before := (← get).offset
  member
  if (← get).offset == before then
    g.skipTo f stops
  return true

def moreExprStep (acrossLines : Bool) : Action Bool := do
  if ← eat .comma then
    if acrossLines then
      g.newlines
    g.expr
    return true
  else
    return false

def moreNameStep (what : String) : Action Bool := do
  if ← eat .comma then
    name what
    return true
  else
    return false

def statementStep (stops : List TokenKind) : Action Bool := do
  g.separators
  if (← isAtEnd) || (← isAtAny stops) then
    return false
  let before := (← get).offset
  g.statement
  if !(← isAtAny stops) then
    g.statementEnd
  g.unlessMoved before
  return true

def lambdaParamStep : Action Bool := do
  if ← isAt .ident then
    name "parameter"
    eat .comma
  else
    return false

def selectorStep (first : Nat) : Action Bool := do
  if (← isAt .dot) && (← second?) == some .ident then
    nodeAt first .selectorExpr (do bump; bump)
    return true
  else
    return false

def clauseStep (kind : NodeKind) : Action Bool := do
  if (← isAtEnd) || (← isAt .rBrace) then
    return false
  let before := (← get).offset
  if (← isAt .caseKw) || (← isAt .defaultKw) then
    g.clause kind
  else
    g.skipTo (.expected "case or default") [.caseKw, .defaultKw, .rBrace]
  g.separators
  return (← get).offset != before

def itemStep : Action Bool := do
  g.separators
  if ← isAtEnd then
    return false
  let before := (← get).offset
  g.item
  g.statementEnd
  g.unlessMoved before
  return true

end Rules

-- What is done with a string, by whether it has an end.
def Rules.takeString (terminated : Bool) : Action Unit := do
  if !terminated then
    fault .unterminatedString
  bump

theorem Rules.stringToken_eq : stringToken = (do
    takeString ((← get).current?.any fun t => Token.isTerminatedString t.text)) := rfl

-- The loops

theorem eatWhile_eq (fuel : Nat) (kinds : List TokenKind) :
    eatWhile fuel kinds = repeatWhile fuel (eatStep kinds) := rfl

theorem takeUntil_eq (fuel : Nat) (stops : List TokenKind) :
    takeUntil fuel stops = repeatWhile fuel (takeStep stops) := rfl

namespace Rules

variable (g : Rules)

theorem commaList_eq (close : TokenKind) (element : Action Unit) :
    g.commaList close element = (do g.newlines; repeatWhile g.fuel (g.commaStep close element)) := rfl

theorem members_eq (close : TokenKind) (f : Fault) (stops : List TokenKind) (member : Action Unit) :
    g.members close f stops member = repeatWhile g.fuel (g.memberStep close f stops member) := rfl

theorem moreExprs_eq (acrossLines : Bool) :
    g.moreExprs acrossLines = repeatWhile g.fuel (g.moreExprStep acrossLines) := rfl

theorem moreNames_eq (what : String) : g.moreNames what = repeatWhile g.fuel (moreNameStep what) := rfl

theorem statementList_eq (stops : List TokenKind) :
    g.statementList stops = repeatWhile g.fuel (g.statementStep stops) := rfl

theorem lambdaParams_eq : g.lambdaParams = node .lambdaParams (do
    bump
    repeatWhile g.fuel lambdaParamStep
    discard <| expect .rParen "')'") := rfl

theorem commandHead_eq (first : Nat) : g.commandHead first = (do
    node .nameRef bump
    repeatWhile g.fuel (selectorStep first)) := rfl

theorem clauses_eq (kind : NodeKind) : g.clauses kind = (do
    if ← expect .lBrace "'\x7b'" then
      g.separators
      repeatWhile g.fuel (g.clauseStep kind)
      discard <| expect .rBrace "'\x7d'") := rfl

theorem items_eq : g.items = repeatWhile g.fuel g.itemStep := rfl

-- The recursion

-- What a rule does, given how the rules run that it leads to.
def body : Rule → Action Unit
  | .type => g.typeRule
  | .expr power => g.exprRule power
  | .unary => g.unaryRule
  | .statement => g.statementRule
  | .ifStmt => g.ifRule

end Rules

theorem runRule_succ (fuel : Nat) (rule : Rule) :
    runRule (fuel + 1) rule = (Rules.mk (fuel + 1) (runRule fuel)).body rule := by
  cases rule <;> rfl

end SpriteScript.Syntax
