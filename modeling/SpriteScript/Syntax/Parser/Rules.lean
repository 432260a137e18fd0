import SpriteScript.Syntax.Parser.Cursor

-- What the parts of the grammar share: the rules that call each other, and lists.
namespace SpriteScript.Syntax

-- The rules of the grammar that lead back to themselves. `expr power` is an operand with the
-- operators behind it that bind tighter than `power`.
inductive Rule where
  | type
  | expr (power : Nat)
  | unary
  | statement
  | ifStmt
deriving DecidableEq, Repr, Inhabited

-- How to run a rule, and how often a loop may turn. `fuel` is larger than the number of tokens
-- that are left, so that no loop runs out of it.
structure Rules where
  fuel : Nat
  run : Rule → Action Unit

namespace Rules

def type (g : Rules) : Action Unit := g.run .type

def expr (g : Rules) : Action Unit := g.run (.expr 0)

def statement (g : Rules) : Action Unit := g.run .statement

def newlines (g : Rules) : Action Unit := eatWhile g.fuel [.newline]

def separators (g : Rules) : Action Unit := eatWhile g.fuel [.newline, .semicolon]

def skipTo (g : Rules) (f : Fault) (stops : List TokenKind) : Action Unit :=
  Syntax.skipTo g.fuel f stops

-- Elements up to the token `close`, a comma and line feeds between them.
def commaList (g : Rules) (close : TokenKind) (element : Action Unit) : Action Unit := do
  g.newlines
  repeatWhile g.fuel do
    if (← isAtEnd) || (← isAt close) then
      return false
    element
    g.newlines
    if ← eat .comma then
      g.newlines
      return true
    else
      return false

-- Members up to the token `close`. One that takes no token is an error, and what stands there
-- is skipped.
def members (g : Rules) (close : TokenKind) (f : Fault) (stops : List TokenKind)
    (member : Action Unit) : Action Unit :=
  repeatWhile g.fuel do
    if (← isAtEnd) || (← isAt close) then
      return false
    let before := (← get).offset
    member
    if (← get).offset == before then
      g.skipTo f stops
    return true

-- Nothing was taken since `before`: skips the rest of the text.
def unlessMoved (g : Rules) (before : Nat) : Action Unit := do
  if let some kind ← kind? then
    if (← get).offset == before then
      g.skipTo (.unexpected kind) []

-- The end of a statement: a line feed or a semicolon, which is taken, or the end of the block
-- or the text, which is not.
def statementEnd (g : Rules) : Action Unit := do
  if (← isAtEnd) || (← isAt .rBrace) then
    return
  if (← isAt .newline) || (← isAt .semicolon) then
    bump
  else
    g.skipTo .statementEnd [.newline, .semicolon, .rBrace]

-- Expressions with commas between them, the first of which is already there.
def moreExprs (g : Rules) (acrossLines : Bool) : Action Unit :=
  repeatWhile g.fuel do
    if ← eat .comma then
      if acrossLines then
        g.newlines
      g.expr
      return true
    else
      return false

def exprList (g : Rules) : Action Unit :=
  node .exprList do
    g.expr
    g.moreExprs true

end Rules

def name (what : String) : Action Unit := do
  if ← isAt .ident then
    node .name bump
  else
    fault (.expected what)

def typeStart : List TokenKind :=
  [.ident, .star, .lBracket, .mapKw, .chanKw, .funcKw, .structKw, .interfaceKw]

def assignOps : List TokenKind := [.eq, .plusEq, .minusEq, .starEq, .slashEq, .percentEq]

def unaryOps : List TokenKind := [.plus, .minus, .bang, .caret, .arrow]

-- How tight a binary operator binds.
def binaryPower? : TokenKind → Option Nat
  | .pipePipe => some 1
  | .ampAmp => some 2
  | .eqEq | .bangEq | .lt | .ltEq | .gt | .gtEq => some 3
  | .plus | .minus | .pipe | .caret => some 4
  | .star | .slash | .percent | .shl | .shr | .amp => some 5
  | _ => none

end SpriteScript.Syntax
