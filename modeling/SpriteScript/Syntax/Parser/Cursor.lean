import SpriteScript.Token.Lexer
import SpriteScript.Syntax.Builder

-- The state of a parse and the few moves on it that everything else is made of.
namespace SpriteScript.Syntax

-- What is wrong at a place of the text.
inductive Fault where
  | expected (what : String)
  | unexpected (kind : TokenKind)
  | unexpectedRange
  | closingDelimiter
  | statementEnd
  | missingCondition
  | misplacedDeclaration
  | unterminatedString
deriving DecidableEq, Repr, Inhabited

namespace Fault

def message : Fault → String
  | expected what => "expected " ++ what
  | unexpected kind => "unexpected " ++ kind.label
  | unexpectedRange => "unexpected range"
  | closingDelimiter => "unexpected closing delimiter"
  | statementEnd => "expected newline or ';' after statement"
  | missingCondition => "missing condition in if statement"
  | misplacedDeclaration => "declaration not allowed here"
  | unterminatedString => "string literal not terminated"

end Fault

structure SyntaxError where
  fault : Fault
  range : Text.ByteRange
deriving DecidableEq, Repr, Inhabited

-- A token as the grammar sees it. Blanks and comments are skipped, and so is a line feed,
-- unless it ends a statement.
structure Lexeme where
  token : Token
  skipped : Bool
deriving Repr, Inhabited

-- A line feed ends a statement when the token before it can; of several only the first does.
-- `canEnd` says whether the last token seen can end one.
def markLineEnds (canEnd : Bool) : List Token → List Lexeme
  | [] => []
  | t :: rest =>
      if t.kind = .newline then ⟨t, !canEnd⟩ :: markLineEnds false rest
      else if t.kind.isTrivia then ⟨t, true⟩ :: markLineEnds canEnd rest
      else ⟨t, false⟩ :: markLineEnds t.kind.endsStatement rest

structure Cursor where
  -- what is still to be read
  rest : List Lexeme
  -- the length of the whole text
  textEnd : Nat
  -- kinds of the last token taken, and of the last one that is no blank, comment or line feed
  last : Option TokenKind := none
  lastSolid : Option TokenKind := none
  builder : Builder := {}
  -- newest first
  errors : List SyntaxError := []
  -- whether a brace behind a name may open a literal; not so in the head of a statement, where
  -- it opens the body
  literalAllowed : Bool := true
deriving Inhabited

abbrev Action := StateM Cursor

namespace Cursor

def solids (s : Cursor) : List Lexeme := s.rest.dropWhile (·.skipped)

-- The next token of the grammar.
def current? (s : Cursor) : Option Token := s.solids.head?.map (·.token)

def kind? (s : Cursor) : Option TokenKind := s.current?.map (·.kind)

-- The offset of the next token, skipped or not.
def offset (s : Cursor) : Nat := (s.rest.head?.map (·.token.offset)).getD s.textEnd

def second? (s : Cursor) : Option TokenKind :=
  ((s.solids.drop 1).find? (!·.skipped)).map (·.token.kind)

-- The kind of the token behind the parenthesis that closes the one at the front. Braces are
-- not looked into.
def kindPastParen? : Nat → List Lexeme → Option TokenKind
  | _, [] => none
  | depth, l :: rest =>
      match l.token.kind with
      | .lParen => kindPastParen? (depth + 1) rest
      | .rParen =>
          if depth ≤ 1 then (rest.find? (!·.skipped)).map (·.token.kind)
          else kindPastParen? (depth - 1) rest
      | .lBrace | .rBrace => none
      | _ => kindPastParen? depth rest

def errorRange (s : Cursor) : Text.ByteRange :=
  match s.current? with
  | some t => ⟨t.offset, t.stop⟩
  | none => .empty s.textEnd

-- Adds an error at the next token.
def report (s : Cursor) (f : Fault) : Cursor := { s with errors := ⟨f, s.errorRange⟩ :: s.errors }

def allow (s : Cursor) (allowed : Bool) : Cursor := { s with literalAllowed := allowed }

-- Moves one token to the tree.
def shift (s : Cursor) (t : Token) (rest : List Lexeme) : Cursor :=
  { s with
    rest
    builder := s.builder.token t
    last := some t.kind
    lastSolid := if t.kind.isTrivia then s.lastSolid else some t.kind }

def flushList (s : Cursor) : List Lexeme → Cursor
  | [] => { s with rest := [] }
  | l :: rest => if l.skipped then flushList (s.shift l.token rest) rest else { s with rest := l :: rest }

-- Moves the skipped tokens at the front to the tree.
def flush (s : Cursor) : Cursor := s.flushList s.rest

def bump (s : Cursor) : Cursor :=
  let s := s.flush
  match s.rest with
  | [] => s
  | l :: rest => s.shift l.token rest

def start (s : Cursor) (kind : NodeKind) : Cursor :=
  { s with builder := s.builder.start kind }

def startAt (s : Cursor) (place : Nat) (kind : NodeKind) : Cursor :=
  { s with builder := s.builder.startAt place kind }

def finish (s : Cursor) : Cursor := { s with builder := s.builder.finish s.offset }

end Cursor

-- Looking

def kind? : Action (Option TokenKind) := return (← get).kind?

def second? : Action (Option TokenKind) := return (← get).second?

def isAt (kind : TokenKind) : Action Bool := return (← get).kind? == some kind

def isAtAny (kinds : List TokenKind) : Action Bool :=
  return (← get).kind?.any kinds.contains

def isAtEnd : Action Bool := return (← get).current?.isNone

-- Whether a blank or a comment separates the next token from the one before.
def spaceBefore : Action Bool := do
  let s ← get
  match s.solids, s.rest with
  | [], _ => return false
  | _, l :: _ => return l.skipped || s.last.any TokenKind.isTrivia
  | _, [] => return false

-- Whether a blank, a comment or the end of the text follows the next token.
def spaceAfter : Action Bool := do
  match (← get).solids with
  | [] => return false
  | [_] => return true
  | _ :: l :: _ => return l.token.kind.isTrivia

-- Taking

def flush : Action Unit := modify Cursor.flush

def bump : Action Unit := modify Cursor.bump

def eat (kind : TokenKind) : Action Bool := do
  if ← isAt kind then
    bump
    return true
  else
    return false

def fault (f : Fault) : Action Unit := modify (·.report f)

def expect (kind : TokenKind) (what : String) : Action Bool := do
  if ← eat kind then
    return true
  else
    fault (.expected what)
    return false

-- Building

-- A place to start a node at later. The blanks before it stay outside.
def checkpoint : Action Nat := do
  flush
  return (← get).builder.checkpoint

def start (kind : NodeKind) : Action Unit := do
  flush
  modify (·.start kind)

def startAt (place : Nat) (kind : NodeKind) : Action Unit := modify (·.startAt place kind)

def finish : Action Unit := modify Cursor.finish

-- One node of the trees that `body` makes.
def node (kind : NodeKind) (body : Action Unit) : Action Unit := do
  start kind
  body
  finish

-- One node of the trees behind a checkpoint and those that `body` makes.
def nodeAt (place : Nat) (kind : NodeKind) (body : Action Unit) : Action Unit := do
  startAt place kind
  body
  finish

-- Repeats `step` as long as it asks for more, at most `fuel` times.
def repeatWhile : Nat → Action Bool → Action Unit
  | 0, _ => return
  | fuel + 1, step => do
      if ← step then
        repeatWhile fuel step

def eatWhile (fuel : Nat) (kinds : List TokenKind) : Action Unit :=
  repeatWhile fuel do
    if ← isAtAny kinds then
      bump
      return true
    else
      return false

-- Puts a value in place for as long as `body` runs.
def withLiterals (allowed : Bool) (body : Action Unit) : Action Unit := do
  let saved ← modifyGet fun s => (s.literalAllowed, s.allow allowed)
  body
  modify (·.allow saved)

-- Takes the tokens up to one of `stops`.
def takeUntil (fuel : Nat) (stops : List TokenKind) : Action Unit :=
  repeatWhile fuel do
    if (← isAtEnd) || (← isAtAny stops) then
      return false
    else
      bump
      return true

-- Takes the tokens up to one of `stops`, at least one if there is one.
def takeSome (fuel : Nat) (stops : List TokenKind) : Action Unit := do
  let before := (← get).offset
  takeUntil fuel stops
  if (← get).offset == before then
    bump

-- Reports `f` and puts tokens up to one of `stops` into an error node.
def skipTo (fuel : Nat) (f : Fault) (stops : List TokenKind) : Action Unit := do
  fault f
  node .error (takeSome fuel stops)

end SpriteScript.Syntax
