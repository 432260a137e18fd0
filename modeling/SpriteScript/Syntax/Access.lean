import SpriteScript.Syntax.Tree
import SpriteScript.Syntax.StringLiteral

-- The parts of a node by what they mean. Any of them may be missing from the tree of a text
-- with errors.
namespace SpriteScript

namespace NodeKind

def isStatement : NodeKind → Bool
  | varDecl | constDecl | exprStmt | assignStmt | defineStmt | incDecStmt | sendStmt | returnStmt
  | ifStmt | forStmt | switchStmt | selectStmt | branchStmt | block => true
  | _ => false

-- Statements that may stand in the head of another one.
def isSimpleStatement : NodeKind → Bool
  | exprStmt | assignStmt | defineStmt | incDecStmt | sendStmt => true
  | _ => false

-- What a file consists of.
def isItem (k : NodeKind) : Bool :=
  k == importDecl || k == typeDecl || k == funcDecl || k.isStatement

def isCall : NodeKind → Bool
  | callExpr | commandCall => true
  | _ => false

end NodeKind

namespace Tree

def childrenWith (t : Tree) (p : NodeKind → Bool) : List Tree :=
  t.children.filter fun c => c.kind?.any p

def childWith? (t : Tree) (p : NodeKind → Bool) : Option Tree :=
  t.children.find? fun c => c.kind?.any p

def childrenOf (t : Tree) (kind : NodeKind) : List Tree := t.childrenWith (· == kind)

def child? (t : Tree) (kind : NodeKind) : Option Tree := t.childWith? (· == kind)

def tokensOf (t : Tree) (kind : TokenKind) : List Token := t.childTokens.filter (·.kind == kind)

def tokenOf? (t : Tree) (kind : TokenKind) : Option Token := t.childTokens.find? (·.kind == kind)

def has (t : Tree) (kind : TokenKind) : Bool := (t.tokenOf? kind).isSome

-- Names

def ident? (t : Tree) : Option Token := t.tokenOf? .ident

def identText? (t : Tree) : Option String := t.ident?.map (·.text)

def names (t : Tree) : List Tree := t.childrenOf .name

def name? (t : Tree) : Option Tree := t.child? .name

-- Common parts

def isExpr (t : Tree) : Bool := t.kind?.any NodeKind.isExpr

def isType (t : Tree) : Bool := t.kind?.any NodeKind.isType

def exprs (t : Tree) : List Tree := t.childrenWith NodeKind.isExpr

def expr? (t : Tree) : Option Tree := t.childWith? NodeKind.isExpr

def secondExpr? (t : Tree) : Option Tree := t.exprs[1]?

def type? (t : Tree) : Option Tree := t.childWith? NodeKind.isType

def secondType? (t : Tree) : Option Tree := (t.childrenWith NodeKind.isType)[1]?

def block? (t : Tree) : Option Tree := t.child? .block

def statements (t : Tree) : List Tree := t.childrenWith NodeKind.isStatement

-- The expressions of the list with the given number.
def listed (t : Tree) (index : Nat) : List Tree :=
  ((t.childrenOf .exprList)[index]?.map exprs).getD []

-- Declarations

def items (t : Tree) : List Tree := t.childrenWith NodeKind.isItem

def pathToken? (t : Tree) : Option Token := t.tokenOf? .str

def importPath? (t : Tree) : Option String := t.pathToken?.bind fun s => Syntax.unquote? s.text

def specs (t : Tree) : List Tree :=
  t.childrenWith fun k => k == .importSpec || k == .varSpec || k == .constSpec

def isGrouped (t : Tree) : Bool := t.has .lParen

def isAlias (t : Tree) : Bool := t.has .eq

def isVariadic (t : Tree) : Bool := t.has .ellipsis

def receiver? (t : Tree) : Option Tree := t.child? .receiver

def paramList? (t : Tree) : Option Tree := t.child? .paramList

def params (t : Tree) : List Tree := t.childrenOf .param

def result? (t : Tree) : Option Tree := t.child? .result

def isEmbedded (t : Tree) : Bool := t.names.isEmpty

-- The two names of `package.Name` in a type, or the one of `Name`.
def qualifier? (t : Tree) : Option Token :=
  match t.tokensOf .ident with
  | [package, _] => some package
  | _ => none

def typeName? (t : Tree) : Option Token := (t.tokensOf .ident).getLast?

-- Statements

def simpleStatement? (t : Tree) : Option Tree := t.childWith? NodeKind.isSimpleStatement

def assignOp? (t : Tree) : Option Token :=
  t.childTokens.find? fun s =>
    [.eq, .plusEq, .minusEq, .starEq, .slashEq, .percentEq].contains s.kind

def isCompound (t : Tree) : Bool := t.assignOp?.any (·.kind != .eq)

inductive ElseBranch where
  | ifStmt (node : Tree)
  | block (node : Tree)

def elseBranch? (t : Tree) : Option ElseBranch :=
  match t.child? .ifStmt with
  | some nested => some (.ifStmt nested)
  | none => (t.childrenOf .block)[1]?.map .block

-- The first node behind `count` semicolons of a `for` head, and before the next semicolon.
def segment? : Nat → List Tree → Option Tree
  | _, [] => none
  | count, .token t :: rest =>
      if t.kind == .semicolon then
        match count with
        | 0 => none
        | n + 1 => segment? n rest
      else segment? count rest
  | 0, n :: _ => some n
  | count + 1, _ :: rest => segment? (count + 1) rest

def forInit? (t : Tree) : Option Tree :=
  (segment? 0 t.children).filter fun n => n.kind?.any NodeKind.isStatement

def forCondition? (t : Tree) : Option Tree := (segment? 1 t.children).filter isExpr

def forPost? (t : Tree) : Option Tree :=
  (segment? 2 t.children).filter fun n => n.kind?.any NodeKind.isStatement

def isDefault (t : Tree) : Bool := t.has .defaultKw

-- The statement of a `select` clause that waits for a channel; it stands before the colon.
def commStatement? (t : Tree) : Option Tree :=
  (t.tokenOf? .colon).bind fun colon =>
    (t.childNodes.filter (·.stop ≤ colon.offset)).find? fun n =>
      n.kind?.any NodeKind.isSimpleStatement

-- The statements of a clause, those behind its colon.
def clauseStatements (t : Tree) : List Tree :=
  match t.tokenOf? .colon with
  | some colon => t.statements.filter (colon.stop ≤ ·.start)
  | none => []

-- Expressions

inductive LiteralKind where
  | int
  | float
  | string
deriving DecidableEq, Repr

def LiteralKind.label : LiteralKind → String
  | .int => "Int"
  | .float => "Float"
  | .string => "String"

def literalToken? (t : Tree) : Option Token := t.childTokens.find? (·.kind.isLiteral)

def literalKind? (t : Tree) : Option LiteralKind :=
  t.literalToken?.bind fun s =>
    match s.kind with
    | .int => some .int
    | .float => some .float
    | .str | .rawStr => some .string
    | _ => none

def stringValue? (t : Tree) : Option String :=
  t.literalToken?.bind fun s =>
    match s.kind with
    | .str | .rawStr => Syntax.unquote? s.text
    | _ => none

-- The expression without the parentheses around it.
def unparen : Tree → Tree
  | t@(node .parenExpr _ children) => (inner? children).getD t
  | t => t
where
  inner? : List Tree → Option Tree
    | [] => none
    | c :: rest => if c.isExpr then some c.unparen else inner? rest

def isCall (t : Tree) : Bool := t.kind?.any NodeKind.isCall

def argList? (t : Tree) : Option Tree := t.child? .argList

def args (t : Tree) : List Tree := (t.argList?.map exprs).getD []

def hasSpread (t : Tree) : Bool := t.has .ellipsis

def commas (t : Tree) : List Token := t.tokensOf .comma

def literalBody? (t : Tree) : Option Tree := t.child? .litBody

-- What a composite literal names as its type: an expression such as `pkg.Name`, or a type.
def literalType? (t : Tree) : Option Tree :=
  t.childNodes.head?.filter fun n => n.isType || n.isExpr

-- The elements of a literal: values, and keyed elements.
def elements (t : Tree) : List Tree :=
  t.childrenWith fun k => k == .keyedElement || k.isExpr

def unaryOp? (t : Tree) : Option TokenKind := t.tokens.head?.map (·.kind)

def binaryOpToken? (t : Tree) : Option Token := t.childTokens.find? (·.kind.isPunct)

def binaryOp? (t : Tree) : Option TokenKind := t.binaryOpToken?.map (·.kind)

def lambdaParams (t : Tree) : List Tree := ((t.child? .lambdaParams).map names).getD []

end Tree

end SpriteScript
