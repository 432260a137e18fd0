import SpriteScript.Syntax.Parser.Statements

-- Source files, and the parser as a function on texts.
namespace SpriteScript.Syntax

namespace Rules

def importSpec : Action Unit :=
  node .importSpec do
    if ← isAt .ident then
      name "import name"
    if ← isAt .str then
      stringToken
    else
      fault (.expected "import path")

def importDecl (g : Rules) : Action Unit :=
  node .importDecl do
    bump
    if ← eat .lParen then
      g.separators
      g.members .rParen (.expected "import path") [.rParen] do
        importSpec
        g.separators
      discard <| expect .rParen "')'"
    else
      importSpec

def typeDecl (g : Rules) : Action Unit :=
  node .typeDecl do
    bump
    name "type name"
    discard <| eat .eq
    if ← isAtAny typeStart then
      g.type
    else
      fault (.expected "type")

-- A function with a name, as opposed to a function literal: a name follows `func`, or follows
-- the receiver in parentheses.
def atFuncDecl : Action Bool := do
  match ← second? with
  | some .ident => return true
  | some .lParen =>
      let behind := (← get).solids.drop 1
      return Cursor.kindPastParen? 0 (behind.dropWhile (·.skipped)) == some .ident
  | _ => return false

def funcDecl (g : Rules) : Action Unit :=
  node .funcDecl do
    bump
    if ← isAt .lParen then
      node .receiver do
        bump
        g.param
        discard <| expect .rParen "')'"
    name "function name"
    g.signature
    if ← isAt .lBrace then
      g.block

def item (g : Rules) : Action Unit := do
  match ← kind? with
  | some .importKw => g.importDecl
  | some .typeKw => g.typeDecl
  | some .funcKw => if ← atFuncDecl then g.funcDecl else g.statement
  | some .rBrace | some .rParen => g.skipTo .closingDelimiter []
  | _ => g.statement

def packageClause (g : Rules) : Action Unit := do
  if ← isAt .packageKw then
    node .packageClause do
      bump
      name "package name"
    g.statementEnd

-- Items up to the end of the text.
def items (g : Rules) : Action Unit :=
  repeatWhile g.fuel do
    g.separators
    if ← isAtEnd then
      return false
    let before := (← get).offset
    g.item
    g.statementEnd
    g.unlessMoved before
    return true

-- A package clause, then imports, declarations and statements.
def fileContents (g : Rules) : Action Unit := do
  g.separators
  g.packageClause
  g.items
  flush

-- The node of the file holds the blanks at its front too.
def sourceFile (g : Rules) : Action Unit := do
  modify (·.start .sourceFile)
  g.fileContents
  finish

end Rules

-- Runs a rule; `fuel` bounds how deep rules may lead into each other.
def runRule : Nat → Rule → Action Unit
  | 0, _ => return ()
  | fuel + 1, rule =>
      let g : Rules := ⟨fuel + 1, runRule fuel⟩
      match rule with
      | .type => g.typeRule
      | .expr power => g.exprRule power
      | .unary => g.unaryRule
      | .statement => g.statementRule
      | .ifStmt => g.ifRule

structure Parse where
  tree : Tree
  errors : List SyntaxError
deriving Repr, Inhabited

namespace Parse

def ok (p : Parse) : Bool := p.errors.isEmpty

end Parse

-- Every token is taken by at most three rules that lead into each other before it is taken, so
-- four for each token are enough.
def enoughFuel (tokens : List Token) : Nat := 4 * (tokens.length + 1)

-- Where the parse of a text starts, and where it ends.
def startCursor (text : String) : Cursor :=
  { rest := markLineEnds false (Token.tokenize text), textEnd := text.utf8ByteSize }

def endCursor (text : String) : Cursor :=
  let fuel := enoughFuel (Token.tokenize text)
  ((Rules.mk fuel (runRule fuel)).sourceFile.run (startCursor text)).2

def parse (text : String) : Parse :=
  let s := endCursor text
  ⟨s.builder.root, s.errors.reverse⟩

end SpriteScript.Syntax
