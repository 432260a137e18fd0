import SpriteScript.Syntax.Parser

-- Whether a brace may open a literal is put back by everything that sets it: no function of the grammar
-- leaves it changed, in whatever state it starts.
namespace SpriteScript.Syntax

-- The instances for the parts of a long rule are found in one search.
set_option synthInstance.maxSize 1000

class Restores {α : Type} (a : Action α) : Prop where
  restores : ∀ s : Cursor, (a.run s).2.literalAllowed = s.literalAllowed

section Combinators

variable {α β : Type} {a b : Action α} {f : α → Action β}

instance (x : α) : Restores (pure x : Action α) := ⟨fun _ => rfl⟩

theorem Restores.bind (ha : Restores a) (hf : ∀ x, Restores (f x)) : Restores (a >>= f) :=
  ⟨fun s => ((hf (a.run s).1).restores (a.run s).2).trans (ha.restores s)⟩

instance [ha : Restores a] [hf : ∀ x, Restores (f x)] : Restores (a >>= f) := .bind ha hf

instance {c : Prop} [Decidable c] [Restores a] [Restores b] : Restores (if c then a else b) := by
  split <;> assumption

instance [ha : Restores a] : Restores (discard a) := ⟨ha.restores⟩

end Combinators

section Moves

theorem literalAllowed_flushList (rest : List Lexeme) (s : Cursor) :
    (s.flushList rest).literalAllowed = s.literalAllowed := by
  induction rest generalizing s with
  | nil => rfl
  | cons l rest ih =>
      unfold Cursor.flushList
      split
      · exact ih _
      · rfl

theorem literalAllowed_flush (s : Cursor) : s.flush.literalAllowed = s.literalAllowed :=
  literalAllowed_flushList s.rest s

instance : Restores (get : Action Cursor) := ⟨fun _ => rfl⟩

instance : Restores kind? := ⟨fun _ => rfl⟩

instance : Restores second? := ⟨fun _ => rfl⟩

instance (kind : TokenKind) : Restores (isAt kind) := ⟨fun _ => rfl⟩

instance (kinds : List TokenKind) : Restores (isAtAny kinds) := ⟨fun _ => rfl⟩

instance : Restores isAtEnd := ⟨fun _ => rfl⟩

instance (kind : TokenKind) : Restores (Rules.headHas kind) := ⟨fun _ => rfl⟩

instance : Restores spaceBefore := by
  unfold spaceBefore
  refine .bind inferInstance fun s => ?_
  split <;> infer_instance

instance : Restores spaceAfter := by
  unfold spaceAfter
  refine .bind inferInstance fun s => ?_
  split <;> infer_instance

instance : Restores flush := ⟨literalAllowed_flush⟩

instance : Restores bump where
  restores s := by
    change s.bump.literalAllowed = s.literalAllowed
    unfold Cursor.bump
    dsimp only
    split
    · exact literalAllowed_flush s
    · exact literalAllowed_flush s

instance (f : Fault) : Restores (fault f) := ⟨fun _ => rfl⟩

instance (kind : NodeKind) : Restores (start kind) := ⟨literalAllowed_flush⟩

instance (place : Nat) (kind : NodeKind) : Restores (startAt place kind) := ⟨fun _ => rfl⟩

instance : Restores finish := ⟨fun _ => rfl⟩

-- The value from before is put back, whatever the body does.
instance (allowed : Bool) (body : Action Unit) : Restores (withLiterals allowed body) := ⟨fun _ => rfl⟩

instance : Restores checkpoint := by unfold checkpoint; infer_instance

instance (kind : NodeKind) (body : Action Unit) [Restores body] : Restores (node kind body) := by
  unfold node; infer_instance

instance (place : Nat) (kind : NodeKind) (body : Action Unit) [Restores body] :
    Restores (nodeAt place kind body) := by
  unfold nodeAt; infer_instance

instance (fuel : Nat) (step : Action Bool) [Restores step] : Restores (repeatWhile fuel step) := by
  induction fuel with
  | zero =>
      unfold repeatWhile
      infer_instance
  | succ fuel ih =>
      unfold repeatWhile
      infer_instance

instance (kind : TokenKind) : Restores (eat kind) := by unfold eat; infer_instance

instance (kind : TokenKind) (what : String) : Restores (expect kind what) := by unfold expect; infer_instance

instance (fuel : Nat) (kinds : List TokenKind) :
    Restores (eatWhile fuel kinds) := by unfold eatWhile; infer_instance

instance (fuel : Nat) (stops : List TokenKind) :
    Restores (takeUntil fuel stops) := by unfold takeUntil; infer_instance

instance (fuel : Nat) (stops : List TokenKind) :
    Restores (takeSome fuel stops) := by unfold takeSome; infer_instance

instance (fuel : Nat) (f : Fault) (stops : List TokenKind) : Restores (skipTo fuel f stops) := by
  unfold skipTo; infer_instance

instance (what : String) : Restores (name what) := by unfold name; infer_instance

end Moves

namespace Rules

variable (g : Rules) [∀ rule, Restores (g.run rule)]

-- Parts and lists

instance : Restores g.type := by unfold type; infer_instance

instance : Restores g.expr := by unfold expr; infer_instance

instance : Restores g.statement := by unfold statement; infer_instance

instance : Restores g.newlines := by unfold newlines; infer_instance

instance : Restores g.separators := by unfold separators; infer_instance

instance (f : Fault) (stops : List TokenKind) :
    Restores (g.skipTo f stops) := by unfold skipTo; infer_instance

instance (close : TokenKind) (element : Action Unit) [Restores element] :
    Restores (g.commaList close element) := by
  unfold commaList; infer_instance

instance (close : TokenKind) (f : Fault) (stops : List TokenKind) (member : Action Unit) [Restores member] :
    Restores (g.members close f stops member) := by
  unfold members; infer_instance

instance (before : Nat) : Restores (g.unlessMoved before) := by
  unfold unlessMoved
  refine .bind inferInstance fun kind => ?_
  split <;> infer_instance

instance : Restores g.statementEnd := by unfold statementEnd; infer_instance

instance (acrossLines : Bool) : Restores (g.moreExprs acrossLines) := by unfold moreExprs; infer_instance

instance : Restores g.exprList := by unfold exprList; infer_instance

-- Types

instance : Restores g.param := by
  unfold param
  dsimp only
  infer_instance

instance : Restores g.paramList := by unfold paramList; infer_instance

instance : Restores g.signature := by unfold signature; infer_instance

instance (what : String) : Restores (g.moreNames what) := by unfold moreNames; infer_instance

instance : Restores g.fieldDecl := by
  unfold fieldDecl
  dsimp only
  infer_instance

instance : Restores g.methodSpec := by unfold methodSpec; infer_instance

instance (what : String) (member : Action Unit) [Restores member] : Restores (g.typeBody what member) := by
  unfold typeBody; infer_instance

instance : Restores g.typeRule := by
  unfold typeRule
  refine .bind inferInstance fun kind => ?_
  split <;> infer_instance

-- Expressions

instance (stops : List TokenKind) : Restores (g.statementList stops) := by
  unfold statementList
  dsimp only
  infer_instance

instance : Restores g.block := by unfold block; infer_instance

instance : Restores g.lambdaBody := by unfold lambdaBody; infer_instance

instance : Restores stringToken := by unfold stringToken; infer_instance

instance : Restores g.element := by unfold element; infer_instance

instance : Restores g.literalBody := by unfold literalBody; infer_instance

instance : Restores g.typedLiteral := by unfold typedLiteral; infer_instance

instance : Restores g.lambdaParams := by unfold lambdaParams; infer_instance

instance : Restores g.parenthesized := by unfold parenthesized; infer_instance

instance : Restores g.primary := by
  unfold primary
  refine .bind inferInstance fun kind => .bind inferInstance fun second => ?_
  split <;> infer_instance

instance : Restores g.callArgs := by unfold callArgs; infer_instance

instance (first : Nat) : Restores (g.postfixStep first) := by
  unfold postfixStep
  refine .bind inferInstance fun kind => ?_
  split <;> infer_instance

instance (first : Nat) : Restores (g.postfixed first) := by unfold postfixed; infer_instance

instance : Restores g.unaryRule := by unfold unaryRule; infer_instance

instance (power first : Nat) : Restores (g.binaryStep power first) := by
  unfold binaryStep
  refine .bind inferInstance fun kind => ?_
  split <;> infer_instance

instance (power first : Nat) : Restores (g.climb power first) := by unfold climb; infer_instance

instance (power : Nat) : Restores (g.exprRule power) := by unfold exprRule; infer_instance

-- Statements

instance (kind : NodeKind) : Restores (g.valueSpec kind) := by unfold valueSpec; infer_instance

instance (decl spec : NodeKind) : Restores (g.specGroup decl spec) := by unfold specGroup; infer_instance

instance (first : Nat) : Restores (g.commandHead first) := by unfold commandHead; infer_instance

instance : Restores atCommandArg := by
  unfold atCommandArg
  refine .bind inferInstance fun kind => ?_
  split <;> infer_instance

instance : Restores g.commandArgs := by unfold commandArgs; infer_instance

instance : Restores g.commandOrExpr := by unfold commandOrExpr; infer_instance

instance (first : Nat) : Restores (g.simpleRest first) := by unfold simpleRest; infer_instance

instance (commandAllowed : Bool) :
    Restores (g.simpleStmt commandAllowed) := by unfold simpleStmt; infer_instance

instance : Restores atStatementEnd := by unfold atStatementEnd; infer_instance

instance : Restores g.returnStmt := by unfold returnStmt; infer_instance

instance : Restores g.initStmt := by unfold initStmt; infer_instance

instance : Restores g.ifRule := by unfold ifRule; infer_instance

instance : Restores g.rangeTargets := by unfold rangeTargets; infer_instance

instance : Restores g.rangeClause := by
  unfold rangeClause
  dsimp only
  infer_instance

instance : Restores g.forClause := by unfold forClause; infer_instance

instance : Restores g.forStmt := by unfold forStmt; infer_instance

instance (kind : NodeKind) : Restores (g.clause kind) := by unfold clause; infer_instance

instance (kind : NodeKind) : Restores (g.clauses kind) := by unfold clauses; infer_instance

instance : Restores g.switchStmt := by unfold switchStmt; infer_instance

instance : Restores g.selectStmt := by unfold selectStmt; infer_instance

instance : Restores g.statementRule := by
  unfold statementRule
  refine .bind inferInstance fun kind => ?_
  split <;> infer_instance

-- Files

instance : Restores importSpec := by unfold importSpec; infer_instance

instance : Restores g.importDecl := by unfold importDecl; infer_instance

instance : Restores g.typeDecl := by unfold typeDecl; infer_instance

instance : Restores atFuncDecl := by
  unfold atFuncDecl
  refine .bind inferInstance fun kind => ?_
  split <;> infer_instance

instance : Restores g.funcDecl := by unfold funcDecl; infer_instance

instance : Restores g.item := by
  unfold item
  refine .bind inferInstance fun kind => ?_
  split <;> infer_instance

instance : Restores g.packageClause := by unfold packageClause; infer_instance

instance : Restores g.items := by unfold items; infer_instance

instance : Restores g.fileContents := by unfold fileContents; infer_instance

instance : Restores g.sourceFile := by
  have : Restores (modify (·.start .sourceFile) : Action PUnit) := ⟨fun _ => rfl⟩
  unfold sourceFile
  infer_instance

-- The functions of the grammar, each with all its arguments.
inductive Part (g : Rules) : {α : Type} → Action α → Prop where
  | rule (rule : Rule) : g.Part (g.run rule)
  -- parts and lists
  | name (what : String) : g.Part (name what)
  | newlines : g.Part g.newlines
  | separators : g.Part g.separators
  | skipTo (f : Fault) (stops : List TokenKind) : g.Part (g.skipTo f stops)
  | unlessMoved (before : Nat) : g.Part (g.unlessMoved before)
  | statementEnd : g.Part g.statementEnd
  | commaList {element : Action Unit} (close : TokenKind) : g.Part element →
      g.Part (g.commaList close element)
  | members {member : Action Unit} (close : TokenKind) (f : Fault) (stops : List TokenKind) :
      g.Part member → g.Part (g.members close f stops member)
  | moreExprs (acrossLines : Bool) : g.Part (g.moreExprs acrossLines)
  | exprList : g.Part g.exprList
  -- types
  | param : g.Part g.param
  | paramList : g.Part g.paramList
  | signature : g.Part g.signature
  | moreNames (what : String) : g.Part (g.moreNames what)
  | fieldDecl : g.Part g.fieldDecl
  | methodSpec : g.Part g.methodSpec
  | typeBody {member : Action Unit} (what : String) : g.Part member → g.Part (g.typeBody what member)
  | typeRule : g.Part g.typeRule
  -- expressions
  | statementList (stops : List TokenKind) : g.Part (g.statementList stops)
  | block : g.Part g.block
  | lambdaBody : g.Part g.lambdaBody
  | stringToken : g.Part stringToken
  | element : g.Part g.element
  | literalBody : g.Part g.literalBody
  | typedLiteral : g.Part g.typedLiteral
  | lambdaParams : g.Part g.lambdaParams
  | parenthesized : g.Part g.parenthesized
  | primary : g.Part g.primary
  | callArgs : g.Part g.callArgs
  | postfixStep (first : Nat) : g.Part (g.postfixStep first)
  | postfixed (first : Nat) : g.Part (g.postfixed first)
  | unaryRule : g.Part g.unaryRule
  | binaryStep (power first : Nat) : g.Part (g.binaryStep power first)
  | climb (power first : Nat) : g.Part (g.climb power first)
  | exprRule (power : Nat) : g.Part (g.exprRule power)
  -- statements
  | valueSpec (kind : NodeKind) : g.Part (g.valueSpec kind)
  | specGroup (decl spec : NodeKind) : g.Part (g.specGroup decl spec)
  | commandHead (first : Nat) : g.Part (g.commandHead first)
  | commandArgs : g.Part g.commandArgs
  | commandOrExpr : g.Part g.commandOrExpr
  | simpleRest (first : Nat) : g.Part (g.simpleRest first)
  | simpleStmt (commandAllowed : Bool) : g.Part (g.simpleStmt commandAllowed)
  | returnStmt : g.Part g.returnStmt
  | initStmt : g.Part g.initStmt
  | ifRule : g.Part g.ifRule
  | rangeTargets : g.Part g.rangeTargets
  | rangeClause : g.Part g.rangeClause
  | forClause : g.Part g.forClause
  | forStmt : g.Part g.forStmt
  | clause (kind : NodeKind) : g.Part (g.clause kind)
  | clauses (kind : NodeKind) : g.Part (g.clauses kind)
  | switchStmt : g.Part g.switchStmt
  | selectStmt : g.Part g.selectStmt
  | statementRule : g.Part g.statementRule
  -- files
  | importSpec : g.Part importSpec
  | importDecl : g.Part g.importDecl
  | typeDecl : g.Part g.typeDecl
  | funcDecl : g.Part g.funcDecl
  | item : g.Part g.item
  | packageClause : g.Part g.packageClause
  | items : g.Part g.items
  | fileContents : g.Part g.fileContents
  | sourceFile : g.Part g.sourceFile

theorem Part.restores {α : Type} {a : Action α} (h : g.Part a) : Restores a := by
  induction h <;> infer_instance

end Rules

instance (fuel : Nat) (rule : Rule) : Restores (runRule fuel rule) := by
  induction fuel generalizing rule with
  | zero =>
      unfold runRule
      infer_instance
  | succ fuel ih =>
      unfold runRule
      have (rule : Rule) : Restores ((Rules.mk (fuel + 1) (runRule fuel)).run rule) := ih rule
      cases rule <;> infer_instance

end SpriteScript.Syntax
