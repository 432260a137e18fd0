import SpriteScript.Proofs.Loops
import SpriteScript.Proofs.Simulation.Turns

-- Every rule of the grammar is paired with itself, whichever way the rules that it runs are.
namespace SpriteScript.Syntax

-- The instances for the parts of a long rule are found in one search.
set_option synthInstance.maxSize 1000

variable {S : Simulation} {s₀ s₀' : Cursor}

section Moves

variable (fuel fuel' : Nat) [Fuels S fuel fuel']

instance (kinds : List TokenKind) : Turning S s₀ s₀' (eatStep kinds) (eatStep kinds) := by
  unfold eatStep
  infer_instance

instance (kinds : List TokenKind) : Paired S (eatStep kinds) (eatStep kinds) := by
  unfold eatStep
  infer_instance

instance (kinds : List TokenKind) : Paired S (eatWhile fuel kinds) (eatWhile fuel' kinds) := by
  rw [eatWhile_eq, eatWhile_eq]
  infer_instance

instance (stops : List TokenKind) : Turning S s₀ s₀' (takeStep stops) (takeStep stops) := by
  unfold takeStep
  infer_instance

instance (stops : List TokenKind) : Paired S (takeStep stops) (takeStep stops) := by
  unfold takeStep
  infer_instance

instance (stops : List TokenKind) : Paired S (takeUntil fuel stops) (takeUntil fuel' stops) := by
  rw [takeUntil_eq, takeUntil_eq]
  infer_instance

instance (stops : List TokenKind) : Paired S (takeSome fuel stops) (takeSome fuel' stops) := by
  unfold takeSome
  infer_instance

instance (stops : List TokenKind) : Taking S s₀ s₀' (takeSome fuel stops) (takeSome fuel' stops) where
  shorter s s' _ h hcurrent := by
    obtain ⟨-, hsteps⟩ :=
      (inferInstance : Paired S (takeUntil fuel stops) (takeUntil fuel' stops)).run s s' (S.rel h)
    exact guard_shrinks bump bump (pure ()) (pure ()) (S.rel h) hsteps hcurrent

instance (f : Fault) (stops : List TokenKind) : Paired S (skipTo fuel f stops) (skipTo fuel' f stops) := by
  unfold skipTo
  infer_instance

-- Skipping takes at least one token.
instance (f : Fault) (stops : List TokenKind) :
    Taking S s₀ s₀' (skipTo fuel f stops) (skipTo fuel' f stops) where
  shorter s s' _ h hcurrent :=
    have hreport := S.report f (S.rel h)
    (inferInstance : Taking S s s' (node .error (takeSome fuel stops))
      (node .error (takeSome fuel' stops))).shorter
      (s.report f) (s'.report f) (S.rel h) hreport hcurrent

instance (what : String) : Paired S (name what) (name what) := by
  unfold name
  infer_instance

instance (terminated : Bool) : Paired S (Rules.takeString terminated) (Rules.takeString terminated) := by
  unfold Rules.takeString
  infer_instance

instance : Paired S Rules.stringToken Rules.stringToken := by
  rw [Rules.stringToken_eq]
  exact .get_bind _ (fun _ _ h => (S.alike h).terminated) fun terminated => inferInstance

end Moves

-- The rules that two runs lead into each other are paired, and their loops turn alike.
class PairedRules (S : Simulation) (g g' : Rules) : Prop where
  fuels : Fuels S g.fuel g'.fuel
  run : ∀ rule, Paired S (g.run rule) (g'.run rule)

namespace Rules

section Skipping

variable (g g' : Rules) [Fuels S g.fuel g'.fuel]

instance : Paired S g.newlines g'.newlines := by unfold newlines; infer_instance

instance : Paired S g.separators g'.separators := by unfold separators; infer_instance

instance (f : Fault) (stops : List TokenKind) : Paired S (g.skipTo f stops) (g'.skipTo f stops) := by
  unfold skipTo; infer_instance

instance (f : Fault) (stops : List TokenKind) : Taking S s₀ s₀' (g.skipTo f stops) (g'.skipTo f stops) := by
  unfold skipTo; infer_instance

end Skipping

variable (g g' : Rules) [hg : PairedRules S g g']

instance : Fuels S g.fuel g'.fuel := hg.fuels

instance (rule : Rule) : Paired S (g.run rule) (g'.run rule) := hg.run rule

instance : Paired S g.type g'.type := by unfold type; infer_instance

instance : Paired S g.expr g'.expr := by unfold expr; infer_instance

instance : Paired S g.statement g'.statement := by unfold statement; infer_instance

instance (close : TokenKind) (element element' : Action Unit) [Paired S element element'] :
    Paired S (g.commaStep close element) (g'.commaStep close element') := by
  unfold commaStep; infer_instance

instance (close : TokenKind) (element element' : Action Unit) [Paired S element element'] :
    Turning S s₀ s₀' (g.commaStep close element) (g'.commaStep close element') := by
  unfold commaStep; infer_instance

instance (close : TokenKind) (element element' : Action Unit) [Paired S element element'] :
    Paired S (g.commaList close element) (g'.commaList close element') := by
  rw [commaList_eq, commaList_eq]; infer_instance

instance (close : TokenKind) (f : Fault) (stops : List TokenKind) (member member' : Action Unit)
    [Paired S member member'] :
    Paired S (g.memberStep close f stops member) (g'.memberStep close f stops member') := by
  unfold memberStep
  dsimp only
  infer_instance

instance (close : TokenKind) (f : Fault) (stops : List TokenKind) (member member' : Action Unit)
    [Paired S member member'] :
    Turning S s₀ s₀' (g.memberStep close f stops member) (g'.memberStep close f stops member') := by
  unfold memberStep
  dsimp only
  infer_instance

instance (close : TokenKind) (f : Fault) (stops : List TokenKind) (member member' : Action Unit)
    [Paired S member member'] :
    Paired S (g.members close f stops member) (g'.members close f stops member') := by
  rw [members_eq, members_eq]; infer_instance

instance : Paired S g.statementEnd g'.statementEnd := by unfold statementEnd; infer_instance

instance (acrossLines : Bool) : Paired S (g.moreExprStep acrossLines) (g'.moreExprStep acrossLines) := by
  unfold moreExprStep; infer_instance

instance (acrossLines : Bool) :
    Turning S s₀ s₀' (g.moreExprStep acrossLines) (g'.moreExprStep acrossLines) := by
  unfold moreExprStep; infer_instance

instance (acrossLines : Bool) : Paired S (g.moreExprs acrossLines) (g'.moreExprs acrossLines) := by
  rw [moreExprs_eq, moreExprs_eq]; infer_instance

instance : Paired S g.exprList g'.exprList := by unfold exprList; infer_instance

instance : PairedFrom S s₀ s₀' (g.unlessMoved s₀.offset) (g'.unlessMoved s₀'.offset) := by
  unfold unlessMoved
  refine .bind inferInstance fun kind => ?_
  cases kind <;> infer_instance

-- Where a guard stands behind a step, something is taken.
instance {c c' : Unit → Action Bool} [hc : ∀ x, Paired S (c x) (c' x)] :
    TurningSince S s₀ s₀' (g.unlessMoved s₀.offset >>= c) (g'.unlessMoved s₀'.offset >>= c') where
  shorter s s' h₀ h hcurrent _ := by
    obtain ⟨-, hsteps, -⟩ := (inferInstance : PairedFrom S s₀ s₀' (g.unlessMoved s₀.offset)
      (g'.unlessMoved s₀'.offset)).run s s' h₀ h
    refine Nat.lt_of_le_of_lt (S.along ((hc ()).run _ _ (S.rel hsteps)).2).length_le ?_
    unfold unlessMoved
    rw [run_kind?_bind]
    cases hkind : s.kind? with
    | some kind =>
        exact guard_shrinks (g.skipTo (.unexpected kind) []) (g'.skipTo (.unexpected kind) [])
          (pure ()) (pure ()) h₀ h hcurrent
    | none =>
        have hnone : s.current? = none := Option.map_eq_none_iff.mp hkind
        refine Nat.lt_of_le_of_ne (S.along h).length_le fun hlength => hcurrent ?_
        exact current?_of_rest_eq ((S.along h).left.eq_of_length hlength) ▸ hnone

-- Types

instance : Paired S g.param g'.param := by
  unfold param
  dsimp only
  infer_instance

instance : Paired S g.paramList g'.paramList := by unfold paramList; infer_instance

instance : Paired S g.signature g'.signature := by unfold signature; infer_instance

instance (what : String) : Paired S (moreNameStep what) (moreNameStep what) := by
  unfold moreNameStep; infer_instance

instance (what : String) : Turning S s₀ s₀' (moreNameStep what) (moreNameStep what) := by
  unfold moreNameStep; infer_instance

instance (what : String) : Paired S (g.moreNames what) (g'.moreNames what) := by
  rw [moreNames_eq, moreNames_eq]; infer_instance

instance : Paired S g.fieldDecl g'.fieldDecl := by
  unfold fieldDecl
  dsimp only
  infer_instance

instance : Paired S g.methodSpec g'.methodSpec := by unfold methodSpec; infer_instance

instance (what : String) (member member' : Action Unit) [Paired S member member'] :
    Paired S (g.typeBody what member) (g'.typeBody what member') := by
  unfold typeBody
  infer_instance

instance : Paired S g.typeRule g'.typeRule := by
  unfold typeRule
  refine .bind inferInstance fun kind => ?_
  split <;> infer_instance

-- Expressions

instance (stops : List TokenKind) : Paired S (g.statementStep stops) (g'.statementStep stops) := by
  unfold statementStep
  dsimp only
  infer_instance

instance (stops : List TokenKind) : Turning S s₀ s₀' (g.statementStep stops) (g'.statementStep stops) := by
  unfold statementStep
  dsimp only
  infer_instance

instance (stops : List TokenKind) : Paired S (g.statementList stops) (g'.statementList stops) := by
  rw [statementList_eq, statementList_eq]; infer_instance

instance : Paired S g.block g'.block := by unfold block; infer_instance

instance : Paired S g.lambdaBody g'.lambdaBody := by unfold lambdaBody; infer_instance

instance : Paired S g.element g'.element := by unfold element; infer_instance

instance : Paired S g.literalBody g'.literalBody := by unfold literalBody; infer_instance

instance : Paired S g.typedLiteral g'.typedLiteral := by unfold typedLiteral; infer_instance

instance : Paired S lambdaParamStep lambdaParamStep := by unfold lambdaParamStep; infer_instance

instance : Turning S s₀ s₀' lambdaParamStep lambdaParamStep := by unfold lambdaParamStep; infer_instance

instance : Paired S g.lambdaParams g'.lambdaParams := by
  rw [lambdaParams_eq, lambdaParams_eq]; infer_instance

instance : Paired S g.parenthesized g'.parenthesized := by
  unfold parenthesized
  refine ⟨fun s s' h => ?_⟩
  rw [run_get_bind, run_get_bind, ← (S.alike h).pastParen]
  exact Paired.run s s' h

instance : Paired S g.primary g'.primary := by
  unfold primary
  refine .bind inferInstance fun kind => .bind inferInstance fun second => ?_
  split <;> infer_instance

instance : Paired S g.callArgs g'.callArgs := by unfold callArgs; infer_instance

instance : Taking S s₀ s₀' g.callArgs g'.callArgs := by unfold callArgs; infer_instance

instance : Taking S s₀ s₀' g.literalBody g'.literalBody := by unfold literalBody; infer_instance

instance :
    PairedFrom S s₀ s₀' (g.postfixStep s₀.builder.checkpoint) (g'.postfixStep s₀'.builder.checkpoint) := by
  unfold postfixStep
  refine .bind inferInstance fun kind => ?_
  split <;> try infer_instance
  case h_4 =>
    refine ⟨fun s s' h₀ h => ?_⟩
    have halike := S.alike (S.rel h)
    rw [run_get_bind, run_get_bind, ← halike.literalAllowed, ← halike.lastSolid]
    exact PairedFrom.run s s' h₀ h

instance :
    Turning S s₀ s₀' (g.postfixStep s₀.builder.checkpoint) (g'.postfixStep s₀'.builder.checkpoint) := by
  unfold postfixStep
  refine .kind_bind rfl fun kind => ?_
  split <;> infer_instance

instance : PairedFrom S s₀ s₀' (g.postfixed s₀.builder.checkpoint) (g'.postfixed s₀'.builder.checkpoint) := by
  unfold postfixed
  infer_instance

instance : Paired S g.unaryRule g'.unaryRule := by unfold unaryRule; infer_instance

instance (power : Nat) : PairedFrom S s₀ s₀' (g.binaryStep power s₀.builder.checkpoint)
    (g'.binaryStep power s₀'.builder.checkpoint) := by
  unfold binaryStep
  refine .bind inferInstance fun kind => ?_
  split <;> infer_instance

instance (power : Nat) : Turning S s₀ s₀' (g.binaryStep power s₀.builder.checkpoint)
    (g'.binaryStep power s₀'.builder.checkpoint) := by
  unfold binaryStep
  refine .kind_bind rfl fun kind => ?_
  split <;> infer_instance

instance (power : Nat) : PairedFrom S s₀ s₀' (g.climb power s₀.builder.checkpoint)
    (g'.climb power s₀'.builder.checkpoint) := by
  unfold climb
  infer_instance

instance (power : Nat) : Paired S (g.exprRule power) (g'.exprRule power) := by
  unfold exprRule
  infer_instance

-- Statements

instance (kind : NodeKind) : Paired S (g.valueSpec kind) (g'.valueSpec kind) := by
  unfold valueSpec
  infer_instance

instance (decl spec : NodeKind) : Paired S (g.specGroup decl spec) (g'.specGroup decl spec) := by
  unfold specGroup
  infer_instance

instance :
    PairedFrom S s₀ s₀' (selectorStep s₀.builder.checkpoint) (selectorStep s₀'.builder.checkpoint) := by
  unfold selectorStep
  infer_instance

instance : Turning S s₀ s₀' (selectorStep s₀.builder.checkpoint) (selectorStep s₀'.builder.checkpoint) := by
  unfold selectorStep
  infer_instance

instance :
    PairedFrom S s₀ s₀' (g.commandHead s₀.builder.checkpoint) (g'.commandHead s₀'.builder.checkpoint) := by
  rw [commandHead_eq, commandHead_eq]
  infer_instance

instance : Paired S atCommandArg atCommandArg := by
  unfold atCommandArg
  refine .bind inferInstance fun kind => ?_
  split <;> infer_instance

instance : Paired S g.commandArgs g'.commandArgs := by unfold commandArgs; infer_instance

instance : Paired S g.commandOrExpr g'.commandOrExpr := by unfold commandOrExpr; infer_instance

instance :
    PairedFrom S s₀ s₀' (g.simpleRest s₀.builder.checkpoint) (g'.simpleRest s₀'.builder.checkpoint) := by
  unfold simpleRest
  infer_instance

instance (commandAllowed : Bool) : Paired S (g.simpleStmt commandAllowed) (g'.simpleStmt commandAllowed) := by
  unfold simpleStmt
  infer_instance

instance : Paired S atStatementEnd atStatementEnd := by
  unfold atStatementEnd
  infer_instance

instance : Paired S g.returnStmt g'.returnStmt := by unfold returnStmt; infer_instance

theorem paired_headHas {kind : TokenKind} (h : kind.isTrivia = false) :
    Paired S (headHas kind) (headHas kind) :=
  .look _ fun _ _ hrel => (S.alike hrel).head kind h

instance : Paired S (headHas .semicolon) (headHas .semicolon) := paired_headHas rfl

instance : Paired S (headHas .rangeKw) (headHas .rangeKw) := paired_headHas rfl

instance : Paired S g.initStmt g'.initStmt := by unfold initStmt; infer_instance

instance : Paired S g.ifRule g'.ifRule := by unfold ifRule; infer_instance

instance : Paired S g.rangeTargets g'.rangeTargets := by unfold rangeTargets; infer_instance

instance : Paired S g.rangeClause g'.rangeClause := by
  unfold rangeClause
  dsimp only
  infer_instance

instance : Paired S g.forClause g'.forClause := by unfold forClause; infer_instance

instance : Paired S g.forStmt g'.forStmt := by unfold forStmt; infer_instance

instance (kind : NodeKind) : Paired S (g.clause kind) (g'.clause kind) := by
  unfold clause
  infer_instance

instance (kind : NodeKind) : Paired S (g.clauseStep kind) (g'.clauseStep kind) := by
  unfold clauseStep
  dsimp only
  infer_instance

instance (kind : NodeKind) : Turning S s₀ s₀' (g.clauseStep kind) (g'.clauseStep kind) := by
  unfold clauseStep
  dsimp only
  infer_instance

instance (kind : NodeKind) : Paired S (g.clauses kind) (g'.clauses kind) := by
  rw [clauses_eq, clauses_eq]
  infer_instance

instance : Paired S g.switchStmt g'.switchStmt := by unfold switchStmt; infer_instance

instance : Paired S g.selectStmt g'.selectStmt := by unfold selectStmt; infer_instance

instance : Paired S g.statementRule g'.statementRule := by
  unfold statementRule
  refine .bind inferInstance fun kind => ?_
  split <;> infer_instance

-- Files

instance : Paired S importSpec importSpec := by
  unfold importSpec
  infer_instance

instance : Paired S g.importDecl g'.importDecl := by unfold importDecl; infer_instance

instance : Paired S g.typeDecl g'.typeDecl := by unfold typeDecl; infer_instance

instance : Paired S atFuncDecl atFuncDecl := by
  unfold atFuncDecl
  refine .bind inferInstance fun kind => ?_
  split <;> try infer_instance
  case h_2 => exact .look _ fun _ _ h => congrArg (· == some TokenKind.ident) (S.alike h).pastSecond

instance : Paired S g.funcDecl g'.funcDecl := by unfold funcDecl; infer_instance

instance : Paired S g.item g'.item := by
  unfold item
  refine .bind inferInstance fun kind => ?_
  split <;> infer_instance

instance : Paired S g.packageClause g'.packageClause := by unfold packageClause; infer_instance

instance : Paired S g.itemStep g'.itemStep := by
  unfold itemStep
  dsimp only
  infer_instance

instance : Turning S s₀ s₀' g.itemStep g'.itemStep := by
  unfold itemStep
  dsimp only
  infer_instance

instance : Paired S g.items g'.items := by rw [items_eq, items_eq]; infer_instance

instance : Paired S g.fileContents g'.fileContents := by unfold fileContents; infer_instance

instance : Paired S g.sourceFile g'.sourceFile where
  run s s' h := by
    obtain ⟨-, hcontents⟩ :=
      (inferInstance : Paired S g.fileContents g'.fileContents).run _ _ (S.start .sourceFile h)
    exact ⟨rfl, S.finish h hcontents⟩

instance (rule : Rule) : Paired S (g.body rule) (g'.body rule) := by
  cases rule <;> unfold body <;> infer_instance

end Rules

end SpriteScript.Syntax
