import SpriteScript.Proofs.Termination.Fronts

-- What a rule does depends on the rules that it leads to only where less is left to be read, or
-- where as much is left and they stand lower in the grammar.
namespace SpriteScript.Syntax

set_option synthInstance.maxSize 1000

namespace Rules

variable {all : List Lexeme} {n : Nat} (g g' : Rules) [hg : PairedRules (same all n) g g']

instance (what : String) (member member' : Action Unit) (kind : TokenKind)
    [Paired (same all n) member member'] :
    Enters all n kind (g.typeBody what member) (g'.typeBody what member') := by
  unfold typeBody
  infer_instance

instance : Paired (same all (n + 1)) g.typeRule g'.typeRule := by
  unfold typeRule
  refine .kind_bind inferInstance fun kind => ?_
  split <;> infer_instance

instance (kind : TokenKind) : Enters all n kind g.literalBody g'.literalBody := by
  unfold literalBody
  infer_instance

instance [Paired (same all (n + 1)) g.type g'.type] :
    Paired (same all (n + 1)) g.typedLiteral g'.typedLiteral := by
  unfold typedLiteral
  infer_instance

-- Expressions

instance (kind : TokenKind) : Enters all n kind g.callArgs g'.callArgs := by
  unfold callArgs
  infer_instance

instance : Enters all n .lBrace g.block g'.block := by
  unfold block
  infer_instance

instance : Enters all n .fatArrow g.lambdaBody g'.lambdaBody := by
  unfold lambdaBody
  infer_instance

instance (kind : TokenKind) : At all n kind g.parenthesized g'.parenthesized := by
  unfold parenthesized
  rw [lambdaParams_eq, lambdaParams_eq]
  infer_instance

instance [Paired (same all (n + 1)) g.type g'.type] : Paired (same all (n + 1)) g.primary g'.primary := by
  unfold primary
  refine .kind_bind inferInstance fun kind => .second?_bind fun second => ?_
  split <;> try infer_instance
  -- the head of a lambda is not always there: these two are entered at its first token
  case h_1 hident =>
    cases hident
    infer_instance
  case h_8 harrow =>
    cases harrow
    infer_instance


instance (place : Nat) : Paired (same all (n + 1)) (g.postfixStep place) (g'.postfixStep place) := by
  unfold postfixStep
  refine .kind_bind inferInstance fun kind => ?_
  split <;> infer_instance

instance (place : Nat) (s₀ s₀' : Cursor) :
    Turning (same all (n + 1)) s₀ s₀' (g.postfixStep place) (g'.postfixStep place) := by
  unfold postfixStep
  refine .kind_bind rfl fun kind => ?_
  split <;> infer_instance

instance (power place : Nat) :
    Paired (same all (n + 1)) (g.binaryStep power place) (g'.binaryStep power place) := by
  unfold binaryStep
  refine .kind_bind (inferInstanceAs (Paired _ (pure false) (pure false))) fun kind => ?_
  split <;> infer_instance

instance (power place : Nat) (s₀ s₀' : Cursor) :
    Turning (same all (n + 1)) s₀ s₀' (g.binaryStep power place) (g'.binaryStep power place) := by
  unfold binaryStep
  refine .kind_bind rfl fun kind => ?_
  split <;> infer_instance

section Operands

variable [Fuels (same all (n + 1)) g.fuel g'.fuel]

instance [Paired (same all (n + 1)) g.type g'.type] : Paired (same all (n + 1)) g.unaryRule g'.unaryRule := by
  unfold unaryRule postfixed
  infer_instance

instance (power : Nat) [Paired (same all (n + 1)) (g.run .unary) (g'.run .unary)] :
    Paired (same all (n + 1)) (g.exprRule power) (g'.exprRule power) := by
  unfold exprRule climb
  infer_instance

end Operands

-- Statements

instance (place : Nat) : Paired (same all n) (g.postfixed place) (g'.postfixed place) :=
  paired_place (fun _ _ => inferInstance) place

instance (power place : Nat) : Paired (same all n) (g.climb power place) (g'.climb power place) :=
  paired_place (fun _ _ => inferInstance) place

instance (place : Nat) : Paired (same all n) (g.simpleRest place) (g'.simpleRest place) :=
  paired_place (fun _ _ => inferInstance) place

instance (place : Nat) : Paired (same all n) (repeatWhile g.fuel (selectorStep place))
    (repeatWhile g'.fuel (selectorStep place)) :=
  @paired_place all n Unit (fun first => repeatWhile g.fuel (selectorStep first))
    (fun first => repeatWhile g'.fuel (selectorStep first)) (fun _ _ => inferInstance) place

instance (place : Nat) (kind : TokenKind) :
    Enters all n kind (g.commandHead place) (g'.commandHead place) := by
  rw [commandHead_eq, commandHead_eq]
  infer_instance

instance (kind : TokenKind) : Enters all n kind g.commandOrExpr g'.commandOrExpr := by
  unfold commandOrExpr
  infer_instance

instance (acrossLines : Bool) :
    Paired (same all (n + 1)) (g.moreExprStep acrossLines) (g'.moreExprStep acrossLines) := by
  unfold moreExprStep
  infer_instance

instance (acrossLines : Bool) (s₀ s₀' : Cursor) :
    Turning (same all (n + 1)) s₀ s₀' (g.moreExprStep acrossLines) (g'.moreExprStep acrossLines) := by
  unfold moreExprStep
  infer_instance

section Statements

variable [Fuels (same all (n + 1)) g.fuel g'.fuel] [Paired (same all (n + 1)) g.expr g'.expr]

instance (acrossLines : Bool) :
    Paired (same all (n + 1)) (g.moreExprs acrossLines) (g'.moreExprs acrossLines) := by
  rw [moreExprs_eq, moreExprs_eq]
  infer_instance

instance : Paired (same all (n + 1)) g.exprList g'.exprList := by
  unfold exprList
  infer_instance

instance (place : Nat) : Paired (same all (n + 1)) (g.simpleRest place) (g'.simpleRest place) := by
  unfold simpleRest
  infer_instance


instance (commandAllowed : Bool) :
    Paired (same all (n + 1)) (g.simpleStmt commandAllowed) (g'.simpleStmt commandAllowed) := by
  unfold simpleStmt
  infer_instance

instance (decl spec : NodeKind) (kind : TokenKind) :
    Enters all n kind (g.specGroup decl spec) (g'.specGroup decl spec) := by
  unfold specGroup
  infer_instance

instance (kind : TokenKind) : Enters all n kind g.returnStmt g'.returnStmt := by
  unfold returnStmt
  infer_instance

instance (kind : TokenKind) : Enters all n kind g.forStmt g'.forStmt := by
  unfold forStmt
  infer_instance

instance (kind : TokenKind) : Enters all n kind g.switchStmt g'.switchStmt := by
  unfold switchStmt
  infer_instance

instance (kind : TokenKind) : Enters all n kind g.selectStmt g'.selectStmt := by
  unfold selectStmt
  infer_instance

theorem paired_statementRule (hif : ∀ kind, At all n kind (g.run .ifStmt) (g'.run .ifStmt)) :
    Paired (same all (n + 1)) g.statementRule g'.statementRule := by
  unfold statementRule
  refine .kind_bind inferInstance fun kind => ?_
  split <;> try infer_instance
  case h_10 hblock =>
    cases hblock
    infer_instance

end Statements

theorem agree_ifRule {s : Cursor} (hwithin : Within all (n + 1) s) (hrest : s.rest ≠ []) :
    Agree g.ifRule g'.ifRule s := by
  unfold ifRule
  refine .node (.bind ⟨rfl, bump_suffix _⟩ fun _ => ?_)
  have hflush := flush_suffix s
  have hbumped : (s.flush.start .ifStmt).bump.rest.length < s.rest.length := by
    have hpos := List.length_pos_iff.mpr hrest
    have hle := hflush.length_le
    rw [rest_bump, List.length_tail, show (s.flush.start .ifStmt).solids = s.flush.solids from rfl,
      solids_flush, ← rest_flush]
    omega
  have hsuffix := (bump_suffix (s.flush.start .ifStmt)).trans hflush
  exact paired_same.mp (inferInstance : Paired (same all n) _ _) _ (hwithin.of_shorter hsuffix hbumped)

-- At the end of the text

section Ended

variable {s : Cursor}

theorem current?_of_nil (h : s.rest = []) : s.current? = none := by
  simp [Cursor.current?, Cursor.solids, h]

theorem kind?_of_nil (h : s.rest = []) : s.kind? = none := Option.map_eq_none_iff.mpr (current?_of_nil h)

theorem run_separators_of_nil (h : s.rest = []) : g.separators.run s = ((), s) :=
  run_eatWhile_of_not (by rw [kind?_of_nil h, Option.any_none]) g.fuel

theorem run_statementList_of_nil (h : s.rest = []) (stops : List TokenKind) :
    (g.statementList stops).run s = ((), s) := by
  refine run_repeatWhile_of_false ?_ g.fuel
  rw [run_bind, g.run_separators_of_nil h, run_isAtEnd_bind, run_isAtAny_bind, current?_of_nil h]
  rfl

theorem run_initStmt_of_nil (h : s.rest = []) : g.initStmt.run s = ((), s) := by
  unfold initStmt headHas
  rw [run_bind]
  change (if (headTokens 0 s.rest).contains (.semicolon, true) = true then _ else _ : Action Unit).run s = _
  rw [h]
  rfl

instance : PairedRules (same all 0) g g' where
  fuels := ⟨.inr fun _ _ h => absurd h.2.2 (Nat.not_lt_zero _)⟩
  run _ := paired_same.mpr fun _ h => absurd h.2 (Nat.not_lt_zero _)

instance (stops : List TokenKind) :
    Paired (same all (0 + 1)) (g.statementList stops) (g'.statementList stops) := by
  refine paired_same.mpr fun s h => ?_
  rw [Agree, g.run_statementList_of_nil h.rest_eq_nil, g'.run_statementList_of_nil h.rest_eq_nil]
  exact ⟨rfl, List.suffix_rfl⟩

instance : Paired (same all (0 + 1)) g.initStmt g'.initStmt := by
  refine paired_same.mpr fun s h => ?_
  rw [Agree, g.run_initStmt_of_nil h.rest_eq_nil, g'.run_initStmt_of_nil h.rest_eq_nil]
  exact ⟨rfl, List.suffix_rfl⟩

instance : Paired (same all (0 + 1)) g.block g'.block := by
  unfold block
  infer_instance

instance [Paired (same all (0 + 1)) g.expr g'.expr] : Paired (same all (0 + 1)) g.ifRule g'.ifRule := by
  unfold ifRule
  infer_instance

end Ended

end Rules

end SpriteScript.Syntax
