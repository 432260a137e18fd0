import SpriteScript.Proofs.Acceptance.Operators
import SpriteScript.Proofs.Constants.Arithmetic

-- The values of expressions of integers are exact; only shifts to the left lose what does not fit.
namespace SpriteScript

namespace Tree

variable {t : Tree}

theorem height_le_of_mem {c : Tree} {cs : List Tree} (h : c ∈ cs) :
    c.height ≤ Tree.height.heightOfAll cs := by
  induction cs with
  | nil => cases h
  | cons d ds ih =>
      unfold Tree.height.heightOfAll
      rcases List.mem_cons.mp h with rfl | hmem
      · exact Nat.le_max_left ..
      · exact Nat.le_trans (ih hmem) (Nat.le_max_right ..)

theorem height_lt_of_mem_children {c : Tree} (h : c ∈ t.children) : c.height < t.height := by
  cases t with
  | token => cases h
  | node kind offset children => exact Nat.lt_succ_of_le (height_le_of_mem h)

theorem height_lt_of_expr? {u : Tree} (h : t.expr? = some u) : u.height < t.height :=
  height_lt_of_mem_children (List.mem_of_find?_eq_some h)

theorem height_lt_of_secondExpr? {u : Tree} (h : t.secondExpr? = some u) : u.height < t.height :=
  height_lt_of_mem_children (List.mem_of_mem_filter (List.mem_of_getElem? h))

theorem height_pos_of_kind? {kind : NodeKind} (h : t.kind? = some kind) : 0 < t.height := by
  cases t with
  | token => cases h
  | node => exact Nat.succ_pos _

end Tree

namespace Arithmetic

open Constant

-- Expressions of integers, apart from any place in a text.
inductive Expr where
  | literal (text : String)
  | paren (inner : Expr)
  | unary (op : UnaryOp) (operand : Expr)
  | binary (op : BinaryOp) (lhs rhs : Expr)
deriving DecidableEq, Repr

namespace Expr

-- The value over all integers.
def value? : Expr → Option Int
  | literal text => intLiteral? text
  | paren e => e.value?
  | unary op e => e.value?.map op.result
  | binary op l r => l.value?.bind fun a => r.value?.bind fun b => op.result? a b

-- The value that the checker knows.
def known? : Expr → Option Int
  | literal text => intLiteral? text
  | paren e => e.known?
  | unary op e => e.known?.bind op.known?
  | binary op l r => l.known?.bind fun a => r.known?.bind fun b => op.known? a b

-- The tree is the expression, as its parts are read.
inductive Reads : Tree → Expr → Prop
  | literal {t : Tree} {token : Token} (hkind : t.kind? = some .literal)
      (hliteral : t.literalKind? = some .int) (htoken : t.literalToken? = some token) :
      Reads t (.literal token.text)
  | paren {t u : Tree} {e : Expr} (hkind : t.kind? = some .parenExpr) (hinner : t.expr? = some u)
      (hu : Reads u e) :
      Reads t (.paren e)
  | unary {t u : Tree} {op : UnaryOp} {e : Expr} (hkind : t.kind? = some .unaryExpr)
      (hop : t.unaryOp? = some op.kind) (hoperand : t.expr? = some u) (hu : Reads u e) : Reads t (.unary op e)
  | binary {t u v : Tree} {op : BinaryOp} {l r : Expr} (hkind : t.kind? = some .binaryExpr)
      (hlhs : t.expr? = some u) (hop : t.binaryOp? = some op.kind) (hrhs : t.secondExpr? = some v)
      (hu : Reads u l) (hv : Reads v r) : Reads t (.binary op l r)

-- Somewhere in the expression, at the place, a constant is divided by the constant zero.
inductive DividesByZero : Tree → Expr → Text.ByteRange → Prop
  | here {t : Tree} {op : BinaryOp} {l r : Expr} {a : Int} (hop : op.divides = true) (hl : l.known? = some a)
      (hr : r.known? = some 0) : DividesByZero t (.binary op l r) t.range
  | paren {t u : Tree} {e : Expr} {range : Text.ByteRange} (hinner : t.expr? = some u)
      (h : DividesByZero u e range) : DividesByZero t (.paren e) range
  | unary {t u : Tree} {op : UnaryOp} {e : Expr} {range : Text.ByteRange} (hoperand : t.expr? = some u)
      (h : DividesByZero u e range) : DividesByZero t (.unary op e) range
  | lhs {t u : Tree} {op : BinaryOp} {l r : Expr} {range : Text.ByteRange} (hlhs : t.expr? = some u)
      (h : DividesByZero u l range) : DividesByZero t (.binary op l r) range
  | rhs {t v : Tree} {op : BinaryOp} {l r : Expr} {range : Text.ByteRange} (hrhs : t.secondExpr? = some v)
      (h : DividesByZero v r range) : DividesByZero t (.binary op l r) range

theorem fits_of_intLiteral? {text : String} {n : Int} (h : intLiteral? text = some n) : Fits n := by
  unfold intLiteral? at h
  dsimp only at h
  split at h
  · split at h
    case isTrue hle =>
      obtain rfl := Option.some.inj h
      exact ⟨Int.le_trans (by decide) (Int.natCast_nonneg _), hle⟩
    case isFalse => cases h
  · cases h

-- What is known is exact.
theorem value?_of_known? {e : Expr} {n : Int} (h : e.known? = some n) : e.value? = some n ∧ Fits n := by
  induction e generalizing n with
  | literal text => exact ⟨h, fits_of_intLiteral? h⟩
  | paren e ih => exact ih h
  | unary op e ih =>
      obtain ⟨a, ha, hop⟩ := Option.bind_eq_some_iff.mp h
      obtain ⟨rfl, hfits⟩ := fit?_eq_some_iff.mp hop
      exact ⟨by rw [value?, (ih ha).1, Option.map_some], hfits⟩
  | binary op l r ihl ihr =>
      obtain ⟨a, ha, hrest⟩ := Option.bind_eq_some_iff.mp h
      obtain ⟨b, hb, hop⟩ := Option.bind_eq_some_iff.mp hrest
      obtain ⟨hresult, hfits⟩ := BinaryOp.exact_of_known? hop
      exact ⟨by rw [value?, (ihl ha).1, (ihr hb).1, Option.bind_some, Option.bind_some, hresult], hfits⟩

-- An expression in which something is divided by zero has no value.
theorem DividesByZero.value?_eq_none {t : Tree} {e : Expr} {range : Text.ByteRange}
    (h : DividesByZero t e range) : e.value? = none := by
  induction h with
  | here hop hl hr =>
      rw [value?, (value?_of_known? hl).1, (value?_of_known? hr).1, Option.bind_some, Option.bind_some,
        BinaryOp.result?_zero hop]
  | paren _ _ ih => exact ih
  | unary _ _ ih => rw [value?, ih, Option.map_none]
  | lhs _ _ ih => rw [value?, ih, Option.bind_none]
  | rhs _ _ ih =>
      rw [value?, ih]
      exact Option.bind_eq_none_iff.mpr fun _ _ => rfl

end Expr

end Arithmetic

namespace Check

open Arithmetic (UnaryOp BinaryOp)
open Arithmetic.Expr (Reads DividesByZero value?_of_known?)
open Constant

variable {r : Rules} {t : Tree} {s s' : State} {ty : Ty} {o : Operand}

section Operands

variable {op : BinaryOp} {a b : Int} {a? b? : Option Int} {range : Text.ByteRange}

-- An integer without a type of its own, with its value as far as that is known.
def integer (n? : Option Int) : Operand := ⟨.value, .basic .untypedInt, n?.map int, none⟩

theorem run_checkLiteral {token : Token} (hliteral : t.literalKind? = some .int)
    (htoken : t.literalToken? = some token) (s : State) : ∃ problems,
    (checkLiteral t).run s = (integer (intLiteral? token.text), { s with problems }) := by
  unfold checkLiteral
  rw [hliteral, htoken]
  dsimp only
  cases intLiteral? token.text <;> exact ⟨_, rfl⟩

-- What is done with the operand of a unary operator.
def applyUnary (t operand : Tree) (op : TokenKind) (o : Operand) : CheckM Operand := do
  if o.isInvalid then
    return .invalid
  if op == .arrow then
    checkReceive t operand o
  else if unaryAllowed op (← basicOf? o.ty) then
    match o.value.bind (foldUnary? op) with
    | some value => return .constant o.ty value
    | none => return .ofType o.ty
  else
    noOperator t.range op operand o

theorem checkUnary_eq {operand : Tree} {op : TokenKind} (hop : t.unaryOp? = some op)
    (hoperand : t.expr? = some operand) :
    checkUnary r t = r.expr operand none >>= applyUnary t operand op := by
  unfold checkUnary
  rw [hop, hoperand]
  rfl

instance {operand : Tree} {op : TokenKind} : Gathers (applyUnary t operand op o) := by
  unfold applyUnary
  split
  · infer_instance
  · split
    · infer_instance
    · refine .bind inferInstance fun kind? => ?_
      split
      · split <;> infer_instance
      · infer_instance

theorem run_applyUnary {operand : Tree} {op : UnaryOp} (hfits : ∀ a, a? = some a → Fits a) (s : State) :
    (applyUnary t operand op.kind (integer a?)).run s = (integer (a?.bind op.known?), s) := by
  have hallowed : unaryAllowed op.kind (some .untypedInt) = true := by cases op <;> rfl
  have harrow : (op.kind == .arrow) = false := by cases op <;> rfl
  have hvalue : (integer a?).value.bind (foldUnary? op.kind) = (a?.bind op.known?).map int := by
    cases a? with
    | none => rfl
    | some a => exact UnaryOp.foldUnary?_eq (hfits a rfl)
  have hvalid : (integer a?).isInvalid = false := rfl
  have hkind : s.model.basicOf? (integer a?).ty = some .untypedInt := rfl
  unfold applyUnary
  rw [hvalid, if_neg Bool.false_ne_true, harrow, if_neg Bool.false_ne_true, run_ask_bind, hkind,
    if_pos hallowed, hvalue]
  cases a?.bind op.known? <;> rfl

-- Both operands of an operator keep their type.
theorem run_combine {lhs rhs : Tree} (op : BinaryOp) (a? b? : Option Int) (s : State) :
    (combine t lhs rhs op.kind (integer a?) (integer b?)).run s =
      (folded t.range op.kind (integer a?) (integer b?) (.basic .untypedInt)).run s := by
  cases op <;> rfl

theorem run_folded_unknown (h : a? = none ∨ b? = none) {op : TokenKind} (s : State) :
    (folded range op (integer a?) (integer b?) (.basic .untypedInt)).run s = (integer none, s) := by
  rcases h with rfl | rfl
  · rfl
  · cases a? <;> rfl

-- The operand that becomes of a folded constant.
def ofFolded (range : Text.ByteRange) (ty : Ty) : Folded → CheckM Operand
  | .value value => do
      match ← basicOf? ty with
      | some kind => return .constant ty (if kind.isUntyped then value else (value.convert? kind).getD value)
      | none => return .constant ty value
  | .unknown => return .ofType ty
  | .divisionByZero => do
      problem range .divisionByZero
      return .invalid

theorem run_folded_ints {left right : Operand} {op : TokenKind} (ha : left.value = some (int a))
    (hb : right.value = some (int b)) (hleft : (s.model.basicOf? left.ty).any BasicKind.isInteger = true)
    (hright : (s.model.basicOf? right.ty).any BasicKind.isInteger = true) :
    (folded range op left right ty).run s = (ofFolded range ty (foldInts op a b)).run s := by
  have hfold : foldBinary op (int a) (int b) true = foldInts op a b := rfl
  unfold folded
  rw [ha, hb]
  dsimp only
  rw [run_ask_bind, run_ask_bind, hleft, hright, Bool.and_self, hfold]
  cases foldInts op a b <;> rfl

theorem run_folded_known (ha : Fits a) (hb : Fits b) (h : (op.divides && b = 0) = false) (s : State) :
    (folded range op.kind (integer (some a)) (integer (some b)) (.basic .untypedInt)).run s =
      (integer (op.known? a b), s) := by
  rw [run_folded_ints rfl rfl rfl rfl, BinaryOp.foldInts_eq ha hb, h, if_neg Bool.false_ne_true]
  cases op.known? a b <;> rfl

theorem run_folded_zero (ha : Fits a) (hop : op.divides = true) (s : State) :
    (folded range op.kind (integer (some a)) (integer (some 0)) (.basic .untypedInt)).run s =
      (.invalid, { s with problems := (s.context.file, range, .divisionByZero) :: s.problems }) := by
  rw [run_folded_ints rfl rfl rfl rfl, BinaryOp.foldInts_eq ha (by decide), hop]
  rfl

end Operands

section Trees

variable {e : Arithmetic.Expr} {deep deep' : Prop}

-- What becomes of an expression: an integer with the value that is known, or nothing valid. Where the
-- rules lead deep enough, nothing was known then.
def Outcome (e : Arithmetic.Expr) (deep : Prop) (o : Operand) : Prop :=
  o = integer e.known? ∨ o = .invalid ∧ (deep → e.known? = none)

theorem Outcome.eq_integer (h : Outcome e deep o) (hdeep : deep) {n : Int} (hknown : e.known? = some n) :
    o = integer (some n) := by
  rcases h with rfl | ⟨-, hnone⟩
  · rw [hknown]
  · rw [hnone hdeep] at hknown
    cases hknown

theorem Outcome.mono (h : Outcome e deep o) (hdeep : deep' → deep) : Outcome e deep' o :=
  h.imp_right fun ⟨hinvalid, hnone⟩ => ⟨hinvalid, fun hd => hnone (hdeep hd)⟩

theorem fits_of_known? {n : Int} (h : e.known? = some n) : Fits n := (value?_of_known? h).2

-- Each operator makes an outcome of the outcomes of its operands.
theorem run_applyUnary_outcome {operand : Tree} (op : UnaryOp) (ho : Outcome e deep o) (s : State) :
    ∃ o', (applyUnary t operand op.kind o).run s = (o', s) ∧ Outcome (.unary op e) deep o' := by
  rcases ho with rfl | ⟨rfl, hnone⟩
  · exact ⟨_, run_applyUnary (fun a => fits_of_known?) s, .inl rfl⟩
  · refine ⟨.invalid, rfl, .inr ⟨rfl, fun hdeep => ?_⟩⟩
    rw [Arithmetic.Expr.known?, hnone hdeep]
    rfl

theorem run_combine_integers {lhs rhs : Tree} (op : BinaryOp) (l e : Arithmetic.Expr) (s : State) :
    ∃ o problems, (combine t lhs rhs op.kind (integer l.known?) (integer e.known?)).run s =
      (o, { s with problems }) ∧ Outcome (.binary op l e) deep o := by
  simp only [run_combine, Outcome, Arithmetic.Expr.known?]
  cases hl : l.known? with
  | none => exact ⟨_, _, run_folded_unknown (.inl rfl) s, .inl rfl⟩
  | some a =>
      cases he : e.known? with
      | none => exact ⟨_, _, run_folded_unknown (.inr rfl) s, .inl rfl⟩
      | some b =>
          cases hzero : op.divides && b = 0 with
          | false => exact ⟨_, _, run_folded_known (fits_of_known? hl) (fits_of_known? he) hzero s, .inl rfl⟩
          | true =>
              obtain ⟨hop, hb⟩ := Bool.and_eq_true_iff.mp hzero
              obtain rfl := of_decide_eq_true hb
              exact ⟨_, _, run_folded_zero (fits_of_known? hl) hop s,
                .inr ⟨rfl, fun _ => BinaryOp.known?_zero hop⟩⟩

theorem run_combine_outcome {lhs rhs : Tree} {left right : Operand} {l e : Arithmetic.Expr} (op : BinaryOp)
    (hl : Outcome l deep left) (hr : Outcome e deep right) (s : State) :
    ∃ o problems, (combine t lhs rhs op.kind left right).run s = (o, { s with problems }) ∧
      Outcome (.binary op l e) deep o := by
  rcases hl with rfl | ⟨rfl, hnone⟩
  · rcases hr with rfl | ⟨rfl, hnone⟩
    · exact run_combine_integers op l e s
    · refine ⟨.invalid, s.problems, rfl, .inr ⟨rfl, fun hdeep => ?_⟩⟩
      rw [Arithmetic.Expr.known?, hnone hdeep]
      cases l.known? <;> rfl
  · refine ⟨.invalid, s.problems, rfl, .inr ⟨rfl, fun hdeep => ?_⟩⟩
    rw [Arithmetic.Expr.known?, hnone hdeep]
    rfl

theorem height_pos (h : Reads t e) : 0 < t.height := by
  cases h <;> exact Tree.height_pos_of_kind? ‹_›

theorem run_expr (h : Reads t e) (fuel : Nat) (expected? : Option Ty) (s : State) :
    ∃ o info problems, ((rules fuel).expr t expected?).run s = (o, { s with info, problems }) ∧
      Outcome e (t.height ≤ fuel) o := by
  induction fuel generalizing t e expected? s with
  | zero =>
      exact ⟨.invalid, s.info, s.problems, rfl,
        .inr ⟨rfl, fun hle => absurd (height_pos h) (Nat.not_lt.mpr hle)⟩⟩
  | succ fuel ih =>
      -- the rules for one node give the outcome, and what is recorded of it does not matter
      have hnode {action : CheckM Operand} {o : Operand} {info problems}
          (hstep : exprStep (rules fuel) t expected? = action >>= recordOperand t expected?)
          (hrun : action.run s = (o, { s with info, problems })) (ho : Outcome e (t.height ≤ fuel + 1) o) :
          ∃ o info problems, ((rules (fuel + 1)).expr t expected?).run s = (o, { s with info, problems }) ∧
            Outcome e (t.height ≤ fuel + 1) o := by
        obtain ⟨info', hrun'⟩ := run_exprStep hstep hrun
        exact ⟨o, info', problems, hrun', ho⟩
      have hchild {u : Tree} {e : Arithmetic.Expr} (hu : Reads u e) (hheight : u.height < t.height)
          (expected? : Option Ty) (s : State) :
          ∃ o info problems, ((rules fuel).expr u expected?).run s = (o, { s with info, problems }) ∧
            Outcome e (t.height ≤ fuel + 1) o := by
        obtain ⟨o, info, problems, hrun, ho⟩ := ih hu expected? s
        exact ⟨o, info, problems, hrun, ho.mono fun hle => by omega⟩
      cases h with
      | literal hkind hliteral htoken =>
          obtain ⟨problems, hrun⟩ := run_checkLiteral hliteral htoken s
          exact hnode (exprStep_literal hkind expected?) hrun (.inl rfl)
      | paren hkind hinner hu =>
          obtain ⟨o, info, problems, hrun, ho⟩ := hchild hu (Tree.height_lt_of_expr? hinner) expected? s
          exact hnode (exprStep_paren hkind hinner expected?) hrun ho
      | unary hkind hop hoperand hu =>
          obtain ⟨o, info, problems, hrun, ho⟩ := hchild hu (Tree.height_lt_of_expr? hoperand) none s
          obtain ⟨o', hrun', ho'⟩ := run_applyUnary_outcome _ ho _
          have hunary : (checkUnary (rules fuel) t).run s = (o', { s with info, problems }) := by
            rw [checkUnary_eq hop hoperand, run_bind_of hrun, hrun']
          exact hnode (exprStep_unary hkind expected?) hunary ho'
      | binary hkind hlhs hop hrhs hu hv =>
          obtain ⟨left, info, problems, hleft, hl⟩ := hchild hu (Tree.height_lt_of_expr? hlhs) none s
          obtain ⟨right, info', problems', hright, hr⟩ :=
            hchild hv (Tree.height_lt_of_secondExpr? hrhs) none _
          obtain ⟨o, problems'', hrun, ho⟩ := run_combine_outcome _ hl hr _
          have hbinary :
              (checkBinary (rules fuel) t).run s = (o, { s with info := info', problems := problems'' }) := by
            rw [checkBinary_eq hlhs hrhs hop, run_bind_of hleft, run_bind_of hright, hrun]
          exact hnode (exprStep_binary hkind expected?) hbinary ho

-- What a part has reported is still there after the rest.
theorem mem_problems_of_bind {α β : Type} {a : CheckM α} {f : α → CheckM β} [h : ∀ x, Gathers (f x)]
    {p : FileId × Text.ByteRange × Problem} (hp : p ∈ (a.run s).2.problems) :
    p ∈ ((a >>= f).run s).2.problems :=
  ((h _).run _).subset hp

-- Where the rules reach a tree, it is checked as its kind asks for.
theorem mem_problems_of_step {fuel : Nat} {expected? : Option Ty} {p : FileId × Text.ByteRange × Problem}
    (h : Reads t e) (hfuel : t.height ≤ fuel)
    (hstep : ∀ n, t.height ≤ n + 1 → p ∈ ((exprStep (rules n) t expected?).run s).2.problems) :
    p ∈ (((rules fuel).expr t expected?).run s).2.problems := by
  cases fuel with
  | zero => exact absurd (height_pos h) (Nat.not_lt.mpr hfuel)
  | succ n => exact hstep n hfuel

theorem reported_here {op : BinaryOp} {l e : Arithmetic.Expr} {a : Int} {n : Nat}
    (h : Reads t (.binary op l e)) (hn : t.height ≤ n + 1) (hop : op.divides = true)
    (hl : l.known? = some a) (he : e.known? = some 0) (expected? : Option Ty) (s : State) :
    (s.context.file, t.range, .divisionByZero) ∈ ((exprStep (rules n) t expected?).run s).2.problems := by
  cases h with
  | binary hkind hlhs hbinary hrhs hu hv =>
      have hheight := Tree.height_lt_of_expr? hlhs
      have hheight' := Tree.height_lt_of_secondExpr? hrhs
      obtain ⟨left, info, problems, hleft, hleft'⟩ := run_expr hu n none s
      obtain ⟨right, info', problems', hright, hright'⟩ := run_expr hv n none { s with info, problems }
      obtain rfl := hleft'.eq_integer (by omega) hl
      obtain rfl := hright'.eq_integer (by omega) he
      rw [exprStep_binary hkind]
      refine mem_problems_of_bind ?_
      rw [checkBinary_eq hlhs hrhs hbinary, run_bind_of hleft, run_bind_of hright, run_combine,
        run_folded_zero (fits_of_known? hl) hop]
      exact List.mem_cons_self

theorem divisionByZero_reported {range : Text.ByteRange} (h : Reads t e)
    (hzero : DividesByZero t e range) {fuel : Nat} (hfuel : t.height ≤ fuel) (expected? : Option Ty)
    (s : State) :
    (s.context.file, range, .divisionByZero) ∈ (((rules fuel).expr t expected?).run s).2.problems := by
  induction hzero generalizing fuel expected? s with
  | here hop hl hr => exact mem_problems_of_step h hfuel fun n hn => reported_here h hn hop hl hr expected? s
  | paren hinner _ ih =>
      refine mem_problems_of_step h hfuel fun n hn => ?_
      cases h with
      | paren hkind hinner' hu =>
          obtain rfl := Option.some.inj (hinner.symm.trans hinner')
          have hheight := Tree.height_lt_of_expr? hinner
          rw [exprStep_paren hkind hinner]
          exact mem_problems_of_bind (ih hu (by omega) expected? s)
  | unary hoperand _ ih =>
      refine mem_problems_of_step h hfuel fun n hn => ?_
      cases h with
      | unary hkind hop hoperand' hu =>
          obtain rfl := Option.some.inj (hoperand.symm.trans hoperand')
          have hheight := Tree.height_lt_of_expr? hoperand
          rw [exprStep_unary hkind, checkUnary_eq hop hoperand]
          exact mem_problems_of_bind (mem_problems_of_bind (ih hu (by omega) none s))
  | lhs hlhs _ ih =>
      refine mem_problems_of_step h hfuel fun n hn => ?_
      cases h with
      | binary hkind hlhs' hop hrhs hu _ =>
          obtain rfl := Option.some.inj (hlhs.symm.trans hlhs')
          have hheight := Tree.height_lt_of_expr? hlhs
          rw [exprStep_binary hkind, checkBinary_eq hlhs hrhs hop]
          exact mem_problems_of_bind (mem_problems_of_bind (ih hu (by omega) none s))
  | rhs hrhs _ ih =>
      refine mem_problems_of_step h hfuel fun n hn => ?_
      cases h with
      | binary hkind hlhs hop hrhs' hu hv =>
          obtain rfl := Option.some.inj (hrhs.symm.trans hrhs')
          have hheight := Tree.height_lt_of_secondExpr? hrhs
          obtain ⟨left, info, problems, hleft, -⟩ := run_expr hu n none s
          rw [exprStep_binary hkind, checkBinary_eq hlhs hrhs hop]
          refine mem_problems_of_bind ?_
          rw [run_bind_of hleft]
          exact mem_problems_of_bind (ih hv (by omega) none { s with info, problems })

-- The value of an expression of integers is its exact value, and what is known is found. Where the
-- rules lead deep enough, each constant that is divided by zero is reported, and nothing around it
-- has a value.
theorem arithmetic_exact (h : Reads t e) (fuel : Nat) (expected? : Option Ty) (s : State) :
    (∀ c, (((rules fuel).expr t expected?).run s).1.value = some c →
      ∃ n, c = .int n ∧ e.value? = some n ∧ -2 ^ 63 ≤ n ∧ n < 2 ^ 63) ∧
    (t.height ≤ fuel → ∀ n, e.known? = some n →
      (((rules fuel).expr t expected?).run s).1.value = some (.int n)) ∧
    (t.height ≤ fuel → ∀ range, DividesByZero t e range →
      (((rules fuel).expr t expected?).run s).1.value = none ∧
      (s.context.file, range, .divisionByZero) ∈ (((rules fuel).expr t expected?).run s).2.problems) := by
  obtain ⟨o, info, problems, hrun, ho⟩ := run_expr h fuel expected? s
  have hexact (c : Constant) (hc : o.value = some c) : ∃ n, c = .int n ∧ e.value? = some n ∧ Fits n := by
    rcases ho with rfl | ⟨rfl, -⟩
    · obtain ⟨n, hn, rfl⟩ := Option.map_eq_some_iff.mp hc
      exact ⟨n, rfl, value?_of_known? hn⟩
    · cases hc
  refine ⟨fun c hc => ?_, fun hfuel n hn => ?_, fun hfuel range hzero => ⟨?_, ?_⟩⟩
  · rw [hrun] at hc
    obtain ⟨n, hint, hvalue, hfits⟩ := hexact c hc
    exact ⟨n, hint, hvalue, fits_iff.mp hfits⟩
  · rw [hrun, ho.eq_integer hfuel hn]
    rfl
  · rw [hrun]
    by_contra hsome
    obtain ⟨c, hc⟩ := Option.ne_none_iff_exists'.mp hsome
    obtain ⟨n, -, hvalue, -⟩ := hexact c hc
    rw [hzero.value?_eq_none] at hvalue
    cases hvalue
  · exact divisionByZero_reported h hzero hfuel expected? s

-- The trees of `-7 >> 1` and `7 % 0`.
def shifted : Tree :=
  .node .binaryExpr 0 [.node .unaryExpr 0 [.token ⟨.minus, "-", 0⟩, .node .literal 1 [.token ⟨.int, "7", 1⟩]],
    .token ⟨.shr, ">>", 3⟩, .node .literal 6 [.token ⟨.int, "1", 6⟩]]

def divided : Tree :=
  .node .binaryExpr 0 [.node .literal 0 [.token ⟨.int, "7", 0⟩], .token ⟨.percent, "%", 2⟩,
    .node .literal 4 [.token ⟨.int, "0", 4⟩]]

theorem reads_literal {text : String} {start offset : Nat} :
    Reads (.node .literal start [.token ⟨.int, text, offset⟩]) (.literal text) :=
  @Reads.literal _ ⟨.int, text, offset⟩ rfl rfl rfl

theorem reads_shifted : Reads shifted (.binary .shiftRight (.unary .minus (.literal "7")) (.literal "1")) :=
  .binary rfl rfl rfl rfl (.unary rfl rfl rfl reads_literal) reads_literal

theorem reads_divided : Reads divided (.binary .remainder (.literal "7") (.literal "0")) :=
  .binary rfl rfl rfl rfl reads_literal reads_literal

theorem arithmetic_exact_shifted : (((rules 3).expr shifted none).run {}).1.value = some (.int (-4)) ∧
    (({} : State).context.file, divided.range, .divisionByZero) ∈
      (((rules 2).expr divided none).run {}).2.problems := by
  have hzero : DividesByZero divided (.binary .remainder (.literal "7") (.literal "0")) divided.range :=
    .here rfl rfl rfl
  exact ⟨(arithmetic_exact reads_shifted 3 none {}).2.1 (by decide) (-4) rfl,
    ((arithmetic_exact reads_divided 2 none {}).2.2 (by decide) divided.range hzero).2⟩

end Trees

section Shifts

variable {range : Text.ByteRange} {left right : Operand} {a b : Int}

theorem convert?_int {kind : BasicKind} (h : kind.isInteger = true) (a : Int) :
    convert? (int a) kind = some (int a) := by
  cases kind <;> first | rfl | cases h

theorem run_folded_shiftLeft (ha : left.value = some (.int a)) (hb : right.value = some (.int b))
    (hleft : (s.model.basicOf? left.ty).any BasicKind.isInteger = true)
    (hright : (s.model.basicOf? right.ty).any BasicKind.isInteger = true) :
    (folded range .shl left right left.ty).run s =
    (⟨.value, left.ty, (shiftedLeft? a b).map int, none⟩, s) := by
  obtain ⟨kind, hkind, hinteger⟩ := (Option.any_eq_true _ _).mp hleft
  rw [run_folded_ints ha hb hleft hright, foldInts_shiftLeft]
  cases shiftedLeft? a b with
  | none => rfl
  | some n =>
      rw [Option.map_some, Folded.ofOption, ofFolded, run_ask_bind, hkind]
      dsimp only
      rw [convert?_int hinteger, Option.getD_some, ite_self]
      rfl

-- A constant that is shifted to the left loses what does not fit, and nothing is reported.
theorem checkBinary_shiftLeft {lhs rhs : Tree} {mid after : State} (hlhs : t.expr? = some lhs)
    (hrhs : t.secondExpr? = some rhs) (hop : t.binaryOp? = some .shl)
    (hleft : (r.expr lhs none).run s = (left, mid))
    (hright : (r.expr rhs none).run mid = (right, after)) (hvalid : left.isInvalid = false)
    (hvalid' : right.isInvalid = false) (ha : left.value = some (.int a)) (hb : right.value = some (.int b))
    (hinteger : (after.model.basicOf? left.ty).any BasicKind.isInteger = true)
    (hinteger' : (after.model.basicOf? right.ty).any BasicKind.isInteger = true) :
    (checkBinary r t).run s = (⟨.value, left.ty, (shiftedLeft? a b).map int, none⟩, after) := by
  have hshift : (TokenKind.shl == .shl || TokenKind.shl == .shr) = true := rfl
  rw [checkBinary_eq hlhs hrhs hop, run_bind_of hleft, run_bind_of hright, combine, hvalid, hvalid',
    Bool.or_false, if_neg Bool.false_ne_true, if_pos hshift, checkShift, run_ask_bind, run_ask_bind,
    hinteger, hinteger']
  exact run_folded_shiftLeft ha hb hinteger hinteger'

end Shifts

end Check

end SpriteScript
