import SpriteScript.Proofs.Acceptance.Values

-- What a binary operator is applied to where nothing is reported.
namespace SpriteScript

open Check (binaryAllowed)

-- Whether the operator is defined for values of the kind.
def operatorAllowed (op : TokenKind) (kind? : Option BasicKind) : Bool :=
  if op == .shl || op == .shr then kind?.any BasicKind.isInteger else binaryAllowed op kind?

namespace Model

-- Both types are numbers, both texts or both booleans, or one may be assigned to the other.
def Together (m : Model) (a b : Ty) : Prop :=
  (∃ k k', m.basicOf? a = some k ∧ m.basicOf? b = some k' ∧ k.Alike k') ∨
    m.assignable a b = true ∨ m.assignable b a = true

-- The operator may be applied to values of the two types. It may be applied to anything that is in
-- error already.
structure Accepts (m : Model) (op : TokenKind) (a b : Ty) : Prop where
  together : m.Together a b
  left : a.isInvalid = true ∨ operatorAllowed op (m.basicOf? a) = true
  right : b.isInvalid = true ∨ operatorAllowed op (m.basicOf? b) = true

-- The type that operands of the first two types have in common.
inductive Common (m : Model) : Ty → Ty → Ty → Prop
  | untyped {a b : BasicKind} (ha : a.isUntyped = true) (hb : b.isUntyped = true) :
      Common m (.basic a) (.basic b) (.basic (Constant.untypedResult a b))
  | left {a b : Ty} (ha : a.isUntyped = true) (hb : b.isUntyped = false) (h : m.assignable a b = true) :
      Common m a b b
  | right {a b : Ty} (ha : a.isUntyped = false) (hb : b.isUntyped = true) (h : m.assignable b a = true) :
      Common m a b a
  | typed {a b : Ty} (ha : a.isUntyped = false) (hb : b.isUntyped = false) (h : m.assignable a b = true)
      (h' : m.assignable b a = true) : Common m a b a

end Model

section Kinds

variable {op : TokenKind} {a b : BasicKind}

-- What may be done with values of every type may be done with those of the kind.
theorem binaryAllowed_of_none (h : binaryAllowed op none = true) (kind? : Option BasicKind) :
    binaryAllowed op kind? = true := by
  unfold binaryAllowed at h ⊢
  split at h <;> first | rfl | cases h

theorem binaryAllowed_of_fits (hfits : Model.untypedAssignable.fits a (some b) = true)
    (h : binaryAllowed op (some b) = true) : binaryAllowed op (some a) = true := by
  revert hfits h
  unfold binaryAllowed
  split <;> cases a <;> cases b <;> decide

theorem binaryAllowed_of_untypedResult (halike : a = b ∨ a.Alike b) (ha : a.isUntyped = true)
    (hb : b.isUntyped = true) (h : binaryAllowed op (some (Constant.untypedResult a b)) = true) :
    binaryAllowed op (some a) = true ∧ binaryAllowed op (some b) = true := by
  revert halike ha hb h
  unfold binaryAllowed
  split <;> cases a <;> cases b <;> decide

end Kinds

namespace Model

variable {m : Model} {op : TokenKind} {a b ty : Ty}

theorem alike_of_together {k k' : BasicKind} (h : m.Together (.basic k) (.basic k')) (hk : k.isUntyped = true)
    (hk' : k'.isUntyped = true) : k = k' ∨ k.Alike k' := by
  have hassignable {k k' : BasicKind} (hk : k.isUntyped = true)
      (h : m.assignable (.basic k) (.basic k') = true) :
      k = k' ∨ k.Alike k' := by
    by_cases heq : k = k'
    · exact .inl heq
    · rcases fits_of_assignable h hk rfl fun hty => heq (Ty.basic.inj hty).symm with hnone | hfits
      · cases hnone
      · exact .inr (BasicKind.alike_of_fits hfits)
  rcases h with ⟨_, _, hk, hk', halike⟩ | h | h
  · cases hk
    cases hk'
    exact .inr halike
  · exact hassignable hk h
  · exact (hassignable hk' h).imp Eq.symm BasicKind.Alike.symm

-- Where one operand has a type, they go together.
theorem Common.together (h : m.Common a b ty) (htyped : a.isUntyped = false ∨ b.isUntyped = false) :
    m.Together a b := by
  cases h with
  | untyped ha hb => exact absurd htyped (by simp [Ty.isUntyped, Ty.basic?, ha, hb])
  | left _ _ h => exact .inr (.inl h)
  | right _ _ h => exact .inr (.inr h)
  | typed _ _ h => exact .inr (.inl h)

-- A value with a type of its own decides what they have in common.
theorem Common.eq_left (h : m.Common a b ty) (ha : a.isUntyped = false) :
    m.assignable b a = true ∧ ty = a := by
  cases h with
  | untyped huntyped => cases ha.symm.trans huntyped
  | left huntyped => cases ha.symm.trans huntyped
  | right _ _ h => exact ⟨h, rfl⟩
  | typed _ _ _ h => exact ⟨h, rfl⟩

-- An operator that is defined for what is in error is defined for everything.
theorem allowed_of_isInvalid (hinvalid : ty.isInvalid = true) (h : binaryAllowed op (m.basicOf? ty) = true)
    (kind? : Option BasicKind) : binaryAllowed op kind? = true := by
  rw [basicOf?_of_isInvalid hinvalid] at h
  exact binaryAllowed_of_none h kind?

-- A constant may be used with an operator that is defined for the type that it gets.
theorem allowed_of_assignable (h : m.assignable a b = true) (ha : a.isUntyped = true)
    (hb : b.isUntyped = false) (hallowed : binaryAllowed op (m.basicOf? b) = true) :
    binaryAllowed op (m.basicOf? a) = true := by
  cases a with
  | basic kind =>
      cases hvalid : b.isInvalid with
      | true => exact allowed_of_isInvalid hvalid hallowed _
      | false =>
          have hne : b ≠ .basic kind := fun hty => Bool.false_ne_true (hb.symm.trans (hty ▸ ha))
          rcases fits_of_assignable h ha hvalid hne with hnone | hfits
          · rw [hnone] at hallowed
            exact binaryAllowed_of_none hallowed _
          · cases hkind : m.basicOf? b with
            | none =>
                rw [hkind] at hfits
                cases hfits
            | some kind' =>
                rw [hkind] at hfits hallowed
                exact binaryAllowed_of_fits hfits hallowed
  | _ => cases ha

-- An operator that is defined for the common type is defined for both.
theorem Common.accepts (h : m.Common a b ty) (htogether : m.Together a b)
    (hshift : (op == .shl || op == .shr) = false) (hallowed : binaryAllowed op (m.basicOf? ty) = true) :
    m.Accepts op a b := by
  have hop (kind? : Option BasicKind) : operatorAllowed op kind? = binaryAllowed op kind? := by
    rw [operatorAllowed, hshift, if_neg Bool.false_ne_true]
  refine ⟨htogether, ?_, ?_⟩ <;> rw [hop]
  · cases h with
    | untyped ha hb =>
        exact .inr (binaryAllowed_of_untypedResult (alike_of_together htogether ha hb) ha hb hallowed).1
    | left ha hb h => exact .inr (allowed_of_assignable h ha hb hallowed)
    | right | typed => exact .inr hallowed
  · cases h with
    | untyped ha hb =>
        exact .inr (binaryAllowed_of_untypedResult (alike_of_together htogether ha hb) ha hb hallowed).2
    | left => exact .inr hallowed
    | right ha hb h => exact .inr (allowed_of_assignable h hb ha hallowed)
    | typed ha hb h h' =>
        cases hvalid' : b.isInvalid with
        | true => exact .inl rfl
        | false =>
            refine .inr ?_
            cases hvalid : a.isInvalid with
            | true => exact allowed_of_isInvalid hvalid hallowed _
            | false => rwa [← basicOf?_eq_of_assignable_both h h' ha hb hvalid hvalid']

end Model

namespace Check

variable {r : Rules} {t lhs rhs : Tree} {op : TokenKind} {s mid after : State} {left right : Operand}

theorem assignable_of_silent {side : Tree} {o other : Operand}
    (h : Silent (convertOperand t side o other) s) :
    s.model.assignable o.ty other.ty = true ∧
      ∃ o' info, (convertOperand t side o other).run s = (some o', { s with info }) := by
  unfold convertOperand at h ⊢
  rw [silent_ask_bind] at h
  rw [run_ask_bind]
  cases hassignable : s.model.assignable o.ty other.ty with
  | true =>
      obtain ⟨o', info, hrun⟩ := run_convertRecorded side o other.ty s
      refine ⟨rfl, o', info, ?_⟩
      rw [if_pos rfl, StateT.run_bind, hrun]
      rfl
  | false =>
      rw [hassignable, if_neg Bool.false_ne_true, silent_ask_bind, silent_ask_bind] at h
      exact absurd h not_silent_problem_bind

-- Operands that are matched silently have a type in common.
theorem common_of_silent (h : Silent (matchOperands t lhs rhs left right) s) : ∃ left' right' ty info,
    (matchOperands t lhs rhs left right).run s = (some (left', right', ty), { s with info }) ∧
      s.model.Common left.ty right.ty ty := by
  unfold matchOperands at h ⊢
  cases hleft : left.ty.isUntyped <;> cases hright : right.ty.isUntyped <;> rw [hleft, hright] at h <;>
    dsimp only at h ⊢
  case true.true =>
    obtain ⟨a, ha, huntyped⟩ := Ty.exists_of_isUntyped hleft
    obtain ⟨b, hb, huntyped'⟩ := Ty.exists_of_isUntyped hright
    rw [ha, hb]
    exact ⟨left, right, _, s.info, rfl, .untyped huntyped huntyped'⟩
  case true.false =>
    obtain ⟨hassignable, o', info, hrun⟩ := assignable_of_silent (silent_bind.mp h).1
    refine ⟨o', right, right.ty, info, ?_, .left hleft hright hassignable⟩
    rw [StateT.run_bind, hrun]
    rfl
  case false.true =>
    obtain ⟨hassignable, o', info, hrun⟩ := assignable_of_silent (silent_bind.mp h).1
    refine ⟨left, o', left.ty, info, ?_, .right hleft hright hassignable⟩
    rw [StateT.run_bind, hrun]
    rfl
  case false.false =>
    rw [silent_ask_bind, silent_ask_bind] at h
    rw [run_ask_bind, run_ask_bind]
    split at h
    case isTrue hmatch =>
      rw [if_pos hmatch]
      refine ⟨left, right, left.ty, s.info, rfl, ?_⟩
      rcases Bool.or_eq_true_iff.mp hmatch with hsame | hboth
      · have hself := Model.assignable_of_same (m := s.model) hsame
        rw [Ty.eq_of_beq hsame] at hself ⊢
        exact .typed hright hright hself hself
      · obtain ⟨hto, hfrom⟩ := Bool.and_eq_true_iff.mp hboth
        exact .typed hleft hright hto hfrom
    case isFalse =>
      rw [silent_ask_bind, silent_ask_bind] at h
      exact absurd h not_silent_problem_bind

theorem integers_of_silent (h : Silent (checkShift t op left right) s) :
    (s.model.basicOf? left.ty).any BasicKind.isInteger = true ∧
      (s.model.basicOf? right.ty).any BasicKind.isInteger = true := by
  unfold checkShift at h
  rw [silent_ask_bind, silent_ask_bind] at h
  split at h
  case isTrue hintegers => exact Bool.and_eq_true_iff.mp hintegers
  case isFalse => exact absurd h not_silent_problem_bind

-- What is done with the operands of a binary operator.
def combine (t lhs rhs : Tree) (op : TokenKind) (left right : Operand) : CheckM Operand := do
  if left.isInvalid || right.isInvalid then
    return .invalid
  if op == .shl || op == .shr then
    checkShift t op left right
  else
    let some (left, right, ty) ← matchOperands t lhs rhs left right | return .invalid
    if binaryAllowed op (← basicOf? ty) then
      folded t.range op left right (if isComparison op then .basic .untypedBool else ty)
    else
      noOperator t.range op lhs left

theorem checkBinary_eq (hlhs : t.expr? = some lhs) (hrhs : t.secondExpr? = some rhs)
    (hop : t.binaryOp? = some op) :
    checkBinary r t = r.expr lhs none >>= fun left => r.expr rhs none >>= fun right =>
      combine t lhs rhs op left right := by
  unfold checkBinary
  rw [hlhs, hrhs, hop]
  rfl

instance : Gathers (combine t lhs rhs op left right) := by
  unfold combine
  split
  · infer_instance
  · split
    · infer_instance
    · refine .bind inferInstance fun matched? => ?_
      split <;> infer_instance

theorem not_silent_noOperator {range : Text.ByteRange} {o : Operand} :
    ¬Silent (noOperator range op t o) s := by
  unfold noOperator
  rw [silent_ask_bind]
  exact not_silent_problem_bind

theorem accepts_of_silent (hvalid : left.isInvalid = false) (hvalid' : right.isInvalid = false)
    (h : Silent (combine t lhs rhs op left right) s) : s.model.Accepts op left.ty right.ty ∨
      left.ty.isUntyped = true ∧ right.ty.isUntyped = true ∧ ¬s.model.Together left.ty right.ty := by
  unfold combine at h
  rw [hvalid, hvalid', Bool.or_false, if_neg Bool.false_ne_true] at h
  cases hshift : op == .shl || op == .shr with
  | true =>
      rw [hshift, if_pos rfl] at h
      have hintegers := integers_of_silent h
      have hop (kind? : Option BasicKind) : operatorAllowed op kind? = kind?.any BasicKind.isInteger := by
        rw [operatorAllowed, hshift, if_pos rfl]
      obtain ⟨k, hk, hinteger⟩ := (Option.any_eq_true _ _).mp hintegers.1
      obtain ⟨k', hk', hinteger'⟩ := (Option.any_eq_true _ _).mp hintegers.2
      exact .inl ⟨.inl ⟨k, k', hk, hk', BasicKind.alike_of_isInteger hinteger hinteger'⟩,
        .inr ((hop _).trans hintegers.1), .inr ((hop _).trans hintegers.2)⟩
  | false =>
      rw [hshift, if_neg Bool.false_ne_true] at h
      obtain ⟨hmatch, hrest⟩ :=
        (silent_bind_of inferInstance fun matched? => by split <;> infer_instance).mp h
      obtain ⟨left', right', ty, info, hrun, hcommon⟩ := common_of_silent hmatch
      rw [hrun, silent_ask_bind] at hrest
      by_cases htogether : s.model.Together left.ty right.ty
      · refine .inl (hcommon.accepts htogether hshift ?_)
        by_contra hnot
        rw [if_neg hnot] at hrest
        exact not_silent_noOperator hrest
      · have huntyped (htyped : left.ty.isUntyped = false ∨ right.ty.isUntyped = false) : False :=
          htogether (hcommon.together htyped)
        refine .inr ⟨?_, ?_, htogether⟩
        · exact eq_true_of_ne_false fun hleft => huntyped (.inl hleft)
        · exact eq_true_of_ne_false fun hright => huntyped (.inr hright)

-- An operator is accepted only where it is defined for both operands, and where they go together;
-- two constants without a type may be of different kinds, though.
theorem checkBinary_accepts [GathersRules r] (hlhs : t.expr? = some lhs) (hrhs : t.secondExpr? = some rhs)
    (hop : t.binaryOp? = some op) (hleft : (r.expr lhs none).run s = (left, mid))
    (hright : (r.expr rhs none).run mid = (right, after)) (hvalid : left.isInvalid = false)
    (hvalid' : right.isInvalid = false) (h : Silent (checkBinary r t) s) :
    after.model.Accepts op left.ty right.ty ∨
      left.ty.isUntyped = true ∧ right.ty.isUntyped = true ∧ ¬after.model.Together left.ty right.ty := by
  rw [checkBinary_eq hlhs hrhs hop, silent_bind, silent_bind, hleft, hright] at h
  exact accepts_of_silent hvalid hvalid' h.2.2

end Check

end SpriteScript
