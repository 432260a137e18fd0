import SpriteScript.Proofs.Acceptance.Operators

-- Statements that update a variable, compared with the assignments that they stand for.
namespace SpriteScript.Check

-- The instances for the parts of a long function are found in one search.
set_option synthInstance.maxSize 1000

variable {r : Rules} {t x e v : Tree} {s mid after : State} {o left right : Operand}

section Statements

-- A value that may be assigned to: it belongs to no symbol other than a variable.
def Operand.isPlace (m : Model) (o : Operand) : Bool :=
  o.mode == .value && o.symbol.all fun id => (m.symbol id).kind.isVariable

-- The name `_`, which takes anything.
def isBlank (x : Tree) : Bool := x.isA .nameRef && x.identText? == some "_"

-- The type that a target asks for, once its operand is known.
def targetType (x : Tree) (o : Operand) : CheckM (Option Ty) := do
  if o.isInvalid then
    return some .invalid
  if o.isPlace (← model) then
    return some o.ty
  else
    problem x.range (.cannotAssign (← describe x o))
    return some .invalid

theorem checkTarget_eq (hblank : isBlank x = false) : checkTarget r x = r.expr x none >>= targetType x := by
  have hname : ¬(x.isA .nameRef && x.identText? == some "_") = true := Bool.eq_false_iff.mp hblank
  unfold checkTarget
  rw [if_neg hname]
  rfl

instance : Gathers (targetType x o) := by
  unfold targetType
  infer_instance

theorem run_targetType (hvalid : o.isInvalid = false) (hplace : o.isPlace s.model = true) :
    (targetType x o).run s = (some o.ty, s) := by
  unfold targetType
  rw [hvalid, if_neg Bool.false_ne_true, run_ask_bind, hplace]
  rfl

theorem silent_targetType : Silent (targetType x o) s ↔ o.isInvalid = true ∨ o.isPlace s.model = true := by
  unfold targetType
  cases hvalid : o.isInvalid with
  | true => exact iff_of_true rfl (.inl rfl)
  | false =>
      rw [if_neg Bool.false_ne_true, silent_ask_bind]
      cases hplace : o.isPlace s.model with
      | true => exact iff_of_true rfl (.inr rfl)
      | false =>
          rw [if_neg Bool.false_ne_true, silent_ask_bind]
          exact iff_of_false not_silent_problem_bind (by simp)

-- One value is assigned to one target.
def assignOne (r : Rules) (v : Tree) (target? : Option Ty) : CheckM Unit := do
  let o ← r.expr v target?
  match target? with
  | some ty => discard <| assignTo v o ty "assignment"
  | none => discard <| defaultType v o

theorem checkPlainAssign_singleton : checkPlainAssign r t [x] [v] = checkTarget r x >>= assignOne r v := by
  have hlength : ([v].length == [x].length) = true := rfl
  unfold checkPlainAssign
  rw [hlength, List.mapM_cons, List.mapM_nil]
  simp only [pure_bind, bind_assoc, if_true, List.zip_cons_cons, List.zip_nil_right]
  refine bind_congr fun target? => ?_
  cases target? <;> simp [assignOne]

variable [GathersRules r]

-- Numbers may be updated, and texts with a plus.
def updates (plus : Bool) (kind? : Option BasicKind) : Bool :=
  kind?.any fun k => k.isNumeric || plus && k.isString

theorem silent_checkCompound {ty? : Option Ty} (hx : (checkTarget r x).run s = (ty?, mid))
    (he : (r.expr e (some (ty?.getD .invalid))).run mid = (o, after)) :
    Silent (checkCompound r t x e) s ↔ Silent (checkTarget r x) s ∧
      Silent (r.expr e (some (ty?.getD .invalid))) mid ∧
      o.Suits after.model (ty?.getD .invalid) ∧ ((ty?.getD .invalid).isInvalid = true ∨
        updates (t.assignOp?.any (·.kind == .plusEq)) (after.model.basicOf? (ty?.getD .invalid)) = true) := by
  unfold checkCompound
  rw [silent_bind, hx]
  refine and_congr_right fun _ => ?_
  generalize ty?.getD .invalid = ty at he ⊢
  rw [silent_bind, he]
  refine and_congr_right fun _ => ?_
  rw [silent_bind, silent_assignTo]
  refine and_congr_right fun hsuits => ?_
  obtain ⟨info, hrun⟩ := run_assignTo hsuits
  rw [hrun]
  dsimp only
  cases hvalid : ty.isInvalid with
  | true => exact iff_of_true rfl (.inl rfl)
  | false =>
      rw [Bool.not_true, Bool.or_false, if_neg Bool.false_ne_true, silent_ask_bind]
      cases hupdates : updates (t.assignOp?.any (·.kind == .plusEq)) (after.model.basicOf? ty) with
      | true =>
          unfold updates at hupdates
          rw [hupdates]
          exact iff_of_true rfl (.inr rfl)
      | false =>
          unfold updates at hupdates
          rw [hupdates, Bool.not_false, if_pos rfl, silent_ask_bind]
          exact iff_of_false not_silent_problem (by simp)

instance {target? : Option Ty} : Gathers (assignOne r v target?) := by
  unfold assignOne
  refine .bind inferInstance fun o => ?_
  split <;> infer_instance

theorem silent_checkPlainAssign {ty : Ty} (hx : (checkTarget r x).run s = (some ty, mid))
    (hv : (r.expr v (some ty)).run mid = (o, after)) :
    Silent (checkPlainAssign r t [x] [v]) s ↔
      Silent (checkTarget r x) s ∧ Silent (r.expr v (some ty)) mid ∧ o.Suits after.model ty := by
  have hassign : Silent (discard (assignTo v o ty "assignment")) after ↔ o.Suits after.model ty :=
    silent_assignTo
  rw [checkPlainAssign_singleton, silent_bind, hx, assignOne, silent_bind, hv, ← hassign]

theorem silent_checkIncDec (hexpr : t.expr? = some x) (hx : (r.expr x none).run s = (o, after)) :
    Silent (checkIncDec r t) s ↔ Silent (r.expr x none) s ∧
      (o.isInvalid = true ∨ (after.model.basicOf? o.ty).any BasicKind.isNumeric = true) := by
  unfold checkIncDec
  rw [hexpr]
  dsimp only
  rw [silent_bind, hx, silent_ask_bind]
  refine and_congr_right fun _ => ?_
  cases hvalid : o.isInvalid with
  | true => exact iff_of_true rfl (.inl rfl)
  | false =>
      cases hnumeric : (after.model.basicOf? o.ty).any BasicKind.isNumeric with
      | true => exact iff_of_true rfl (.inr rfl)
      | false =>
          rw [Bool.not_false, Bool.and_self, if_pos rfl, silent_ask_bind]
          exact iff_of_false not_silent_problem (by simp)

end Statements

section Agreement

-- The operators of statements that update a variable.
inductive UpdateOp where
  | plus | minus | times | divide | remainder
deriving DecidableEq, Repr

-- The operator between two values.
def UpdateOp.binary : UpdateOp → TokenKind
  | plus => .plus
  | minus => .minus
  | times => .star
  | divide => .slash
  | remainder => .percent

-- The operator of the statement.
def UpdateOp.assign : UpdateOp → TokenKind
  | plus => .plusEq
  | minus => .minusEq
  | times => .starEq
  | divide => .slashEq
  | remainder => .percentEq

variable {op : UpdateOp} {n : Nat}

-- Checking the expression leads to the operand, and nothing changes except for what is recorded.
def Steady (r : Rules) (s : State) (x : Tree) (o : Operand) : Prop :=
  ∀ expected? info, ∃ info', (r.expr x expected?).run { s with info } = (o, { s with info := info' })

-- A value of a type of its own, which is not known before the program runs.
structure Operand.IsDynamic (o : Operand) : Prop where
  isValue : o.IsValue
  typed : o.ty.isUntyped = false
  valid : o.ty.isInvalid = false
  unknown : o.value = none

-- The two kinds of statements ask the same of a type, except for remainders.
theorem binaryAllowed_eq_updates {kind? : Option BasicKind}
    (h : op = .remainder → kind?.any BasicKind.isNumeric = true → kind?.any BasicKind.isInteger = true) :
    binaryAllowed op.binary kind? = updates (op.assign == .plusEq) kind? := by
  revert h
  cases op <;> cases kind? with
  | none => exact fun _ => rfl
  | some kind => cases kind <;> decide

theorem basicOf?_of_allowed {kind? : Option BasicKind} (h : binaryAllowed op.binary kind? = true) :
    ∃ kind, kind? = some kind := by
  cases kind? with
  | none => cases op <;> cases h
  | some kind => exact ⟨kind, rfl⟩

theorem run_matchOperands (t lhs rhs : Tree) {kind : BasicKind} (hleft : left.ty.isUntyped = false)
    (hkind : s.model.basicOf? left.ty = some kind) (h : s.model.assignable right.ty left.ty = true) :
    ∃ right' info, (matchOperands t lhs rhs left right).run s =
    (some (left, right', left.ty), { s with info }) := by
  unfold matchOperands
  rw [hleft]
  cases hright : right.ty.isUntyped with
  | true =>
      obtain ⟨right', info, hrun⟩ := run_convertRecorded rhs right left.ty s
      have hconvert : (convertOperand t rhs right left).run s = (some right', { s with info }) := by
        unfold convertOperand
        rw [run_ask_bind, h, if_pos rfl, run_bind_of hrun]
        rfl
      refine ⟨right', info, ?_⟩
      change StateT.run (_ <$> convertOperand t rhs right left) s = _
      rw [StateT.run_map, hconvert]
      rfl
  | false =>
      have hback := Model.assignable_symm_of_basic h hleft hright hkind
      refine ⟨right, s.info, ?_⟩
      dsimp only
      rw [run_ask_bind, run_ask_bind, h, hback, Bool.and_self, Bool.or_true, if_pos rfl]
      rfl

theorem folded_of_none {range : Text.ByteRange} {op : TokenKind} {ty : Ty} (h : left.value = none) :
    folded range op left right ty = pure (.ofType ty) := by
  unfold folded
  rw [h]

theorem combine_update (t lhs rhs : Tree) (op : UpdateOp) (hleft : left.isInvalid = false)
    (hright : right.isInvalid = false) : combine t lhs rhs op.binary left right = (do
      let some (left, right, ty) ← matchOperands t lhs rhs left right | return .invalid
      if binaryAllowed op.binary (← basicOf? ty) then
        folded t.range op.binary left right ty
      else
        noOperator t.range op.binary lhs left) := by
  unfold combine
  rw [hleft, hright]
  cases op <;> rfl

theorem run_combine_update (t lhs rhs : Tree) (hleft : left.IsDynamic) (hright : right.IsValue)
    (hassignable : s.model.assignable right.ty left.ty = true)
    (hallowed : binaryAllowed op.binary (s.model.basicOf? left.ty) = true) :
    ∃ info, (combine t lhs rhs op.binary left right).run s = (.ofType left.ty, { s with info }) := by
  obtain ⟨kind, hkind⟩ := basicOf?_of_allowed hallowed
  obtain ⟨right', info, hmatch⟩ := run_matchOperands t lhs rhs hleft.typed hkind hassignable
  refine ⟨info, ?_⟩
  rw [combine_update t lhs rhs op (isInvalid_eq_false hleft.isValue) (isInvalid_eq_false hright),
    run_bind_of hmatch]
  dsimp only
  rw [run_ask_bind]
  dsimp only
  rw [hallowed, if_pos rfl, folded_of_none hleft.unknown]
  rfl

theorem silent_combine_update {lhs rhs : Tree} (hleft : left.IsDynamic) (hright : right.IsValue) :
    Silent (combine t lhs rhs op.binary left right) s ↔
      s.model.assignable right.ty left.ty = true ∧
      binaryAllowed op.binary (s.model.basicOf? left.ty) = true := by
  constructor
  · intro h
    rw [combine_update t lhs rhs op (isInvalid_eq_false hleft.isValue) (isInvalid_eq_false hright)] at h
    obtain ⟨hmatch, hrest⟩ := (silent_bind_of inferInstance fun matched? => by split <;> infer_instance).mp h
    obtain ⟨left', right', ty, info, hrun, hcommon⟩ := common_of_silent hmatch
    obtain ⟨hassignable, rfl⟩ := hcommon.eq_left hleft.typed
    rw [hrun, silent_ask_bind] at hrest
    refine ⟨hassignable, ?_⟩
    by_contra hnot
    rw [if_neg hnot] at hrest
    exact not_silent_noOperator hrest
  · rintro ⟨hassignable, hallowed⟩
    obtain ⟨info, hrun⟩ := run_combine_update t lhs rhs hleft hright hassignable hallowed
    rw [Silent, hrun]

-- The tree applies the operator to the two others.
structure IsBinary (v lhs rhs : Tree) (op : TokenKind) : Prop where
  kind : v.kind? = some .binaryExpr
  lhs : v.expr? = some lhs
  rhs : v.secondExpr? = some rhs
  op : v.binaryOp? = some op

section Rules

variable {lhs rhs : Tree} (hv : IsBinary v lhs rhs op.binary) (hl : Steady (rules n) s lhs left)
  (hr : Steady (rules n) s rhs right) (hleft : left.IsDynamic) (hright : right.IsValue)

include hv hl hr

-- What matters about such an expression is what is done with the operands.
theorem exists_run_binary (expected? : Option Ty) : ∃ info,
    ((rules (n + 1)).expr v expected?).run s =
      ((combine v lhs rhs op.binary left right >>= recordOperand v expected?).run { s with info }) := by
  obtain ⟨info, hrunl⟩ := hl none s.info
  obtain ⟨info', hrunr⟩ := hr none info
  refine ⟨info', ?_⟩
  change (exprStep (rules n) v expected?).run s = _
  rw [exprStep_binary hv.kind, checkBinary_eq hv.lhs hv.rhs hv.op, bind_assoc, run_bind_of hrunl, bind_assoc,
    run_bind_of hrunr]

include hleft hright

theorem silent_binary {expected? : Option Ty} : Silent ((rules (n + 1)).expr v expected?) s ↔
    s.model.assignable right.ty left.ty = true ∧
    binaryAllowed op.binary (s.model.basicOf? left.ty) = true := by
  obtain ⟨info, hrun⟩ := exists_run_binary hv hl hr expected?
  have hbind : Silent (combine v lhs rhs op.binary left right >>= recordOperand v expected?) { s with info } ↔
      Silent (combine v lhs rhs op.binary left right) { s with info } :=
    silent_bind.trans (and_iff_left silent_recordOperand)
  rw [Silent, hrun]
  exact hbind.trans (silent_combine_update hleft hright)

theorem run_binary (expected? : Option Ty) (hassignable : s.model.assignable right.ty left.ty = true)
    (hallowed : binaryAllowed op.binary (s.model.basicOf? left.ty) = true) :
    ∃ info, ((rules (n + 1)).expr v expected?).run s = (.ofType left.ty, { s with info }) := by
  obtain ⟨info, hrun⟩ := exists_run_binary hv hl hr expected?
  obtain ⟨info', hcombine⟩ :=
    run_combine_update v lhs rhs hleft hright (s := { s with info }) hassignable hallowed
  obtain ⟨info'', hrecord⟩ := run_recordOperand v expected? (.ofType left.ty) { s with info := info' }
  exact ⟨info'', by rw [hrun, run_bind_of hcombine, hrecord]⟩

end Rules

theorem Steady.run (h : Steady r s x o) (expected? : Option Ty) :
    ∃ info, (r.expr x expected?).run s = (o, { s with info }) := h expected? s.info

theorem Steady.recorded (h : Steady r s x o) (info : Info) : Steady r { s with info } x o :=
  fun expected? info' => h expected? info'

theorem Steady.silent {expected? : Option Ty} (h : Steady r s x o) : Silent (r.expr x expected?) s := by
  obtain ⟨info, hrun⟩ := h.run expected?
  rw [Silent, hrun]

theorem Operand.IsDynamic.isInvalid_eq_false (h : left.IsDynamic) : left.isInvalid = false :=
  Check.isInvalid_eq_false h.isValue

section Updates

variable (hx : Steady r s x left) (hblank : isBlank x = false) (hleft : left.IsDynamic)

include hx hblank hleft

theorem run_target (hplace : left.isPlace s.model = true) :
    ∃ info, (checkTarget r x).run s = (some left.ty, { s with info }) := by
  obtain ⟨info, hrun⟩ := hx.run none
  refine ⟨info, ?_⟩
  rw [checkTarget_eq hblank, run_bind_of hrun]
  exact run_targetType hleft.isInvalid_eq_false hplace

variable [GathersRules r]

theorem silent_target : Silent (checkTarget r x) s ↔ left.isPlace s.model = true := by
  obtain ⟨info, hrun⟩ := hx.run none
  rw [checkTarget_eq hblank, silent_bind, hrun, and_iff_right hx.silent, silent_targetType,
    hleft.isInvalid_eq_false, or_iff_right Bool.false_ne_true]

-- What a statement asks for that updates a variable.
theorem silent_update (he : Steady r s e right) (hright : right.IsValue) : Silent (checkCompound r t x e) s ↔
    left.isPlace s.model = true ∧ s.model.assignable right.ty left.ty = true ∧
      updates (t.assignOp?.any (·.kind == .plusEq)) (s.model.basicOf? left.ty) = true := by
  cases hplace : left.isPlace s.model with
  | false =>
      refine iff_of_false (fun h => ?_) (by simp)
      have htarget := (silent_target hx hblank hleft).mp (silent_bind.mp h).1
      rw [hplace] at htarget
      cases htarget
  | true =>
      obtain ⟨info, hrun⟩ := run_target hx hblank hleft hplace
      obtain ⟨info', hrune⟩ := (he.recorded info).run (some left.ty)
      have hsilent : Silent (r.expr e (some left.ty)) { s with info } := (he.recorded info).silent
      have hsuits : right.Suits s.model left.ty ↔ s.model.assignable right.ty left.ty = true := by
        rw [Operand.Suits, isInvalid_eq_false hright, or_iff_right Bool.false_ne_true, and_iff_right hright]
      rw [silent_checkCompound hrun hrune, silent_target hx hblank hleft, hplace]
      simp only [Option.getD_some, hsilent, hsuits, hleft.valid, true_and, or_iff_right Bool.false_ne_true]

omit hblank in
-- A variable that is counted up or down has to be a number.
theorem silent_count (hexpr : t.expr? = some x) :
    Silent (checkIncDec r t) s ↔ (s.model.basicOf? left.ty).any BasicKind.isNumeric = true := by
  obtain ⟨info, hrun⟩ := hx.run none
  rw [silent_checkIncDec hexpr hrun, and_iff_right hx.silent, hleft.isInvalid_eq_false,
    or_iff_right Bool.false_ne_true]

end Updates

section Assignments

variable {lhs rhs : Tree} (hx : Steady (rules (n + 1)) s x left) (hblank : isBlank x = false)
  (hv : IsBinary v lhs rhs op.binary) (hl : Steady (rules n) s lhs left) (hr : Steady (rules n) s rhs right)
  (hleft : left.IsDynamic) (hright : right.IsValue)

include hx hblank hv hl hr hleft hright

-- What the assignment asks for that it stands for.
theorem silent_assign : Silent (checkPlainAssign (rules (n + 1)) t [x] [v]) s ↔
    left.isPlace s.model = true ∧ s.model.assignable right.ty left.ty = true ∧
      binaryAllowed op.binary (s.model.basicOf? left.ty) = true := by
  constructor
  · intro h
    rw [checkPlainAssign_singleton] at h
    have hplace := (silent_target hx hblank hleft).mp (silent_bind.mp h).1
    obtain ⟨info, hrun⟩ := run_target hx hblank hleft hplace
    rw [← checkPlainAssign_singleton (t := t), silent_checkPlainAssign hrun rfl] at h
    exact ⟨hplace, (silent_binary hv (hl.recorded info) (hr.recorded info) hleft hright).mp h.2.1⟩
  · rintro ⟨hplace, hassignable, hallowed⟩
    obtain ⟨info, hrun⟩ := run_target hx hblank hleft hplace
    have hl' := hl.recorded info
    have hr' := hr.recorded info
    obtain ⟨info', hrunv⟩ := run_binary hv hl' hr' hleft hright (some left.ty) hassignable hallowed
    refine (silent_checkPlainAssign hrun hrunv).mpr ⟨(silent_target hx hblank hleft).mpr hplace, ?_, ?_⟩
    · exact (silent_binary hv hl' hr' hleft hright).mpr ⟨hassignable, hallowed⟩
    · exact .inr ⟨⟨rfl, hleft.isValue.single⟩, Model.assignable_self _⟩

end Assignments

-- An update is accepted just where the assignment is that it stands for, except for the remainder of
-- a number with a fraction.
theorem update_agrees {t' x' lhs rhs : Tree} (ht : t.assignOp?.map (·.kind) = some op.assign)
    (hx : Steady (rules (n + 1)) s x left) (hblank : isBlank x = false)
    (he : Steady (rules (n + 1)) s e right) (hx' : Steady (rules (n + 1)) s x' left)
    (hblank' : isBlank x' = false) (hv : IsBinary v lhs rhs op.binary)
    (hl : Steady (rules n) s lhs left) (hr : Steady (rules n) s rhs right) (hleft : left.IsDynamic)
    (hright : right.IsValue) (hop : op = .remainder →
      (s.model.basicOf? left.ty).any BasicKind.isNumeric = true →
      (s.model.basicOf? left.ty).any BasicKind.isInteger = true) :
    Silent (checkCompound (rules (n + 1)) t x e) s ↔
    Silent (checkPlainAssign (rules (n + 1)) t' [x'] [v]) s := by
  have hplus : t.assignOp?.any (·.kind == .plusEq) = (op.assign == .plusEq) := by
    obtain ⟨token, htoken, hkind⟩ := Option.map_eq_some_iff.mp ht
    rw [htoken, Option.any_some, hkind]
  rw [silent_update hx hblank hleft he hright, silent_assign hx' hblank' hv hl hr hleft hright, hplus,
    binaryAllowed_eq_updates hop]

-- To count a variable up or down is accepted just where it is to add one, or to subtract one.
theorem count_agrees {t' x' : Tree} [GathersRules r] (hexpr : t.expr? = some x) (hx : Steady r s x left)
    (hx' : Steady r s x' left) (hblank : isBlank x' = false) (he : Steady r s e right)
    (hleft : left.IsDynamic) (hright : right.IsValue) (hone : right.ty = .basic .untypedInt)
    (hplace : left.isPlace s.model = true) :
    Silent (checkIncDec r t) s ↔ Silent (checkCompound r t' x' e) s := by
  rw [silent_count hx hleft hexpr, silent_update hx' hblank hleft he hright, hplace, hone]
  constructor
  · intro h
    obtain ⟨kind, hkind, hnumeric⟩ := (Option.any_eq_true _ _).mp h
    refine ⟨rfl, Model.assignable_untypedInt hkind hnumeric, ?_⟩
    rw [hkind, updates, Option.any_some, hnumeric, Bool.true_or]
  · rintro ⟨-, hassignable, hupdates⟩
    obtain ⟨kind, hkind, -⟩ := (Option.any_eq_true _ _).mp hupdates
    have hne : left.ty ≠ .basic .untypedInt :=
      fun hty => Bool.false_ne_true (hleft.typed.symm.trans (hty ▸ rfl))
    rcases Model.fits_of_assignable hassignable rfl hleft.valid hne with hnone | hfits
    · cases hkind.symm.trans hnone
    · rw [hkind] at hfits ⊢
      exact hfits

section Steadiness

theorem run_useSymbol (r : Rules) (ident : Token) {id : SymbolId} (hspec : s.specOf[id]? = none)
    (hvariable : (s.model.symbol id).kind.isVariable = true) :
    ∃ info, (useSymbol r ident id).run s =
    (⟨.value, (s.model.symbol id).ty, none, some id⟩, { s with info }) := by
  have huse : (recordUse (rangeOf ident) id).run s =
      ((), { s with info := s.info.recordUse s.context.file (rangeOf ident) id }) := rfl
  refine ⟨s.info.recordUse s.context.file (rangeOf ident) id, ?_⟩
  unfold useSymbol ensureResolved
  rw [run_bind_of huse, bind_assoc, run_ask_bind, id_eq, hspec]
  dsimp only
  rw [pure_bind]
  unfold symbolOperand
  rw [run_ask_bind]
  dsimp only
  cases hkind : (s.model.symbol id).kind <;> first | rfl | (rw [hkind] at hvariable; cases hvariable)

-- The tree is a name of the variable, whose type is known already.
structure NamesVariable (s : State) (x : Tree) (id : SymbolId) : Prop where
  kind : x.kind? = some .nameRef
  found : ∃ ident, x.ident? = some ident ∧ ident.text ≠ "_" ∧
    s.model.lookup? s.context.scope ident.text (some ident.offset) = some id
  resolved : s.specOf[id]? = none
  isVariable : (s.model.symbol id).kind.isVariable = true

variable {id : SymbolId}

theorem NamesVariable.isBlank_eq_false (h : NamesVariable s x id) : isBlank x = false := by
  obtain ⟨ident, hident, hname, -⟩ := h.found
  rw [isBlank, Tree.identText?, hident, Option.map_some]
  simp [hname]

theorem NamesVariable.steady (h : NamesVariable s x id) :
    Steady (rules (n + 1)) s x ⟨.value, (s.model.symbol id).ty, none, some id⟩ := by
  obtain ⟨ident, hident, hname, hlookup⟩ := h.found
  intro expected? info
  obtain ⟨info', huse⟩ := run_useSymbol (rules n) ident (s := { s with info }) h.resolved h.isVariable
  have hrun : (checkName (rules n) x).run { s with info } =
      (⟨.value, (s.model.symbol id).ty, none, some id⟩, { s with info := info' }) := by
    unfold checkName
    rw [hident]
    dsimp only
    rw [if_neg (by simpa using hname), run_ask_bind, hlookup]
    exact huse
  exact run_exprStep (exprStep_name h.kind expected?) hrun

-- A literal for an integer that fits.
theorem steady_literal {token : Token} {value : Int} (hkind : e.kind? = some .literal)
    (hliteral : e.literalKind? = some .int) (htoken : e.literalToken? = some token)
    (hvalue : Constant.intLiteral? token.text = some value) :
    Steady (rules (n + 1)) s e (.constant (.basic .untypedInt) (.int value)) := by
  intro expected? info
  have hrun :
      (checkLiteral e).run { s with info } =
      (.constant (.basic .untypedInt) (.int value), { s with info }) := by
    unfold checkLiteral
    rw [hliteral, htoken]
    dsimp only
    rw [hvalue]
    rfl
  exact run_exprStep (exprStep_literal hkind expected?) hrun

-- So `x++` is accepted just where `x += 1` is.
theorem count_agrees_literal {t' x' : Tree} {token : Token} {value : Int} (hexpr : t.expr? = some x)
    (hx : NamesVariable s x id) (hx' : NamesVariable s x' id) (hkind : e.kind? = some .literal)
    (hliteral : e.literalKind? = some .int) (htoken : e.literalToken? = some token)
    (hvalue : Constant.intLiteral? token.text = some value)
    (htyped : (s.model.symbol id).ty.isUntyped = false)
    (hvalid : (s.model.symbol id).ty.isInvalid = false)
    (hsingle : ∀ item items, (s.model.symbol id).ty ≠ .tuple (item :: items)) :
    Silent (checkIncDec (rules (n + 1)) t) s ↔ Silent (checkCompound (rules (n + 1)) t' x' e) s := by
  have hone : (Operand.constant (.basic .untypedInt) (.int value)).IsValue := ⟨rfl, nofun⟩
  exact count_agrees hexpr hx.steady hx'.steady hx'.isBlank_eq_false
    (steady_literal hkind hliteral htoken hvalue)
    ⟨⟨rfl, hsingle⟩, htyped, hvalid, rfl⟩ hone rfl hx.isVariable

end Steadiness

end Agreement

end SpriteScript.Check
