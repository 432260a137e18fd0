import SpriteScript.Proofs.Checking.Routine.Rules
import SpriteScript.Proofs.Semantics.Assignability

-- What is known of the parts of a check that reports nothing.
namespace SpriteScript.Check

-- The instances for the parts of a long function are found in one search.
set_option synthInstance.maxSize 1000

-- Problems are only ever added: no part of a check takes back what another one has reported.

section Gathering

-- What was reported stays reported.
def Gathering (s s' : State) : Prop := s.problems <:+ s'.problems

abbrev Gathers {α : Type} (a : CheckM α) : Prop := Runs Gathering a

abbrev GathersRules (r : Rules) : Prop := RunsRules Gathering r

instance : IsPreorder State Gathering where
  refl _ := List.suffix_rfl
  trans _ _ _ h h' := List.IsSuffix.trans h h'

theorem Gathers.of_eq {α : Type} {a : CheckM α} (h : ∀ s, (a.run s).2.problems = s.problems) : Gathers a :=
  ⟨fun s => by
    unfold Gathering
    rw [h s]⟩

instance {f : Model → Model} : Gathers (modifyModel f) := .of_eq fun _ => rfl

instance {x : NamedType} : Gathers (addNamed x) := .of_eq fun _ => rfl

instance {x : Symbol} : Gathers (addSymbol x) := .of_eq fun _ => rfl

instance {file : FileId} {range : Text.ByteRange} {p : Problem} : Gathers (problemIn file range p) :=
  ⟨fun _ => List.suffix_cons ..⟩

instance {range : Text.ByteRange} {p : Problem} : Gathers (problem range p) := ⟨fun _ => List.suffix_cons ..⟩

instance : Routine Gathering where
  context _ _ := List.suffix_rfl
  info _ _ := List.suffix_rfl
  problem _ _ _ _ _ := List.suffix_cons ..
  symbol _ _ _ := List.suffix_rfl
  composite x body _ hbody _ := by
    unfold addComposite
    infer_instance
  crashed _ := List.suffix_rfl
  addScope _ _ := List.suffix_rfl
  declare _ _ _ _ := List.suffix_rfl

instance {isConst : Bool} {id : SymbolId} {ty : Ty} {value : Option Constant} :
    Gathers (settle isConst id ty value) := by
  unfold settle
  refine .bind inferInstance fun s => ?_
  dsimp only
  split <;> infer_instance

instance {index : Nat} {progress : Progress} : Gathers (setProgress index progress) := .of_eq fun _ => rfl

instance : Resolves Gathering :=
  .of_moves (fun _ _ _ => inferInstance) (fun _ _ => inferInstance) fun _ _ _ _ => inferInstance

end Gathering

variable {α β γ : Type} {s : State}

-- The action asks for something that is in the state, and leaves the state as it is.
class Asks (a : CheckM α) (answer : outParam (State → α)) : Prop where
  run : ∀ s, a.run s = (answer s, s)

section Questions

variable {ty : Ty}

instance : Asks (get : CheckM State) id := ⟨fun _ => rfl⟩

instance : Asks model State.model := ⟨fun _ => rfl⟩

instance : Asks context State.context := ⟨fun _ => rfl⟩

instance : Asks (basicOf? ty) fun s => s.model.basicOf? ty := ⟨fun _ => rfl⟩

instance : Asks (display ty) fun s => s.model.display ty := ⟨fun _ => rfl⟩

instance {id : SymbolId} : Asks (symbol id) fun s => s.model.symbol id := ⟨fun _ => rfl⟩

instance {name : String} {offset? : Option Nat} :
    Asks (lookup? name offset?) fun s => s.model.lookup? s.context.scope name offset? := ⟨fun _ => rfl⟩

instance {source target : Ty} : Asks (assignable source target) fun s => s.model.assignable source target :=
  ⟨fun _ => rfl⟩

instance {t : Tree} {o : Operand} : Asks (describe t o) fun s => ((describe t o).run s).1 := ⟨fun _ => rfl⟩

end Questions

-- The action reports nothing.
def Silent (a : CheckM α) (s : State) : Prop := (a.run s).2.problems = s.problems

section Silence

variable {a : CheckM α} {f : α → CheckM β} {range : Text.ByteRange} {p : Problem}

theorem run_ask_bind {answer : State → α} [h : Asks a answer] : (a >>= f).run s = (f (answer s)).run s := by
  rw [StateT.run_bind, h.run]
  rfl

-- The rest of an action goes on from what the first part leaves.
theorem run_bind_of {x : α} {s' : State} (h : a.run s = (x, s')) : (a >>= f).run s = (f x).run s' := by
  rw [StateT.run_bind, h]
  rfl

theorem silent_ask_bind {answer : State → α} [Asks a answer] :
    Silent (a >>= f) s ↔ Silent (f (answer s)) s := by
  rw [Silent, run_ask_bind, Silent]

-- Each part of a silent action is silent where its turn comes.
theorem silent_bind_of (ha : Gathers a) (hf : ∀ x, Gathers (f x)) :
    Silent (a >>= f) s ↔ Silent a s ∧ Silent (f (a.run s).1) (a.run s).2 := by
  have hfirst : s.problems <:+ (a.run s).2.problems := ha.run s
  have hrest : (a.run s).2.problems <:+ ((a >>= f).run s).2.problems := (hf _).run _
  constructor
  · intro h
    have hle : (a.run s).2.problems.length ≤ s.problems.length := h ▸ hrest.length_le
    have hmid := hfirst.eq_of_length_le hle
    exact ⟨hmid.symm, h.trans hmid⟩
  · rintro ⟨h, h'⟩
    exact h'.trans h

theorem silent_bind [ha : Gathers a] [hf : ∀ x, Gathers (f x)] :
    Silent (a >>= f) s ↔ Silent a s ∧ Silent (f (a.run s).1) (a.run s).2 :=
  silent_bind_of ha hf

theorem not_silent_problem : ¬Silent (problem range p) s := List.cons_ne_self _ _

theorem not_silent_problem_bind {f : Unit → CheckM β} [∀ u, Gathers (f u)] :
    ¬Silent (problem range p >>= f) s :=
  fun h => not_silent_problem (silent_bind.mp h).1

-- So is each turn of a loop.
theorem silent_forM_append {l l' : List γ} {f : γ → CheckM PUnit} [∀ x, Gathers (f x)] :
    Silent (forM (l ++ l') f) s ↔ Silent (forM l f) s ∧ Silent (forM l' f) ((forM l f).run s).2 := by
  induction l generalizing s with
  | nil => exact ⟨fun h => ⟨rfl, h⟩, fun h => h.2⟩
  | cons x rest ih =>
      rw [List.cons_append, List.forM_cons, List.forM_cons, silent_bind, silent_bind, ih, and_assoc]
      rfl

-- A loop is silent if each turn is where it comes.
theorem silent_forM_iff {l : List γ} {f : γ → CheckM PUnit} [∀ x, Gathers (f x)] : Silent (forM l f) s ↔
    ∀ before x after, l = before ++ x :: after → Silent (f x) ((forM before f).run s).2 := by
  constructor
  · rintro h before x after rfl
    rw [silent_forM_append, List.forM_cons, silent_bind] at h
    exact h.2.1
  · intro h
    induction l generalizing s with
    | nil => rfl
    | cons x rest ih =>
        rw [List.forM_cons, silent_bind]
        refine ⟨h [] x rest rfl, ih fun before y after hsplit => ?_⟩
        exact h (x :: before) y after (congrArg _ hsplit)

theorem length_run_mapM (f : γ → CheckM β) (l : List γ) (s : State) :
    ((l.mapM f).run s).1.length = l.length := by
  induction l generalizing s with
  | nil => rfl
  | cons x rest ih =>
      rw [List.mapM_cons]
      exact congrArg Nat.succ (ih _)

end Silence

section Operands

variable {m : Model} {t : Tree} {o : Operand} {target : Ty}

-- The operand stands for exactly one value.
structure Operand.IsValue (o : Operand) : Prop where
  mode : o.mode = .value
  single : ∀ item items, o.ty ≠ .tuple (item :: items)

-- The operand may be used where a value of the type is asked for. What is in error already may be
-- used everywhere.
def Operand.Suits (m : Model) (o : Operand) (target : Ty) : Prop :=
  o.isInvalid = true ∨ o.IsValue ∧ m.assignable o.ty target = true

theorem valueProblem?_eq_none_iff (m : Model) (text : String) (o : Operand) :
    valueProblem? m text o = none ↔ o.isInvalid = true ∨ o.IsValue := by
  obtain ⟨mode, ty, value, id?⟩ := o
  cases mode with
  | value =>
      have hvalue : Operand.IsValue ⟨.value, ty, value, id?⟩ ↔ ∀ item items, ty ≠ .tuple (item :: items) :=
        ⟨fun h => h.single, fun h => ⟨rfl, h⟩⟩
      rw [hvalue]
      unfold valueProblem?
      dsimp only
      split
      · simp [Operand.isInvalid]
      case h_2 hother => exact ⟨fun _ => .inr fun item items h => hother item items h, fun _ => rfl⟩
  | invalid => exact ⟨fun _ => .inl rfl, fun _ => rfl⟩
  | _ => exact ⟨nofun, fun h => by rcases h with h | h <;> cases h; contradiction⟩

theorem isInvalid_eq_false (h : o.IsValue) : o.isInvalid = false := by
  rw [Operand.isInvalid, h.mode]
  rfl

theorem run_checkValue (h : o.IsValue) : (checkValue t o).run s = (true, s) := by
  have hnone : valueProblem? s.model t.text o = none := (valueProblem?_eq_none_iff ..).mpr (.inr h)
  unfold checkValue
  rw [isInvalid_eq_false h, if_neg Bool.false_ne_true, run_ask_bind, hnone]
  rfl

theorem run_checkValue_of_isInvalid (h : o.isInvalid = true) : (checkValue t o).run s = (false, s) := by
  unfold checkValue
  rw [if_pos h]
  rfl

theorem silent_checkValue : Silent (checkValue t o) s ↔ o.isInvalid = true ∨ o.IsValue := by
  constructor
  · intro h
    rw [← valueProblem?_eq_none_iff s.model t.text]
    unfold checkValue at h
    split at h
    case isTrue hinvalid => exact (valueProblem?_eq_none_iff ..).mpr (.inl hinvalid)
    case isFalse =>
      rw [silent_ask_bind] at h
      cases hp : valueProblem? s.model t.text o with
      | none => rfl
      | some p =>
          rw [hp] at h
          exact absurd h not_silent_problem_bind
  · rintro (h | h)
    · rw [Silent, run_checkValue_of_isInvalid h]
    · rw [Silent, run_checkValue h]

instance {value : Option Constant} :
    Asks (convertedValue target value) fun s => ((convertedValue target value).run s).1 where
  run s := by
    unfold convertedValue
    rw [run_ask_bind]
    split <;> rfl

-- A constant that gets a type changes only what is recorded of expressions.
theorem run_convertRecorded (t : Tree) (o : Operand) (target : Ty) (s : State) :
    ∃ o' info, (convertRecorded t o target).run s = (o', { s with info }) := by
  unfold convertRecorded
  rw [run_ask_bind]
  extract_lets ty
  split
  · exact ⟨o, s.info, rfl⟩
  · rw [run_ask_bind]
    exact ⟨_, _, rfl⟩

theorem silent_convertRecorded : Silent (convertRecorded t o target) s := by
  obtain ⟨o', info, hrun⟩ := run_convertRecorded t o target s
  rw [Silent, hrun]

theorem silent_assignTo_of_isValue {purpose : String} (h : o.IsValue) :
    Silent (assignTo t o target purpose) s ↔ s.model.assignable o.ty target = true := by
  unfold assignTo
  rw [silent_bind, run_checkValue h, silent_checkValue, Bool.not_true, if_neg Bool.false_ne_true]
  refine (and_iff_right (.inr h)).trans ?_
  split
  case isTrue htarget => exact ⟨fun _ => Model.assignable_of_isInvalid htarget, fun _ => rfl⟩
  case isFalse =>
    rw [silent_ask_bind]
    cases s.model.assignable o.ty target with
    | false =>
        rw [Bool.not_false, if_pos rfl, silent_ask_bind, silent_ask_bind]
        exact ⟨fun h => absurd h not_silent_problem_bind, fun h => absurd h Bool.false_ne_true⟩
    | true =>
        rw [Bool.not_true, if_neg Bool.false_ne_true]
        refine ⟨fun _ => rfl, fun _ => ?_⟩
        extract_lets done
        split
        · exact silent_bind.mpr ⟨silent_convertRecorded, rfl⟩
        · rfl

-- What is passed on without a problem suits.
theorem silent_assignTo {purpose : String} :
    Silent (assignTo t o target purpose) s ↔ o.Suits s.model target := by
  constructor
  · intro h
    have hchecked : o.isInvalid = true ∨ o.IsValue := by
      unfold assignTo at h
      exact silent_checkValue.mp (silent_bind.mp h).1
    exact hchecked.imp_right fun hvalue => ⟨hvalue, (silent_assignTo_of_isValue hvalue).mp h⟩
  · rintro (hinvalid | ⟨hvalue, hassignable⟩)
    · unfold assignTo
      rw [silent_bind, run_checkValue_of_isInvalid hinvalid, silent_checkValue]
      exact ⟨.inl hinvalid, rfl⟩
    · exact (silent_assignTo_of_isValue hvalue).mpr hassignable

theorem run_assignTo {purpose : String} (h : o.Suits s.model target) :
    ∃ info, (assignTo t o target purpose).run s = (true, { s with info }) := by
  unfold assignTo
  rcases h with hinvalid | ⟨hvalue, hassignable⟩
  · refine ⟨s.info, ?_⟩
    rw [run_bind_of (run_checkValue_of_isInvalid hinvalid), Bool.not_false, if_pos rfl, hinvalid]
    rfl
  · rw [run_bind_of (run_checkValue hvalue), Bool.not_true, if_neg Bool.false_ne_true]
    split
    case isTrue => exact ⟨s.info, rfl⟩
    case isFalse =>
      rw [run_ask_bind, hassignable, Bool.not_true, if_neg Bool.false_ne_true]
      extract_lets done
      split
      · obtain ⟨o', info, hrun⟩ := run_convertRecorded t o target s
        refine ⟨info, ?_⟩
        have hdiscard : (discard (convertRecorded t o target)).run s = ((), { s with info }) := by
          change ((), ((convertRecorded t o target).run s).2) = _
          rw [hrun]
        rw [run_bind_of hdiscard]
        rfl
      · exact ⟨s.info, rfl⟩

end Operands

section Records

variable {r : Rules} {t : Tree} {o : Operand} {expected? : Option Ty}

-- What is noted of an expression once its operand is known.
def recordOperand (t : Tree) (expected? : Option Ty) (o : Operand) : CheckM Operand := do
  if o.mode == .value || o.mode == .noValue then
    recordType t o.ty o.value
  if let some expected := expected? then
    recordExpected t expected
  return o

theorem run_recordOperand (t : Tree) (expected? : Option Ty) (o : Operand) (s : State) :
    ∃ info, (recordOperand t expected? o).run s = (o, { s with info }) := by
  unfold recordOperand
  extract_lets result expect
  have hexpect (s : State) : ∃ info, (expect ()).run s = (o, { s with info }) := by
    unfold expect result
    cases expected? <;> exact ⟨_, rfl⟩
  split
  · obtain ⟨info, hrun⟩ := hexpect ((recordType t o.ty o.value).run s).2
    exact ⟨info, hrun⟩
  · exact hexpect s

theorem exprStep_name (hkind : t.kind? = some .nameRef) (expected? : Option Ty) :
    exprStep r t expected? = checkName r t >>= recordOperand t expected? := by
  unfold exprStep
  rw [hkind]
  rfl

theorem exprStep_literal (hkind : t.kind? = some .literal) (expected? : Option Ty) :
    exprStep r t expected? = checkLiteral t >>= recordOperand t expected? := by
  unfold exprStep
  rw [hkind]
  rfl

theorem exprStep_paren {u : Tree} (hkind : t.kind? = some .parenExpr) (hinner : t.expr? = some u)
    (expected? : Option Ty) : exprStep r t expected? = r.expr u expected? >>= recordOperand t expected? := by
  unfold exprStep
  rw [hkind]
  dsimp only
  rw [hinner]
  rfl

theorem exprStep_unary (hkind : t.kind? = some .unaryExpr) (expected? : Option Ty) :
    exprStep r t expected? = checkUnary r t >>= recordOperand t expected? := by
  unfold exprStep
  rw [hkind]
  rfl

theorem exprStep_binary (hkind : t.kind? = some .binaryExpr) (expected? : Option Ty) :
    exprStep r t expected? = checkBinary r t >>= recordOperand t expected? := by
  unfold exprStep
  rw [hkind]
  rfl

-- What is recorded of an expression changes neither its operand nor what was reported.
theorem run_exprStep {action : CheckM Operand} {info : Info}
    {problems : List (FileId × Text.ByteRange × Problem)}
    (hstep : exprStep r t expected? = action >>= recordOperand t expected?)
    (hrun : action.run s = (o, { s with info, problems })) :
    ∃ info, (exprStep r t expected?).run s = (o, { s with info, problems }) := by
  obtain ⟨info', hrecord⟩ := run_recordOperand t expected? o { s with info, problems }
  exact ⟨info', by rw [hstep, run_bind_of hrun, hrecord]⟩

theorem silent_recordOperand : Silent (recordOperand t expected? o) s := by
  obtain ⟨info, hrun⟩ := run_recordOperand t expected? o s
  rw [Silent, hrun]

instance : Gathers (recordOperand t expected? o) := .of_eq fun _ => silent_recordOperand

end Records

end SpriteScript.Check
