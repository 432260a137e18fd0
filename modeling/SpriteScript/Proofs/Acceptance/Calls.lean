import SpriteScript.Proofs.Acceptance.Values
import SpriteScript.Proofs.Checking.Calls

-- What a function is called with where nothing is reported.
namespace SpriteScript.Check

-- The instances for the parts of a long function are found in one search.
set_option synthInstance.maxSize 1000

variable {r : Rules} {call callee : Tree} {name : String} {sig : Signature} {signatures : List Signature}
variable {a : Arguments} {s : State} {o : Operand} {param : Ty}

section Arguments

-- Passes one argument on. A deferred one is looked into now that its type is known.
def passArgument (r : Rules) (name : String) (sig : Signature) (a : Arguments) (x : Argument × Nat) :
    CheckM PUnit := do
  let o ← match x.1.2 with
    | some o => do
        if let some param := a.param? sig x.2 then
          recordExpected x.1.1 param
        pure o
    | none => r.expr x.1.1 (a.param? sig x.2)
  if let some param := a.param? sig x.2 then
    discard <| assignTo x.1.1 o param ("argument to " ++ name)

theorem applySignature_eq : applySignature r call name sig a = (do
    if !(if a.spread then a.count == sig.params.length else sig.accepts a.count) then
      match countProblem? call name sig a with
      | some (range, p) => problem range p
      | none => crash
    forM a.all.zipIdx (passArgument r name sig a)) := by
  unfold applySignature
  rw [← forIn_eq_forM]
  extract_lets fits next next'
  have hnext (u : Unit) : next u = next' u := by
    unfold next next'
    rw [bind_pure_unit]
    congr 1
    funext ((arg, checked?), index) u
    unfold passArgument
    dsimp only
    generalize a.param? sig index = param?
    cases checked? <;> cases param? <;> simp
  rewrite [funext hnext]
  rfl

-- Where an argument is spread that is not there, a function all of whose arguments may be left out
-- breaks the check off: there is no argument that the complaint could be about.
theorem applySignature_breaks (hspread : a.spread = true) (hempty : a.all = []) (hparams : sig.params ≠ [])
    (hfixed : sig.fixedCount = 0) : applySignature r call name sig a = crash := by
  have hfits : (if a.spread then a.count == sig.params.length else sig.accepts a.count) = false := by
    rw [if_pos hspread, Arguments.count, hempty]
    exact beq_eq_false_iff_ne.mpr (Nat.ne_of_lt (List.length_pos_iff.mpr hparams))
  have hproblem : countProblem? call name sig a = none :=
    (countProblem?_eq_none_iff hfits).mpr ⟨hspread, hempty, hfixed⟩
  rw [applySignature_eq, hfits, hproblem, hempty]
  rfl

-- The argument suits the parameter. What it is checked to is known, or found out when its turn comes.
def Passes (r : Rules) (param : Ty) (s : State) : Argument → Prop
  | (_, some o) => o.Suits s.model param
  | (arg, none) => ((r.expr arg (some param)).run s).1.Suits ((r.expr arg (some param)).run s).2.model param

-- The function takes as many arguments, each of which suits its parameter when its turn comes.
structure Passed (r : Rules) (name : String) (sig : Signature) (a : Arguments) (s : State) : Prop where
  count : (if a.spread then a.count == sig.params.length else sig.accepts a.count) = true
  suits : ∀ before x after param, a.all.zipIdx = before ++ x :: after → a.param? sig x.2 = some param →
    Passes r param ((forM before (passArgument r name sig a)).run s).2 x.1

variable [GathersRules r]

instance {x : Argument × Nat} : Gathers (passArgument r name sig a x) := by
  unfold passArgument
  extract_lets next
  have hnext (o : Operand) : Gathers (next o) := by
    unfold next
    split <;> infer_instance
  split
  · split <;> infer_instance
  · infer_instance

theorem passes_of_silent {x : Argument × Nat} (hparam : a.param? sig x.2 = some param)
    (h : Silent (passArgument r name sig a x) s) : Passes r param s x.1 := by
  obtain ⟨⟨arg, checked?⟩, index⟩ := x
  unfold passArgument at h
  dsimp only at h hparam
  rw [hparam] at h
  cases checked? with
  | some o =>
      have hrecorded : Silent (recordExpected arg param >>= fun _ =>
          discard (assignTo arg o param ("argument to " ++ name))) s := h
      have hsuits : o.Suits ((recordExpected arg param).run s).2.model param :=
        silent_assignTo.mp (silent_bind.mp hrecorded).2
      exact hsuits
  | none => exact silent_assignTo.mp (silent_bind.mp h).2

theorem passed_of_silent (hsome : a.spread = true → a.all ≠ [])
    (h : Silent (applySignature r call name sig a) s) :
    Passed r name sig a s := by
  rw [applySignature_eq] at h
  cases hcount : (if a.spread then a.count == sig.params.length else sig.accepts a.count) with
  | false =>
      rw [hcount, Bool.not_false, if_pos rfl] at h
      cases hproblem : countProblem? call name sig a with
      | none =>
          obtain ⟨hdots, hempty, -⟩ := (countProblem?_eq_none_iff hcount).mp hproblem
          exact absurd hempty (hsome hdots)
      | some entry =>
          rw [hproblem] at h
          exact absurd h not_silent_problem_bind
  | true =>
      rw [hcount, Bool.not_true, if_neg Bool.false_ne_true] at h
      refine ⟨hcount, fun before x after param hsplit hparam => ?_⟩
      exact passes_of_silent hparam (silent_forM_iff.mp h before x after hsplit)

end Arguments

section Overloads

-- The first look at an argument.
def firstLook (r : Rules) (arg : Tree) : CheckM Argument := do
  return (arg, ← if isDeferred arg then pure none else some <$> r.expr arg none)

-- The overload that a call is taken to be of: the first one that fits, or the only one.
def chosen? (m : Model) (signatures : List Signature) (a : Arguments) : Option Signature :=
  (signatures.find? (signatureFits m · a)) <|>
    (match signatures with
    | [only] => some only
    | _ => none)

theorem mem_of_chosen? {m : Model} (h : chosen? m signatures a = some sig) :
    sig ∈ signatures ∧ (signatureFits m sig a = true ∨ signatures = [sig]) := by
  rcases (Option.orElse_eq_some _ _ _).mp h with hfound | ⟨-, honly⟩
  · exact ⟨List.mem_of_find?_eq_some hfound, .inl (List.find?_some hfound :)⟩
  · split at honly
    case h_1 only =>
      cases honly
      exact ⟨List.mem_cons_self, .inr rfl⟩
    case h_2 => cases honly

instance : Asks (overloads? o) fun s => ((overloads? o).run s).1 where
  run s := by
    unfold overloads?
    rw [run_ask_bind]
    dsimp only
    split <;> rfl

instance {id? : Option SymbolId} :
    Asks (receiverOf callee id?) fun s => ((receiverOf callee id?).run s).1 where
  run s := by
    unfold receiverOf
    rw [run_ask_bind]
    dsimp only
    split
    · rfl
    · split <;> rfl

-- What is done with a call once its arguments have been looked at.
def finishCall (r : Rules) (call callee : Tree) (o : Operand) (signatures : List Signature)
    (receiver : Option Ty × Option NamedId) (a : Arguments) : CheckM Operand := do
  match chosen? (← model) signatures a with
  | some sig =>
      applySignature r call callee.text sig a
      recordCall call ⟨o.symbol, some sig, receiver.1, receiver.2⟩
      return resultOperand sig
  | none => noOverload r call callee.text a

theorem checkFuncCall_eq (h : ((overloads? o).run s).1 = some signatures) :
    (checkFuncCall r call callee o).run s = (call.args.mapM (firstLook r) >>= fun args =>
      finishCall r call callee o signatures ((receiverOf callee o.symbol).run s).1
        ⟨args, call.argList?.any Tree.hasSpread⟩).run s := by
  unfold checkFuncCall
  dsimp only
  rw [run_ask_bind, h]
  dsimp only
  rw [run_ask_bind]
  rfl

theorem run_finishCall {receiver : Option Ty × Option NamedId} (h : chosen? s.model signatures a = some sig) :
    (finishCall r call callee o signatures receiver a).run s =
      (resultOperand sig, ((recordCall call ⟨o.symbol, some sig, receiver.1, receiver.2⟩).run
        ((applySignature r call callee.text sig a).run s).2).2) := by
  unfold finishCall
  rw [run_ask_bind, h]
  rfl

-- The call is recorded as one of the overload, which takes its arguments. A spread argument goes to a
-- variadic function, or to one without other overloads.
structure Accepted (r : Rules) (call callee : Tree) (o : Operand) (s : State) (sig : Signature)
    (args : List Argument) (mid : State) : Prop where
  overload : ∃ signatures, ((overloads? o).run s).1 = some signatures ∧ sig ∈ signatures
  looked : (call.args.mapM (firstLook r)).run s = (args, mid)
  passed : Passed r callee.text sig ⟨args, call.argList?.any Tree.hasSpread⟩ mid
  spread : call.argList?.any Tree.hasSpread = true →
    sig.variadic = true ∨ ((overloads? o).run s).1 = some [sig]
  recorded : ∃ receiver implicitReceiver last, (checkFuncCall r call callee o).run s =
    (resultOperand sig, ((recordCall call ⟨o.symbol, some sig, receiver, implicitReceiver⟩).run last).2)

theorem variadic_of_signatureFits {m : Model} (h : signatureFits m sig a = true) (hspread : a.spread = true) :
    sig.variadic = true := by
  have hcount : countFits sig a = true := (Bool.and_eq_true_iff.mp h).1
  rw [countFits, hspread, if_pos rfl] at hcount
  exact (Bool.and_eq_true_iff.mp hcount).1

variable [GathersRules r]

theorem not_silent_noOverload : ¬Silent (noOverload r call name a) s := by
  unfold noOverload
  rw [silent_ask_bind]
  exact not_silent_problem_bind

instance {arg : Tree} : Gathers (firstLook r arg) := by
  unfold firstLook
  infer_instance

instance {receiver : Option Ty × Option NamedId} :
    Gathers (finishCall r call callee o signatures receiver a) := by
  unfold finishCall
  refine .bind inferInstance fun m => ?_
  split <;> infer_instance

theorem checkFuncCall_accepts (hsome : call.argList?.any Tree.hasSpread = true → call.args ≠ [])
    (h : Silent (checkFuncCall r call callee o) s) :
    ∃ sig args mid, Accepted r call callee o s sig args mid := by
  cases hsignatures : ((overloads? o).run s).1 with
  | none =>
      unfold checkFuncCall at h
      dsimp only at h
      rw [silent_ask_bind, hsignatures] at h
      dsimp only at h
      rw [silent_ask_bind] at h
      exact absurd h not_silent_problem_bind
  | some signatures =>
      have hrun : (checkFuncCall r call callee o).run s = _ := checkFuncCall_eq hsignatures
      rw [Silent, hrun] at h
      obtain ⟨-, hfinish⟩ := silent_bind.mp h
      obtain ⟨args, mid, hlooked⟩ : ∃ args mid, (call.args.mapM (firstLook r)).run s = (args, mid) :=
        ⟨_, _, rfl⟩
      rw [hlooked] at hfinish
      unfold finishCall at hfinish
      rw [silent_ask_bind] at hfinish
      cases hchosen : chosen? mid.model signatures ⟨args, call.argList?.any Tree.hasSpread⟩ with
      | none =>
          rw [hchosen] at hfinish
          exact absurd hfinish not_silent_noOverload
      | some sig =>
          rw [hchosen] at hfinish
          obtain ⟨hmem, hfits⟩ := mem_of_chosen? hchosen
          refine ⟨sig, args, mid, ⟨signatures, hsignatures, hmem⟩, hlooked, ?_, fun hspread => ?_, ?_⟩
          · refine passed_of_silent (fun hspread hnone => ?_) (silent_bind.mp hfinish).1
            have hlength := length_run_mapM (firstLook r) call.args s
            rw [hlooked, show args = [] from hnone] at hlength
            exact hsome hspread (List.length_eq_zero_iff.mp hlength.symm)
          · refine hfits.imp (fun hfits => variadic_of_signatureFits hfits hspread) fun honly => ?_
            rw [hsignatures, honly]
          · rw [StateT.run_bind, hlooked] at hrun
            exact ⟨_, _, _, hrun.trans (run_finishCall hchosen)⟩

-- A call of a function is accepted where nothing is reported.
theorem checkCall_accepts {expected? : Option Ty} {found : State} (hcallee : call.expr? = some callee)
    (hfound : (r.expr callee none).run s = (o, found)) (hmode : o.mode = .value ∨ o.mode = .noValue)
    (hsome : call.argList?.any Tree.hasSpread = true → call.args ≠ [])
    (h : Silent (checkCall r call expected?) s) :
    ∃ sig args mid, Accepted r call callee o found sig args mid := by
  unfold checkCall at h
  rw [hcallee] at h
  obtain ⟨-, hcall⟩ := (silent_bind_of inferInstance fun o => by split <;> infer_instance).mp h
  rw [hfound] at hcall
  refine checkFuncCall_accepts hsome ?_
  rcases hmode with hmode | hmode <;> (dsimp only at hcall; rw [hmode] at hcall; exact hcall)

end Overloads

end SpriteScript.Check
