import Mathlib.Data.List.Forall2
import SpriteScript.Proofs.Checking.Calls
import SpriteScript.Proofs.Identifiers.Expressions

-- Calls are read once, although some of the arguments wait until an overload is chosen.
namespace SpriteScript.Check

-- The instances for the parts of a long function are found in one search.
set_option synthInstance.maxSize 1000

variable {ground : Ground} {file : FileId} {r : Rules} [hr : ReadsRules r]

theorem reads_checkAll (ts : List Tree) : Reads ground file ts (checkAll r ts) := by
  unfold checkAll
  refine Reads.before (.forIn_trees fun e _ _ => ?_) fun _ => inferInstance
  exact (reads_expr e none).discard.before fun _ => inferInstance

instance (callee : Tree) (id? : Option SymbolId) : Runs (Passing ground file) (receiverOf callee id?) := by
  unfold receiverOf
  refine .bind inferInstance fun s => ?_
  split
  · infer_instance
  · dsimp only
    split <;> infer_instance

instance (o : Operand) : Runs (Passing ground file) (overloads? o) := by
  unfold overloads?
  refine .bind inferInstance fun m => ?_
  dsimp only
  split <;> infer_instance

-- The arguments that wait.
def Arguments.waiting (a : Arguments) : List Tree := (a.all.filter (·.2.isNone)).map (·.1)

theorem reads_applySignature (call : Tree) (name : String) (s : Signature) (a : Arguments)
    (htold : ∀ entry ∈ a.all, ∀ o, entry.2 = some o → Told ground file entry.1 o.value) :
    Reads ground file a.waiting (applySignature r call name s a) := by
  have hwaiting : a.waiting =
      a.all.zipIdx.flatMap fun entry => if entry.1.2.isNone then [entry.1.1] else [] := by
    have hpicked :=
      List.flatMap_map Prod.fst (fun arg : Argument => if arg.2.isNone then [arg.1] else []) a.all.zipIdx
    rw [List.zipIdx_map_fst] at hpicked
    rw [← hpicked, Arguments.waiting]
    rw [List.map_eq_flatMap, flatMap_filter]
  unfold applySignature
  extract_lets fits next
  have hnext (u : Unit) : Reads ground file a.waiting (next u) := by
    rw [hwaiting]
    refine Reads.before (.forIn fun ((arg, checked?), index) hentry _ => ?_) fun _ => inferInstance
    have harg := htold _ (List.fst_mem_of_mem_zipIdx hentry)
    dsimp -zeta only at harg ⊢
    extract_lets param? after
    clear_value param?
    have hafter (ground : Ground) (o : Operand) (_ : Told ground file arg o.value) :
        Runs (Passing ground file) (after o) := by
      unfold after
      split <;> infer_instance
    cases checked? with
    | none => exact reads_expr_before arg param? fun facts o ho => hafter _ o ho
    | some o =>
        have := hafter ground o (harg o rfl)
        refine .of_runs ?_
        simp only [pure_bind]
        split <;> infer_instance
  split
  · split
    · exact .after inferInstance hnext
    · exact .after inferInstance hnext
  · exact hnext ()

theorem reads_noOverload (call : Tree) (name : String) (a : Arguments) :
    Reads ground file a.waiting (noOverload r call name a) := by
  unfold noOverload
  refine .after inferInstance fun m => ?_
  extract_lets types
  exact .after inferInstance fun _ => (reads_checkAll _).before fun _ => inferInstance

-- The first pass leaves the arguments that are deferred.
theorem waiting_of_forall₂ {args : List Tree} {all : List Argument} {spread : Bool}
    (h : List.Forall₂ (fun arg entry => entry.1 = arg ∧ entry.2.isNone = isDeferred arg) args all) :
    Arguments.waiting ⟨all, spread⟩ = args.filter isDeferred := by
  unfold Arguments.waiting
  dsimp only
  induction h with
  | nil => rfl
  | cons hentry _ ih =>
      obtain ⟨rfl, hnone⟩ := hentry
      rw [List.filter_cons, List.filter_cons, hnone]
      split
      · rw [List.map_cons, ih]
      · exact ih

-- What the first pass makes of an argument.
structure FirstPass (file : FileId) (arg : Tree) (ground : Ground) (entry : Argument) : Prop where
  tree : entry.1 = arg
  waits : entry.2.isNone = isDeferred arg
  told : ∀ o, entry.2 = some o → Told ground file arg o.value

theorem FirstPass.learn {arg : Tree} {entry : Argument} (h : FirstPass file arg ground entry)
    (facts : List Fact) : FirstPass file arg (ground.learn facts) entry :=
  ⟨h.tree, h.waits, fun o ho => (h.told o ho).learn facts⟩

theorem told_of_forall₂ {args : List Tree} {all : List Argument}
    (h : List.Forall₂ (fun arg entry => FirstPass file arg ground entry) args all) :
    ∀ entry ∈ all, ∀ o, entry.2 = some o → Told ground file entry.1 o.value := by
  induction h with
  | nil => exact List.forall_mem_nil _
  | cons hentry _ ih => exact List.forall_mem_cons.mpr ⟨hentry.tree ▸ hentry.told, ih⟩

theorem reads_checkFuncCall (call callee : Tree) (o : Operand) :
    Reads ground file call.args (checkFuncCall r call callee o) := by
  unfold checkFuncCall
  extract_lets name
  refine .after inferInstance fun signatures? => ?_
  split
  case h_1 signatures =>
    refine .after inferInstance fun receivers => ?_
    obtain ⟨receiver, implicitReceiver⟩ := receivers
    dsimp only
    have hpass (ground : Ground) (arg : Tree) : Learns ground file (if !isDeferred arg then [arg] else []) (do
        return (arg, ← if isDeferred arg then pure none else some <$> r.expr arg none))
          (FirstPass file arg) := by
      cases hdeferred : isDeferred arg with
      | true =>
          exact .of_runs (inferInstance : Runs _ (do return (arg, ← pure none) : CheckM Argument))
            fun _ => ⟨rfl, hdeferred.symm, fun _ heq => absurd heq.symm (Option.some_ne_none _)⟩
      | false =>
          refine ((hr.expr ground file arg none).map (Q := fun ground o? => ∃ o, o? = some o ∧
            Told ground file arg o.value) fun _ o ho => ⟨o, rfl, ho⟩).before_learns fun facts o? ho => ?_
          obtain ⟨o, rfl, ho⟩ := ho
          exact .of_runs inferInstance fun _ => ⟨rfl, hdeferred.symm, fun _ heq => Option.some.inj heq ▸ ho⟩
    have hfirst : Learns ground file _ _ _ :=
      .mapM (l := call.args) (fun ground arg _ => hpass ground arg) fun _ _ facts _ h => h.learn facts
    rw [← flatMap_filter, ← List.map_eq_flatMap, List.map_id'] at hfirst
    have hparts : Tree.Below (call.args.filter (!isDeferred ·) ++ call.args.filter isDeferred) call.args :=
      .of_perm (List.perm_append_comm.trans (List.filter_append_perm isDeferred call.args))
    refine Reads.below (hfirst.bind fun facts all hall => ?_) hparts
    rw [← waiting_of_forall₂ (hall.imp fun _ _ h => ⟨h.tree, h.waits⟩)]
    refine .after inferInstance fun m => ?_
    split
    · exact (reads_applySignature call name _ _ (told_of_forall₂ hall)).before fun _ => inferInstance
    · exact reads_noOverload call name _
  case h_2 =>
    exact .after inferInstance fun text => .after inferInstance fun _ =>
      (reads_checkAll _).before fun _ => inferInstance

theorem reads_checkConversion (call : Tree) (target : Ty) :
    Reads ground file call.args (checkConversion r call target) := by
  unfold checkConversion
  generalize call.args = args
  split
  case h_1 arg =>
    exact reads_expr_before arg _ fun facts o _ => inferInstance
  case h_2 =>
    exact .after inferInstance fun name => .after inferInstance fun _ =>
      (reads_checkAll _).before fun _ => inferInstance

theorem reads_checkLen (call : Tree) : Reads ground file call.args (checkLen r call) := by
  unfold checkLen
  generalize call.args = args
  split
  case h_1 arg =>
    refine (reads_expr arg none).before fun o => ?_
    split
    · infer_instance
    · dsimp only
      split <;> infer_instance
  case h_2 => exact .after inferInstance fun _ => (reads_checkAll _).before fun _ => inferInstance

theorem reads_checkAppend (call : Tree) (expected? : Option Ty) :
    Reads ground file call.args (checkAppend r call expected?) := by
  unfold checkAppend
  generalize call.args = args
  split
  case h_1 => exact .of_runs inferInstance
  case h_2 first rest =>
    refine .bind_cons (reads_expr first expected?) fun o => ?_
    split
    · exact (reads_checkAll rest).before fun _ => inferInstance
    · refine .after inferInstance fun u => ?_
      split
      · refine Reads.before (.forIn_of (e := Prod.fst) (by rw [List.zipIdx_map_fst]) fun x _ _ => ?_)
          fun _ => inferInstance
        obtain ⟨arg, index⟩ := x
        exact reads_expr_before arg _ fun facts value _ => inferInstance
      · exact .after inferInstance fun text => .after inferInstance fun _ =>
          (reads_checkAll rest).before fun _ => inferInstance

theorem reads_checkBuiltin (call : Tree) (o : Operand) (expected? : Option Ty) :
    Reads ground file call.args (checkBuiltin r call o expected?) := by
  unfold checkBuiltin
  split
  · refine .after inferInstance fun s => ?_
    extract_lets next
    have hnext (result : Operand) : Runs (Passing ground file) (next result) := by
      unfold next
      infer_instance
    split
    · exact (reads_checkLen call).before hnext
    · exact (reads_checkAppend call expected?).before hnext
    · refine Reads.before (.forIn_trees fun arg _ _ => ?_) fun _ => inferInstance
      exact reads_expr_before arg none fun facts o _ => inferInstance
  · exact .of_runs inferInstance

theorem reads_checkCall (call : Tree) (expected? : Option Ty) :
    Reads ground file [call] (checkCall r call expected?) := by
  refine Reads.below ?_ call.below_call
  unfold checkCall
  split
  case h_1 callee hcallee =>
    rw [hcallee]
    refine .bind (reads_expr callee none) fun o => ?_
    split
    · exact (reads_checkAll _).before fun _ => inferInstance
    · exact reads_checkConversion call _
    · exact reads_checkBuiltin call o expected?
    · exact .of_runs inferInstance
    · exact reads_checkFuncCall call callee o
    · exact reads_checkFuncCall call callee o
  case h_2 => exact ((reads_checkAll _).before fun _ => inferInstance).sublist (List.sublist_append_right _ _)

instance (t : Tree) (id : SymbolId) : Runs (Passing ground file) (checkBareCall t id) := by
  unfold checkBareCall
  refine .bind inferInstance fun s => ?_
  split <;> infer_instance

end SpriteScript.Check
