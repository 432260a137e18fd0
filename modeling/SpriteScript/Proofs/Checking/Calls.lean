import SpriteScript.Proofs.Checking.Expressions
import Mathlib.Data.List.Forall2

-- Calls.
namespace SpriteScript.Check

-- The instances for the parts of a long function are found in one search.
set_option synthInstance.maxSize 1000

variable {w : Stage} {file : FileId} {r : Rules} [KeepsRules w r]

theorem keeps_checkAll {ts : List Tree} (h : SitAll w file ts) :
    Keeps w file (checkAll r ts) := by
  unfold checkAll
  refine .bind (.forIn fun e he _ => ?_) fun _ => inferInstance
  have : Sits w file e := h.sits e he
  infer_instance

instance (ts : List Tree) [h : SitAll w file ts] : Keeps w file (checkAll r ts) :=
  keeps_checkAll h

instance (callee : Tree) (id? : Option SymbolId) : Keeps w file (receiverOf callee id?) := by
  unfold receiverOf
  refine .bind inferInstance fun s => ?_
  split
  · infer_instance
  · dsimp only
    split <;> infer_instance

instance (o : Operand) : Keeps w file (overloads? o) := by
  unfold overloads?
  refine .bind inferInstance fun m => ?_
  dsimp only
  split <;> infer_instance

-- A wrong number of arguments has a place, unless one is spread that is not there and none is needed.
theorem countProblem?_eq_none_iff {call : Tree} {name : String} {s : Signature} {a : Arguments}
    (hfits : (if a.spread then a.count == s.params.length else s.accepts a.count) = false) :
    countProblem? call name s a = none ↔ a.spread = true ∧ a.all = [] ∧ s.fixedCount = 0 := by
  have hzero (h : a.all = []) : a.count = 0 := by rw [Arguments.count, h, List.length_nil]
  unfold countProblem?
  split
  case isTrue hfew =>
    have hneeded : ¬(a.spread = true ∧ a.all = [] ∧ s.fixedCount = 0) := fun ⟨_, hnone, hfixed⟩ => by
      rw [hzero hnone, hfixed] at hfew
      exact Nat.lt_irrefl 0 hfew
    simp [hneeded]
  case isFalse henough =>
    rw [Option.map_eq_none_iff, List.getElem?_eq_none_iff]
    constructor
    · intro hpast
      have hnone : a.all = [] := by
        refine List.length_eq_zero_iff.mp ?_
        unfold Arguments.count at hpast
        omega
      rw [hzero hnone] at hfits henough
      have hfixed : s.fixedCount = 0 := by omega
      refine ⟨?_, hnone, hfixed⟩
      -- what takes no argument and needs none accepts none
      refine Bool.of_not_eq_false fun hplain => ?_
      rw [hplain, if_neg Bool.false_ne_true] at hfits
      unfold Signature.accepts at hfits
      unfold Signature.fixedCount at hfits hfixed
      cases hvariadic : s.variadic <;> simp_all
    · rintro ⟨-, hnone, -⟩
      simp [hnone]

theorem inText_countProblem? {call : Tree} [Sits w file call] {name : String} {s : Signature}
    {a : Arguments} (hargs : ∀ arg ∈ a.all, Sits w file arg.1) {range : Text.ByteRange}
    {p : Problem} (h : countProblem? call name s a = some (range, p)) :
    InText w file range := by
  unfold countProblem? at h
  split at h
  · cases h
    cases hclose : call.argList?.bind (·.tokenOf? .rParen) with
    | none => exact (inferInstance : InText w file call.range)
    | some close =>
        obtain ⟨list, hlist, htoken⟩ := Option.bind_eq_some_iff.mp hclose
        have : Sits w file list := .of_childWith? hlist
        have : Free w file close := .of_find? htoken
        exact (inferInstance : InText w file (rangeOf close))
  · obtain ⟨arg, harg, heq⟩ := Option.map_eq_some_iff.mp h
    have : Sits w file arg.1 := hargs arg (List.mem_of_getElem? harg)
    cases heq
    infer_instance

theorem refuted_countProblem? {call : Tree} {name : String} {s : Signature} {a : Arguments}
    {range : Text.ByteRange} {p : Problem} (h : countProblem? call name s a = some (range, p)) :
    Refuted p.isOfResource := by
  unfold countProblem? at h
  split at h
  · cases h
    infer_instance
  · obtain ⟨arg, -, heq⟩ := Option.map_eq_some_iff.mp h
    cases heq
    infer_instance

-- Where it counts that each spread argument is there, nothing breaks off.
theorem keeps_crash (h : ¬w.strict) : Keeps w file crash :=
  .of_sane (fun _ => rfl) (fun _ => rfl) (fun _ => rfl) (fun _ => List.suffix_rfl) fun _ hs =>
    { hs with crashed := fun hstrict => absurd hstrict h }

theorem keeps_applySignature {call : Tree} [Sits w file call] {name : String} {s : Signature}
    {a : Arguments} (hargs : ∀ arg ∈ a.all, Sits w file arg.1)
    (hspread : w.strict → a.spread = true → a.all ≠ []) :
    Keeps w file (applySignature r call name s a) := by
  unfold applySignature
  extract_lets fits next
  have hnext (u : Unit) : Keeps w file (next u) := by
    refine .bind (.forIn fun ((arg, checked?), index) hentry _ => ?_) fun _ => inferInstance
    have : Sits w file arg := hargs (arg, checked?) (List.fst_mem_of_mem_zipIdx hentry)
    dsimp -zeta only
    extract_lets param? after
    clear_value param?
    have hafter (o : Operand) : Keeps w file (after o) := by
      unfold after
      split <;> infer_instance
    split
    · split <;> infer_instance
    · infer_instance
  split
  case isTrue hwrong =>
    split
    case h_1 range p hp =>
      have := inText_countProblem? hargs hp
      have := refuted_countProblem? hp
      exact .bind inferInstance hnext
    case h_2 hnone =>
      refine .bind (keeps_crash fun hstrict => ?_) hnext
      obtain ⟨hdots, hempty, -⟩ := (countProblem?_eq_none_iff (Bool.not_eq_eq_eq_not.mp hwrong)).mp hnone
      exact hspread hstrict hdots hempty
  case isFalse => exact hnext ()

theorem keeps_noOverload {call : Tree} [Sits w file call] {name : String} {a : Arguments}
    (hargs : ∀ arg ∈ a.all, Sits w file arg.1) :
    Keeps w file (noOverload r call name a) := by
  have hdeferred : SitAll w file ((a.all.filter (·.2.isNone)).map (·.1)) := by
    refine ⟨fun t ht => ?_⟩
    obtain ⟨arg, harg, rfl⟩ := List.mem_map.mp ht
    exact hargs arg (List.mem_filter.mp harg).1
  unfold noOverload
  infer_instance

theorem keeps_checkFuncCall {call callee : Tree} [Sits w file call] [Sits w file callee]
    (hcall : call.isCall = true) (o : Operand) :
    Keeps w file (checkFuncCall r call callee o) := by
  unfold checkFuncCall
  extract_lets name
  refine .bind inferInstance fun signatures? => ?_
  split
  case h_1 signatures =>
    refine .bind inferInstance fun receivers => ?_
    obtain ⟨receiver, implicitReceiver⟩ := receivers
    dsimp only
    have hstep (arg : Tree) (harg : arg ∈ call.args) : Keeps w file (do
        return (arg, ← if isDeferred arg then pure none else some <$> r.expr arg none)) := by
      have : Sits w file arg := .of_mem harg
      split <;> infer_instance
    refine Keeps.bind_of (.mapM hstep)
      (.mapM (P := fun arg entry => arg = entry.1) (fun arg harg => have := hstep arg harg; inferInstance)
        fun arg harg s hs => ?_) fun all hall => .bind inferInstance fun m => ?_
    · dsimp only
      split <;> rfl
    · have hall : call.args = all.map (·.1) := by
        rw [← List.forall₂_eq_eq_eq, List.forall₂_map_right_iff]
        exact hall.imp fun _ _ h => h
      have hargs (entry : Argument) (hentry : entry ∈ all) : Sits w file entry.1 :=
        .of_mem (hall ▸ List.mem_map_of_mem hentry : entry.1 ∈ call.args)
      have hspread (hstrict : w.strict) (h : call.argList?.any Tree.hasSpread = true) : all ≠ [] := by
        intro hnone
        rw [hnone] at hall
        exact Sits.args_ne_nil (inferInstance : Sits w file call) hstrict hcall h hall
      split
      · exact .bind (keeps_applySignature hargs hspread) fun _ => inferInstance
      · exact keeps_noOverload hargs
  case h_2 => infer_instance

instance (call : Tree) (target : Ty) [Sits w file call] : Keeps w file (checkConversion r call target) := by
  have hargs : SitAll w file call.args := inferInstance
  unfold checkConversion
  generalize call.args = args at hargs
  split
  case h_1 arg =>
    have : Sits w file arg := hargs.sits arg List.mem_cons_self
    infer_instance
  case h_2 => infer_instance

instance (call : Tree) [Sits w file call] : Keeps w file (checkLen r call) := by
  have hargs : SitAll w file call.args := inferInstance
  unfold checkLen
  generalize call.args = args at hargs
  split
  case h_1 arg =>
    have : Sits w file arg := hargs.sits arg List.mem_cons_self
    refine .bind inferInstance fun o => ?_
    split
    · infer_instance
    · dsimp only
      split <;> infer_instance
  case h_2 => infer_instance

instance (call : Tree) (expected? : Option Ty) [Sits w file call] :
    Keeps w file (checkAppend r call expected?) := by
  have hargs : SitAll w file call.args := inferInstance
  unfold checkAppend
  generalize call.args = args at hargs
  split
  case h_1 => infer_instance
  case h_2 first rest =>
    have : Sits w file first := hargs.sits first List.mem_cons_self
    have hrest : SitAll w file rest := ⟨fun t ht => hargs.sits t (List.mem_cons_of_mem first ht)⟩
    refine .bind inferInstance fun o => ?_
    split
    · infer_instance
    · refine .bind inferInstance fun u => ?_
      split
      · refine .bind (.forIn fun entry hentry _ => ?_) fun _ => inferInstance
        have : Sits w file entry.1 := hrest.sits _ (List.fst_mem_of_mem_zipIdx hentry)
        infer_instance
      · infer_instance

instance (call : Tree) (o : Operand) (expected? : Option Ty) [Sits w file call] :
    Keeps w file (checkBuiltin r call o expected?) := by
  have hargs : SitAll w file call.args := inferInstance
  unfold checkBuiltin
  split
  · refine .bind inferInstance fun s => ?_
    extract_lets next
    have hnext (result : Operand) : Keeps w file (next result) := by
      unfold next
      infer_instance
    split
    · infer_instance
    · infer_instance
    · refine .bind (.forIn fun arg harg _ => ?_) fun _ => .bind inferInstance hnext
      have : Sits w file arg := hargs.sits arg harg
      infer_instance
  · infer_instance

theorem keeps_checkCall {call : Tree} [Sits w file call] (hcall : call.isCall = true)
    (expected? : Option Ty) : Keeps w file (checkCall r call expected?) := by
  unfold checkCall
  split
  case h_1 callee hcallee =>
    have : Sits w file callee := .of_childWith? hcallee
    have (o : Operand) : Keeps w file (checkFuncCall r call callee o) := keeps_checkFuncCall hcall o
    refine .bind inferInstance fun o => ?_
    split <;> infer_instance
  case h_2 => infer_instance

instance (t : Tree) (id : SymbolId) [Sits w file t] : Keeps w file (checkBareCall t id) := by
  unfold checkBareCall
  refine .bind inferInstance fun s => ?_
  split <;> infer_instance

end SpriteScript.Check
