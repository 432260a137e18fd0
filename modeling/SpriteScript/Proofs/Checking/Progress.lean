import Mathlib.Algebra.GroupWithZero.Nat
import Mathlib.Algebra.Order.BigOperators.Group.List
import Mathlib.Algebra.Order.Group.Nat
import SpriteScript.Proofs.Checking.Silence

-- How far a check is with the specifications. A specification is running while it is looked into
-- and finished then, and nothing is found out by looking into it again.
namespace SpriteScript.Check

open Problem

-- The same specification, which may have been looked into meanwhile.
structure PendingSpec.GoesOn (p q : PendingSpec) : Prop where
  same : q = { p with progress := q.progress }
  progress : q.progress = p.progress ∨ p.progress = .untouched ∧ q.progress = .finished

-- Specifications that are looked into are finished with, and nothing is taken back.
structure Progressing (s s' : State) : Prop where
  size : s'.specs.size = s.specs.size
  goesOn : ∀ (i : Nat) (p : PendingSpec), s.specs[i]? = some p → ∃ q, s'.specs[i]? = some q ∧ p.GoesOn q
  specOf : s'.specOf = s.specOf
  problems : s.problems <:+ s'.problems

-- The specification is the one at the index, and it is so far.
def State.IsAt (s : State) (progress : Progress) (i : Nat) : Prop :=
  ∃ p, s.specs[i]? = some p ∧ p.progress = progress

-- The specifications as parts of their files.
def PendingSpec.part (p : PendingSpec) : FileId × Tree := (p.context.file, p.spec)

def State.specParts (s : State) : List (FileId × Tree) := s.specs.toList.map PendingSpec.part

-- How deep the values are that were not looked into yet.
def PendingSpec.owed (p : PendingSpec) : Nat :=
  match p.progress with
  | .untouched => p.spec.height
  | .running | .finished => 0

def State.owed (s : State) : Nat := (s.specs.toList.map PendingSpec.owed).sum

variable {s s' : State} {p q o : PendingSpec} {i index : Nat} {progress : Progress} {r : Rules}

theorem State.isAt_of_getElem? (h : s'.specs[i]? = s.specs[i]?) : s'.IsAt progress i ↔ s.IsAt progress i := by
  unfold State.IsAt
  rw [h]

theorem State.isAt_congr (h : s'.specs = s.specs) : s'.IsAt = s.IsAt := by
  funext progress i
  exact propext (State.isAt_of_getElem? (congrArg (·[i]?) h))

namespace PendingSpec

theorem GoesOn.refl (p : PendingSpec) : p.GoesOn p := ⟨rfl, .inl rfl⟩

theorem GoesOn.trans (h : p.GoesOn q) (h' : q.GoesOn o) : p.GoesOn o where
  same := by rw [h'.same, h.same]
  progress := by
    rcases h'.progress with heq | ⟨hq, ho⟩
    · rw [heq]
      exact h.progress
    · refine .inr ⟨?_, ho⟩
      rcases h.progress with heq | ⟨-, hfinished⟩
      · rw [← heq, hq]
      · rw [hfinished] at hq
        cases hq

theorem GoesOn.owed_le (h : p.GoesOn q) : q.owed ≤ p.owed := by
  rcases h.progress with heq | ⟨-, hfinished⟩
  · rw [PendingSpec.owed, PendingSpec.owed, heq, h.same]
  · rw [PendingSpec.owed, hfinished]
    exact Nat.zero_le _

end PendingSpec

theorem progressing_of_specs (hspecs : s'.specs = s.specs) (hspecOf : s'.specOf = s.specOf)
    (hproblems : s.problems <:+ s'.problems) : Progressing s s' where
  size := by rw [hspecs]
  goesOn i p hp := ⟨p, hspecs ▸ hp, .refl p⟩
  specOf := hspecOf
  problems := hproblems

instance : IsPreorder State Progressing where
  refl _ := progressing_of_specs rfl rfl List.suffix_rfl
  trans _ _ _ h h' := by
    refine ⟨h'.size.trans h.size, fun i p hp => ?_, h'.specOf.trans h.specOf, h.problems.trans h'.problems⟩
    obtain ⟨q, hq, hpq⟩ := h.goesOn i p hp
    obtain ⟨o, ho, hqo⟩ := h'.goesOn i q hq
    exact ⟨o, ho, hpq.trans hqo⟩

theorem getElem?_specParts (s : State) (i : Nat) : s.specParts[i]? = s.specs[i]?.map PendingSpec.part := by
  rw [State.specParts, List.getElem?_map, Array.getElem?_toList]

theorem length_specParts (s : State) : s.specParts.length = s.specs.size := by
  rw [State.specParts, List.length_map, Array.length_toList]

namespace Progressing

variable (h : Progressing s s')

include h

theorem exists_before (hq : s'.specs[i]? = some q) : ∃ p, s.specs[i]? = some p ∧ p.GoesOn q := by
  have hlt : i < s.specs.size := h.size ▸ (Array.getElem?_eq_some_iff.mp hq).1
  obtain ⟨q', hq', hgoesOn⟩ := h.goesOn i _ (Array.getElem?_eq_getElem hlt)
  obtain rfl := Option.some.inj (hq.symm.trans hq')
  exact ⟨_, Array.getElem?_eq_getElem hlt, hgoesOn⟩

theorem specParts : s'.specParts = s.specParts := by
  refine List.ext_getElem? fun i => ?_
  rw [getElem?_specParts, getElem?_specParts]
  cases hp : s.specs[i]? with
  | none =>
      have hle : s.specs.size ≤ i := Array.getElem?_eq_none_iff.mp hp
      rw [Array.getElem?_eq_none (h.size ▸ hle)]
  | some p =>
      obtain ⟨q, hq, hgoesOn⟩ := h.goesOn i p hp
      rw [hq, hgoesOn.same]
      rfl

theorem finished (hi : s.IsAt .finished i) : s'.IsAt .finished i := by
  obtain ⟨p, hp, hprogress⟩ := hi
  obtain ⟨q, hq, hgoesOn⟩ := h.goesOn i p hp
  refine ⟨q, hq, ?_⟩
  rcases hgoesOn.progress with heq | ⟨-, hfinished⟩
  · rw [heq, hprogress]
  · exact hfinished

-- What is running before an action is what is running after it.
theorem running : s'.IsAt .running i ↔ s.IsAt .running i := by
  constructor
  · rintro ⟨q, hq, hprogress⟩
    obtain ⟨p, hp, hgoesOn⟩ := h.exists_before hq
    refine ⟨p, hp, ?_⟩
    rcases hgoesOn.progress with heq | ⟨-, hfinished⟩
    · rw [← heq, hprogress]
    · rw [hprogress] at hfinished
      cases hfinished
  · rintro ⟨p, hp, hprogress⟩
    obtain ⟨q, hq, hgoesOn⟩ := h.goesOn i p hp
    refine ⟨q, hq, ?_⟩
    rcases hgoesOn.progress with heq | ⟨huntouched, -⟩
    · rw [heq, hprogress]
    · rw [hprogress] at huntouched
      cases huntouched

theorem owed_le : s'.owed ≤ s.owed := by
  refine List.Forall₂.sum_le_sum (List.forall₂_map_left_iff.mpr (List.forall₂_map_right_iff.mpr ?_))
  refine List.forall₂_iff_get.mpr
    ⟨by rw [Array.length_toList, Array.length_toList, h.size], fun i hi hi' => ?_⟩
  have hp : s.specs[i]? = some (s.specs.toList.get ⟨i, hi'⟩) := by
    rw [← Array.getElem?_toList, List.get_eq_getElem, List.getElem?_eq_getElem]
  obtain ⟨q, hq, hgoesOn⟩ := h.goesOn i _ hp
  rw [← Array.getElem?_toList, List.getElem?_eq_getElem hi, Option.some.injEq] at hq
  rw [List.get_eq_getElem, hq]
  exact hgoesOn.owed_le

end Progressing

instance : Routine Progressing where
  context _ _ := progressing_of_specs rfl rfl List.suffix_rfl
  info _ _ := progressing_of_specs rfl rfl List.suffix_rfl
  problem _ _ _ _ _ := progressing_of_specs rfl rfl (List.suffix_cons _ _)
  symbol _ _ _ := progressing_of_specs rfl rfl List.suffix_rfl
  composite x body _ hbody _ := by
    refine ⟨fun s => ?_⟩
    have hadded : Progressing s ((addNamed x).run s).2 := progressing_of_specs rfl rfl List.suffix_rfl
    have hfilled :
        Progressing ((body ⟨s.model.named.size⟩).run ((addNamed x).run s).2).2
        ((addComposite x body).run s).2 :=
      progressing_of_specs rfl rfl List.suffix_rfl
    exact trans_of Progressing hadded (trans_of Progressing ((hbody ⟨s.model.named.size⟩).run _) hfilled)
  crashed _ := progressing_of_specs rfl rfl List.suffix_rfl
  addScope _ _ := progressing_of_specs rfl rfl List.suffix_rfl
  declare _ _ _ _ := progressing_of_specs rfl rfl List.suffix_rfl

section Looking

theorem getElem?_setProgress (s : State) (index : Nat) (progress : Progress) (i : Nat) :
    ((setProgress index progress).run s).2.specs[i]? =
      if index = i then s.specs[i]?.map ({ · with progress }) else s.specs[i]? := by
  change (s.specs.modify index _)[i]? = _
  rw [Array.getElem?_modify]

theorem getElem?_setProgress_of_ne (progress : Progress) (h : index ≠ i) :
    ((setProgress index progress).run s).2.specs[i]? = s.specs[i]? := by
  rw [getElem?_setProgress, if_neg h]

theorem isAt_setProgress {a : Nat} {progress' : Progress} :
    ((setProgress index progress).run s).2.IsAt progress' a ↔
    if a = index then a < s.specs.size ∧ progress = progress' else s.IsAt progress' a := by
  split
  case isTrue h =>
    subst h
    unfold State.IsAt
    rw [getElem?_setProgress, if_pos rfl]
    constructor
    · rintro ⟨q, hq, hprogress⟩
      obtain ⟨p, hp, rfl⟩ := Option.map_eq_some_iff.mp hq
      exact ⟨(Array.getElem?_eq_some_iff.mp hp).1, hprogress⟩
    · rintro ⟨hlt, rfl⟩
      exact ⟨_, Option.map_eq_some_iff.mpr ⟨_, Array.getElem?_eq_getElem hlt, rfl⟩, rfl⟩
  case isFalse h => exact State.isAt_of_getElem? (getElem?_setProgress_of_ne _ (Ne.symm h))

-- A list of numbers when one of them becomes zero.
theorem sum_map_modify {α : Type} {f : α → Nat} {g : α → α} {x : α} (hg : f (g x) = 0) {l : List α} {i : Nat}
    (hx : l[i]? = some x) : f x + ((l.modify i g).map f).sum = (l.map f).sum := by
  induction l generalizing i with
  | nil => cases hx
  | cons y rest ih =>
      cases i with
      | zero =>
          cases hx
          rw [List.modify_zero_cons, List.map_cons, List.sum_cons, hg, Nat.zero_add, List.map_cons,
            List.sum_cons]
      | succ i =>
          rw [List.modify_succ_cons, List.map_cons, List.map_cons, List.sum_cons, List.sum_cons, ← ih hx]
          exact Nat.add_left_comm ..

-- A specification that is started with is not owed any more.
theorem owed_setProgress (hp : s.specs[index]? = some p) (huntouched : p.progress = .untouched) :
    p.spec.height + ((setProgress index .running).run s).2.owed = s.owed := by
  have howed : p.owed = p.spec.height := by rw [PendingSpec.owed, huntouched]
  rw [← Array.getElem?_toList] at hp
  have hsum := sum_map_modify (f := PendingSpec.owed) (g := ({ · with progress := .running })) rfl hp
  rw [howed, ← Array.toList_modify] at hsum
  exact hsum

instance {f : Model → Model} : Runs Progressing (modifyModel f) :=
  ⟨fun _ => progressing_of_specs rfl rfl List.suffix_rfl⟩

instance {isConst : Bool} {id : SymbolId} {ty : Ty} {value : Option Constant} :
    Runs Progressing (settle isConst id ty value) := by
  unfold settle
  refine .bind inferInstance fun s => ?_
  dsimp only
  split <;> infer_instance

instance {values : List (Ty × Option Constant)} : Runs Progressing (settleAll p values) :=
  .forM fun _ _ => inferInstance

-- What is done while the specification is running.
def lookIntoValues (r : Rules) (p : PendingSpec) : CheckM Unit := do
  let values ← within p.context (specValues r p.spec p.symbols.length p.isConst)
  settleAll p values

theorem run_lookIntoSpec (r : Rules) (index : Nat) (p : PendingSpec) (s : State) :
    (lookIntoSpec r index p).run s =
    (setProgress index .finished).run
    ((lookIntoValues r p).run ((setProgress index .running).run s).2).2 := rfl

variable [hr : RunsRules Progressing r]

instance : Runs Progressing (lookIntoValues r p) := by
  have hvalues : Runs Progressing (within p.context (specValues r p.spec p.symbols.length p.isConst)) :=
    .withinContext inferInstance
  unfold lookIntoValues
  infer_instance

-- A specification that is looked into is finished with.
theorem finished_lookIntoSpec (hp : s.specs[index]? = some p) :
    ((lookIntoSpec r index p).run s).2.IsAt .finished index := by
  have hstarted :
      ((setProgress index .running).run s).2.specs[index]? = some { p with progress := .running } := by
    rw [getElem?_setProgress, if_pos rfl, hp]
    rfl
  have hvalues : Runs Progressing (lookIntoValues r p) := inferInstance
  obtain ⟨q, hq, -⟩ := (hvalues.run _).goesOn index _ hstarted
  refine ⟨{ q with progress := .finished }, ?_, rfl⟩
  rw [run_lookIntoSpec, getElem?_setProgress, if_pos rfl, hq]
  rfl

theorem progressing_lookIntoSpec (hp : s.specs[index]? = some p) (huntouched : p.progress = .untouched) :
    Progressing s ((lookIntoSpec r index p).run s).2 := by
  have hvalues : Runs Progressing (lookIntoValues r p) := inferInstance
  have hmid := hvalues.run ((setProgress index .running).run s).2
  rw [run_lookIntoSpec]
  refine ⟨?_, fun i q hq => ?_, hmid.specOf, hmid.problems⟩
  · change (Array.modify _ index _).size = _
    rw [Array.size_modify, hmid.size]
    exact Array.size_modify ..
  · rw [getElem?_setProgress]
    by_cases hi : index = i
    · subst hi
      obtain rfl := Option.some.inj (hp.symm.trans hq)
      obtain ⟨last, hlast, hgoesOn⟩ := hmid.goesOn index { p with progress := .running } (by
        rw [getElem?_setProgress, if_pos rfl, hp]
        rfl)
      refine ⟨{ last with progress := .finished }, ?_, ?_, .inr ⟨huntouched, rfl⟩⟩
      · rw [if_pos rfl, hlast]
        rfl
      · rw [hgoesOn.same]
    · rw [if_neg hi]
      refine hmid.goesOn i q ?_
      rwa [getElem?_setProgress, if_neg hi]

instance : Resolves Progressing where
  resolveSpec r index hr := by
    refine ⟨fun s => ?_⟩
    rcases resolveSpec_cases r index s with ⟨-, hrun⟩ | ⟨p, hp, ⟨-, hrun⟩ | ⟨huntouched, hrun⟩⟩
    · rw [hrun]
      exact refl_of Progressing s
    · rw [hrun]
      exact progressing_of_specs rfl rfl (List.suffix_cons _ _)
    · rw [hrun]
      exact progressing_lookIntoSpec hp huntouched

-- Whatever was not running is finished when it was looked into.
theorem finished_resolveSpec (hi : i < s.specs.size) (hidle : ¬ s.IsAt .running i) :
    ((resolveSpec r i).run s).2.IsAt .finished i := by
  rcases resolveSpec_cases r i s with ⟨hfinished, hrun⟩ | ⟨p, hp, ⟨hrunning, -⟩ | ⟨-, hrun⟩⟩
  · rw [hrun]
    have hp : s.specs[i]? = some s.specs[i] := Array.getElem?_eq_getElem hi
    exact ⟨_, hp, hfinished _ hp⟩
  · exact absurd ⟨p, hp, hrunning⟩ hidle
  · rw [hrun]
    exact finished_lookIntoSpec hp

end Looking

end SpriteScript.Check
