import SpriteScript.Proofs.Checking.Progress

-- The order in which specifications are looked into. However often a specification is needed, it is
-- in that order once.
namespace SpriteScript.Check

-- Specifications are looked into one after the other, each before those that are found to be needed
-- on the way.
inductive LooksInto : List Nat → State → State → Prop
  | nothing {s s' : State} (h : s'.specs = s.specs) : LooksInto [] s s'
  | next {r : Rules} {index : Nat} {p : PendingSpec} {needed : List Nat} {s : State}
      (hp : s.specs[index]? = some p) (huntouched : p.progress = .untouched)
      (h : LooksInto needed ((setProgress index .running).run s).2
        ((lookIntoValues r p).run ((setProgress index .running).run s).2).2) :
      LooksInto (index :: needed) s ((lookIntoSpec r index p).run s).2
  | append {before behind : List Nat} {s s' s'' : State} (h : LooksInto before s s')
      (h' : LooksInto behind s' s'') :
      LooksInto (before ++ behind) s s''

-- What is looked into was not touched before, and nothing else changes.
structure Looked (order : List Nat) (s s' : State) : Prop where
  nodup : order.Nodup
  fresh : ∀ index ∈ order, s.IsAt .untouched index ∧ ¬ s'.IsAt .untouched index
  other : ∀ index ∉ order, s'.specs[index]? = s.specs[index]?

-- Specifications are looked into, whichever they are.
def Looking (s s' : State) : Prop := ∃ order, LooksInto order s s'

variable {s s' s'' : State} {order before behind : List Nat} {index i : Nat} {progress : Progress}
variable {r : Rules} {p : PendingSpec}

section Once

theorem not_untouched_setProgress (h : progress ≠ .untouched) :
    ¬ ((setProgress index progress).run s).2.IsAt .untouched index := by
  rw [isAt_setProgress, if_pos rfl]
  exact fun huntouched => h huntouched.2

theorem Looked.append (h : Looked before s s') (h' : Looked behind s' s'') :
    Looked (before ++ behind) s s'' := by
  have hapart {i : Nat} (hi : i ∈ before) : i ∉ behind :=
    fun hbehind => (h.fresh i hi).2 (h'.fresh i hbehind).1
  refine ⟨List.nodup_append.mpr ⟨h.nodup, h'.nodup, ?_⟩, fun i hi => ?_, fun i hi => ?_⟩
  · rintro i hi j hj rfl
    exact hapart hi hj
  · rcases List.mem_append.mp hi with hbefore | hbehind
    · obtain ⟨huntouched, htouched⟩ := h.fresh i hbefore
      exact ⟨huntouched, mt (State.isAt_of_getElem? (h'.other i (hapart hbefore))).mp htouched⟩
    · obtain ⟨huntouched, htouched⟩ := h'.fresh i hbehind
      exact ⟨(State.isAt_of_getElem? (h.other i fun hbefore => hapart hbefore hbehind)).mp huntouched,
        htouched⟩
  · obtain ⟨hbefore, hbehind⟩ := not_or.mp (mt List.mem_append.mpr hi)
    exact (h'.other i hbehind).trans (h.other i hbefore)

-- What is needed on the way is something else.
theorem Looked.next (h : Looked order ((setProgress index .running).run s).2 s')
    (hp : s.specs[index]? = some p) (huntouched : p.progress = .untouched) :
    Looked (index :: order) s ((setProgress index .finished).run s').2 := by
  have hindex : index ∉ order :=
    fun hindex => not_untouched_setProgress (by decide : Progress.running ≠ .untouched)
    (h.fresh index hindex).1
  have hend : ¬ ((setProgress index .finished).run s').2.IsAt .untouched index :=
    not_untouched_setProgress (by decide)
  refine ⟨List.nodup_cons.mpr ⟨hindex, h.nodup⟩,
    List.forall_mem_cons.mpr ⟨⟨⟨p, hp, huntouched⟩, hend⟩, fun i hi => ?_⟩, fun i hi => ?_⟩
  · have hne : index ≠ i := fun heq => hindex (heq ▸ hi)
    obtain ⟨hbefore, hbehind⟩ := h.fresh i hi
    exact ⟨(State.isAt_of_getElem? (getElem?_setProgress_of_ne _ hne)).mp hbefore,
      mt (State.isAt_of_getElem? (getElem?_setProgress_of_ne _ hne)).mp hbehind⟩
  · obtain ⟨hne, hi⟩ := List.ne_and_not_mem_of_not_mem_cons hi
    rw [getElem?_setProgress_of_ne _ hne.symm, h.other i hi, getElem?_setProgress_of_ne _ hne.symm]

theorem LooksInto.looked (h : LooksInto order s s') : Looked order s s' := by
  induction h with
  | nothing h => exact ⟨.nil, nofun, fun i _ => by rw [h]⟩
  | next hp huntouched _ ih => exact ih.next hp huntouched
  | append _ _ ih ih' => exact ih.append ih'

-- From where nothing was touched to where everything was, everything is looked into once.
theorem LooksInto.perm_range (h : LooksInto order s s') (huntouched : ∀ i < s.specs.size, s.IsAt .untouched i)
    (htouched : ∀ i < s.specs.size, ¬ s'.IsAt .untouched i) : order.Perm (List.range s.specs.size) := by
  refine (List.perm_ext_iff_of_nodup h.looked.nodup List.nodup_range).mpr fun i => ?_
  rw [List.mem_range]
  constructor
  · intro hi
    obtain ⟨p, hp, -⟩ := (h.looked.fresh i hi).1
    exact (Array.getElem?_eq_some_iff.mp hp).1
  · intro hi
    by_contra hother
    exact htouched i hi ((State.isAt_of_getElem? (h.looked.other i hother)).mpr (huntouched i hi))

end Once

section Runs

theorem looking_of_specs (h : s'.specs = s.specs) : Looking s s' := ⟨[], .nothing h⟩

instance : IsPreorder State Looking where
  refl _ := looking_of_specs rfl
  trans _ _ _ := fun ⟨_, h⟩ ⟨_, h'⟩ => ⟨_, h.append h'⟩

instance : Routine Looking where
  context _ _ := looking_of_specs rfl
  info _ _ := looking_of_specs rfl
  problem _ _ _ _ _ := looking_of_specs rfl
  symbol _ _ _ := looking_of_specs rfl
  composite x body _ hbody _ := by
    refine ⟨fun s => ?_⟩
    have hadded : Looking s ((addNamed x).run s).2 := looking_of_specs rfl
    have hfilled :
        Looking ((body ⟨s.model.named.size⟩).run ((addNamed x).run s).2).2 ((addComposite x body).run s).2 :=
      looking_of_specs rfl
    exact trans_of Looking hadded (trans_of Looking ((hbody ⟨s.model.named.size⟩).run _) hfilled)
  crashed _ := looking_of_specs rfl
  addScope _ _ := looking_of_specs rfl
  declare _ _ _ _ := looking_of_specs rfl

instance {f : Model → Model} : Runs Looking (modifyModel f) := ⟨fun _ => looking_of_specs rfl⟩

instance {isConst : Bool} {id : SymbolId} {ty : Ty} {value : Option Constant} :
    Runs Looking (settle isConst id ty value) := by
  unfold settle
  refine .bind inferInstance fun s => ?_
  dsimp only
  split <;> infer_instance

instance : Resolves Looking where
  resolveSpec r index hr := by
    refine ⟨fun s => ?_⟩
    rcases resolveSpec_cases r index s with ⟨-, hrun⟩ | ⟨p, hp, ⟨-, hrun⟩ | ⟨huntouched, hrun⟩⟩
    · rw [hrun]
      exact refl_of Looking s
    · rw [hrun]
      exact looking_of_specs rfl
    · have hvalues : Runs Looking (within p.context (specValues r p.spec p.symbols.length p.isConst)) :=
        .withinContext inferInstance
      have hsettled (values : List (Ty × Option Constant)) : Runs Looking (settleAll p values) :=
        .forM fun _ _ => inferInstance
      have hlook : Runs Looking (lookIntoValues r p) := by
        unfold lookIntoValues
        infer_instance
      obtain ⟨needed, hneeded⟩ := hlook.run ((setProgress index .running).run s).2
      rw [hrun]
      exact ⟨index :: needed, .next hp huntouched hneeded⟩

end Runs

end SpriteScript.Check
