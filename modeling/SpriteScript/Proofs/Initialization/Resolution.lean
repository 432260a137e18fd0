import SpriteScript.Proofs.Initialization.OpenSpecs
import SpriteScript.Proofs.Initialization.Order
import SpriteScript.Proofs.Initialization.Specifications

-- Every specification of a program is looked into once, and a cycle is reported just where a
-- specification needs itself.
namespace SpriteScript.Check

open Relation

-- The name of the symbol stands in the specification.
def Part.Declares (i : Info) (p : Part) (x : SymbolId) : Prop :=
  ∃ ident ∈ p.2.names.filterMap Tree.ident?, i.defs[(p.1, rangeOf ident)]? = some x

-- An initial value of the first specification contains a name that means a symbol of the second one.
def DependsOn (specs : List Part) (i : Info) (d e : Part) : Prop :=
  d ∈ specs ∧ e ∈ specs ∧ ∃ key x, d.Mentions key ∧ i.uses[key]? = some x ∧ e.Declares i x

-- Everything was looked into.
def State.Finished (s : State) : Prop := ∀ i < s.specs.size, s.IsAt .finished i

-- When everything was looked into, nothing is looked into any more.
def Concluded (s s' : State) : Prop := s.Finished → Calm s s'

variable {ground : Ground} {file : FileId} {w : Outlook} {missing rest parts : List Part} {s s' : State}
variable {r r' : Rules}
variable {n fuel fuel' : Nat} {i : Info} {p : PendingSpec} {x : SymbolId}

section Moves

instance {id : NamedId} : Runs Calm (resolveNamed fuel id) := by
  have hreport {file : FileId} {range : Text.ByteRange} {name : String} :
      Runs Calm (problemIn file range (.recursiveType name)) :=
    ⟨fun s => ⟨rfl, rfl, List.suffix_cons _ _, unreported_cons nofun⟩⟩
  refine .resolveNamed (fun _ _ => calm_of_eq rfl rfl rfl) (fun id name pending => ?_) fun id u =>
    ⟨fun s => ?_⟩
  · unfold reportRecursion
    exact .bind hreport fun _ => ⟨fun _ => calm_of_eq rfl rfl rfl⟩
  · rw [run_closeType]
    exact calm_of_eq rfl rfl rfl

instance : Runs Calm resolveTypes := .resolveTypes fun _ _ => inferInstance

instance : Runs Calm resolveSignatures :=
  .resolveSignatures (fun _ _ => calm_of_eq rfl rfl rfl) (fun _ _ => calm_of_eq rfl rfl rfl)
    fun _ _ _ => calm_of_eq rfl rfl rfl

theorem Calm.finished (h : Calm s s') (hs : s.Finished) : s'.Finished := by
  unfold State.Finished
  rw [State.isAt_congr h.specs, h.specs]
  exact hs

instance : IsPreorder State Concluded where
  refl s _ := refl_of Calm s
  trans _ _ _ h h' hs := trans_of Calm (h hs) (h' ((h hs).finished hs))

instance : Routine Concluded where
  context s c _ := TypeRoutine.context s c
  info s i _ := TypeRoutine.info s i
  problem s file range p hp _ := TypeRoutine.problem s file range p hp
  symbol s x hx _ := TypeRoutine.symbol s x hx
  composite x body _ hbody _ := by
    refine ⟨fun s hs => ?_⟩
    have hadded : Calm s ((addNamed x).run s).2 := calm_of_eq rfl rfl rfl
    have hfilled :
        Calm ((body ⟨s.model.named.size⟩).run ((addNamed x).run s).2).2 ((addComposite x body).run s).2 :=
      calm_of_eq rfl rfl rfl
    exact trans_of Calm hadded
      (trans_of Calm ((hbody ⟨s.model.named.size⟩).run _ (hadded.finished hs)) hfilled)
  crashed s _ := Routine.crashed s
  addScope s x _ := Routine.addScope s x
  declare s scope name entry _ := Routine.declare s scope name entry

instance : Resolves Concluded where
  resolveSpec r index _ := by
    refine ⟨fun s hs => ?_⟩
    rcases resolveSpec_cases r index s with ⟨-, hrun⟩ | ⟨p, hp, hopen⟩
    · rw [hrun]
      exact refl_of Calm s
    · obtain ⟨q, hq, hfinished⟩ := hs index (Array.getElem?_eq_some_iff.mp hp).1
      obtain rfl := Option.some.inj (hp.symm.trans hq)
      rw [hfinished] at hopen
      rcases hopen with ⟨hrunning, -⟩ | ⟨huntouched, -⟩
      · cases hrunning
      · cases huntouched

end Moves

section Outlooks

variable (hplain : ∀ p ∈ parts, ∀ value ∈ p.2.listed 0, value.Plain)
variable (hown : ∀ p ∈ parts, p.1.isBundled = false)

-- What there is to look into when nothing was looked into yet.
def OpensSpecs.outlook (h : OpensSpecs parts s) : Outlook where
  parts := parts
  specOf := s.specOf
  linked x index hx := by
    obtain ⟨p, hp, -⟩ := (h.linked x index).mp hx
    rw [← h.parts, length_specParts]
    exact (Array.getElem?_eq_some_iff.mp hp).1
  plain := hplain
  own := hown

theorem OpensSpecs.isAt_untouched (h : OpensSpecs parts s) (index : Nat) (hindex : index < s.specs.size) :
    s.IsAt .untouched index :=
  ⟨_, Array.getElem?_eq_getElem hindex, h.untouched _ (Array.mem_toList_iff.mpr (Array.getElem_mem hindex))⟩

theorem OpensSpecs.initializing (h : OpensSpecs parts s) (hs : Ahead ground file rest s) :
    Initializing (h.outlook hplain hown) ground file [] rest [] s := by
  have hat {progress : Progress} {index : Nat} (hprogress : progress ≠ .untouched) :
      ¬ s.IsAt progress index := by
    rintro ⟨p, hp, rfl⟩
    exact hprogress (h.untouched p (Array.mem_toList_iff.mpr (Array.mem_of_getElem? hp)))
  exact {
    ahead := hs
    parts := h.parts
    specOf := rfl
    running := fun a => iff_of_false (hat (by decide)) List.not_mem_nil
    nodup := .nil
    descent := .start h.silent fun a => hat (by decide) }

theorem OpensSpecs.owed_eq (h : OpensSpecs parts s) : s.owed = (parts.map (·.2.height)).sum := by
  rw [State.owed, ← h.parts, State.specParts, List.map_map]
  refine congrArg List.sum (List.map_congr_left fun p hp => ?_)
  rw [PendingSpec.owed, h.untouched p hp]
  rfl

end Outlooks

section Loop

theorem run_forM_nil {γ : Type} (f : γ → CheckM PUnit) (s : State) :
    (([] : List γ).forM f).run s = (⟨⟩, s) := rfl

theorem run_forM_cons {γ : Type} (f : γ → CheckM PUnit) (x : γ) (l : List γ) (s : State) :
    ((x :: l).forM f).run s = (l.forM f).run ((f x).run s).2 := rfl

-- All specifications are entered, one after the other.
theorem Initializing.forM_resolveSpec {l : List Nat} (hentered : w.Entered n r r')
    (hl : ∀ index ∈ l, index < w.parts.length) (hs : Initializing w ground file missing rest [] s)
    (howed : s.owed ≤ n) :
    (l.forM (resolveSpec r')).run s = (l.forM (resolveSpec r)).run s ∧ ∃ missing',
      Reached w ground file (missing' ++ missing) rest []
      (fun _ => False) s ((l.forM (resolveSpec r)).run s).2 := by
  induction l generalizing s missing with
  | nil =>
      rw [run_forM_nil, run_forM_nil]
      exact ⟨rfl, [], hs, refl_of Progressing s, .refl _, nofun⟩
  | cons index others ih =>
      obtain ⟨hindex, hothers⟩ := List.forall_mem_cons.mp hl
      obtain ⟨hrun, -, missing', hfirst⟩ := hentered ground file missing rest [] s index hs howed hindex nofun
      obtain ⟨hruns, missing'', hrest⟩ :=
        ih hothers hfirst.initializing (hfirst.progressing.owed_le.trans howed)
      rw [run_forM_cons, run_forM_cons, hrun]
      refine ⟨hruns, missing'' ++ missing', ?_⟩
      rw [List.append_assoc]
      exact { hfirst.trans hrest with answers := nofun }

theorem Initializing.resolveSpecs (hentered : w.Entered n r r')
    (hs : Initializing w ground file missing rest [] s) (howed : s.owed ≤ n) :
    (resolveSpecs r').run s = (resolveSpecs r).run s ∧ ∃ missing',
      Reached w ground file (missing' ++ missing) rest [] (fun _ => False) s ((resolveSpecs r).run s).2 := by
  refine hs.forM_resolveSpec hentered (fun index hindex => ?_) howed
  rw [← hs.parts, length_specParts]
  exact List.mem_range.mp hindex

variable [RunsRules Progressing r]

theorem finished_forM {l : List Nat} (hl : ∀ index ∈ l, index < s.specs.size)
    (hidle : ∀ index, ¬ s.IsAt .running index) :
    ∀ index ∈ l, ((l.forM (resolveSpec r)).run s).2.IsAt .finished index := by
  induction l generalizing s with
  | nil => exact nofun
  | cons first others ih =>
      obtain ⟨hfirst, hothers⟩ := List.forall_mem_cons.mp hl
      have hspec : Runs Progressing (resolveSpec r first) := Resolves.resolveSpec r first inferInstance
      have hloop : Runs Progressing (others.forM (resolveSpec r)) :=
        .forM fun index _ => Resolves.resolveSpec r index inferInstance
      have hgone := hspec.run s
      rw [run_forM_cons]
      refine List.forall_mem_cons.mpr
        ⟨(hloop.run _).finished (finished_resolveSpec hfirst (hidle first)), ih ?_ fun index => ?_⟩
      · rwa [hgone.size]
      · exact mt hgone.running.mp (hidle index)

-- Where nothing is running everything is finished with.
theorem finished_resolveSpecs (hidle : ∀ index, ¬ s.IsAt .running index) :
    ((resolveSpecs r).run s).2.Finished := by
  have hall : Runs Progressing (resolveSpecs r) := inferInstance
  intro index hindex
  rw [(hall.run s).size] at hindex
  exact finished_forM (fun _ => List.mem_range.mp) hidle index (List.mem_range.mpr hindex)

end Loop

section Cycles

theorem PendingSpec.Named.declares_iff (h : p.Named i) : Part.Declares i p.part x ↔ x ∈ p.symbols := by
  unfold PendingSpec.Named at h
  unfold Part.Declares
  change (∃ ident ∈ p.spec.names.filterMap Tree.ident?, i.defs[(p.context.file, rangeOf ident)]? = some x) ↔ _
  generalize p.spec.names.filterMap Tree.ident? = idents at h
  generalize p.symbols = symbols at h
  induction h with
  | nil => simp
  | cons hdef _ ih =>
      rw [List.exists_mem_cons_iff, ih, hdef, Option.some.injEq, List.mem_cons, eq_comm]

variable {hplain : ∀ p ∈ parts, ∀ value ∈ p.2.listed 0, value.Plain}
variable {hown : ∀ p ∈ parts, p.1.isBundled = false}

-- Specifications need each other as their names do.
theorem OpensSpecs.cycle_iff (h : OpensSpecs parts s) (hnamed : ∀ p ∈ s.specs.toList, p.Named i) :
    (∃ a, TransGen ((h.outlook hplain hown).Needs i) a a) ↔ ∃ d, TransGen (DependsOn parts i) d d := by
  have hpart {a : Nat} {d : Part} : parts[a]? = some d ↔ ∃ p, s.specs[a]? = some p ∧ p.part = d := by
    rw [← h.parts, getElem?_specParts, Option.map_eq_some_iff]
  have hdeclares {a : Nat} {p : PendingSpec} {x : SymbolId} (hp : s.specs[a]? = some p) :
      Part.Declares i p.part x ↔ s.specOf[x]? = some a := by
    rw [(hnamed p (Array.mem_toList_iff.mpr (Array.mem_of_getElem? hp))).declares_iff, h.linked]
    constructor
    · exact fun hx => ⟨p, hp, hx⟩
    · rintro ⟨q, hq, hx⟩
      rwa [Option.some.inj (hp.symm.trans hq)]
  constructor
  · rintro ⟨a, ha⟩
    obtain ⟨_, ⟨_, _, ⟨d, -⟩, -⟩, -⟩ := TransGen.head'_iff.mp ha
    refine ⟨(parts[a]?).getD d, ha.lift (fun a => (parts[a]?).getD d) ?_⟩
    rintro a b ⟨key, x, ⟨e, he, hmentions⟩, huse, hspec⟩
    obtain ⟨q, hq, -⟩ := (h.linked x b).mp hspec
    have hb : parts[b]? = some q.part := hpart.mpr ⟨q, hq, rfl⟩
    have ha : parts[a]? = some e := he
    change DependsOn parts i ((parts[a]?).getD d) ((parts[b]?).getD d)
    rw [ha, hb]
    exact ⟨List.mem_of_getElem? ha, List.mem_of_getElem? hb, key, x, hmentions, huse,
      (hdeclares hq).mpr hspec⟩
  · rintro ⟨d, hd⟩
    have hfind : ∀ d ∈ parts, ∃ a, parts[a]? = some d := fun d => List.mem_iff_getElem?.mp
    choose! g hg using hfind
    refine ⟨g d, hd.lift g ?_⟩
    rintro d e ⟨hd, he, key, x, hmentions, huse, hdeclared⟩
    obtain ⟨q, hq, rfl⟩ := hpart.mp (hg e he)
    exact ⟨key, x, ⟨d, hg d hd, hmentions⟩, huse, (hdeclares hq).mp hdeclared⟩

end Cycles

section Phases

-- What comes before the specifications.
def resolveNames : CheckM Unit := do
  resolveTypes
  resolveSignatures

theorem run_seq {α : Type} (a : CheckM PUnit) (b : CheckM α) (s : State) :
    (do a; b : CheckM α).run s = b.run (a.run s).2 := rfl

theorem run_resolveDeclarations (r : Rules) (s : State) :
    (resolveDeclarations r).run s = (resolveSpecs r).run (resolveNames.run s).2 := by
  have hphases : resolveDeclarations r = (do resolveNames; resolveSpecs r) := by
    simp only [resolveNames, resolveDeclarations_eq, resolveOthers_eq, bind_assoc]
  rw [hphases, run_seq]

instance : Runs Calm resolveNames := .bind inferInstance fun _ => inferInstance

instance : Runs (Passing ground file) resolveNames := .bind inferInstance fun _ => inferInstance

variable (h : OpensSpecs parts s) (hs : Ahead ground file rest s)

include h

theorem OpensSpecs.not_running (index : Nat) : ¬ s.IsAt .running index := by
  rintro ⟨p, hp, hrunning⟩
  cases (h.untouched p (Array.mem_toList_iff.mpr (Array.mem_of_getElem? hp))).symm.trans hrunning

include hs

theorem OpensSpecs.resolveNames :
    OpensSpecs parts (resolveNames.run s).2 ∧ Ahead ground file rest (resolveNames.run s).2 := by
  have hcalm : Runs Calm Check.resolveNames := inferInstance
  have hpassing (ground : Ground) : Runs (Passing ground file) Check.resolveNames := inferInstance
  exact ⟨h.next (hcalm.run s) (keeps_of_ahead (fun _ => (hpassing _).run s rest) hs),
    (hpassing ground).run s rest hs⟩

end Phases

section Declarations

-- Everything is finished with when everything was declared before.
theorem OpensSpecs.finished [RunsRules Progressing r] (h : OpensSpecs parts s)
    (hs : Ahead ground file rest s) : ((resolveDeclarations r).run s).2.Finished := by
  rw [run_resolveDeclarations]
  exact finished_resolveSpecs (h.resolveNames hs).1.not_running

-- Each specification is looked into once, however many names mean it.
theorem OpensSpecs.exists_order [RunsRules Progressing r] [RunsRules Looking r] (h : OpensSpecs parts s)
    (hs : Ahead ground file rest s) :
    ∃ order, LooksInto order s ((resolveDeclarations r).run s).2 ∧ order.Perm (List.range parts.length) := by
  have hcalm : Runs Calm Check.resolveNames := inferInstance
  have hlooking : Runs Looking (resolveSpecs r) := inferInstance
  have hprogressing : Runs Progressing (resolveSpecs r) := inferInstance
  have hsize : ((resolveDeclarations r).run s).2.specs.size = s.specs.size := by
    rw [run_resolveDeclarations, (hprogressing.run _).size, (hcalm.run s).specs]
  obtain ⟨order, horder⟩ := hlooking.run (Check.resolveNames.run s).2
  have hall : LooksInto order s ((resolveDeclarations r).run s).2 := by
    rw [run_resolveDeclarations]
    exact .append (.nothing (hcalm.run s).specs) horder
  refine ⟨order, hall, ?_⟩
  rw [← h.parts, length_specParts]
  refine hall.perm_range h.isAt_untouched fun index hindex huntouched => ?_
  obtain ⟨p, hp, hfinished⟩ := h.finished hs (r := r) index (hsize ▸ hindex)
  obtain ⟨q, hq, hprogress⟩ := huntouched
  obtain rfl := Option.some.inj (hp.symm.trans hq)
  cases hfinished.symm.trans hprogress

variable (hplain : ∀ p ∈ parts, ∀ value ∈ p.2.listed 0, value.Plain)
variable (hown : ∀ p ∈ parts, p.1.isBundled = false)

include hplain hown

-- Rules that lead deeper find nothing else.
theorem OpensSpecs.run_resolveDeclarations (h : OpensSpecs parts s) (hs : Ahead ground file rest s)
    (hfuel : (parts.map (·.2.height)).sum ≤ fuel) (hfuel' : (parts.map (·.2.height)).sum ≤ fuel') :
    (resolveDeclarations (rules fuel')).run s = (resolveDeclarations (rules fuel)).run s := by
  obtain ⟨hnamed, hahead⟩ := h.resolveNames hs
  rw [Check.run_resolveDeclarations, Check.run_resolveDeclarations]
  exact ((hnamed.initializing hplain hown hahead).resolveSpecs
    (entered_of_explored (explored_rules hfuel hfuel')) hnamed.owed_eq.le).1

-- What else is checked later on does not matter.
theorem OpensSpecs.reportsInitCycle_iff {later : CheckM Unit} [hlast : Runs Concluded later]
    (h : OpensSpecs parts s) (hs : Ahead ground file rest s)
    (hfuel : (parts.map (·.2.height)).sum ≤ fuel) (hlater : ∀ ground, Visits ground file rest later)
    (hs' : (later.run ((resolveDeclarations (rules fuel)).run s).2).2 = s') :
    s'.ReportsInitCycle ↔ ∃ d, TransGen (DependsOn parts s'.info) d d := by
  obtain ⟨hnamed, hahead⟩ := h.resolveNames hs
  obtain ⟨-, missing, hreached⟩ :=
    (hnamed.initializing hplain hown hahead).resolveSpecs
      (entered_of_explored (explored_rules hfuel hfuel)) hnamed.owed_eq.le
  have hfinished : ((resolveDeclarations (rules fuel)).run s).2.Finished := h.finished hs
  rw [Check.run_resolveDeclarations] at hs' hfinished
  obtain ⟨resolved, hresolved⟩ :
      ∃ resolved, resolved = ((resolveSpecs (rules fuel)).run (Check.resolveNames.run s).2).2 := ⟨_, rfl⟩
  rw [← hresolved] at hreached hfinished hs'
  have hinit := hreached.initializing
  rw [List.append_nil] at hinit
  have hahead : Ahead ground file (rest ++ missing) resolved := hinit.ahead.perm List.perm_append_comm
  have hend : Ahead ground file missing s' := hs' ▸ hlater ground missing resolved hahead
  have hkeeps : resolved.info.Keeps s'.info := hs' ▸ keeps_of_visits hlater hahead
  have hcalm : Calm resolved s' := hs' ▸ hlast.run resolved hfinished
  have hmissing (key : FileId × Text.ByteRange) (hkey : key ∈ keysOf missing) :
      s'.info.uses[key]? = none := by
    by_contra hnone
    have hmem := Std.HashMap.contains_eq_isSome_getElem?.trans (Option.isSome_iff_ne_none.mpr hnone)
    exact hend.unnoted key (by rw [keysOf_append]; exact List.mem_append_left _ hkey) (.inl hmem)
  have hall (index : Nat) (hindex : index < parts.length) : resolved.IsAt .finished index := by
    refine hfinished index ?_
    rwa [hreached.progressing.size, ← length_specParts, hnamed.parts]
  rw [hcalm.unreported.reportsInitCycle, hinit.reports_iff hall hkeeps hmissing]
  exact hnamed.cycle_iff fun p hp => ((hnamed.named p hp).mono hreached.keeps).mono hkeeps

end Declarations

end SpriteScript.Check
