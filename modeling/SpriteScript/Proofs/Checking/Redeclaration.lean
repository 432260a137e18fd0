import Mathlib.Data.List.Dedup
import SpriteScript.Proofs.Checking.Redeclaration.Declarations

-- Where names are told apart, whoever declares a name again is told so.
namespace SpriteScript.Check

-- The instances for the parts of a long function are found in one search.
set_option synthInstance.maxSize 1000

variable {s : State} {sources : List Source} {source : Source} {file : FileId} {sp : Space}
variable {package : String} {names : List String} {γ : Type}

section Sources

variable {unit : ScopeId} {body : ScopeId → Option NamedId → CheckM Unit}
variable {l : List γ} {x : γ} {g : γ → CheckM PUnit}

instance {fileClass : Option NamedId} {first : Bool} {items : List Tree} :
    Preserves (declareMembers unit fileClass first items) := by
  induction items generalizing first with
  | nil =>
      unfold declareMembers
      infer_instance
  | cons item rest ih =>
      rw [declareMembers_cons]
      exact .bind inferInstance fun _ => ih

instance {root : Tree} : Preserves (declareTypeNames root unit) :=
  .forM fun _ _ => inferInstance

instance : Preserves (classOf? file) := .of_read fun _ => rfl

instance [h : ∀ scope fileClass, Preserves (body scope fileClass)] :
    Preserves (withinSource package source body) := by
  unfold withinSource
  refine .bind inferInstance fun m => ?_
  split <;> infer_instance

-- What is done within a file brings its names where the classes are known.
theorem brings_withinSource [hbody : ∀ scope fileClass, Preserves (body scope fileClass)]
    (hsource : source ∈ sources)
    (h : ∀ scope owner, Brings sources source.file sp names (body scope (some owner))) :
    Brings sources file sp names (withinSource package source body) where
  run s := by
    have hsame : Preserves (withinSource package source body) := inferInstance
    refine ⟨hsame.run s, fun hfile hready hsound hexists history ht => ?_⟩
    obtain ⟨scope, owner, -, -, hrun⟩ := run_withinSource package hready hsource body
    rw [hrun]
    exact ((Brings.within (h scope owner)).run s).warned hfile hready hsound hexists history ht

instance (file : FileId) (scope : ScopeId) :
    Preserves (modifyModel fun m => { m with fileScopes := m.fileScopes ++ [(file, scope)] }) :=
  .modifyModel fun _ => ⟨fun _ _ h => h, le_rfl, le_rfl, List.subset_append_left ..⟩

-- A class is noted when it is there.
theorem preserving_noteClass {id : NamedId} {game? : Option NamedId} (hid : id.index < s.model.named.size) :
    Preserving s { s with classes := s.classes ++ [(file, id)], gameClass := game? } where
  model := .refl _
  file := rfl
  problems := List.suffix_rfl
  classes := List.prefix_append ..
  sound hs := List.forall_mem_append.mpr ⟨hs, List.forall_mem_singleton.mpr hid⟩

-- A class gets its name in the scope of the program.
def nameClass (package : String) (unit : ScopeId) (source : Source) (id : NamedId) : CheckM Unit := do
  let s ← addSymbol {
    name := source.className, kind := .typeName, package, ty := .named id
    definedAt := some ⟨source.file, .empty 0⟩ }
  modifyModel (·.modifyNamed id fun n => { n with symbol := some s })
  modifyModel (·.declare unit source.className ⟨s, 0, false⟩)

def openFile (unit : ScopeId) (source : Source) (id : NamedId) : CheckM Unit := do
  let scope ← addScope (fileScope unit source id)
  modifyModel fun m => { m with fileScopes := m.fileScopes ++ [(source.file, scope)] }

instance (id : NamedId) : Preserves (nameClass package unit source id) := by
  unfold nameClass
  infer_instance

instance (id : NamedId) : Preserves (openFile unit source id) := by
  unfold openFile
  infer_instance

-- The class is there before it is named, and noted afterwards.
theorem exists_nameClass (package : String) (unit : ScopeId) (source : Source) (s : State) :
    ∃ id s', Preserving s s' ∧
    Preserving ((nameClass package unit source id).run s').2
    ((declareClass package unit source).run s).2 := by
  obtain ⟨n, hn⟩ : ∃ n : NamedType, n = {
    name := source.className, package, underlying := .struct []
    classKind := some (if source.isEntry then .game else .sprite) } := ⟨_, rfl⟩
  obtain ⟨s', hs'⟩ : ∃ s', s' = ((addNamed n).run s).2 := ⟨_, rfl⟩
  obtain ⟨id, hid⟩ : ∃ id, id = ((addNamed n).run s).1 := ⟨_, rfl⟩
  obtain ⟨named, hnamed⟩ : ∃ named, named = ((nameClass package unit source id).run s').2 := ⟨_, rfl⟩
  have hnaming : Preserves (nameClass package unit source id) := inferInstance
  have hbefore : Preserving s s' := hs' ▸ (inferInstance : Preserves (addNamed n)).run s
  have hname : Preserving s' named := hnamed ▸ hnaming.run s'
  have hlt : id.index < named.model.named.size := by
    refine Nat.lt_of_lt_of_le ?_ hname.model.named
    rw [hid, hs']
    exact (Array.size_push n).symm ▸ Nat.lt_succ_self _
  refine ⟨id, s', hbefore, ?_⟩
  have hrun : ((declareClass package unit source).run s).2 = ((openFile unit source id).run { named with
      classes := named.classes ++ [(source.file, id)]
      gameClass := if source.isEntry then some id else named.gameClass }).2 := by
    rw [hnamed, hs', hid, hn]
    rfl
  rw [hrun, ← hnamed]
  exact trans_of Preserving (preserving_noteClass hlt)
    ((inferInstance : Preserves (openFile unit source id)).run _)

instance : Preserves (declareClass package unit source) where
  run s := by
    obtain ⟨id, s', hbefore, hbehind⟩ := exists_nameClass package unit source s
    have hnaming : Preserves (nameClass package unit source id) := inferInstance
    exact trans_of Preserving hbefore (trans_of Preserving (hnaming.run s') hbehind)

-- The classes of a program are known when they are declared, and their names are taken.

theorem ready_classes (s : State) : Ready sources ((sources.forM (declareClass package unit)).run s).2 := by
  intro source hsource
  have hclasses (y : Source) (_ : y ∈ sources) : Preserves (declareClass package unit y) := inferInstance
  obtain ⟨s', -, hbehind⟩ := exists_run_forM hclasses hsource s
  have hready : Ready [source] ((declareClass package unit source).run s').2 := by
    rw [Ready, List.forall_mem_singleton]
    exact ⟨⟨_, List.mem_append_right _ List.mem_cons_self⟩, _, List.mem_append_right _ List.mem_cons_self⟩
  exact hbehind.ready hready source List.mem_cons_self

theorem mem_names_nameClass {id : NamedId} (hunit : unit.index < s.model.scopes.size) :
    source.className ∈ (Space.scope unit).names ((nameClass package unit source id).run s).2.model :=
  Model.mem_names_declare _ hunit

theorem warned_classes (hunit : unit.index < s.model.scopes.size) :
    Warned (.scope unit) (sources.map (·.className)).dedup
      ((sources.forM (declareClass package unit)).run s).2 where
  taken name hname := by
    obtain ⟨source, hsource, rfl⟩ := List.mem_map.mp (List.mem_dedup.mp hname)
    have hclasses (y : Source) (_ : y ∈ sources) : Preserves (declareClass package unit y) := inferInstance
    obtain ⟨s', hbefore, hbehind⟩ := exists_run_forM hclasses hsource s
    obtain ⟨id, s'', hclass, hrest⟩ := exists_nameClass package unit source s'
    have hlt : Space.Exists s''.model (.scope unit) := (trans_of Preserving hbefore hclass).model.exists hunit
    exact .inl (hbehind.model.names _ (hrest.model.names _ (mem_names_nameClass hlt)))
  reported name hname := by
    have := List.nodup_iff_count_le_one.mp (List.nodup_dedup (sources.map (·.className))) name
    omega

instance (owner base : NamedId) : Preserves (embed owner base) := by
  unfold embed
  refine .bind inferInstance fun m => .bind inferInstance fun id => Preserves.modifyModel fun m => ?_
  refine m.keepsNames_modifyNamed owner (fun n => ?_) fun n => ?_
  · split
    case h_1 fields hfields => simp [NamedType.fieldNames, NamedType.fields, hfields]
    case h_2 => exact fun _ h => h
  · split <;> exact fun _ h => h

instance : Preserves (embedBases source) := Runs.embedBases

instance : Preserves openUnit := by
  unfold openUnit
  have (unit : ScopeId) : Preserves (modifyModel ({ · with unitScope := unit })) :=
    .modifyModel fun m => ⟨fun _ _ h => h, le_rfl, le_rfl, fun _ h => h⟩
  infer_instance

theorem exists_openUnit (s : State) : (openUnit.run s).1.index < (openUnit.run s).2.model.scopes.size := by
  change (s.model.addScope (unitScope s.model)).1.index < (s.model.addScope (unitScope s.model)).2.scopes.size
  rw [Model.fst_addScope, Model.length_frames]
  unfold Model.addScope
  dsimp only
  split <;> simp [Model.modifyScope]

theorem warned_nil (sp : Space) (s : State) : Warned sp [] s :=
  ⟨nofun, fun _ h => absurd h (Nat.not_succ_le_zero 1)⟩

-- What is declared behind the classes, in the scope of the program.
theorem brings_declareRest (hsources : ∀ source ∈ sources, source.file.isBundled = false) :
    Brings sources file (.scope unit)
      (sources.flatMap (·.tree.typeNames) ++ sources.flatMap (·.tree.valueNames))
      (declareRest package sources unit) := by
  unfold declareRest
  have : Preserves (sources.forM embedBases) := .forM fun _ _ => inferInstance
  refine .bind_right fun _ => .bind (.forM fun source hsource => ?_) fun _ => .forM fun source hsource => ?_
  · exact brings_withinSource hsource fun _ _ => brings_typeNames (hsources source hsource)
  · exact brings_withinSource hsource fun _ _ => brings_valueNames (hsources source hsource)

-- And in the class of a file.
theorem warned_declareRest (hsources : ∀ source ∈ sources, source.file.isBundled = false)
    (hready : Ready sources s) (hs : s.Sound) (hsource : source ∈ sources) : ∃ owner,
      Warned (.fields owner) source.tree.fieldNames ((declareRest package sources unit).run s).2 ∧
      Warned (.methods owner) source.tree.methodNames ((declareRest package sources unit).run s).2 := by
  have hclasses : Preserves (do
      sources.forM embedBases
      sources.forM fun source => withinSource package source fun _ _ => declareTypeNames source.tree unit) :=
    .bind (.forM fun _ _ => inferInstance) fun _ => .forM fun _ _ => inferInstance
  have hmembers (y : Source) (_ : y ∈ sources) : Preserves (withinSource package y fun _ fileClass =>
    declareMembers unit fileClass true y.tree.items) := inferInstance
  obtain ⟨s', hbefore, hbehind⟩ := exists_run_forM hmembers hsource (StateT.run (do
    sources.forM embedBases
    sources.forM fun source => withinSource package source fun _ _ => declareTypeNames source.tree unit) s).2
  have hon : Preserving s s' := trans_of Preserving (hclasses.run s) hbefore
  obtain ⟨scope, owner, -, howner, hrun⟩ := run_withinSource package (hon.ready hready) hsource
    fun _ fileClass =>
    declareMembers unit fileClass true source.tree.items
  obtain ⟨entry, hentry, rfl⟩ := Option.map_eq_some_iff.mp howner
  have hexists : entry.2.index < s'.model.named.size := hon.sound hs entry (List.mem_of_find?_eq_some hentry)
  have hwarned {sp : Space} {names : List String} (hsp : sp.Exists s'.model)
      (h : Brings sources source.file sp names (declareMembers unit (some entry.2) true source.tree.items)) :
      Warned sp names ((declareRest package sources unit).run s).2 := by
    have hinner : Brings sources s'.context.file sp names
        (within ⟨source.file, scope, some entry.2, none, package⟩
          (declareMembers unit (some entry.2) true source.tree.items)) := .within h
    have hwithin := (hinner.run s').warned rfl (hon.ready hready) (hon.sound hs) hsp [] (warned_nil sp s')
    rw [← hrun] at hwithin
    exact hwithin.mono hbehind
  have hnot := hsources source hsource
  exact ⟨entry.2, hwarned hexists (brings_fieldNames hnot), hwarned hexists (brings_methodNames hnot)⟩

theorem warned_declareSources (hsources : ∀ source ∈ sources, source.file.isBundled = false)
    (hs : s.Sound) : ∃ unit,
    Warned (.scope unit) ((sources.map (·.className)).dedup ++ (sources.flatMap (·.tree.typeNames) ++
      sources.flatMap (·.tree.valueNames))) ((declareSources package sources).run s).2 ∧
    ∀ source ∈ sources, ∃ owner,
      Warned (.fields owner) source.tree.fieldNames ((declareSources package sources).run s).2 ∧
      Warned (.methods owner) source.tree.methodNames ((declareSources package sources).run s).2 := by
  obtain ⟨opened, hopened⟩ : ∃ opened, opened = openUnit.run s := ⟨_, rfl⟩
  obtain ⟨known, hknown⟩ :
    ∃ known, known = ((sources.forM (declareClass package opened.1)).run opened.2).2 := ⟨_, rfl⟩
  have hrun :
      ((declareSources package sources).run s).2 = ((declareRest package sources opened.1).run known).2 := by
    rw [declareSources_eq, hknown, hopened]
    rfl
  have hunit : opened.1.index < opened.2.model.scopes.size := hopened ▸ exists_openUnit s
  have hopening : Preserving s opened.2 := hopened ▸ (inferInstance : Preserves openUnit).run s
  have hclasses : Preserves (sources.forM (declareClass package opened.1)) := .forM fun _ _ => inferInstance
  have hnaming : Preserving opened.2 known := hknown ▸ hclasses.run opened.2
  have hready : Ready sources known := hknown ▸ ready_classes opened.2
  have hsound : known.Sound := hnaming.sound (hopening.sound hs)
  rw [hrun]
  refine ⟨opened.1, ?_, fun source hsource => warned_declareRest hsources hready hsound hsource⟩
  have hexists : Space.Exists known.model (.scope opened.1) := hnaming.model.exists hunit
  exact ((brings_declareRest hsources).run known).warned rfl hready hsound hexists _
    (hknown ▸ warned_classes hunit)

end Sources

section Checked

theorem snd_run_bind {α β : Type} (a : CheckM α) (f : α → CheckM β) (s : State) :
    ((a >>= f).run s).2 = ((f (a.run s).1).run (a.run s).2).2 := rfl

variable {w : Stage} (hfits : ∀ source ∈ sources, source.Fits w)

include hfits

theorem keeps_declared : Keeps w file (declareSources package sources) := by
  have hkeeps : Keeps w file (declareSources package sources >>= fun _ => pure ()) :=
    keeps_declareSources hfits fun _ => inferInstance
  simpa only [bind_pure_unit] using hkeeps

theorem ready_declared : Reaches w file [] (declareSources package sources) (Ready sources) := by
  have hready : Reaches w file [] (declareSources package sources >>= fun _ => pure ()) (Ready sources) :=
    reaches_declareSources hfits (fun _ _ hext hready => hready.mono hext)
      (fun _ => inferInstance) fun base _ =>
      ready_last (w := { w with base }) hfits
  simpa only [bind_pure_unit] using hready

-- What is reported of the declarations is still reported in the end.
theorem reports_checkWhole (hs : Sane w file s) {p : Problem}
    (hp : ((declareSources package sources).run s).2.Reports p) :
    ((checkWhole package sources).run s).2.Reports p := by
  have hrest : Runs (ReadyKeeping w file sources) (do
      resolveDeclarations (rulesFor (sources.map (·.tree)))
      checkSources (rulesFor (sources.map (·.tree))) package sources) :=
    .bind inferInstance fun _ => ready_checkSources hfits
  have hkeeps : Keeps w file (declareSources package sources) := keeps_declared hfits
  have hsane := (hkeeps.run s).sane hs
  have hext := (hrest.run _ hsane (ready_declared hfits s hs nofun)).extending hsane
  unfold checkWhole
  rw [snd_run_bind]
  exact hp.imp fun _ hx => ⟨hext.problems.subset hx.1, hx.2⟩

end Checked

theorem reported_checkProgram {w : Setting} (h : Hosts w package sources) {p : Problem}
    (hp : ((declareSources package sources).run prelude).2.Reports p) :
    ∃ x ∈ (checkProgram package sources).problems, x.2.2 = p := by
  obtain ⟨x, hx, hsource, hproblem⟩ := reports_checkWhole (w := ⟨⟨w, .empty 0⟩, prelude.model⟩) h.fits
    (sane_prelude ⟨w, .empty 0⟩) hp
  obtain ⟨s, hs, hchecked⟩ := exists_checked package sources
  refine ⟨x, ?_, hproblem⟩
  rw [hchecked]
  refine List.mem_filter.mpr ⟨List.mem_reverse.mpr ?_, by simp [hsource]⟩
  rwa [← hs]

end SpriteScript.Check
