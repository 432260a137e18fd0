import SpriteScript.Proofs.Initialization.Resolution
import SpriteScript.Proofs.Program.Files

-- The specifications of a program are found with everything that they need, in whatever order they
-- are declared. Where one needs itself a cycle is reported.
namespace SpriteScript

open Relation

namespace Check

variable {package : String} {sources : List Source} {ground : Ground} {file : FileId}
variable {rest parts : List Part} {s : State}

-- The specifications of a program, file by file.
def specsOf (sources : List Source) : List Part :=
  sources.flatMap fun source => partsIn source.file source.tree.openSpecs

-- Everything is declared, and nothing was looked into.
def declaredState (package : String) (sources : List Source) : State :=
  ((declareSources package sources).run prelude).2

-- Everything was checked.
def checkedState (package : String) (sources : List Source) : State :=
  ((checkWhole package sources).run prelude).2

theorem checkedState_eq (package : String) (sources : List Source) : checkedState package sources =
    ((checkSources (rulesFor (sources.map (·.tree))) package sources).run
      ((resolveDeclarations (rulesFor (sources.map (·.tree)))).run (declaredState package sources)).2).2 := by
  unfold checkedState declaredState checkWhole
  rw [run_seq, run_seq]

section Depth

theorem foldl_add_eq {α : Type} (f : α → Nat) (l : List α) (k : Nat) :
    l.foldl (fun n x => n + f x) k = k + (l.map f).sum := by
  induction l generalizing k with
  | nil => rfl
  | cons x rest ih => rw [List.foldl_cons, ih, List.map_cons, List.sum_cons, Nat.add_assoc]

theorem rulesFor_eq (trees : List Tree) : rulesFor trees = rules (1 + (trees.map Tree.nodeCount).sum) := by
  rw [rulesFor, foldl_add_eq]

theorem sum_height_specsOf (sources : List Source) :
    ((specsOf sources).map (·.2.height)).sum ≤ ((sources.map (·.tree)).map Tree.nodeCount).sum := by
  have hsource (source : Source) :
      ((partsIn source.file source.tree.openSpecs).map (·.2.height)).sum ≤ source.tree.nodeCount := by
    rw [partsIn, List.map_map]
    exact source.tree.sum_height_openSpecs
  rw [specsOf, List.map_flatMap, List.flatMap_def, List.sum_flatten, List.map_map, List.map_map]
  exact List.sum_le_sum fun source _ => hsource source

end Depth

-- How the specifications of a program come out: rules that lead deeper find the same, each
-- specification is looked into once, and a cycle is reported just where a specification needs
-- itself.
structure Initialized (package : String) (sources : List Source) : Prop where
  ends : ∀ fuel, ((sources.map (·.tree)).map Tree.nodeCount).sum ≤ fuel →
    (resolveDeclarations (rules fuel)).run (declaredState package sources) =
      (resolveDeclarations (rulesFor (sources.map (·.tree)))).run (declaredState package sources)
  specs : (declaredState package sources).specParts = specsOf sources
  once : ∃ order, LooksInto order (declaredState package sources) (checkedState package sources) ∧
    order.Perm (List.range (specsOf sources).length)
  finished : (checkedState package sources).Finished
  cycles : (∃ x ∈ (checkProgram package sources).problems, ∃ name, x.2.2 = .initCycle name) ↔
    ∃ d, TransGen (DependsOn (specsOf sources) (checkProgram package sources).info) d d

section Whole

-- The specifications of the files are open when everything is declared, and the bodies of functions
-- are ahead.
theorem opensSpecs_declaredState (package : String)
    (hstart :
      Ahead ground prelude.context.file (sources.map fun source => (source.file, source.tree)) prelude) :
    OpensSpecs (specsOf sources) (declaredState package sources) ∧ Ahead ground prelude.context.file
      (sources.flatMap fun source => partsIn source.file (source.tree.items.flatMap Tree.bodyStepParts))
      (declaredState package sources) := by
  have hsteps : Ahead ground prelude.context.file (_ ++ []) prelude := Ahead.steps (by rwa [List.append_nil])
  rw [List.append_nil] at hsteps
  exact ⟨opensSpecs_declareSources hsteps opensSpecs_prelude, visits_declareSources sources _ prelude hsteps⟩

theorem info_checkedState (package : String) (sources : List Source) :
    (checkProgram package sources).info = (checkedState package sources).info := by
  obtain ⟨s, hs, hchecked⟩ := exists_checked package sources
  rw [hchecked, checkedState, hs]

theorem reportsInitCycle_checkedState : (checkedState package sources).ReportsInitCycle ↔
    ∃ x ∈ (checkProgram package sources).problems, ∃ name, x.2.2 = .initCycle name := by
  obtain ⟨s, hs, hchecked⟩ := exists_checked package sources
  rw [hchecked, checkedState, hs]
  simp only [State.ReportsInitCycle, State.Reports, List.mem_filter, List.mem_reverse, Bool.not_eq_true']
  constructor
  · rintro ⟨name, x, hx, hfile, hname⟩
    exact ⟨x, ⟨hx, hfile⟩, name, hname⟩
  · rintro ⟨x, ⟨hx, hfile⟩, name, hname⟩
    exact ⟨name, x, hx, hfile, hname⟩

theorem initialized (package : String) (hown : ∀ source ∈ sources, source.file.isBundled = false)
    (hplain : ∀ source ∈ sources, ∀ spec ∈ source.tree.openSpecs, ∀ value ∈ spec.listed 0, value.Plain)
    (hstart :
      Ahead ground prelude.context.file (sources.map fun source => (source.file, source.tree)) prelude) :
    Initialized package sources := by
  have hspec {p : Part} (hp : p ∈ specsOf sources) :
      ∃ source ∈ sources, p.1 = source.file ∧ p.2 ∈ source.tree.openSpecs := by
    obtain ⟨source, hsource, hp⟩ := List.mem_flatMap.mp hp
    obtain ⟨spec, hspec, rfl⟩ := List.mem_map.mp hp
    exact ⟨source, hsource, rfl, hspec⟩
  have hvalues : ∀ p ∈ specsOf sources, ∀ value ∈ p.2.listed 0, value.Plain := fun p hp => by
    obtain ⟨source, hsource, -, hopen⟩ := hspec hp
    exact hplain source hsource p.2 hopen
  have hfiles : ∀ p ∈ specsOf sources, p.1.isBundled = false := fun p hp => by
    obtain ⟨source, hsource, hfile, -⟩ := hspec hp
    exact hfile ▸ hown source hsource
  obtain ⟨hopened, hahead⟩ := opensSpecs_declaredState package hstart
  have hchecked := checkedState_eq package sources
  obtain ⟨trees, htrees⟩ : ∃ trees, trees = sources.map (·.tree) := ⟨_, rfl⟩
  have hdepth := sum_height_specsOf sources
  have hfinished :
      ((resolveDeclarations (rulesFor trees)).run (declaredState package sources)).2.Finished :=
        hopened.finished hahead
  have hlast : Runs Concluded (checkSources (rulesFor trees) package sources) := inferInstance
  have hcalm := hlast.run _ hfinished
  rw [← htrees] at hchecked hdepth
  rw [← hchecked] at hcalm
  refine ⟨fun fuel hfuel => ?_, hopened.parts, ?_, hcalm.finished hfinished, ?_⟩
  · rw [← htrees] at hfuel ⊢
    rw [rulesFor_eq]
    exact hopened.run_resolveDeclarations hvalues hfiles hahead (hdepth.trans (Nat.le_add_left _ _))
      (hdepth.trans hfuel)
  · obtain ⟨order, horder, hperm⟩ := hopened.exists_order hahead (r := rulesFor trees)
    refine ⟨order, ?_, hperm⟩
    rw [← List.append_nil order]
    exact horder.append (.nothing hcalm.specs)
  · rw [← reportsInitCycle_checkedState, info_checkedState]
    have hvisits (ground : Ground) :
        Visits ground prelude.context.file _ (checkSources (rulesFor trees) package sources) :=
      visits_checkSources sources
    rw [rulesFor_eq] at hchecked hvisits
    exact hopened.reportsInitCycle_iff hvalues hfiles hahead (hdepth.trans (Nat.le_add_left _ _))
      hvisits hchecked.symm

end Whole

end Check

namespace Tree

-- Initial values consist of literals, names, parentheses and operators.
def initializesPlainly (root : Tree) : Bool :=
  root.openSpecs.all fun spec => (spec.listed 0).all fun value => value.nodes.all fun u =>
    u.kind?.any NodeKind.isPlain

-- A specification stands in an item of the file, and a value in one of its lists.
theorem Sound.spec {root spec : Tree} (h : root.Sound) (hspec : spec ∈ root.openSpecs) : spec.Sound := by
  obtain ⟨item, hitem, hspec⟩ := List.mem_flatMap.mp hspec
  have hspecs : item.itemSpecs ⊆ item.specs := by
    unfold itemSpecs
    split
    · exact List.Subset.refl _
    · exact List.Subset.refl _
    · exact List.nil_subset _
  exact (h.child (List.mem_of_mem_filter hitem)).child (List.mem_of_mem_filter (hspecs hspec))

theorem Sound.listed {t v : Tree} {index : Nat} (h : t.Sound) (hv : v ∈ t.listed index) :
    v.Sound ∧ v.isExpr = true := by
  obtain ⟨l, hl, hmem, hexpr⟩ := exists_list hv
  exact ⟨(h.child hl).child hmem, hexpr⟩

theorem plain_of_initializesPlainly {root spec value : Tree} (hsound : root.Sound)
    (hplain : root.initializesPlainly = true) (hspec : spec ∈ root.openSpecs)
    (hvalue : value ∈ spec.listed 0) : value.Plain := by
  have hkinds :=
    List.all_eq_true.mp (List.all_eq_true.mp (List.all_eq_true.mp hplain spec hspec) value hvalue)
  obtain ⟨hsound, hexpr⟩ := (hsound.spec hspec).listed hvalue
  exact hsound.plain (isNode_of_kind? hexpr) hkinds

end Tree

namespace Program

-- For every program without syntax errors whose initial values are plain.
theorem specifications_initialized (config : Config) (inputs : List (String × String))
    (hok : ∀ f ∈ (parseFiles config inputs).files.toList, f.excluded = false →
      (Syntax.parse f.text).ok = true)
    (hplain : ∀ f ∈ (parseFiles config inputs).files.toList, f.excluded = false →
      f.tree.initializesPlainly = true) :
    Check.Initialized config.package (parseFiles config inputs).sources := by
  have hfits := Parsed.fits_parseFiles config inputs
  generalize parseFiles config inputs = q at *
  have hstart :=
    Check.ahead_prelude hfits.nodup_sources (hfits.text_of_mem_sources [] True) hfits.isBundled_of_mem_sources
  refine Check.initialized config.package hfits.isBundled_of_mem_sources
    (fun source hsource spec hspec value hvalue => ?_) hstart
  obtain ⟨f, hf, rfl⟩ := List.mem_map.mp hsource
  obtain ⟨hf, hexcluded⟩ := List.mem_filter.mp hf
  rw [Bool.not_eq_true'] at hexcluded
  have hsound : f.tree.Sound := by
    rw [hfits.tree f hf]
    exact Tree.sound_parse (hok f hf hexcluded)
  exact Tree.plain_of_initializesPlainly hsound (hplain f hf hexcluded) hspec hvalue

theorem Parsed.text_of_single {config : Config} {path text : String} {f : SourceFile}
    (hf : f ∈ (parseFiles config [(path, text)]).files.toList) : f.text = text :=
  congrArg Prod.snd (List.mem_singleton.mp ((Parsed.fits_parseFiles config [(path, text)]).given f hf))

-- Two specifications that need each other.
theorem specifications_initialized_circle :
    (∀ f ∈ (parseFiles {} [("main.spx", "var a = -b\n\nvar b = (a + 1)")]).files.toList, f.excluded = false →
      (Syntax.parse f.text).ok = true) ∧
    (∀ f ∈ (parseFiles {} [("main.spx", "var a = -b\n\nvar b = (a + 1)")]).files.toList, f.excluded = false →
      f.tree.initializesPlainly = true) ∧
    Check.Initialized "main" (parseFiles {} [("main.spx", "var a = -b\n\nvar b = (a + 1)")]).sources := by
  have hok : (Syntax.parse "var a = -b\n\nvar b = (a + 1)").ok = true := by decide +kernel
  have hplain : (Syntax.parse "var a = -b\n\nvar b = (a + 1)").tree.initializesPlainly = true := by
    decide +kernel
  generalize "var a = -b\n\nvar b = (a + 1)" = text at *
  have hfits := Parsed.fits_parseFiles {} [("main.spx", text)]
  have hfiles : ∀ f ∈ (parseFiles {} [("main.spx", text)]).files.toList, f.excluded = false →
      (Syntax.parse f.text).ok = true := by
    intro f hf _
    rw [Parsed.text_of_single hf]
    exact hok
  have htrees : ∀ f ∈ (parseFiles {} [("main.spx", text)]).files.toList, f.excluded = false →
      f.tree.initializesPlainly = true := by
    intro f hf _
    rw [hfits.tree f hf, Parsed.text_of_single hf]
    exact hplain
  exact ⟨hfiles, htrees, specifications_initialized {} _ hfiles htrees⟩

end Program

end SpriteScript
