import SpriteScript.Proofs.Program.Foreign
import SpriteScript.Proofs.Session

-- What a program is told comes by file, within a file by the phase that found it, and within a
-- phase in the order in which it was found; what was said before is not said again.
namespace SpriteScript

-- What a compilation looks at, one thing after the other.
inductive Concern where
  | grammar | package | types | assetRoot | assets | resources
deriving DecidableEq, Repr, Inhabited

def Concern.all : List Concern := [.grammar, .package, .types, .assetRoot, .assets, .resources]

namespace Program

variable {config : Config} {assets : AssetReader} {inputs : List (String × String)} {p : Program} {q : Parsed}
variable {files : Array SourceFile} {report report' : Report} {path : String}

section Definitions

-- The package clause of a file that names another package.
def packageReports (config : Config) (file : FileId) (text : String) : List Diagnostic :=
  ((packageIdent? (Syntax.parse text).tree).filter (·.text != config.package)).toList.map
    (packageReport config file)

def typeReports (problems : List (FileId × Text.ByteRange × Problem)) : List Diagnostic :=
  problems.map fun (file, range, problem) => problem.diagnostic file range

def rootReports (config : Config) (m : Model) (info : Info) (entryFile? : Option SourceFile) :
    List Diagnostic :=
  (Resource.assetRoot config m info entryFile? {}).2.diagnostics.toList

-- What is said at the start of the entry file of the assets.
def assetReports (entryFile? : Option SourceFile) (messages : List String) : List Diagnostic :=
  entryFile?.toList.flatMap fun f => messages.map fun message =>
    (Problem.assets message).diagnostic f.file (.empty 0)

-- What there is to say about a catalog: what was left out of it, or why there is none.
def catalogMessages : Except AssetError Catalog → List String
  | .ok (catalog : Catalog) => catalog.skipped.map SkippedAsset.message
  | .error e => [e.message]

-- Names are looked up only in a catalog that was read.
def resourceReports (w : Resource.World) (files : List SourceFile) :
    Except AssetError Catalog → List Diagnostic
  | .ok _ => (w.steps files).filterMap Resource.Step.diagnostic?
  | .error _ => []

-- All that is found wrong under one concern, as often and in the order in which it is found.
def reported (p : Program) (assets : AssetReader) : Concern → List Diagnostic
  | .grammar => p.files.toList.flatMap fun f => faultReports f.file f.text
  | .package => p.files.toList.flatMap fun f => packageReports p.config f.file f.text
  | .types => typeReports (Check.checkProgram p.config.package (Parsed.mk p.files {}).sources).problems
  | .assetRoot => rootReports p.config p.model p.info p.entryFile?
  | .assets => assetReports p.entryFile? (catalogMessages (Catalog.load assets p.catalog.root))
  | .resources => resourceReports p.world p.files.toList (Catalog.load assets p.catalog.root)

-- All that is found wrong with a file, concern by concern.
def reportedOf (p : Program) (assets : AssetReader) (file : FileId) : List Diagnostic :=
  Concern.all.flatMap fun concern => (p.reported assets concern).filter (·.file == file)

end Definitions

section Phases

-- Each phase adds its reports to those before.

theorem addFile_eq (hsource : config.isSourcePath path = true) (hnew : q.files.any (·.path == path) = false)
    (text : String) : ∃ f, f.file = .source q.files.size ∧ f.text = text ∧
      q.addFile config path text =
        ⟨q.files.push f, q.report.addAll
          (faultReports f.file text ++ packageReports config f.file text)⟩ := by
  unfold Parsed.addFile faultReports packageReports
  rw [if_neg (by simp [hsource, hnew])]
  generalize Syntax.parse text = parse
  refine ⟨_, rfl, rfl, congrArg _ ?_⟩
  dsimp only
  rw [Report.addAll_append, Report.addAll, Report.addAll, List.foldl_map, List.foldl_map]
  cases (packageIdent? parse.tree).filter (·.text != config.package) <;> rfl

theorem report_parseFiles (config : Config) (inputs : List (String × String)) :
    (parseFiles config inputs).report =
    ({} : Report).addAll ((parseFiles config inputs).files.toList.flatMap fun f =>
      faultReports f.file f.text ++ packageReports config f.file f.text) := by
  induction inputs using List.reverseRecOn with
  | nil => rfl
  | append_singleton inputs input ih =>
      rw [parseFiles_append]
      by_cases hskip : (!config.isSourcePath input.1 ||
        (parseFiles config inputs).files.any (·.path == input.1)) = true
      · rw [Parsed.addFile, if_pos hskip]
        exact ih
      · obtain ⟨hsource, hnew⟩ := Bool.or_eq_false_iff.mp (Bool.eq_false_iff.mpr hskip)
        obtain ⟨f, -, htext, heq⟩ := addFile_eq (Bool.not_eq_eq_eq_not.mp hsource) hnew input.2
        rw [heq, Array.toList_push, List.flatMap_append, List.flatMap_singleton, htext,
          Report.addAll_append _ _ (_ ++ _), ← ih]

theorem reportChecked_eq {problems : List (FileId × Text.ByteRange × Problem)}
    (h : reportChecked files problems report = .ok report') :
    report' = report.addAll (typeReports problems) := by
  unfold reportChecked at h
  induction problems generalizing report with
  | nil =>
      cases h
      rfl
  | cons x rest ih =>
      obtain ⟨file, range, problem⟩ := x
      rw [List.foldlM_cons] at h
      dsimp only at h
      cases hchecked : checkedDiagnostic files file range problem with
      | error e =>
          rw [hchecked] at h
          cases h
      | ok d =>
          have hd : d = problem.diagnostic file range := by
            unfold checkedDiagnostic at hchecked
            split at hchecked
            · split at hchecked
              · exact (Except.ok.inj hchecked).symm
              · cases hchecked
            · cases hchecked
          rw [hchecked] at h
          rw [hd] at h
          exact ih h

-- The folder of the assets does not hang on what was reported before.
theorem assetRoot_eq (config : Config) (m : Model) (info : Info) (entryFile? : Option SourceFile)
    (report : Report) :
    Resource.assetRoot config m info entryFile? report = ((Resource.assetRoot config m info entryFile? {}).1,
      report.addAll (rootReports config m info entryFile?)) := by
  unfold rootReports Resource.assetRoot
  extract_lets isRun found?
  clear_value found?
  split
  · split
    · rfl
    · simp [Report.addAll, Report.add]
  · rfl

theorem reportAssets_eq (entryFile? : Option SourceFile) (report : Report) (messages : List String) :
    reportAssets entryFile? report messages = report.addAll (assetReports entryFile? messages) := by
  unfold reportAssets assetReports
  cases entryFile? with
  | none => rfl
  | some f =>
      rw [Option.toList_some, List.flatMap_singleton, Report.addAll, List.foldl_map]

theorem loadAssets_eq (config : Config) (assets : AssetReader) (q : Parsed) (checked : Check.Result)
    (report : Report) :
    ∃ root, loadAssets config assets q checked report = ⟨root, (Catalog.load assets root).toOption,
      report.addAll (rootReports config checked.model checked.info q.entryFile? ++
        assetReports q.entryFile? (catalogMessages (Catalog.load assets root)))⟩ := by
  unfold loadAssets
  rw [assetRoot_eq]
  refine ⟨(Resource.assetRoot config checked.model checked.info q.entryFile? {}).1, ?_⟩
  dsimp only
  cases Catalog.load assets (Resource.assetRoot config checked.model checked.info q.entryFile? {}).1 with
  | ok catalog =>
      dsimp only
      rw [reportAssets_eq, Report.addAll_append]
      rfl
  | error e =>
      dsimp only
      rw [reportAssets_eq, Report.addAll_append]
      rfl

theorem diagnostics_assemble (config : Config) (q : Parsed) (checked : Check.Result) (root : String)
    (report : Report) :
    let p := assemble config q checked ⟨root, (Catalog.load assets root).toOption, report⟩
    Catalog.load assets p.catalog.root = Catalog.load assets root ∧ p.diagnostics =
      (report.addAll (resourceReports p.world p.files.toList (Catalog.load assets root))).byFile := by
  cases hload : Catalog.load assets root with
  | ok catalog =>
      obtain ⟨s, hleads, hresolve⟩ :=
        Resource.leads_resolve ⟨checked.model, checked.info, catalog, config.entryFile⟩
        q.files.toList report
      unfold assemble
      dsimp only [Except.toOption]
      rw [hresolve]
      refine ⟨Catalog.load_root hload, ?_⟩
      dsimp only
      rw [hleads.report]
      rfl
  | error e => exact ⟨hload, rfl⟩

-- A compilation that is not given up comes to the same as one that cannot be.
theorem compile_of_unless {cancelled : Phase → Bool}
    (h : compileUnless config assets inputs cancelled = .ok p) :
    compile config assets inputs false = .ok p := by
  rcases orCancelled_compileUnless config assets inputs cancelled with heq | hgivenUp
  · exact heq ▸ h
  · cases hgivenUp.symm.trans h

-- The reports of all phases in the order in which they came.
theorem exists_reported (h : compile config assets inputs false = .ok p) :
    ∃ r : Report, p.diagnostics = r.byFile ∧
    r = ({} :
      Report).addAll ((p.files.toList.flatMap fun f =>
        faultReports f.file f.text ++ packageReports p.config f.file f.text) ++
      (p.reported assets .types ++ p.reported assets .assetRoot ++ p.reported assets .assets ++
        p.reported assets .resources)) := by
  obtain ⟨q, hq⟩ : ∃ q, parseFiles config inputs = q := ⟨_, rfl⟩
  obtain ⟨checked, hchecked⟩ : ∃ checked, Check.checkProgram config.package q.sources = checked := ⟨_, rfl⟩
  rw [compile_eq config assets inputs hq hchecked] at h
  split at h
  case isTrue => cases h
  case isFalse =>
    cases hreport : reportChecked q.files checked.problems q.report with
    | error e =>
        rw [hreport] at h
        cases h
    | ok report =>
        rw [hreport] at h
        obtain ⟨root, hloaded⟩ := loadAssets_eq config assets q checked report
        have hp := Except.ok.inj h
        dsimp only at hp
        rw [hloaded] at hp
        obtain ⟨hload, hdiagnostics⟩ := diagnostics_assemble config q checked root (report.addAll
          (rootReports config checked.model checked.info q.entryFile? ++
            assetReports q.entryFile? (catalogMessages (Catalog.load assets root))))
        rw [hp] at hload hdiagnostics
        refine ⟨_, hdiagnostics, ?_⟩
        rw [reportChecked_eq hreport, ← hq, report_parseFiles, hq]
        simp only [← Report.addAll_append, List.append_assoc]
        have hsources : checked = Check.checkProgram p.config.package (Parsed.mk p.files {}).sources := by
          rw [← hp]
          exact hchecked.symm
        unfold reported
        rw [hload, ← hsources]
        subst hp
        rfl

end Phases

theorem Compiled.mem_of_find? (h : p.Compiled assets inputs) {file : FileId} {f : SourceFile}
    (hfind : SourceFile.find? p.files file = some f) : ∃ f ∈ p.files.toList, file = f.file := by
  cases file with
  | bundled => cases hfind
  | source index =>
      have hindex : p.files[index]? = some f := hfind
      exact ⟨f, Array.mem_toList_iff.mpr (Array.mem_of_getElem? hindex), (h.file index f hindex).symm⟩

section Order

-- Files that stand under their numbers, with reports on each.
variable {g : SourceFile → List Diagnostic} {f : SourceFile}
variable (h : ∀ (index : Nat) (f : SourceFile), files[index]? = some f → f.file = .source index)
variable (hg : ∀ f, ∀ d ∈ g f, d.file = f.file)

include h

theorem pairwise_before : files.toList.Pairwise fun f f' => f.file.before f'.file = true := by
  refine List.pairwise_iff_getElem.mpr fun i j hi hj hlt => ?_
  rw [h i _ (Array.getElem?_toList ▸ List.getElem?_eq_getElem hi),
    h j _ (Array.getElem?_toList ▸ List.getElem?_eq_getElem hj)]
  exact decide_eq_true hlt

include hg

theorem pairwise_flatMap_file : (files.toList.flatMap g).Pairwise (Report.notAfter · ·) := by
  refine List.pairwise_flatMap.mpr ⟨fun f _ => ?_, (pairwise_before h).imp fun hbefore d hd d' hd' => ?_⟩
  · exact List.pairwise_of_forall_mem_list fun d hd d' hd' =>
      Report.notAfter_of_eq ((hg f d hd).trans (hg f d' hd').symm)
  · exact Report.notAfter_of_before (hg _ d hd ▸ hg _ d' hd' ▸ hbefore)

theorem filter_flatMap_file (hf : f ∈ files.toList) :
    (files.toList.flatMap g).filter (·.file == f.file) = g f := by
  obtain ⟨before, behind, hsplit⟩ := List.append_of_mem hf
  have hpairwise := pairwise_before h
  rw [hsplit, List.pairwise_append, List.pairwise_cons] at hpairwise
  obtain ⟨-, ⟨hbehind, -⟩, hbefore⟩ := hpairwise
  have hnone (l : List SourceFile) (hl : ∀ x ∈ l, x.file ≠ f.file) :
      (l.flatMap g).filter (·.file == f.file) = [] := by
    refine List.filter_eq_nil_iff.mpr fun d hd => ?_
    obtain ⟨x, hx, hd⟩ := List.mem_flatMap.mp hd
    simpa [hg x d hd] using hl x hx
  have hown : (g f).filter (·.file == f.file) = g f := List.filter_eq_self.mpr fun d hd => by simp [hg f d hd]
  rw [hsplit, List.flatMap_append, List.flatMap_cons, List.filter_append, List.filter_append, hown,
    hnone before fun x hx => Report.ne_of_before (hbefore x hx f List.mem_cons_self),
    hnone behind fun x hx => (Report.ne_of_before (hbehind x hx)).symm, List.nil_append, List.append_nil]

end Order

-- The reports of all phases about a file are those of its concerns.
theorem filter_reported (h : ∀ (index : Nat) (f : SourceFile), p.files[index]? = some f →
      f.file = .source index) {f : SourceFile} (hf : f ∈ p.files.toList) :
    ((p.files.toList.flatMap fun f => faultReports f.file f.text ++ packageReports p.config f.file f.text) ++
      (p.reported assets .types ++ p.reported assets .assetRoot ++ p.reported assets .assets ++
        p.reported assets .resources)).filter (·.file == f.file) = p.reportedOf assets f.file := by
  have hfaults (f : SourceFile) : ∀ d ∈ faultReports f.file f.text, d.file = f.file := by
    intro d hd
    obtain ⟨e, -, rfl⟩ := List.mem_map.mp hd
    rfl
  have hpackage (f : SourceFile) : ∀ d ∈ packageReports p.config f.file f.text, d.file = f.file := by
    intro d hd
    obtain ⟨ident, -, rfl⟩ := List.mem_map.mp hd
    rfl
  have hboth (f : SourceFile) : ∀ d ∈ faultReports f.file f.text ++ packageReports p.config f.file f.text,
      d.file = f.file := fun d hd => (List.mem_append.mp hd).elim (hfaults f d) (hpackage f d)
  have hfound : (p.files.toList.flatMap fun f => faultReports f.file f.text ++
      packageReports p.config f.file f.text).filter (·.file == f.file) =
        (p.reported assets .grammar).filter (·.file == f.file) ++ (p.reported assets .package).filter
        (·.file == f.file) := by
    unfold reported
    rw [filter_flatMap_file h hboth hf, filter_flatMap_file h hfaults hf, filter_flatMap_file h hpackage hf]
  unfold reportedOf Concern.all
  simp only [List.flatMap_cons, List.flatMap_nil, List.append_nil, List.filter_append,
    List.append_assoc, hfound]

-- Nothing is said twice, files come in their order, and a file is told what was found wrong with it
-- concern by concern, each thing where it was found first.
theorem diagnostics_ordered {cancelled : Phase → Bool}
    (h : compileUnless config assets inputs cancelled = .ok p) :
    (p.diagnostics.map Diagnostic.identity).Nodup ∧
      p.diagnostics = p.files.toList.flatMap fun f => (p.reportedOf assets f.file).eraseDupsBy
      Diagnostic.same := by
  have h := compile_of_unless h
  have hcompiled := compiled_of_compile h
  obtain ⟨r, hdiagnostics, hr⟩ := exists_reported h
  refine ⟨?_, ?_⟩
  · rw [hdiagnostics, (r.byFile_perm.map Diagnostic.identity).nodup_iff, hr]
    exact (Report.faithful_empty.addAll _).nodup
  have hof (f : SourceFile) :
      ∀ d ∈ (p.reportedOf assets f.file).eraseDupsBy Diagnostic.same, d.file = f.file := by
    intro d hd
    obtain ⟨concern, -, hd⟩ := List.mem_flatMap.mp (eraseDupsBy_subset _ _ hd)
    exact beq_iff_eq.mp (List.mem_filter.mp hd).2
  have hsorted : p.diagnostics.Pairwise (Report.notAfter · ·) := hdiagnostics ▸ r.pairwise_byFile
  refine Report.eq_of_filter_file hsorted (pairwise_flatMap_file hcompiled.file hof) fun file => ?_
  by_cases hfile : ∃ f ∈ p.files.toList, f.file = file
  · obtain ⟨f, hf, rfl⟩ := hfile
    rw [filter_flatMap_file hcompiled.file hof hf, hdiagnostics, Report.filter_byFile, hr,
      Report.toList_addAll_empty,
      filter_eraseDupsBy fun a b hab => by rw [Diagnostic.file_eq_of_same hab],
      filter_reported hcompiled.file hf]
  · have hnone (l : List Diagnostic) (hl : ∀ d ∈ l, ∃ f ∈ p.files.toList, d.file = f.file) :
        l.filter (·.file == file) = [] := by
      refine List.filter_eq_nil_iff.mpr fun d hd heq => ?_
      obtain ⟨f, hf, hfile'⟩ := hl d hd
      exact hfile ⟨f, hf, hfile'.symm.trans (beq_iff_eq.mp heq)⟩
    rw [hnone p.diagnostics fun d hd => ?_, hnone (p.files.toList.flatMap _) fun d hd => ?_]
    · obtain ⟨f, hf, hd⟩ := List.mem_flatMap.mp hd
      exact ⟨f, hf, hof f d hd⟩
    · obtain ⟨f, hfind, -⟩ := hcompiled.liesIn hd
      exact hcompiled.mem_of_find? hfind

theorem diagnostics_ordered_package : ∃ p,
    compileUnless {} (.ofFiles []) [("main.spx", "package hop\n)"), ("Hop.spx", "\x7d")]
      (fun _ => false) = .ok p ∧ (p.diagnostics.map Diagnostic.identity).Nodup ∧ p.diagnostics =
        p.files.toList.flatMap fun f => (p.reportedOf (.ofFiles []) f.file).eraseDupsBy Diagnostic.same := by
  have hspread : Parsed.NoEmptySpread [("main.spx", "package hop\n)"), ("Hop.spx", "\x7d")] :=
    Parsed.noEmptySpread_of_tokenize (by cbv)
  obtain ⟨p, hp, -⟩ := compile_ok {} (.ofFiles []) hspread
  exact ⟨p, hp, diagnostics_ordered hp⟩

end Program

end SpriteScript
