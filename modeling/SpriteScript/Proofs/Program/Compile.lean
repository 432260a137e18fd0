import Mathlib
import SpriteScript.Proofs.Program.Files
import SpriteScript.Proofs.Resource.Loading
import SpriteScript.Proofs.Resource.Resolver
import SpriteScript.Proofs.Resource.Steps

-- Programs are compiled from any texts, and all that is reported lies in one of their files.
namespace SpriteScript.Program

variable {config : Config} {assets : AssetReader} {inputs : List (String × String)} {p : Program}
variable {files : Array SourceFile} {report : Report}

section Reports

-- Only files are asked for their entry that stand in the program.
theorem Parsed.Fits.entryFile? {q : Parsed} (h : q.Fits inputs) {f : SourceFile}
    (hf : q.entryFile? = some f) :
    f ∈ q.files.toList ∧ SourceFile.find? q.files f.file = some f := by
  have hmem := Array.mem_toList_iff.mpr (Array.mem_of_find?_eq_some hf)
  exact ⟨hmem, h.find? hmem⟩

theorem holds_reportAssets {entryFile? : Option SourceFile} (messages : List String)
    (h : report.Holds (·.IsEarly files))
    (hentry : ∀ f, entryFile? = some f → SourceFile.find? files f.file = some f) :
    (reportAssets entryFile? report messages).Holds (·.IsEarly files) := by
  unfold reportAssets
  split
  case h_1 f =>
    refine h.foldl fun message _ r hr => hr.add ?_
    exact ⟨⟨f, hentry f rfl, fitsIn_start f.text⟩, _, _, _, rfl, .inr (.inr ⟨⟨message, rfl⟩, rfl⟩)⟩
  case h_2 => exact h

theorem holds_assetRoot (config : Config) (m : Model) (info : Info) {entryFile? : Option SourceFile}
    (h : report.Holds (·.IsEarly files))
    (hentry : ∀ f, entryFile? = some f → SourceFile.find? files f.file = some f ∧ f.tree.LiesIn f.text) :
    (Resource.assetRoot config m info entryFile? report).2.Holds (·.IsEarly files) := by
  unfold Resource.assetRoot
  extract_lets isRun found?
  have hfound (file : FileId) (call : Tree) (hcall : found? = some (file, call)) :
      ∃ f, SourceFile.find? files file = some f ∧ call.LiesIn f.text := by
    obtain ⟨f, hf, hcall⟩ := Option.bind_eq_some_iff.mp hcall
    obtain ⟨hfind, hlies⟩ := hentry f hf
    obtain ⟨c, hc, hcall⟩ := List.exists_of_findSome?_eq_some hcall
    obtain ⟨statement, hstatement, hexpr⟩ := List.mem_filterMap.mp hc
    split at hcall
    · cases hcall
      have hstatement := hlies.child (List.mem_filter.mp hstatement).1
      exact ⟨f, hfind, hstatement.child (List.mem_of_find?_eq_some hexpr)⟩
    · cases hcall
  clear_value found?
  split
  case h_1 file arg harg =>
    obtain ⟨⟨file', call⟩, hcall, harg⟩ := Option.bind_eq_some_iff.mp harg
    obtain ⟨arg', hhead, heq⟩ := Option.map_eq_some_iff.mp harg
    cases heq
    obtain ⟨f, hfind, hlies⟩ := hfound file call hcall
    split
    · exact h
    · refine h.add ⟨⟨f, hfind, ?_⟩, _, _, _, rfl, .inr (.inl rfl)⟩
      have harg := List.mem_of_mem_head? hhead
      unfold Tree.args at harg
      cases hlist : call.argList? with
      | none => simp [hlist] at harg
      | some list =>
          rw [hlist, Option.map_some, Option.getD_some] at harg
          have hlist := hlies.child (List.mem_of_find?_eq_some hlist)
          exact (hlist.child (List.mem_filter.mp harg).1).fitsIn
  case h_2 => exact h

theorem reportChecked_ok {problems : List (FileId × Text.ByteRange × Problem)}
    (hproblems : ∀ x ∈ problems, (x.2.2.diagnostic x.1 x.2.1).LiesIn files ∧ x.2.2.isOfResource = false)
    (h : report.Holds (·.IsEarly files)) :
    ∃ report', reportChecked files problems report = .ok report' ∧ report'.Holds (·.IsEarly files) := by
  unfold reportChecked
  induction problems generalizing report with
  | nil => exact ⟨report, rfl, h⟩
  | cons x rest ih =>
      obtain ⟨⟨hplace, hkind⟩, hrest⟩ := List.forall_mem_cons.mp hproblems
      obtain ⟨file, range, problem⟩ := x
      obtain ⟨f, hfind, hfits⟩ := hplace
      have hchecked : checkedDiagnostic files file range problem = .ok (problem.diagnostic file range) := by
        unfold checkedDiagnostic
        rw [show SourceFile.find? files file = some f from hfind]
        exact if_pos hfits.inside
      obtain ⟨report', hrun, hholds⟩ := ih hrest (h.add (Diagnostic.isEarly_of_find? hfind hfits hkind))
      refine ⟨report', ?_, hholds⟩
      rw [List.foldlM_cons]
      dsimp only
      rw [hchecked]
      exact hrun

end Reports

-- The setting of the check of a program.
def setting (inputs : List (String × String)) (p : Program) : Check.Setting :=
  Parsed.setting p.files p.model.origins (Parsed.NoEmptySpread inputs)

-- The program as its resources are looked for.
def world (p : Program) : Resource.World := ⟨p.model, p.info, p.catalog, p.config.entryFile⟩

-- The catalog was read from the assets.
def CatalogLoaded (p : Program) (assets : AssetReader) : Prop :=
  Catalog.load assets p.catalog.root = .ok p.catalog

-- What the search for the resources of a program left behind.
structure Searched (p : Program) (s : Resource.State) : Prop where
  early : ∃ report : Report, report.Holds (·.IsEarly p.files) ∧
    Resource.Leads { report } (p.world.steps p.files.toList) s
  resources : p.resources = s.index
  diagnostics : p.diagnostics = s.report.byFile

-- What holds of every program that was compiled.
structure Compiled (assets : AssetReader) (inputs : List (String × String)) (p : Program) : Prop where
  file : ∀ (index : Nat) (f : SourceFile), p.files[index]? = some f → f.file = .source index
  tree : ∀ f ∈ p.files.toList, f.tree = (Syntax.parse f.text).tree
  model : p.model.Fits (p.setting inputs)
  info : p.info.Fits (p.setting inputs)
  bundled : Check.prelude.model.Agrees (p.setting inputs)
  once : p.info.Once ⟨(p.setting inputs).text?, Check.prelude.info, []⟩
  named : p.info.Named p.model
  recorded : ∀ f ∈ p.files.toList, f.excluded = false → ∀ ident ∈ f.tree.varIdents,
    p.info.defs.contains (f.file, Check.rangeOf ident) = true
  search : p.CatalogLoaded assets ∧ (∃ s, p.Searched s) ∨
    (∃ e, Catalog.load assets p.catalog.root = .error e) ∧ p.resources = {} ∧
      ∃ report : Report, report.Holds (·.IsEarly p.files) ∧ p.diagnostics = report.byFile

section Files

variable {f : SourceFile} (h : p.Compiled assets inputs) (hf : f ∈ p.files.toList)

include h hf

theorem Compiled.file?_eq : p.file? f.file = some f := SourceFile.find?_of_mem h.file hf

theorem Compiled.isBundled_eq : f.file.isBundled = false := SourceFile.isBundled_of_mem h.file hf

theorem Compiled.text_eq : (p.setting inputs).text? f.file = some f.text :=
  congrArg (Option.map SourceFile.text) (h.file?_eq hf)

end Files

section Compile

theorem checked_parseFiles (config : Config) (inputs : List (String × String)) {q : Parsed}
    (hq : parseFiles config inputs = q) {origins : List Origin}
    (horigins : (Check.checkProgram config.package q.sources).model.origins = origins) :
    Check.Checked (Parsed.setting q.files origins (Parsed.NoEmptySpread inputs)) q.sources
      (Check.checkProgram config.package q.sources) :=
  have hfits := hq ▸ Parsed.fits_parseFiles config inputs
  Check.checked_checkProgram (hfits.hosts horigins)

theorem compiled_assemble {q : Parsed} {checked : Check.Result} (hfits : q.Fits inputs)
    (hchecked : Check.Checked
      (Parsed.setting q.files checked.model.origins (Parsed.NoEmptySpread inputs)) q.sources checked)
    (hconsistent : Check.Consistent
      ⟨(Parsed.setting q.files checked.model.origins (Parsed.NoEmptySpread inputs)).text?,
        Check.prelude.info, []⟩ checked.info checked.model)
    (hreport : report.Holds (·.IsEarly q.files)) :
    Compiled assets inputs (assemble config q checked (loadAssets config assets q checked report)) := by
  have hentry (f : SourceFile) (hf : q.entryFile? = some f) :
      SourceFile.find? q.files f.file = some f ∧ f.tree.LiesIn f.text := by
    obtain ⟨hmem, hfind⟩ := hfits.entryFile? hf
    exact ⟨hfind, hfits.tree f hmem ▸ Syntax.liesIn_parse f.text⟩
  have hroot := holds_assetRoot config checked.model checked.info hreport hentry
  have hassets (messages : List String) := holds_reportAssets messages hroot fun f hf => (hentry f hf).1
  have hrecorded (f : SourceFile) (hf : f ∈ q.files.toList) (hexcluded : f.excluded = false) :=
    hchecked.recorded _ (Parsed.mem_sources hf hexcluded)
  unfold assemble loadAssets
  generalize Resource.assetRoot config checked.model checked.info q.entryFile? report =
    found at hroot hassets ⊢
  obtain ⟨root, rooted⟩ := found
  dsimp only at hroot hassets ⊢
  cases hload : Catalog.load assets root with
  | ok catalog =>
      obtain ⟨s, hleads, hresolve⟩ :=
        Resource.leads_resolve ⟨checked.model, checked.info, catalog, config.entryFile⟩
        q.files.toList (reportAssets q.entryFile? rooted (catalog.skipped.map SkippedAsset.message))
      dsimp only
      rw [hresolve]
      exact ⟨hfits.file, hfits.tree, hchecked.model, hchecked.info, hchecked.bundled, hconsistent.once,
        hconsistent.named, hrecorded, .inl ⟨Catalog.load_root hload, s, ⟨_, hassets _, hleads⟩, rfl, rfl⟩⟩
  | error e =>
      exact ⟨hfits.file, hfits.tree, hchecked.model, hchecked.info, hchecked.bundled, hconsistent.once,
        hconsistent.named, hrecorded, .inr ⟨⟨e, hload⟩, rfl, _, hassets _, rfl⟩⟩

theorem Compiled.exists_searched (h : p.Compiled assets inputs) (hloaded : p.CatalogLoaded assets) :
    ∃ s, p.Searched s := by
  rcases h.search with ⟨-, hs⟩ | ⟨⟨e, hfailed⟩, -⟩
  · exact hs
  · cases hfailed.symm.trans hloaded

-- Assets in memory can always be read.
theorem Compiled.catalogLoaded_ofFiles {files : List (String × String)}
    (h : p.Compiled (.ofFiles files) inputs) : p.CatalogLoaded (.ofFiles files) := by
  rcases h.search with ⟨hloaded, -⟩ | ⟨⟨e, hfailed⟩, -⟩
  · exact hloaded
  · obtain ⟨c, hload⟩ := Catalog.load_ofFiles files p.catalog.root
    cases hfailed.symm.trans hload

-- Compiling goes on to the end of a check that does not break off.
theorem compile_eq (config : Config) (assets : AssetReader) (inputs : List (String × String)) {q : Parsed}
    (hq : parseFiles config inputs = q) {checked : Check.Result}
    (hchecked : Check.checkProgram config.package q.sources = checked) :
    compile config assets inputs false =
      if checked.crashed then .error .indexOutOfBounds
      else (reportChecked q.files checked.problems q.report).map fun report =>
        assemble config q checked (loadAssets config assets q checked report) := by
  unfold Parsed.sources at hchecked
  unfold compile compileUnless
  rw [hq]
  extract_lets parsed sources result finish
  have hresult : result = checked := hchecked
  clear_value result
  subst hresult
  change (if result.crashed = true then _ else finish ()) = _
  split
  · rfl
  · unfold finish
    cases reportChecked q.files result.problems q.report <;> rfl

-- What the checker complains of lies in the files of the program.
theorem lies_problems {q : Parsed} {checked : Check.Result} {origins : List Origin} {strict : Prop}
    (hchecked : Check.Checked (Parsed.setting q.files origins strict) q.sources checked) :
    ∀ x ∈ checked.problems, (x.2.2.diagnostic x.1 x.2.1).LiesIn q.files ∧ x.2.2.isOfResource = false := by
  intro x hx
  obtain ⟨⟨text, htext, hfits⟩, hkind⟩ := hchecked.problems x hx
  obtain ⟨f, hfind, rfl⟩ := Option.map_eq_some_iff.mp htext
  exact ⟨⟨f, hfind, hfits⟩, hkind⟩

-- No report of the checker is a reason to break off.
theorem compile_cases (config : Config) (assets : AssetReader) (inputs : List (String × String)) :
    compile config assets inputs false = .error .indexOutOfBounds ∧ ¬ Parsed.NoEmptySpread inputs ∨
      ∃ p, compile config assets inputs false = .ok p ∧ p.Compiled assets inputs := by
  obtain ⟨q, hq⟩ : ∃ q, parseFiles config inputs = q := ⟨_, rfl⟩
  obtain ⟨checked, hchecked⟩ : ∃ checked, Check.checkProgram config.package q.sources = checked := ⟨_, rfl⟩
  obtain ⟨origins, horigins⟩ : ∃ origins, checked.model.origins = origins := ⟨_, rfl⟩
  have hfits := hq ▸ Parsed.fits_parseFiles config inputs
  have hholds := checked_parseFiles config inputs hq (hchecked ▸ horigins)
  have hconsistent : Check.Consistent
      ⟨(Parsed.setting q.files checked.model.origins (Parsed.NoEmptySpread inputs)).text?,
        Check.prelude.info, []⟩
      (Check.checkProgram config.package q.sources).info
      (Check.checkProgram config.package q.sources).model :=
    hfits.consistent
  rw [hchecked] at hholds hconsistent
  rw [compile_eq config assets inputs hq hchecked]
  by_cases hcrashed : checked.crashed = true
  · refine .inl ⟨if_pos hcrashed, fun hstrict => ?_⟩
    exact Bool.false_ne_true ((hholds.crashed hstrict).symm.trans hcrashed)
  · obtain ⟨report, hreport, hearly⟩ := reportChecked_ok (lies_problems hholds) hfits.report
    refine .inr ⟨assemble config q checked (loadAssets config assets q checked report), ?_,
      compiled_assemble hfits (horigins ▸ hholds) hconsistent hearly⟩
    rw [if_neg hcrashed, hreport]
    rfl

theorem compiled_of_compile (h : compile config assets inputs false = .ok p) : p.Compiled assets inputs := by
  rcases compile_cases config assets inputs with ⟨herror, -⟩ | ⟨q, hq, hcompiled⟩
  · cases h.symm.trans herror
  · cases h.symm.trans hq
    exact hcompiled

-- The files of a program are those that were read.
theorem files_of_compile (h : compile config assets inputs false = .ok p) :
    p.config = config ∧ p.files = (parseFiles config inputs).files := by
  rw [compile_eq config assets inputs rfl rfl] at h
  generalize reportChecked _ _ _ = reported at h
  split at h
  case isTrue => cases h
  case isFalse =>
    cases reported with
    | error e => cases h
    | ok report =>
        cases h
        exact ⟨rfl, rfl⟩

theorem compile_ok (config : Config) (assets : AssetReader) (h : Parsed.NoEmptySpread inputs) :
    ∃ p, compile config assets inputs false = .ok p ∧ p.Compiled assets inputs :=
  (compile_cases config assets inputs).resolve_left fun herror => herror.2 h

end Compile

section Total

-- The search for resources looks at the trees of the files only.
theorem Compiled.liesIn_of_mem_steps (h : p.Compiled assets inputs) {d : Diagnostic}
    (hd : .report d ∈ p.world.steps p.files.toList) : d.LiesIn p.files := by
  obtain ⟨f, hf, hfile, hplace⟩ := Resource.World.place_of_mem_steps hd
  refine ⟨f, hfile ▸ h.file?_eq hf, ?_⟩
  rcases hplace with ⟨ident, hident, hrange⟩ | ⟨place, hplace, hrange⟩
  · have htokens := f.tree.varIdents_subset hident
    rw [h.tree f hf, Syntax.tokens_parse] at htokens
    have hfits := (Token.tokenize_row f.text).fitsIn htokens
    rw [Token.texts_tokenize] at hfits
    rwa [hrange]
  · rw [h.tree f hf] at hplace
    rw [hrange]
    exact (Syntax.liesIn_place hplace).fitsIn

theorem Compiled.liesIn (h : p.Compiled assets inputs) {d : Diagnostic} (hd : d ∈ p.diagnostics) :
    d.LiesIn p.files := by
  obtain ⟨-, s, ⟨report, hearly, hleads⟩, -, hdiagnostics⟩ | ⟨-, -, report, hearly, hdiagnostics⟩ := h.search
  · rw [hdiagnostics, Report.mem_byFile, hleads.report] at hd
    rcases Report.mem_addAll hd with hd | hd
    · exact (hearly.all d hd).place
    · obtain ⟨step, hstep, heq⟩ := List.mem_filterMap.mp hd
      cases step with
      | report => exact h.liesIn_of_mem_steps (Option.some.inj heq ▸ hstep)
      | ref => cases heq
      | bind => cases heq
  · rw [hdiagnostics, Report.mem_byFile] at hd
    exact (hearly.all d hd).place

-- Whatever the files, the assets and the configuration are, there is a program, and each report
-- is about a range of one of its files that starts and ends between two characters. Only a call
-- that spreads an argument which it does not have can break that off.
theorem compile_total (config : Config) (assets : AssetReader) (inputs : List (String × String)) :
    (∃ p, compile config assets inputs false = .ok p ∧
      ∀ d ∈ p.diagnostics, ∃ f, p.file? d.file = some f ∧ d.range.FitsIn f.text) ∨
    compile config assets inputs false = .error .indexOutOfBounds ∧
      ∃ input ∈ inputs, ∃ t ∈ (Syntax.parse input.2).tree.nodes, t.isEmptySpread = true := by
  rcases compile_cases config assets inputs with ⟨herror, hspread⟩ | ⟨p, hp, hcompiled⟩
  · refine .inr ⟨herror, ?_⟩
    unfold Parsed.NoEmptySpread at hspread
    push Not at hspread
    simpa only [ne_eq, Bool.not_eq_false] using hspread
  · exact .inl ⟨p, hp, fun d hd => hcompiled.liesIn hd⟩

end Total

end SpriteScript.Program
