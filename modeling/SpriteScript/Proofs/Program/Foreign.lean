import Mathlib
import SpriteScript.Proofs.Program.Compile
import SpriteScript.Proofs.Resource.Messages
import SpriteScript.Proofs.Resource.Steps

-- A file of another package takes no part in a program: with it and without it the program means
-- the same, and is told the same about its other files.
namespace SpriteScript

-- The reports of two runs, of which one has a file more behind the others: what is about that
-- file comes from it alone, and all else is the same.
structure Report.Beside (file : FileId) (own : List Diagnostic) (r r' : Report) : Prop where
  alone : r.Faithful
  joined : r'.Faithful
  others : r'.diagnostics.toList.filter (·.file != file) = r.diagnostics.toList
  last : ∀ d ∈ r.diagnostics.toList, d.file.before file = true
  own : r'.diagnostics.toList.filter (·.file == file) = own

namespace Report

variable {file : FileId} {own ds : List Diagnostic} {r r' : Report} {d : Diagnostic}

theorem ne_of_before {a b : FileId} (h : a.before b = true) : a ≠ b := by
  rintro rfl
  cases a <;> simp [FileId.before] at h

theorem Beside.isNew_eq (h : Beside file own r r') (hd : d.file ≠ file) : r'.isNew d = r.isNew d := by
  unfold isNew
  rw [Bool.not_inj_iff, Bool.eq_iff_iff, h.joined.seen, h.alone.seen, ← h.others]
  constructor
  · rintro ⟨x, hx, heq⟩
    have hfile : x.file = d.file := congrArg Prod.fst heq
    exact ⟨x, List.mem_filter.mpr ⟨hx, by simpa [hfile] using hd⟩, heq⟩
  · rintro ⟨x, hx, heq⟩
    exact ⟨x, (List.mem_filter.mp hx).1, heq⟩

theorem Beside.add (h : Beside file own r r') (hd : d.file.before file = true) :
    Beside file own (r.add d) (r'.add d) := by
  have hne := ne_of_before hd
  refine ⟨h.alone.add d, h.joined.add d, ?_, fun x hx => ?_, ?_⟩
  · have hnew := h.isNew_eq hne
    unfold isNew at hnew
    unfold Report.add
    rw [← Bool.not_inj hnew]
    split
    · exact h.others
    · rw [Array.toList_push, Array.toList_push, List.filter_append, h.others]
      simp [hne]
  · rcases mem_add hx with hold | rfl
    · exact h.last x hold
    · exact hd
  · unfold Report.add
    split
    · exact h.own
    · rw [Array.toList_push, List.filter_append, h.own]
      simp [hne]

theorem Beside.addAll (h : Beside file own r r') (hds : ∀ d ∈ ds, d.file.before file = true) :
    Beside file own (r.addAll ds) (r'.addAll ds) := by
  induction ds generalizing r r' with
  | nil => exact h
  | cons d ds ih => exact ih (h.add (hds d List.mem_cons_self)) fun x hx => hds x (List.mem_cons_of_mem d hx)

theorem Beside.file_own (h : Beside file own r r') (hd : d ∈ own) : d.file = file := by
  rw [← h.own] at hd
  exact beq_iff_eq.mp (List.mem_filter.mp hd).2

-- A file that comes behind all others is reported on behind them.
theorem Beside.byFile (h : Beside file own r r') : r'.byFile = r.byFile ++ own := by
  have hown (d : Diagnostic) (hd : d ∈ own) : d.file = file := h.file_own hd
  refine eq_of_filter_file r'.pairwise_byFile ?_ fun other => ?_
  · refine List.pairwise_append.mpr ⟨r.pairwise_byFile, ?_, fun a ha b hb => ?_⟩
    · exact List.pairwise_of_forall_mem_list fun a ha b hb =>
        notAfter_of_eq ((hown a ha).trans (hown b hb).symm)
    · have hbefore := h.last a (mem_byFile.mp ha)
      rw [← hown b hb] at hbefore
      exact notAfter_of_before hbefore
  · rw [List.filter_append, filter_byFile, filter_byFile]
    by_cases hother : other = file
    · subst hother
      rw [h.own, List.filter_eq_self.mpr fun d hd => beq_iff_eq.mpr (hown d hd),
        List.filter_eq_nil_iff.mpr fun d hd => by simpa using ne_of_before (h.last d hd), List.nil_append]
    · have hnone : own.filter (·.file == other) = [] :=
        List.filter_eq_nil_iff.mpr fun d hd => by simpa [hown d hd] using Ne.symm hother
      rw [hnone, List.append_nil, ← h.others, List.filter_filter]
      refine List.filter_congr fun d _ => ?_
      by_cases hd : d.file = other <;> simp [hd, hother]

-- A run over what the other one adds as well, before it goes on alone.
theorem beside_addAll (h : r.Faithful) (hlast : ∀ d ∈ r.diagnostics.toList, d.file.before file = true)
    (hown : ∀ d ∈ ds, d.file = file) (hinj : ∀ d ∈ ds, ∀ d' ∈ ds, d.identity = d'.identity → d = d') :
    Beside file ds.eraseDups r (r.addAll ds) := by
  have hnew : ds.filter r.isNew = ds := by
    refine List.filter_eq_self.mpr fun d hd => ?_
    unfold isNew
    rw [Bool.not_eq_true', Bool.eq_false_iff]
    intro hseen
    obtain ⟨x, hx, heq⟩ := (h.seen _).mp hseen
    have hfile : x.file = d.file := congrArg Prod.fst heq
    exact ne_of_before (hlast x hx) (hfile.trans (hown d hd))
  have hall := diagnostics_addAll (r := r) hinj
  rw [hnew] at hall
  have hkept (d : Diagnostic) (hd : d ∈ ds.eraseDups) : d.file = file := hown d (List.mem_eraseDups.mp hd)
  refine ⟨h, h.addAll ds, ?_, hlast, ?_⟩
  · rw [hall, List.filter_append,
      List.filter_eq_self.mpr fun d hd => bne_iff_ne.mpr (ne_of_before (hlast d hd)),
      List.filter_eq_nil_iff.mpr fun d hd => by simpa using hkept d hd, List.append_nil]
  · rw [hall, List.filter_append, List.filter_eq_self.mpr fun d hd => beq_iff_eq.mpr (hkept d hd),
      List.filter_eq_nil_iff.mpr fun d hd => by simpa using ne_of_before (hlast d hd), List.nil_append]

end Report

namespace Program

variable {config : Config} {assets : AssetReader} {files : List (String × String)} {path text : String}
variable {ident : Token}
variable {q : Parsed} {f : SourceFile} {file : FileId} {own : List Diagnostic} {r r' : Report}

-- A source behind the others that is not the entry and whose package clause names another package.
structure Foreign (config : Config) (files : List (String × String)) (path text : String)
    (ident : Token) : Prop where
  source : config.isSourcePath path = true
  new : path ∉ files.map Prod.fst
  apart : ∀ f, (parseFiles config (files ++ [(path, text)])).entryFile? = some f → f.path ≠ path
  package : packageIdent? (Syntax.parse text).tree = some ident
  other : ident.text ≠ config.package

-- What is wrong with the syntax of a file, and with its package.
def faultReports (file : FileId) (text : String) : List Diagnostic :=
  (Syntax.parse text).errors.map fun e => (Problem.syntaxError e.fault).diagnostic file e.range

def packageReport (config : Config) (file : FileId) (ident : Token) : Diagnostic :=
  (Problem.packageMismatch ident.text config.package).diagnostic file (Check.rangeOf ident)

section Reports

-- No fault of the syntax is worded like a wrong package.
theorem message_syntaxError_ne (fault : Syntax.Fault) (found expected : String) :
    (Problem.syntaxError fault).message ≠ (Problem.packageMismatch found expected).message := by
  have hfault : Problem.opening (Problem.syntaxError fault).message ≠ ['p', 'a'] := by
    change Problem.opening fault.message ≠ _
    cases fault <;> simp [Problem.opening, Syntax.Fault.message]
  have hpackage : Problem.opening (Problem.packageMismatch found expected).message = ['p', 'a'] := by
    change Problem.opening ("package " ++ found ++ "; expected package " ++ expected) = _
    rw [String.append_assoc, String.append_assoc, Problem.opening_append (by simp)]
    simp [Problem.opening]
  intro heq
  rw [heq] at hfault
  exact hfault hpackage

theorem eq_of_identity {d d' : Diagnostic}
    (hd : d ∈ faultReports file text ++ [packageReport config file ident])
    (hd' : d' ∈ faultReports file text ++ [packageReport config file ident])
    (heq : d.identity = d'.identity) : d = d' := by
  have hmessage : d.message = d'.message := congrArg (·.2.2.2) heq
  have hrange : d.range = d'.range := congrArg (·.2.2.1) heq
  rw [List.mem_append, List.mem_singleton] at hd hd'
  rcases hd with hd | rfl
  · obtain ⟨e, -, rfl⟩ := List.mem_map.mp hd
    rcases hd' with hd' | rfl
    · obtain ⟨e', -, rfl⟩ := List.mem_map.mp hd'
      simp only [Problem.diagnostic] at hmessage hrange ⊢
      rw [hmessage, hrange]
      rfl
    · exact (message_syntaxError_ne _ _ _ hmessage).elim
  · rcases hd' with hd' | rfl
    · obtain ⟨e', -, rfl⟩ := List.mem_map.mp hd'
      exact (message_syntaxError_ne _ _ _ hmessage.symm).elim
    · rfl

theorem eraseDups_reports : (faultReports file text ++ [packageReport config file ident]).eraseDups =
    (faultReports file text).eraseDups ++ [packageReport config file ident] := by
  have hnew : packageReport config file ident ∉ faultReports file text := by
    intro hmem
    obtain ⟨e, -, heq⟩ := List.mem_map.mp hmem
    exact message_syntaxError_ne _ _ _ (congrArg Diagnostic.message heq)
  rw [List.eraseDups_append]
  simp [List.removeAll, hnew, List.eraseDups_cons]

end Reports

section Files

-- A new source is put behind the other files, and left out if its package is a wrong one.
theorem exists_addFile (text : String) (hsource : config.isSourcePath path = true)
    (hnew : q.files.any (·.path == path) = false) :
    ∃ f, (q.addFile config path text).files = q.files.push f ∧ f.file = .source q.files.size ∧ f.path = path ∧
      f.text = text ∧ f.isEntry = (q.entryFile?.isNone && config.isEntryPath path) ∧
      f.excluded = ((packageIdent? (Syntax.parse text).tree).filter (·.text != config.package)).isSome := by
  unfold Parsed.addFile
  rw [if_neg (by simp [hsource, hnew])]
  generalize Syntax.parse text = parse
  exact ⟨_, rfl, rfl, rfl, rfl, rfl, rfl⟩

-- Only a file at the path of an entry is one.
theorem isEntryPath_of_isEntry (hf : f ∈ (parseFiles config files).files.toList) (hentry : f.isEntry = true) :
    config.isEntryPath f.path = true := by
  induction files using List.reverseRecOn with
  | nil => simp [parseFiles] at hf
  | append_singleton files input ih =>
      rw [parseFiles_append] at hf
      by_cases hskip : (!config.isSourcePath input.1 ||
        (parseFiles config files).files.any (·.path == input.1)) = true
      · rw [Parsed.addFile, if_pos hskip] at hf
        exact ih hf
      · obtain ⟨hsource, hnew⟩ := Bool.or_eq_false_iff.mp (Bool.eq_false_iff.mpr hskip)
        obtain ⟨g, hfiles, -, hpath, -, hg, -⟩ :=
          exists_addFile input.2 (Bool.not_eq_eq_eq_not.mp hsource) hnew
        rw [hfiles, Array.toList_push, List.mem_append, List.mem_singleton] at hf
        rcases hf with hf | rfl
        · exact ih hf
        · rw [hpath]
          exact (Bool.and_eq_true_iff.mp (hg.symm.trans hentry)).2

theorem report_addFile (hsource : config.isSourcePath path = true)
    (hnew : q.files.any (·.path == path) = false)
    (hpackage : packageIdent? (Syntax.parse text).tree = some ident) (hother : ident.text ≠ config.package) :
    (q.addFile config path text).report = q.report.addAll (faultReports (.source q.files.size) text ++
      [packageReport config (.source q.files.size) ident]) := by
  unfold Parsed.addFile
  rw [if_neg (by simp [hsource, hnew])]
  unfold faultReports
  generalize Syntax.parse text = parse at hpackage ⊢
  dsimp only
  rw [hpackage, Option.filter_some, if_pos (by simpa using hother), Report.addAll, List.foldl_append,
    List.foldl_map]
  rfl

-- The file is left out and not the entry; all that is wrong with it is reported.
theorem Foreign.exists_file (h : Foreign config files path text ident) (hq : parseFiles config files = q) :
    ∃ f, f.file = .source q.files.size ∧ f.path = path ∧ f.text = text ∧ f.isEntry = false ∧
      f.excluded = true ∧ parseFiles config (files ++ [(path, text)]) = ⟨q.files.push f,
        q.report.addAll (faultReports f.file text ++ [packageReport config f.file ident])⟩ := by
  have hfits := hq ▸ Parsed.fits_parseFiles config files
  have hnew : q.files.any (·.path == path) = false := by
    rw [Bool.eq_false_iff]
    intro hany
    obtain ⟨g, hg, hpath⟩ := Array.any_eq_true'.mp hany
    have hgiven := hfits.given g (Array.mem_toList_iff.mpr hg)
    exact h.new (List.mem_map.mpr ⟨_, hgiven, beq_iff_eq.mp hpath⟩)
  obtain ⟨f, hfiles, hfile, hpath, htext, hentry, hexcluded⟩ := exists_addFile text h.source hnew
  have hparse := parseFiles_append config files path text
  have hapart := h.apart
  rw [hparse, hq] at hapart
  refine ⟨f, hfile, hpath, htext, ?_, ?_, ?_⟩
  · rw [hentry, Bool.eq_false_iff]
    intro hfirst
    have hnone : q.files.find? (·.isEntry) = none :=
      Option.isNone_iff_eq_none.mp (Bool.and_eq_true_iff.mp hfirst).1
    refine hapart f ?_ hpath
    unfold Parsed.entryFile?
    rw [hfiles, Array.find?_push, hnone, Option.none_or, if_pos (hentry.trans hfirst)]
  · rw [hexcluded, h.package, Option.filter_some, if_pos (by simpa using h.other)]
    rfl
  · rw [hparse, hq, hfile, ← report_addFile h.source hnew h.package h.other, ← hfiles]

end Files

section Runs

-- Two runs over the same files, with a file that is left out behind those of one of them.
variable {files : Array SourceFile}

theorem sources_push (h : f.excluded = true) (report report' : Report) :
    (Parsed.mk (files.push f) report').sources = (Parsed.mk files report).sources := by
  unfold Parsed.sources
  simp [h]

theorem entryFile?_push (h : f.isEntry = false) (report report' : Report) :
    (Parsed.mk (files.push f) report').entryFile? = (Parsed.mk files report).entryFile? := by
  unfold Parsed.entryFile?
  simp [Array.find?_push, h]

theorem steps_push {w : Resource.World} (h : f.excluded = true) :
    w.steps (files.push f).toList = w.steps files.toList := by
  unfold Resource.World.steps
  simp [h]

theorem find?_push {g : SourceFile} (h : SourceFile.find? files file = some g) :
    SourceFile.find? (files.push f) file = some g := by
  cases file with
  | bundled => cases h
  | source index =>
      obtain ⟨hlt, heq⟩ := Array.getElem?_eq_some_iff.mp h
      rw [SourceFile.find?, Array.getElem?_push_lt hlt, heq]

theorem before_of_find? {g : SourceFile} (h : SourceFile.find? files file = some g) :
    file.before (.source files.size) = true := by
  cases file with
  | bundled => cases h
  | source index => exact decide_eq_true (Array.getElem?_eq_some_iff.mp h).1

variable (hbeside : Report.Beside (.source files.size) own r r')

include hbeside

theorem beside_reportChecked {problems : List (FileId × Text.ByteRange × Problem)}
    (hproblems : ∀ x ∈ problems, (x.2.2.diagnostic x.1 x.2.1).LiesIn files) (f : SourceFile) :
    ∃ s s', reportChecked files problems r = .ok s ∧ reportChecked (files.push f) problems r' = .ok s' ∧
      Report.Beside (.source files.size) own s s' := by
  unfold reportChecked
  induction problems generalizing r r' with
  | nil => exact ⟨r, r', rfl, rfl, hbeside⟩
  | cons x rest ih =>
      obtain ⟨hplace, hrest⟩ := List.forall_mem_cons.mp hproblems
      obtain ⟨file, range, problem⟩ := x
      obtain ⟨g, hfind, hfits⟩ := hplace
      have hchecked (files' : Array SourceFile) (hfind' : SourceFile.find? files' file = some g) :
          checkedDiagnostic files' file range problem = .ok (problem.diagnostic file range) := by
        unfold checkedDiagnostic
        rw [hfind']
        exact if_pos hfits.inside
      obtain ⟨s, s', hrun, hrun', hnext⟩ := ih (hbeside.add (before_of_find? hfind)) hrest
      refine ⟨s, s', ?_, ?_, hnext⟩
      · rw [List.foldlM_cons]
        dsimp only
        rw [hchecked files hfind]
        exact hrun
      · rw [List.foldlM_cons]
        dsimp only
        rw [hchecked _ (find?_push hfind)]
        exact hrun'

theorem beside_reportAssets {entryFile? : Option SourceFile} (messages : List String)
    (hentry : ∀ f, entryFile? = some f → SourceFile.find? files f.file = some f) :
    Report.Beside (.source files.size) own (reportAssets entryFile? r messages)
      (reportAssets entryFile? r' messages) := by
  cases entryFile? with
  | none => exact hbeside
  | some f =>
      have hbefore := before_of_find? (hentry f rfl)
      unfold reportAssets
      dsimp only
      induction messages generalizing r r' with
      | nil => exact hbeside
      | cons message rest ih => exact ih (hbeside.add hbefore)

theorem beside_assetRoot (config : Config) (m : Model) (info : Info) {entryFile? : Option SourceFile}
    (hentry : ∀ f, entryFile? = some f → SourceFile.find? files f.file = some f) :
    ∃ root s s', Resource.assetRoot config m info entryFile? r = (root, s) ∧
      Resource.assetRoot config m info entryFile? r' = (root, s') ∧
      Report.Beside (.source files.size) own s s' := by
  unfold Resource.assetRoot
  extract_lets isRun found?
  have hfound (file : FileId) (call : Tree) (hcall : found? = some (file, call)) :
      file.before (.source files.size) = true := by
    obtain ⟨f, hf, hcall⟩ := Option.bind_eq_some_iff.mp hcall
    obtain ⟨c, -, hcall⟩ := List.exists_of_findSome?_eq_some hcall
    split at hcall
    · cases hcall
      exact before_of_find? (hentry f hf)
    · cases hcall
  clear_value found?
  split
  case h_1 file arg harg =>
    obtain ⟨⟨file', call⟩, hcall, harg⟩ := Option.bind_eq_some_iff.mp harg
    obtain ⟨arg', -, heq⟩ := Option.map_eq_some_iff.mp harg
    cases heq
    split
    · exact ⟨_, _, _, rfl, rfl, hbeside⟩
    · exact ⟨_, _, _, rfl, rfl, hbeside.add (hfound _ _ hcall)⟩
  case h_2 => exact ⟨_, _, _, rfl, rfl, hbeside⟩

theorem beside_loadAssets (config : Config) (assets : AssetReader) (checked : Check.Result)
    (report report' : Report) (hf : f.isEntry = false)
    (hentry : ∀ g, (Parsed.mk files report).entryFile? = some g →
      SourceFile.find? files g.file = some g) : ∃ root catalog? s s',
    loadAssets config assets ⟨files, report⟩ checked r = ⟨root, catalog?, s⟩ ∧
      loadAssets config assets ⟨files.push f, report'⟩ checked r' = ⟨root, catalog?, s'⟩ ∧
        Report.Beside (.source files.size) own s s' := by
  unfold loadAssets
  rw [entryFile?_push hf report report']
  obtain ⟨root, s, s', hroot, hroot', hnext⟩ :=
    beside_assetRoot hbeside config checked.model checked.info hentry
  rw [hroot, hroot']
  dsimp only
  cases Catalog.load assets root with
  | ok catalog => exact ⟨_, _, _, _, rfl, rfl, beside_reportAssets hnext _ hentry⟩
  | error e => exact ⟨_, _, _, _, rfl, rfl, beside_reportAssets hnext _ hentry⟩

theorem beside_resolve (w : Resource.World) (hf : f.excluded = true)
    (hfiles : ∀ g ∈ files.toList, SourceFile.find? files g.file = some g) : ∃ index s s',
    Resource.resolve w files.toList r = (index, s) ∧
      Resource.resolve w (files.push f).toList r' = (index, s') ∧
      Report.Beside (.source files.size) own s s' := by
  rw [Resource.resolve_eq, Resource.resolve_eq, steps_push hf, Resource.index_foldl _ _ r' r]
  have hleads (report : Report) := Resource.leads_foldl (s := { report }) ResourceIndex.faithful_empty
    (w.steps files.toList)
  refine ⟨_, _, _, rfl, rfl, ?_⟩
  rw [(hleads r).report, (hleads r').report]
  refine hbeside.addAll fun d hd => ?_
  obtain ⟨step, hstep, hd⟩ := List.mem_filterMap.mp hd
  cases step with
  | report d' =>
      cases hd
      obtain ⟨g, hg, hfile, -⟩ := Resource.World.place_of_mem_steps hstep
      exact hfile ▸ before_of_find? (hfiles g hg)
  | ref => cases hd
  | bind => cases hd

end Runs

-- The program of one run beside that of the other.
theorem beside_assemble {files : Array SourceFile} (config : Config) (checked : Check.Result) (root : String)
    (catalog? : Option Catalog) (report report' : Report) (hf : f.excluded = true)
    (hfiles : ∀ g ∈ files.toList, SourceFile.find? files g.file = some g)
    (hbeside : Report.Beside (.source files.size) own r r') :
    let p := assemble config ⟨files, report⟩ checked ⟨root, catalog?, r⟩
    let p' := assemble config ⟨files.push f, report'⟩ checked ⟨root, catalog?, r'⟩
    p'.catalog = p.catalog ∧ p'.resources = p.resources ∧ p'.diagnostics = p.diagnostics ++ own ∧
      ∀ d ∈ p.diagnostics, d.file.before (.source files.size) = true := by
  cases catalog? with
  | none => exact ⟨rfl, rfl, hbeside.byFile, fun d hd => hbeside.last d (Report.mem_byFile.mp hd)⟩
  | some catalog =>
      obtain ⟨index, s, s', hrun, hrun', hnext⟩ := beside_resolve hbeside
        ⟨checked.model, checked.info, catalog, config.entryFile⟩ hf hfiles
      unfold assemble
      dsimp only
      rw [hrun, hrun']
      exact ⟨rfl, rfl, hnext.byFile, fun d hd => hnext.last d (Report.mem_byFile.mp hd)⟩

-- The files of one run beside those of the other.
theorem Foreign.exists_beside (h : Foreign config files path text ident) (hq : parseFiles config files = q) :
    ∃ f report', f.file = .source q.files.size ∧ f.path = path ∧ f.text = text ∧ f.isEntry = false ∧
      f.excluded = true ∧ parseFiles config (files ++ [(path, text)]) = ⟨q.files.push f, report'⟩ ∧
      Report.Beside f.file ((faultReports f.file text).eraseDups ++ [packageReport config f.file ident])
        q.report report' := by
  obtain ⟨f, hfile, hpath, htext, hentry, hexcluded, hparse⟩ := h.exists_file hq
  have hfits := hq ▸ Parsed.fits_parseFiles config files
  have hlast (d : Diagnostic) (hd : d ∈ q.report.diagnostics.toList) : d.file.before f.file = true := by
    obtain ⟨⟨g, hg, -⟩, -⟩ := hfits.report.all d hd
    exact hfile ▸ before_of_find? hg
  have hown (d : Diagnostic) (hd : d ∈ faultReports f.file text ++ [packageReport config f.file ident]) :
      d.file = f.file := by
    rcases List.mem_append.mp hd with hd | hd
    · obtain ⟨e, -, rfl⟩ := List.mem_map.mp hd
      rfl
    · rw [List.mem_singleton.mp hd]
      rfl
  have hbeside :=
    Report.beside_addAll hfits.report.faithful hlast hown fun d hd d' hd' => eq_of_identity hd hd'
  rw [eraseDups_reports] at hbeside
  exact ⟨f, _, hfile, hpath, htext, hentry, hexcluded, hparse, hbeside⟩

-- A file of another package has no part in what a program is, and all that is said of it is
-- what is wrong with its syntax and that it is of the wrong package.
theorem compile_foreign (assets : AssetReader) (h : Foreign config files path text ident) :
    (∀ e, compile config assets files false = .error e →
      compile config assets (files ++ [(path, text)]) false = .error e) ∧
    ∀ p, compile config assets files false = .ok p →
      ∃ p' f, compile config assets (files ++ [(path, text)]) false = .ok p' ∧
        p'.files = p.files.push f ∧ f.path = path ∧ f.text = text ∧
        p'.model = p.model ∧ p'.info = p.info ∧ p'.catalog = p.catalog ∧ p'.resources = p.resources ∧
        (∀ g ∈ p.files.toList, p'.diagnosticsOf g.file = p.diagnosticsOf g.file) ∧
        p'.diagnosticsOf f.file = (faultReports f.file text).eraseDups ++
        [packageReport config f.file ident] := by
  obtain ⟨q, hq⟩ : ∃ q, parseFiles config files = q := ⟨_, rfl⟩
  obtain ⟨checked, hchecked⟩ : ∃ checked, Check.checkProgram config.package q.sources = checked := ⟨_, rfl⟩
  obtain ⟨f, report', hfile, hpath, htext, hentry, hexcluded, hparse, hbeside⟩ := h.exists_beside hq
  have hfits := hq ▸ Parsed.fits_parseFiles config files
  have hproblems := lies_problems (hchecked ▸ checked_parseFiles config files hq rfl)
  generalize hlist : (faultReports f.file text).eraseDups ++ [packageReport config f.file ident] =
    own at hbeside
  rw [hfile] at hbeside
  rw [compile_eq config assets files hq hchecked,
    compile_eq config assets _ hparse ((congrArg _ (sources_push hexcluded q.report report')).trans hchecked)]
  by_cases hcrashed : checked.crashed = true
  · rw [if_pos hcrashed, if_pos hcrashed]
    exact ⟨fun _ => id, fun _ hp => by cases hp⟩
  rw [if_neg hcrashed, if_neg hcrashed]
  obtain ⟨s, s', hrun, hrun', hbeside⟩ := beside_reportChecked hbeside (fun x hx => (hproblems x hx).1) f
  obtain ⟨root, catalog?, t, t', hload, hload', hbeside⟩ :=
    beside_loadAssets hbeside config assets checked q.report
    report' hentry fun g hg => (hfits.entryFile? hg).2
  obtain ⟨hcatalog, hresources, hdiagnostics, hbefore⟩ :=
    beside_assemble config checked root catalog? q.report report'
    hexcluded (fun g hg => hfits.find? hg) hbeside
  change loadAssets config assets q checked s = _ at hload
  rw [hrun, hrun', Except.map, Except.map, hload, hload']
  refine ⟨fun e he => (by cases he), fun p hp => ?_⟩
  obtain rfl := Except.ok.inj hp
  refine ⟨_, f, rfl, rfl, hpath, htext, rfl, rfl, hcatalog, hresources, fun g hg => ?_, ?_⟩
  all_goals
    unfold diagnosticsOf
    rw [hdiagnostics, List.filter_append]
  · have hg := Report.ne_of_before (before_of_find? (hfits.find? hg))
    have hnone : own.filter (·.file == g.file) = [] :=
      List.filter_eq_nil_iff.mpr fun d hd => by simpa [hbeside.file_own hd] using hg.symm
    rw [hnone, List.append_nil]
  · have hnone (l : List Diagnostic) (hl : ∀ d ∈ l, d.file.before f.file = true) :
        l.filter (·.file == f.file) = [] :=
      List.filter_eq_nil_iff.mpr fun d hd => by simpa using Report.ne_of_before (hl d hd)
    rw [hnone _ (hfile ▸ hbefore), List.nil_append, hlist]
    exact List.filter_eq_self.mpr fun d hd => by simpa [hfile] using hbeside.file_own hd

theorem exists_foreign :
    ∃ ident, Foreign {} [("main.spx", "var hop Sound")] "Hop.spx" "package hop\n)" ident := by
  have htext : (packageIdent? (Syntax.parse "package hop\n)").tree).map (·.text) = some "hop" := by cbv
  obtain ⟨ident, hident, htext⟩ := Option.map_eq_some_iff.mp htext
  refine ⟨ident, by cbv, by simp, fun f hf hpath => ?_, hident, by simp [htext]⟩
  have hentry := isEntryPath_of_isEntry (Array.mem_toList_iff.mpr (Array.mem_of_find?_eq_some hf))
    (Array.find?_some hf :)
  have hname : ({} : Config).isEntryPath "Hop.spx" = false := by cbv
  rw [hpath, hname] at hentry
  exact Bool.false_ne_true hentry

theorem compile_foreign_sprite : ∃ (ident : Token) (p p' : Program) (f : SourceFile),
    Foreign {} [("main.spx", "var hop Sound")] "Hop.spx" "package hop\n)" ident ∧
      compile {} (.ofFiles []) [("main.spx", "var hop Sound")] false = .ok p ∧
      compile {} (.ofFiles [])
          ([("main.spx", "var hop Sound")] ++ [("Hop.spx", "package hop\n)")]) false = .ok p' ∧
      p'.model = p.model ∧ p'.resources = p.resources ∧
      p'.diagnosticsOf f.file = (faultReports f.file "package hop\n)").eraseDups ++
      [packageReport {} f.file ident] := by
  obtain ⟨ident, h⟩ := exists_foreign
  have hspread : Parsed.NoEmptySpread [("main.spx", "var hop Sound")] :=
    Parsed.noEmptySpread_of_tokenize (by cbv)
  obtain ⟨p, hp, -⟩ := compile_ok {} (.ofFiles []) hspread
  obtain ⟨p', f, hp', -, -, -, hmodel, -, -, hresources, -, hreports⟩ :=
    (compile_foreign (.ofFiles []) h).2 p hp
  exact ⟨ident, p, p', f, h, hp, hp', hmodel, hresources, hreports⟩

end Program

end SpriteScript
