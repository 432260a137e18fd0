import SpriteScript.Program.Basic
import SpriteScript.Proofs.Identifiers.Program
import SpriteScript.Proofs.Report

-- The files of a program as they are read, and the setting that they make for the check.
namespace SpriteScript

namespace SourceFile

-- Files that stand under their numbers.
variable {files : Array SourceFile} {f : SourceFile}
variable (h : ∀ (index : Nat) (f : SourceFile), files[index]? = some f → f.file = .source index)

include h

theorem find?_of_mem (hf : f ∈ files.toList) : find? files f.file = some f := by
  obtain ⟨index, hindex⟩ := List.mem_iff_getElem?.mp hf
  rw [Array.getElem?_toList] at hindex
  rw [h index f hindex]
  exact hindex

theorem isBundled_of_mem (hf : f ∈ files.toList) : f.file.isBundled = false := by
  obtain ⟨index, hindex⟩ := List.mem_iff_getElem?.mp hf
  rw [Array.getElem?_toList] at hindex
  rw [h index f hindex]
  rfl

end SourceFile

-- The report is about a place in one of the files.
def Diagnostic.LiesIn (d : Diagnostic) (files : Array SourceFile) : Prop :=
  ∃ f, SourceFile.find? files d.file = some f ∧ d.range.FitsIn f.text

-- What can be reported before the search for resources.
structure Diagnostic.IsEarly (d : Diagnostic) (files : Array SourceFile) : Prop where
  place : d.LiesIn files
  problem : ∃ p file range, d = Problem.diagnostic p file range ∧ (p.isOfResource = false ∨
    p = .rootNotConstant ∨ (∃ message, p = .assets message) ∧ range = .empty 0)

namespace Diagnostic

variable {d : Diagnostic} {files : Array SourceFile} {p : Problem} {file : FileId} {range : Text.ByteRange}
  {f : SourceFile}

theorem isEarly_of_find? (hf : SourceFile.find? files file = some f) (hrange : range.FitsIn f.text)
    (hp : p.isOfResource = false) : (p.diagnostic file range).IsEarly files :=
  ⟨⟨f, hf, hrange⟩, p, file, range, rfl, .inl hp⟩

theorem IsEarly.push (h : d.IsEarly files) (f : SourceFile) : d.IsEarly (files.push f) := by
  obtain ⟨⟨g, hfound, hfits⟩, hp⟩ := h
  refine ⟨⟨g, ?_, hfits⟩, hp⟩
  cases hfile : d.file with
  | bundled => simp [hfile, SourceFile.find?] at hfound
  | source index =>
      rw [hfile] at hfound
      have hlt := (Array.getElem?_eq_some_iff.mp hfound).1
      rw [SourceFile.find?, Array.getElem?_push_lt hlt, ← Array.getElem?_eq_getElem hlt]
      exact hfound

end Diagnostic

theorem Program.parseFiles_append (config : Config) (files : List (String × String)) (path text : String) :
    Program.parseFiles config (files ++ [(path, text)]) =
    (Program.parseFiles config files).addFile config path text := by
  unfold Program.parseFiles
  rw [List.foldl_append, List.foldl_cons, List.foldl_nil]

namespace Program.Parsed

variable {config : Config} {path text : String} {inputs : List (String × String)}

-- Every file stands under its number with the tree of its text, which is one of the texts that
-- were given.
structure Fits (inputs : List (String × String)) (p : Parsed) : Prop where
  file : ∀ (index : Nat) (f : SourceFile), p.files[index]? = some f → f.file = .source index
  tree : ∀ f ∈ p.files.toList, f.tree = (Syntax.parse f.text).tree
  given : ∀ f ∈ p.files.toList, (f.path, f.text) ∈ inputs
  report : p.report.Holds (·.IsEarly p.files)

theorem Fits.addFile {p : Parsed} (h : p.Fits inputs) (hinput : (path, text) ∈ inputs) :
    (p.addFile config path text).Fits inputs := by
  unfold Parsed.addFile
  split
  · exact h
  · extract_lets file parse report isEntry wrong? report'
    have hwrong (ident : Token) (hident : wrong? = some ident) : (Check.rangeOf ident).FitsIn text := by
      obtain ⟨name, hname, hident⟩ := Option.bind_eq_some_iff.mp (Option.filter_eq_some_iff.mp hident).1
      obtain ⟨clause, hclause, hname⟩ := Option.bind_eq_some_iff.mp hname
      have hname := Tree.mem_tokens_child (List.mem_of_find?_eq_some hname) (Tree.mem_tokens_of_ident? hident)
      have htokens := Tree.mem_tokens_child (List.mem_of_find?_eq_some hclause) hname
      rw [Syntax.tokens_parse] at htokens
      have hfits := (Token.tokenize_row text).fitsIn htokens
      rwa [Token.texts_tokenize] at hfits
    clear_value wrong?
    -- What is added to the files, whichever they are.
    have hfits (f : SourceFile) (hfile : f.file = .source p.files.size) (hpath : f.path = path)
        (htext : f.text = text) (htree : f.tree = (Syntax.parse text).tree) :
        Fits inputs { files := p.files.push f, report := report' } := by
      have hfind : SourceFile.find? (p.files.push f) file = some f := Array.getElem?_push_size
      have hearly : p.report.Holds (·.IsEarly (p.files.push f)) := h.report.mono fun d hd => hd.push f
      have hparsed : report.Holds (·.IsEarly (p.files.push f)) := by
        refine hearly.foldl fun e he r hr => hr.add (Diagnostic.isEarly_of_find? hfind ?_ rfl)
        exact htext ▸ Syntax.fitsIn_errors text e he
      refine ⟨fun index g hg => ?_, fun g hg => ?_, fun g hg => ?_, ?_⟩
      · rw [Array.getElem?_push] at hg
        split at hg
        · cases hg
          simp_all
        · exact h.file index g hg
      · rw [Array.toList_push, List.mem_append, List.mem_singleton] at hg
        rcases hg with hg | rfl
        · exact h.tree g hg
        · rw [htree, htext]
      · rw [Array.toList_push, List.mem_append, List.mem_singleton] at hg
        rcases hg with hg | rfl
        · exact h.given g hg
        · rw [hpath, htext]
          exact hinput
      · change report'.Holds _
        unfold report'
        split
        case h_1 _ ident =>
          refine hparsed.add (Diagnostic.isEarly_of_find? hfind ?_ rfl)
          exact htext ▸ hwrong ident rfl
        case h_2 => exact hparsed
    exact hfits _ rfl rfl rfl (by dsimp only [parse])

theorem fits_parseFiles (config : Config) (inputs : List (String × String)) :
    (parseFiles config inputs).Fits inputs := by
  have hfold (rest : List (String × String)) (hrest : rest ⊆ inputs) (p : Parsed) (h : p.Fits inputs) :
      (rest.foldl (fun p f => p.addFile config f.1 f.2) p).Fits inputs := by
    induction rest generalizing p with
    | nil => exact h
    | cons input rest ih =>
        obtain ⟨hinput, hrest⟩ := List.cons_subset.mp hrest
        exact ih hrest _ (h.addFile hinput)
  exact hfold inputs (fun _ h => h) {} ⟨by simp, by simp, by simp, Report.holds_empty⟩

-- The files that take part in the check.
def sources (p : Parsed) : List Check.Source :=
  (p.files.toList.filter (!·.excluded)).map fun f => ⟨f.file, f.tree, f.className, f.isEntry⟩

theorem mem_sources {p : Parsed} {f : SourceFile} (hf : f ∈ p.files.toList) (hexcluded : f.excluded = false) :
    ⟨f.file, f.tree, f.className, f.isEntry⟩ ∈ p.sources :=
  List.mem_map.mpr ⟨f, List.mem_filter.mpr ⟨hf, by rw [hexcluded]; rfl⟩, rfl⟩

-- What the check of files is measured against.
def setting (files : Array SourceFile) (origins : List Origin) (strict : Prop) : Check.Setting where
  text? file := (SourceFile.find? files file).map SourceFile.text
  origins
  bundledCount := Check.preludeCount
  strict
  bundled file hbundled hsome := by
    cases file with
    | source => cases hbundled
    | bundled => cases hsome

-- No call in any of the texts spreads an argument that it does not have.
def NoEmptySpread (inputs : List (String × String)) : Prop :=
  ∀ input ∈ inputs, ∀ t ∈ (Syntax.parse input.2).tree.nodes, t.isEmptySpread = false

-- Where no dots are written, no argument is spread.
theorem noEmptySpread_of_tokenize
    (h : (inputs.all fun input => (Token.tokenize input.2).all (·.kind != .ellipsis)) = true) :
    NoEmptySpread inputs := by
  intro input hinput t ht
  have hroot : ∀ s ∈ (Syntax.parse input.2).tree.tokens, s.kind ≠ .ellipsis := by
    rw [Syntax.tokens_parse]
    simpa using List.all_eq_true.mp h input hinput
  obtain ⟨u, hu, rfl⟩ := List.mem_map.mp (List.mem_filter.mp ht).1
  have hbelow := Tree.forall_preorder (P := fun u => ∀ s ∈ u.tokens, s.kind ≠ .ellipsis)
    (fun t ht c hc s hs => ht s (Tree.mem_tokens_child hc hs)) _ 0 hroot u hu
  refine Bool.eq_false_iff.mpr fun hbare => ?_
  obtain ⟨list, hlist, hspread⟩ := (Option.any_eq_true _ _).mp (Bool.and_eq_true_iff.mp hbare).2
  obtain ⟨dots, hdots⟩ := Option.isSome_iff_exists.mp hspread
  have hmem := Tree.childTokens_subset list (List.mem_of_find?_eq_some hdots)
  exact hbelow dots (Tree.mem_tokens_child (List.mem_of_find?_eq_some hlist) hmem)
    (beq_iff_eq.mp (List.find?_some hdots :))

theorem Fits.find? {p : Parsed} (h : p.Fits inputs) {f : SourceFile} (hf : f ∈ p.files.toList) :
    SourceFile.find? p.files f.file = some f :=
  SourceFile.find?_of_mem h.file hf

theorem Fits.hosts {p : Parsed} (h : p.Fits inputs) {package : String} {origins : List Origin}
    (horigins : (Check.checkProgram package p.sources).model.origins = origins) :
    Check.Hosts (setting p.files origins (NoEmptySpread inputs)) package p.sources where
  origins := horigins
  bundledCount := rfl
  bundledText file hbundled := by
    cases file with
    | source => cases hbundled
    | bundled => rfl
  fits source hsource := by
    obtain ⟨f, hf, rfl⟩ := List.mem_map.mp hsource
    have hf := (List.mem_filter.mp hf).1
    refine ⟨⟨f.text, ?_, h.tree f hf⟩, ?_, fun hstrict u hu => ?_⟩
    · exact congrArg (Option.map SourceFile.text) (h.find? hf)
    · exact SourceFile.isBundled_of_mem h.file hf
    · have hu : u ∈ f.tree.nodes := hu
      rw [h.tree f hf] at hu
      exact hstrict _ (h.given f hf) u hu

theorem Fits.nodup_files {p : Parsed} (h : p.Fits inputs) : (p.files.toList.map SourceFile.file).Nodup := by
  have hfiles : p.files.toList.map SourceFile.file = (List.range p.files.size).map FileId.source := by
    refine List.ext_getElem? fun index => ?_
    rw [List.getElem?_map, List.getElem?_map, Array.getElem?_toList]
    by_cases hlt : index < p.files.size
    · rw [List.getElem?_range hlt, Array.getElem?_eq_getElem hlt]
      exact congrArg some (h.file index _ (Array.getElem?_eq_getElem hlt))
    · rw [Array.getElem?_eq_none (Nat.le_of_not_lt hlt), List.getElem?_eq_none (by simpa using hlt)]
      rfl
  rw [hfiles]
  exact List.nodup_range.map fun _ _ => FileId.source.inj

section Sources

variable {p : Parsed} (h : p.Fits inputs)

include h

theorem Fits.nodup_sources : (p.sources.map Check.Source.file).Nodup := by
  unfold sources
  rw [List.map_map]
  exact h.nodup_files.sublist (List.filter_sublist.map _)

theorem Fits.text_of_mem_sources (origins : List Origin) (strict : Prop) :
    ∀ source ∈ p.sources, ∃ text, (setting p.files origins strict).text? source.file = some text ∧
      source.tree = (Syntax.parse text).tree := by
  intro source hsource
  obtain ⟨f, hf, rfl⟩ := List.mem_map.mp hsource
  have hf := (List.mem_filter.mp hf).1
  exact ⟨f.text, congrArg (Option.map SourceFile.text) (h.find? hf), h.tree f hf⟩

theorem Fits.isBundled_of_mem_sources : ∀ source ∈ p.sources, source.file.isBundled = false := by
  intro source hsource
  obtain ⟨f, hf, rfl⟩ := List.mem_map.mp hsource
  exact SourceFile.isBundled_of_mem h.file (List.mem_filter.mp hf).1

-- The files are read once.
theorem Fits.consistent {package : String} {origins : List Origin} {strict : Prop} :
    Check.Consistent ⟨(setting p.files origins strict).text?, Check.prelude.info, []⟩
      (Check.checkProgram package p.sources).info (Check.checkProgram package p.sources).model :=
  Check.consistent_checkProgram h.nodup_sources (h.text_of_mem_sources origins strict)
    h.isBundled_of_mem_sources

end Sources

-- Files are found by their paths, and their lines are those of their texts.
structure Filed (config : Config) (p : Parsed) : Prop where
  lines : ∀ f ∈ p.files.toList, f.lines = .ofText f.text
  source : ∀ f ∈ p.files.toList, config.isSourcePath f.path = true
  paths : p.files.toList.Pairwise (·.path ≠ ·.path)

theorem Filed.addFile {p : Parsed} (h : p.Filed config) (path text : String) :
    (p.addFile config path text).Filed config := by
  unfold Parsed.addFile
  split
  · exact h
  case isFalse hnew =>
    obtain ⟨hsource, hnone⟩ := Bool.or_eq_false_iff.mp (Bool.eq_false_iff.mpr hnew)
    rw [← Array.any_toList] at hnone
    have hpath (f : SourceFile) (hf : f ∈ p.files.toList) : f.path ≠ path :=
      fun heq => List.any_eq_false.mp hnone f hf (beq_iff_eq.mpr heq)
    extract_lets file parse report isEntry wrong? report'
    refine ⟨fun f hf => ?_, fun f hf => ?_, ?_⟩
    · rw [Array.toList_push, List.mem_append, List.mem_singleton] at hf
      rcases hf with hf | rfl
      · exact h.lines f hf
      · rfl
    · rw [Array.toList_push, List.mem_append, List.mem_singleton] at hf
      rcases hf with hf | rfl
      · exact h.source f hf
      · simpa using hsource
    · rw [Array.toList_push, List.pairwise_append]
      refine ⟨h.paths, List.pairwise_singleton _ _, fun f hf g hg => ?_⟩
      rw [List.mem_singleton.mp hg]
      exact hpath f hf

theorem filed_parseFiles (config : Config) (inputs : List (String × String)) :
    (parseFiles config inputs).Filed config := by
  induction inputs using List.reverseRecOn with
  | nil => exact ⟨List.forall_mem_nil _, List.forall_mem_nil _, .nil⟩
  | append_singleton inputs input ih =>
      rw [parseFiles_append]
      exact ih.addFile input.1 input.2

-- Every source that is given has a file.
theorem exists_file {path text : String} (hsource : config.isSourcePath path = true)
    (hinput : (path, text) ∈ inputs) :
    ∃ f ∈ (parseFiles config inputs).files.toList, f.path = path := by
  induction inputs using List.reverseRecOn with
  | nil => cases hinput
  | append_singleton inputs input ih =>
      obtain ⟨path', text'⟩ := input
      rw [parseFiles_append]
      unfold Parsed.addFile
      rcases List.mem_append.mp hinput with hinput | hinput
      · obtain ⟨f, hf, hpath⟩ := ih hinput
        refine ⟨f, ?_, hpath⟩
        split
        · exact hf
        · rw [Array.toList_push]
          exact List.mem_append_left _ hf
      · cases List.mem_singleton.mp hinput
        split
        case isTrue hold =>
          rw [hsource, Bool.not_true, Bool.false_or, ← Array.any_toList] at hold
          obtain ⟨f, hf, hpath⟩ := List.any_eq_true.mp hold
          exact ⟨f, hf, beq_iff_eq.mp hpath⟩
        case isFalse => exact ⟨_, by rw [Array.toList_push]; exact List.mem_concat_self, rfl⟩

theorem Filed.find?_path {p : Parsed} (h : p.Filed config) {f : SourceFile} (hf : f ∈ p.files.toList) :
    p.files.find? (·.path == f.path) = some f := by
  have hsome : (p.files.find? (·.path == f.path)).isSome = true := by
    simp only [Array.find?_isSome]
    exact ⟨f, Array.mem_toList_iff.mp hf, by simp⟩
  obtain ⟨g, hg⟩ := Option.isSome_iff_exists.mp hsome
  have hmem := Array.mem_toList_iff.mpr (Array.mem_of_find?_eq_some hg)
  have hpath : g.path = f.path := beq_iff_eq.mp (Array.find?_some hg :)
  by_contra hne
  have hfg : g ≠ f := fun heq => hne (heq ▸ hg)
  have : Std.Symm fun f g : SourceFile => f.path ≠ g.path := ⟨fun _ _ => Ne.symm⟩
  exact h.paths.forall hmem hf hfg hpath

end Program.Parsed

end SpriteScript
