import Mathlib
import SpriteScript.Proofs.Program.Compile

-- The tables of a compiled program: where its symbols are declared, and where they are used.
namespace SpriteScript

-- The word stands in the text, at the range.
def Text.ByteRange.Spells (r : Text.ByteRange) (text word : String) : Prop :=
  ∃ before after, text = before ++ word ++ after ∧
    r = ⟨before.utf8ByteSize, before.utf8ByteSize + word.utf8ByteSize⟩

-- At the range stands the path of a package that the text imports without an alias.
def Text.ByteRange.ImportsBare (r : Text.ByteRange) (text : String) : Prop :=
  ∃ spec ∈ (Syntax.parse text).tree.importSpecs, spec.name?.bind Tree.ident? = none ∧
    ∃ path, spec.pathToken? = some path ∧ Check.rangeOf path = r

theorem Token.spells_of_mem_tokenize {text : String} {s : Token} (hs : s ∈ tokenize text) :
    (Check.rangeOf s).Spells text s.text := by
  obtain ⟨before, after, htokens⟩ := List.append_of_mem hs
  have hrow := tokenize_row text
  have htext := texts_tokenize text
  rw [htokens] at hrow htext
  obtain ⟨mid, hbefore, hoffset, -, -⟩ := Row.append_iff.mp hrow
  refine ⟨texts before, texts after, ?_, ?_⟩
  · rw [← htext, texts_append, texts_cons, String.append_assoc]
  · rw [Check.rangeOf, stop, hoffset, hbefore.stop_eq, Nat.zero_add]

theorem Model.symbol_of_origins {m : Model} {id : SymbolId} {o : Origin} (h : m.origins[id.index]? = some o) :
    (m.symbol id).origin = o := by
  rw [origins, List.getElem?_map, Array.getElem?_toList] at h
  obtain ⟨x, hx, hox⟩ := Option.map_eq_some_iff.mp h
  rw [symbol, hx]
  exact hox

-- What was found before in a file that is not read is what is found there.
section Before

variable {texts : FileId → Option String} {before i : Info} {file : FileId} {range : Text.ByteRange}
variable (h : i.Once ⟨texts, before, []⟩) (hfile : texts file = none)

include h hfile

theorem Info.Once.useAt?_of_none : i.useAt? file range = before.useAt? file range :=
  (h.kept (file, range) hfile).1

theorem Info.Once.defAt?_of_none : i.defAt? file range = before.defAt? file range :=
  (h.kept (file, range) hfile).2

end Before

-- What the tables note is written in the texts.
structure Info.Written (texts : FileId → Option String) (m : Model) (i : Info) : Prop where
  uses : ∀ file range id, i.useAt? file range = some id →
    ∃ text, texts file = some text ∧ range.Spells text (m.symbol id).name
  defs : ∀ file range id, i.defAt? file range = some id →
    ∃ text, texts file = some text ∧ (range.Spells text (m.symbol id).name ∨ range.ImportsBare text)

namespace Check

variable {w : Setting} {m : Model} {i : Info} {file : FileId} {range : Text.ByteRange} {id : SymbolId}

-- The origins of the symbols are the first ones of those of a finished program.
variable (horigins : w.origins <+: m.origins)

include horigins

theorem symbol_of_origin {o : Origin} (h : w.origins[id.index]? = some o) : (m.symbol id).origin = o := by
  obtain ⟨hlt, rfl⟩ := List.getElem?_eq_some_iff.mp h
  exact Model.symbol_of_origins (List.prefix_iff_getElem?.mp horigins _ hlt)

theorem DefinedAt.written (h : DefinedAt w id file range) (hfile : w.Holds file) :
    ∃ text, w.text? file = some text ∧ (range.Spells text (m.symbol id).name ∨ range.ImportsBare text) := by
  obtain ⟨s, o, hs, rfl, ho, hname⟩ := h.spelled hfile
  obtain ⟨text, htext, hmem⟩ := hs.exists_text
  refine ⟨text, htext, hname.imp (fun hname => ?_) ?_⟩
  · have hsymbol : (m.symbol id).name = s.text :=
      (congrArg Origin.name (symbol_of_origin horigins ho)).trans hname.2.symm
    rw [hsymbol]
    exact Token.spells_of_mem_tokenize hmem
  · rintro ⟨text', htext', spec, hspec, hpath, halias⟩
    obtain rfl := Option.some.inj (htext.symm.trans htext')
    exact ⟨spec, hspec, halias, s, hpath, rfl⟩

theorem UsedAt.written (h : UsedAt w id (file, range)) (hfile : w.Holds file) :
    ∃ text, w.text? file = some text ∧ range.Spells text (m.symbol id).name := by
  obtain ⟨s, hs, rfl, hname⟩ := h.source hfile
  obtain ⟨o, ho, hname⟩ := hname.exists_origin
  obtain ⟨text, htext, hmem⟩ := hs.exists_text
  have hsymbol : (m.symbol id).name = s.text :=
    (congrArg Origin.name (symbol_of_origin horigins ho)).trans hname
  rw [hsymbol]
  exact ⟨text, htext, Token.spells_of_mem_tokenize hmem⟩

end Check

namespace Program

open Check (prelude)

variable {config : Config} {assets : AssetReader} {inputs : List (String × String)} {p : Program}

-- The text of a file of the program, or of a bundled package.
def text? (p : Program) (file : FileId) : Option String :=
  match file with
  | .source _ => (p.file? file).map SourceFile.text
  | .bundled _ => Check.bundledText? file

-- What the tables say of the identifiers of a program.
structure Indexed (p : Program) : Prop where
  nodup : ∀ x, (p.info.sitesOf x).Nodup
  sites : ∀ x file range, (file, range) ∈ p.info.sitesOf x ↔ p.info.useAt? file range = some x
  defined : ∀ f ∈ p.files.toList, ∀ range x, p.info.defAt? f.file range = some x →
    (p.model.symbol x).definedAt = some ⟨f.file, range⟩
  apart : ∀ file range, ¬ ((p.info.defAt? file range).isSome = true ∧
    (p.info.useAt? file range).isSome = true)
  written : p.info.Written p.text? p.model

-- The tables of the bundled packages are those of the packages alone.
theorem written_prelude {origins : List Origin} (horigins : prelude.model.origins = origins) {m : Model}
    (hm : origins <+: m.origins) : prelude.info.Written Check.bundledText? m := by
  have htables := (Check.tables_bundled horigins).info
  have honce := Check.consistent_prelude.once
  have hheld (file : FileId) (hfile : Check.bundledText? file ≠ none) :
      (Check.bundledSetting origins).Holds file := .inr (Option.isSome_iff_ne_none.mpr hfile)
  refine ⟨fun file range id huse => ?_, fun file range id hdef => ?_⟩
  · have hfile : Check.bundledText? file ≠ none := fun hnone => by
      rw [honce.useAt?_of_none hnone] at huse
      simp [Info.useAt?] at huse
    have hsite := (honce.sites id (file, range)).mpr huse
    exact (htables.sites id _ hsite).written hm (hheld file hfile)
  · have hfile : Check.bundledText? file ≠ none := fun hnone => by
      rw [honce.defAt?_of_none hnone] at hdef
      simp [Info.defAt?] at hdef
    exact (htables.defs file range id hdef).written hm (hheld file hfile)

theorem Compiled.written (h : p.Compiled assets inputs) : p.info.Written p.text? p.model := by
  obtain ⟨origins, horigins⟩ : ∃ origins, prelude.model.origins = origins := ⟨_, rfl⟩
  have hprefix : prelude.model.origins <+: p.model.origins := h.bundled
  rw [horigins] at hprefix
  have hbundled := written_prelude horigins hprefix
  have hw : (p.setting inputs).origins <+: p.model.origins := List.prefix_rfl
  refine ⟨fun file range id huse => ?_, fun file range id hdef => ?_⟩
  · cases file with
    | source index =>
        have hsite := (h.once.sites id _).mpr huse
        exact (h.info.sites id _ hsite).written hw (.inl rfl)
    | bundled index =>
        rw [h.once.useAt?_of_none rfl] at huse
        exact hbundled.uses (.bundled index) range id huse
  · cases file with
    | source index => exact (h.info.defs _ range id hdef).written hw (.inl rfl)
    | bundled index =>
        rw [h.once.defAt?_of_none rfl] at hdef
        exact hbundled.defs (.bundled index) range id hdef

theorem Compiled.indexed (h : p.Compiled assets inputs) : p.Indexed where
  nodup := h.once.nodup
  sites x file range := h.once.sites x (file, range)
  defined f hf range x hdef := by
    obtain ⟨o, ho, hplace⟩ := (h.info.defs f.file range x hdef).exists_origin (h.isBundled_eq hf)
    exact (congrArg Origin.definedAt (Model.symbol_of_origins ho)).trans hplace
  apart file range := by
    rintro ⟨hdef, huse⟩
    have hnone := h.once.apart (file, range) (by rwa [Std.HashMap.contains_eq_isSome_getElem?])
    rw [Std.HashMap.contains_eq_isSome_getElem?] at hnone
    exact Bool.false_ne_true (hnone.symm.trans hdef)
  written := h.written

-- Names are the keys of the scopes.
theorem Compiled.keyed (h : p.Compiled assets inputs) : p.model.Keyed where
  once scope hscope := h.model.once scope (Array.mem_toList_iff.mpr hscope)
  named scope hscope entry hentry := by
    have hnames :=
      h.model.entries scope (Array.mem_toList_iff.mpr hscope) entry (Array.mem_toList_iff.mpr hentry)
    obtain ⟨o, ho, hname⟩ := hnames.exists_origin
    exact (congrArg Origin.name (Model.symbol_of_origins ho)).trans hname

theorem keyed_of_compile (h : compile config assets inputs false = .ok p) : p.model.Keyed :=
  (compiled_of_compile h).keyed

-- Whatever a program declares and uses, each identifier is noted once, where its symbol's name is
-- written.
theorem identifiers_indexed (h : compile config assets inputs false = .ok p) : p.Indexed :=
  (compiled_of_compile h).indexed

-- A package under an alias, and a variable that is declared again in a block.
theorem identifiers_indexed_shadowed : ∃ p, compile {} (.ofFiles [])
    [("main.spx", "import m \"math\"\nx := m.abs(1)\nif x > 0 \x7b\n\tx := x\n\x7d")] false = .ok p ∧
    p.Indexed := by
  have hspread : Parsed.NoEmptySpread
      [("main.spx", "import m \"math\"\nx := m.abs(1)\nif x > 0 \x7b\n\tx := x\n\x7d")] :=
    Parsed.noEmptySpread_of_tokenize (by cbv)
  obtain ⟨p, hp, -⟩ := compile_ok {} (.ofFiles []) hspread
  exact ⟨p, hp, identifiers_indexed hp⟩

end Program

end SpriteScript
