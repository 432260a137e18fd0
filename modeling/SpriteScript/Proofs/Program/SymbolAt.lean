import SpriteScript.Proofs.Program.Identifiers

-- The symbol at a position of a file. Places that are noted for a file are tokens, and two words never
-- stand next to each other, so a position lies in or next to one of them at most. The exception is the
-- path of an import without an alias: nothing needs to stand between two of them in parentheses.
namespace SpriteScript

theorem Text.ByteRange.touches_iff {r : Text.ByteRange} {offset : Nat} :
    r.touches offset = true ↔ r.start ≤ offset ∧ offset ≤ r.stop := by
  rw [touches, Bool.and_eq_true, decide_eq_true_iff, decide_eq_true_iff]

namespace Info

variable {i : Info} {file : FileId} {range : Text.ByteRange} {x : SymbolId}

theorem mem_placesIn {table : Std.HashMap (FileId × Text.ByteRange) SymbolId} :
    (range, x) ∈ placesIn file table ↔ table[(file, range)]? = some x := by
  unfold placesIn
  rw [List.mem_mergeSort, List.mem_filterMap]
  constructor
  · rintro ⟨⟨⟨file', range'⟩, x'⟩, hmem, hplace⟩
    obtain ⟨hfile, heq⟩ := Option.ite_none_right_eq_some.mp hplace
    cases heq
    rw [← beq_iff_eq.mp hfile]
    exact Std.HashMap.mem_toList_iff_getElem?_eq_some.mp hmem
  · intro hplace
    exact ⟨((file, range), x), Std.HashMap.mem_toList_iff_getElem?_eq_some.mpr hplace, by simp⟩

-- What is noted for a file: identifiers that declare something, and those that mean something.
def noted (i : Info) (file : FileId) : List (Text.ByteRange × SymbolId) := i.defsIn file ++ i.usesIn file

theorem mem_noted :
    (range, x) ∈ i.noted file ↔ i.defAt? file range = some x ∨ i.useAt? file range = some x := by
  rw [noted, List.mem_append, defsIn, usesIn, mem_placesIn, mem_placesIn, defAt?, useAt?]

theorem symbolAt?_eq_find? (i : Info) (file : FileId) (offset : Nat) :
    i.symbolAt? file offset = (i.noted file).find? fun a => a.1.touches offset := rfl

end Info

namespace Program

variable {config : Config} {assets : AssetReader} {inputs : List (String × String)} {p : Program}
variable {f : SourceFile} {a b : Text.ByteRange × SymbolId} {offset : Nat}

-- What is noted for a file is noted at a word, or at the path of an import without an alias.
theorem Compiled.token_of_noted (h : p.Compiled assets inputs) (hf : f ∈ p.files.toList)
    (ha : a ∈ p.info.noted f.file) :
    ∃ s ∈ Token.tokenize f.text, Check.rangeOf s = a.1 ∧ (s.kind = .ident ∨ a.1.ImportsBare f.text) := by
  obtain ⟨range, x⟩ := a
  have hheld : (p.setting inputs).Holds f.file := .inl (h.isBundled_eq hf)
  have htokens {s : Token} (hs : Check.Stands (p.setting inputs) f.file s) : s ∈ Token.tokenize f.text := by
    obtain ⟨text, htext, hmem⟩ := hs.exists_text
    rwa [Option.some.inj ((h.text_eq hf).symm.trans htext)]
  rcases Info.mem_noted.mp ha with hdef | huse
  · obtain ⟨s, o, hs, hrange, -, hname⟩ := (h.info.defs f.file range x hdef).spelled hheld
    refine ⟨s, htokens hs, hrange, hname.imp And.left ?_⟩
    rintro ⟨text, htext, spec, hspec, hpath, halias⟩
    obtain rfl := Option.some.inj ((h.text_eq hf).symm.trans htext)
    exact ⟨spec, hspec, halias, s, hpath, hrange⟩
  · obtain ⟨s, hs, hrange, -⟩ := (h.info.sites x _ ((h.indexed.sites x f.file range).mpr huse)).source hheld
    exact ⟨s, htokens hs.toStands, hrange, .inl hs.kind⟩

-- A range is noted once.
theorem Indexed.noted_unique (h : p.Indexed) {file : FileId} (ha : a ∈ p.info.noted file)
    (hb : b ∈ p.info.noted file) (hrange : a.1 = b.1) : a = b := by
  obtain ⟨range, x⟩ := a
  obtain ⟨range', y⟩ := b
  obtain rfl : range = range' := hrange
  have hapart := h.apart file range
  rw [Option.isSome_iff_exists, Option.isSome_iff_exists] at hapart
  rcases Info.mem_noted.mp ha with hx | hx <;> rcases Info.mem_noted.mp hb with hy | hy
  · rw [Option.some.inj (hx.symm.trans hy)]
  · exact absurd ⟨⟨x, hx⟩, ⟨y, hy⟩⟩ hapart
  · exact absurd ⟨⟨y, hy⟩, ⟨x, hx⟩⟩ hapart
  · rw [Option.some.inj (hx.symm.trans hy)]

-- Of two symbols at one position one ends there where the other one starts, and one is the path of an
-- import without an alias.
theorem symbols_at_position (h : compile config assets inputs false = .ok p) (hf : f ∈ p.files.toList)
    (ha : a ∈ p.info.noted f.file) (hb : b ∈ p.info.noted f.file) (hin : a.1.touches offset = true)
    (hin' : b.1.touches offset = true) : a = b ∨
      (a.1.stop = offset ∧ b.1.start = offset ∨ b.1.stop = offset ∧ a.1.start = offset) ∧
        (a.1.ImportsBare f.text ∨ b.1.ImportsBare f.text) := by
  have hcompiled := compiled_of_compile h
  obtain ⟨s, hs, hrange, hkind⟩ := hcompiled.token_of_noted hf ha
  obtain ⟨t, ht, hrange', hkind'⟩ := hcompiled.token_of_noted hf hb
  have hbetween (hne : a ≠ b) :
      s.stop = offset ∧ t.offset = offset ∨ t.stop = offset ∧ s.offset = offset := by
    rw [← hrange] at hin
    rw [← hrange'] at hin'
    refine (Token.eq_or_adjacent hs ht (Text.ByteRange.touches_iff.mp hin)
      (Text.ByteRange.touches_iff.mp hin')).resolve_left ?_
    rintro rfl
    exact hne (hcompiled.indexed.noted_unique ha hb (hrange.symm.trans hrange'))
  by_cases heq : a = b
  · exact .inl heq
  · refine .inr ⟨?_, ?_⟩
    · rw [← hrange, ← hrange']
      exact hbetween heq
    · by_contra hwords
      rw [not_or] at hwords
      have hword := hkind.resolve_right hwords.1
      have hword' := hkind'.resolve_right hwords.2
      rcases hbetween heq with ⟨hstop, hstart⟩ | ⟨hstop, hstart⟩
      · exact Token.not_idents_of_stop_eq hs ht (hstop.trans hstart.symm) ⟨hword, hword'⟩
      · exact Token.not_idents_of_stop_eq ht hs (hstop.trans hstart.symm) ⟨hword', hword⟩

-- So the symbol that is found at a position is the only one there, whatever the order of the tables, as
-- long as no such path lies there.
theorem symbolAt?_eq_some_iff (h : compile config assets inputs false = .ok p) (hf : f ∈ p.files.toList)
    (hpaths : ∀ range : Text.ByteRange, range.ImportsBare f.text → range.touches offset = false) :
    p.info.symbolAt? f.file offset = some a ↔ a ∈ p.info.noted f.file ∧ a.1.touches offset = true := by
  have hunique {b : Text.ByteRange × SymbolId} (ha : a ∈ p.info.noted f.file) (hb : b ∈ p.info.noted f.file)
      (hin : a.1.touches offset = true) (hin' : b.1.touches offset = true) : b = a := by
    rcases symbols_at_position h hf ha hb hin hin' with heq | ⟨-, hbare | hbare⟩
    · exact heq.symm
    · exact absurd ((hpaths _ hbare).symm.trans hin) Bool.false_ne_true
    · exact absurd ((hpaths _ hbare).symm.trans hin') Bool.false_ne_true
  rw [Info.symbolAt?_eq_find?]
  constructor
  · intro hfound
    exact ⟨List.mem_of_find?_eq_some hfound, (List.find?_some hfound :)⟩
  · rintro ⟨ha, hin⟩
    cases hfound : (p.info.noted f.file).find? fun a => a.1.touches offset with
    | none => exact absurd hin (List.find?_eq_none.mp hfound a ha)
    | some b => rw [hunique ha (List.mem_of_find?_eq_some hfound) hin (List.find?_some hfound :)]

end Program

end SpriteScript
