import SpriteScript.Proofs.Extent
import SpriteScript.Semantics.Model

-- How the scopes of a model lie in each other, whatever is bound in them.
namespace SpriteScript

-- A scope without its names.
structure Frame where
  parent : Option ScopeId
  children : List ScopeId
  file : Option FileId
  range : Text.ByteRange
  inclusiveEnd : Bool

def Scope.frame (x : Scope) : Frame := ⟨x.parent, x.children.toList, x.file, x.range, x.inclusiveEnd⟩

-- The scopes of a model by their numbers, and which of them are those of packages and files.
structure Outline where
  frames : List Frame
  predeclared : ScopeId
  packages : List (String × ScopeId)
  fileScopes : List (FileId × ScopeId)

def Model.outline (m : Model) : Outline :=
  ⟨m.scopes.toList.map Scope.frame, m.predeclared, m.packages, m.fileScopes⟩

-- There is room for the range: the scope lies in no file, or around the range in the same file.
def Frame.Holds (x : Frame) (file : FileId) (range : Text.ByteRange) : Prop :=
  ∀ other, x.file = some other → other = file ∧ x.range.includes range = true

def Outline.Encloses (o : Outline) (scope : ScopeId) (file : FileId) (range : Text.ByteRange) : Prop :=
  ∃ x, o.frames[scope.index]? = some x ∧ x.Holds file range

-- The scope lies in another one that came before it and lists it once.
structure Frame.LiesIn (x : Frame) (frames : List Frame) (index : Nat) (up : ScopeId) (outer : Frame) :
    Prop where
  parent : x.parent = some up
  earlier : up.index < index
  found : frames[up.index]? = some outer
  listed : outer.children.count ⟨index⟩ = 1
  holds : ∀ file, x.file = some file → outer.Holds file x.range

-- The scope reaches over a part of its file, if it lies in a file of the program.
def Frame.Spans (texts : FileId → Option String) (x : Frame) : Prop :=
  ∀ file, x.file = some file → file.isBundled = false →
    ∃ text, texts file = some text ∧ ∃ t, (Syntax.parse text).tree.HasPart t ∧ t.range = x.range

-- All scopes but the first one lie in others. Those of packages lie in no file, those of files
-- reach over the text.
structure Outline.Nested (texts : FileId → Option String) (o : Outline) : Prop where
  root : ∃ x, o.frames[0]? = some x ∧ x.parent = none ∧ x.file = none
  inner : ∀ index x, o.frames[index]? = some x → index ≠ 0 → ∃ up outer, x.LiesIn o.frames index up outer
  later : ∀ (index : Nat) (x : Frame), o.frames[index]? = some x → ∀ c ∈ x.children, index < c.index ∧
    c.index < o.frames.length
  spans : ∀ (index : Nat) (x : Frame), o.frames[index]? = some x → x.Spans texts
  predeclared : o.predeclared = ⟨0⟩
  packages : ∀ entry ∈ o.packages, ∃ x, o.frames[entry.2.index]? = some x ∧ x.file = none
  files : ∀ entry ∈ o.fileScopes, entry.1.isBundled = false ∧ ∃ text x, texts entry.1 = some text ∧
    o.frames[entry.2.index]? = some x ∧ x.file = some entry.1 ∧ x.range = ⟨0, text.utf8ByteSize⟩ ∧
    x.inclusiveEnd = true

-- A new scope in another one.
def Outline.add (o : Outline) (x : Frame) (parent : ScopeId) : Outline :=
  { o with
    frames := (o.frames ++ [x]).modify parent.index fun outer =>
      { outer with children := outer.children ++ [⟨o.frames.length⟩] } }

variable {m : Model} {o : Outline} {texts : FileId → Option String} {x : Frame} {scope parent : ScopeId}
variable {index : Nat} {file : FileId} {range inner : Text.ByteRange}

theorem Frame.Holds.of_includes (h : x.Holds file range) (hinner : range.includes inner = true) :
    x.Holds file inner :=
  fun other hother => ⟨(h other hother).1, Text.ByteRange.includes_trans (h other hother).2 hinner⟩

theorem Frame.holds_of_none (h : x.file = none) : x.Holds file range := by
  intro other hother
  rw [h] at hother
  cases hother

theorem Frame.spans_of_none (h : x.file = none) : x.Spans texts := by
  intro other hother
  rw [h] at hother
  cases hother

theorem Frame.holds_range (h : x.file = some file) : x.Holds file x.range := by
  intro other hother
  exact ⟨Option.some.inj (hother.symm.trans h), Text.ByteRange.includes_self⟩

namespace Outline

theorem Encloses.of_includes (h : o.Encloses scope file range) (hinner : range.includes inner = true) :
    o.Encloses scope file inner := by
  obtain ⟨x, hx, hholds⟩ := h
  exact ⟨x, hx, hholds.of_includes hinner⟩

theorem getElem?_add : (o.add x parent).frames[index]? = (o.frames ++ [x])[index]?.map fun y =>
    if parent.index = index then { y with children := y.children ++ [⟨o.frames.length⟩] } else y := by
  rw [add, List.getElem?_modify]
  rfl

-- What was there is changed in its children at most.
theorem exists_add (x : Frame) (parent : ScopeId) {y : Frame} (h : o.frames[index]? = some y) :
    ∃ children, (o.add x parent).frames[index]? = some { y with children } := by
  have hlt := (List.getElem?_eq_some_iff.mp h).1
  rw [getElem?_add, List.getElem?_append_left hlt, h, Option.map_some]
  split
  · exact ⟨_, rfl⟩
  · exact ⟨y.children, rfl⟩

theorem Encloses.add (h : o.Encloses scope file range) : (o.add x parent).Encloses scope file range := by
  obtain ⟨y, hy, hholds⟩ := h
  obtain ⟨children, hy⟩ := exists_add x parent hy
  exact ⟨_, hy, hholds⟩

theorem getElem?_add_length (hlt : parent.index < o.frames.length) :
    (o.add x parent).frames[o.frames.length]? = some x := by
  rw [getElem?_add, List.getElem?_concat_length, Option.map_some, if_neg (Nat.ne_of_lt hlt)]

-- An inner scope stays one.
theorem liesIn_add {up : ScopeId} {y outer : Frame} (h : y.LiesIn o.frames index up outer)
    (hlt : index < o.frames.length) (children : List ScopeId) :
    ∃ outer', { y with children : Frame }.LiesIn (o.add x parent).frames index up outer' := by
  have hfound : (o.add x parent).frames[up.index]? = _ := getElem?_add
  rw [List.getElem?_append_left (Nat.lt_trans h.earlier hlt), h.found, Option.map_some] at hfound
  refine ⟨_, h.parent, h.earlier, hfound, ?_, ?_⟩
  · split
    · have hnew : (⟨o.frames.length⟩ : ScopeId) ≠ ⟨index⟩ := fun heq => by
        have := ScopeId.mk.inj heq
        omega
      rw [List.count_append, h.listed, List.count_singleton, if_neg (by simpa using hnew)]
    · exact h.listed
  · split <;> exact h.holds

-- A scope is an old one or the new one.
theorem add_cases {y : Frame} (hlt : parent.index < o.frames.length)
    (hy : (o.add x parent).frames[index]? = some y) :
    (∃ z children, o.frames[index]? = some z ∧ y = { z with children } ∧
      children = if parent.index = index then z.children ++ [⟨o.frames.length⟩] else z.children) ∨
    index = o.frames.length ∧ y = x := by
  by_cases hindex : index < o.frames.length
  · rw [getElem?_add, List.getElem?_append_left hindex] at hy
    obtain ⟨z, hz, rfl⟩ := Option.map_eq_some_iff.mp hy
    refine .inl ⟨z, _, hz, ?_, rfl⟩
    split <;> rfl
  · have hbound := (List.getElem?_eq_some_iff.mp hy).1
    have hlength : (o.add x parent).frames.length = o.frames.length + 1 := by simp [add]
    obtain rfl : index = o.frames.length := by omega
    rw [getElem?_add, List.getElem?_concat_length, Option.map_some, if_neg (by omega),
      Option.some.injEq] at hy
    exact .inr ⟨rfl, hy.symm⟩

-- What is put into a scope with room for it lies in that scope.
theorem Nested.add (h : o.Nested texts) (hparent : x.parent = some parent) (hchildren : x.children = [])
    (hspans : x.Spans texts)
    (houter : ∃ outer, o.frames[parent.index]? = some outer ∧ ∀ file, x.file = some file →
      outer.Holds file x.range) : (o.add x parent).Nested texts := by
  obtain ⟨outer, houter, hholds⟩ := houter
  have hlt := (List.getElem?_eq_some_iff.mp houter).1
  have hlength : (o.add x parent).frames.length = o.frames.length + 1 := by simp [Outline.add]
  refine ⟨?_, fun index y hy hne => ?_, fun index y hy c hc => ?_, fun index y hy => ?_, h.predeclared,
    fun entry hentry => ?_, fun entry hentry => ?_⟩
  · obtain ⟨y, hy, hnone, hfile⟩ := h.root
    obtain ⟨children, hy⟩ := exists_add x parent hy
    exact ⟨_, hy, hnone, hfile⟩
  · obtain ⟨z, children, hz, rfl, -⟩ | ⟨rfl, rfl⟩ := add_cases hlt hy
    · obtain ⟨up, outer, hlies⟩ := h.inner index z hz hne
      obtain ⟨outer', hlies⟩ := liesIn_add hlies (List.getElem?_eq_some_iff.mp hz).1 children
      exact ⟨up, outer', hlies⟩
    · have hfound : (o.add y parent).frames[parent.index]? = _ := getElem?_add
      rw [List.getElem?_append_left hlt, houter, Option.map_some, if_pos rfl] at hfound
      refine ⟨parent, _, hparent, hlt, hfound, ?_, hholds⟩
      have hnew : outer.children.count ⟨o.frames.length⟩ = 0 := by
        refine List.count_eq_zero.mpr fun hmem => ?_
        exact Nat.lt_irrefl _ (h.later parent.index outer houter _ hmem).2
      rw [List.count_append, hnew, List.count_singleton_self]
  · rw [hlength]
    obtain ⟨z, children, hz, rfl, rfl⟩ | ⟨rfl, rfl⟩ := add_cases hlt hy
    · have hold (c : ScopeId) (hc : c ∈ z.children) := h.later index z hz c hc
      dsimp only at hc
      split at hc
      · rcases List.mem_append.mp hc with hc | hc
        · have := hold c hc
          omega
        · rw [List.mem_singleton.mp hc]
          dsimp only
          omega
      · have := hold c hc
        omega
    · rw [hchildren] at hc
      cases hc
  · obtain ⟨z, children, hz, rfl, -⟩ | ⟨rfl, rfl⟩ := add_cases hlt hy
    · exact h.spans index z hz
    · exact hspans
  · obtain ⟨y, hy, hfile⟩ := h.packages entry hentry
    obtain ⟨children, hy⟩ := exists_add x parent hy
    exact ⟨_, hy, hfile⟩
  · obtain ⟨hbundled, text, y, htext, hy, hrest⟩ := h.files entry hentry
    obtain ⟨children, hy⟩ := exists_add x parent hy
    exact ⟨hbundled, text, _, htext, hy, hrest⟩

-- More scopes of packages and files.

theorem Nested.note_package (h : o.Nested texts) (path : String) (hx : o.frames[scope.index]? = some x)
    (hfile : x.file = none) : Nested texts { o with packages := o.packages ++ [(path, scope)] } :=
  { h with packages := List.forall_mem_append.mpr ⟨h.packages, List.forall_mem_singleton.mpr ⟨x, hx, hfile⟩⟩ }

theorem Nested.note_file (h : o.Nested texts) {text : String} (hx : o.frames[scope.index]? = some x)
    (hsource : file.isBundled = false) (htext : texts file = some text) (hfile : x.file = some file)
    (hrange : x.range = ⟨0, text.utf8ByteSize⟩) (hend : x.inclusiveEnd = true) :
    Nested texts { o with fileScopes := o.fileScopes ++ [(file, scope)] } :=
  have hnew := List.forall_mem_singleton.mpr ⟨hsource, text, x, htext, hx, hfile, hrange, hend⟩
  { h with files := List.forall_mem_append.mpr ⟨h.files, hnew⟩ }

-- The scopes of packages have room for everything.
theorem Nested.encloses_root (h : o.Nested texts) : o.Encloses ⟨0⟩ file range := by
  obtain ⟨x, hx, -, hfile⟩ := h.root
  exact ⟨x, hx, Frame.holds_of_none hfile⟩

theorem Nested.encloses_package (h : o.Nested texts) {entry : String × ScopeId}
    (hentry : entry ∈ o.packages) : o.Encloses entry.2 file range := by
  obtain ⟨x, hx, hfile⟩ := h.packages entry hentry
  exact ⟨x, hx, Frame.holds_of_none hfile⟩

end Outline

namespace Model

-- Changes of the names alone.

theorem outline_modifyScope {f : Scope → Scope} (hf : ∀ x, (f x).frame = x.frame) :
    (m.modifyScope scope f).outline = m.outline := by
  have hframes :
      (m.scopes.modify scope.index f).toList.map Scope.frame = m.scopes.toList.map Scope.frame := by
    refine List.ext_getElem? fun i => ?_
    rw [Array.toList_modify, List.getElem?_map, List.getElem?_map, List.getElem?_modify]
    cases m.scopes.toList[i]? with
    | none => rfl
    | some x =>
        by_cases hi : scope.index = i
        · simp [hi, hf]
        · simp [hi]
  rw [outline, outline, modifyScope, hframes]

theorem frame_bind (x : Scope) (name : String) (entry : ScopeEntry) :
    (x.bind name entry).frame = x.frame := by
  unfold Scope.bind
  split <;> rfl

theorem outline_declare {name : String} {entry : ScopeEntry} :
    (m.declare scope name entry).outline = m.outline :=
  outline_modifyScope fun x => frame_bind x name entry

-- A new scope.

theorem length_frames (m : Model) : m.outline.frames.length = m.scopes.size := by simp [outline]

theorem fst_addScope (m : Model) (x : Scope) : (m.addScope x).1 = ⟨m.outline.frames.length⟩ := by
  rw [length_frames]
  unfold addScope
  dsimp only
  split <;> rfl

theorem outline_addScope {x : Scope} (hparent : x.parent = some parent) :
    (m.addScope x).2.outline = m.outline.add x.frame parent := by
  have hframes : ((m.scopes.push x).modify parent.index fun outer =>
      { outer with children := outer.children.push ⟨m.scopes.size⟩ }).toList.map Scope.frame =
        (m.outline.add x.frame parent).frames := by
    rw [Outline.add, outline, Array.toList_modify, Array.toList_push]
    refine List.ext_getElem? fun i => ?_
    rw [← List.map_singleton, ← List.map_append, List.getElem?_map, List.getElem?_modify,
      List.getElem?_modify, List.getElem?_map]
    cases (m.scopes.toList ++ [x])[i]? with
    | none => rfl
    | some y =>
        by_cases hi : parent.index = i
        · simp [hi, Scope.frame]
        · simp [hi]
  unfold addScope
  dsimp only
  rw [hparent]
  exact congrArg (Outline.mk · m.predeclared m.packages m.fileScopes) hframes

theorem frame_eq_some {x : Frame} :
    m.outline.frames[index]? = some x ↔ ∃ y, m.scopes[index]? = some y ∧ y.frame = x := by
  rw [outline, List.getElem?_map, Array.getElem?_toList]
  exact Option.map_eq_some_iff

-- The scopes of files

theorem exists_fileScope? (h : (file, scope) ∈ m.fileScopes) : ∃ scope, m.fileScope? file = some scope := by
  rw [← Option.isSome_iff_exists, fileScope?, Option.isSome_map, List.find?_isSome]
  exact ⟨_, h, beq_self_eq_true _⟩

theorem exists_frame_of_fileScope? (h : m.outline.Nested texts) {text : String}
    (hscope : m.fileScope? file = some scope) (htext : texts file = some text) :
    ∃ x, m.outline.frames[scope.index]? = some x ∧ x.file = some file ∧
      x.range = ⟨0, text.utf8ByteSize⟩ ∧ x.inclusiveEnd = true := by
  obtain ⟨entry, hentry, rfl⟩ := Option.map_eq_some_iff.mp hscope
  obtain rfl : entry.1 = file := beq_iff_eq.mp (List.find?_some hentry :)
  obtain ⟨-, text', x, htext', hx⟩ := h.files entry (List.mem_of_find?_eq_some hentry)
  obtain rfl : text = text' := Option.some.inj (htext.symm.trans htext')
  exact ⟨x, hx⟩

end Model

end SpriteScript
