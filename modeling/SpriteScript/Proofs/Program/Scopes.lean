import SpriteScript.Proofs.Program.Compile

-- The scopes of a checked program form a tree, and those of files lie in each other. So the walk
-- outwards through them comes to an end, and the search inwards finds the innermost one.
namespace SpriteScript

namespace Model

-- The scope lies in one that came before it and lists it once. If both lie in files, it is the same
-- file, and the range of the one around it reaches over its own.
structure LiesIn (m : Model) (id : ScopeId) (x : Scope) (up : ScopeId) (outer : Scope) : Prop where
  parent : x.parent = some up
  earlier : up.index < id.index
  found : m.scopes[up.index]? = some outer
  listed : outer.children.toList.count id = 1
  inside : ∀ file other, x.file = some file → outer.file = some other →
    other = file ∧ outer.range.includes x.range = true

-- The scope and those around it, one parent after another, however many there are.
inductive Outwards (m : Model) : ScopeId → List ScopeId → Prop
  | outermost {id : ScopeId} (none : (m.scope id).parent = none) : Outwards m id [id]
  | inside {id up : ScopeId} {ids : List ScopeId} (parent : (m.scope id).parent = some up)
      (rest : Outwards m up ids) :
      Outwards m id (id :: ids)

-- From a scope into the first of its children that the offset lies in, again and again, until it
-- lies in none of them.
inductive Inwards (m : Model) (file : FileId) (offset : Nat) : ScopeId → ScopeId → Prop
  | innermost {id : ScopeId}
      (none : ((m.scope id).children.find? fun child => (m.scope child).contains file offset) = none) :
      Inwards m file offset id id
  | step {id child last : ScopeId}
      (found : ((m.scope id).children.find? fun child => (m.scope child).contains file offset) = some child)
      (rest : Inwards m file offset child last) : Inwards m file offset id last

variable {m : Model} {texts : FileId → Option String} {id last : ScopeId} {x : Scope} {file : FileId}
variable {offset : Nat}

theorem scope_eq (hx : m.scopes[id.index]? = some x) : m.scope id = x := by
  rw [scope, hx, Option.getD_some]

section Outwards

theorem exists_liesIn (h : m.outline.Nested texts) (hx : m.scopes[id.index]? = some x)
    (hne : id ≠ m.predeclared) : ∃ up outer, m.LiesIn id x up outer := by
  have hindex : id.index ≠ 0 := fun heq => hne ((congrArg ScopeId.mk heq).trans h.predeclared.symm)
  obtain ⟨up, frame, hlies⟩ := h.inner id.index x.frame (frame_eq_some.mpr ⟨x, hx, rfl⟩) hindex
  obtain ⟨outer, houter, rfl⟩ := frame_eq_some.mp hlies.found
  exact ⟨up, outer, hlies.parent, hlies.earlier, houter, hlies.listed, fun file other hfile hother =>
    hlies.holds file hfile other hother⟩

theorem parent_predeclared (h : m.outline.Nested texts) : (m.scope m.predeclared).parent = none := by
  obtain ⟨frame, hframe, hparent, -⟩ := h.root
  obtain ⟨x, hx, rfl⟩ := frame_eq_some.mp hframe
  have hpredeclared : m.predeclared = ⟨0⟩ := h.predeclared
  rw [hpredeclared, scope_eq hx]
  exact hparent

-- Numbers get smaller on the way out, so that the number of a scope bounds the length of the way.
theorem outwards_go (h : m.outline.Nested texts) {fuel : Nat} (hfuel : id.index < fuel)
    (hid : id.index < m.scopes.size) :
    m.Outwards id (scopeChain.go m fuel id) ∧ (scopeChain.go m fuel id).getLast? = some m.predeclared := by
  induction fuel generalizing id with
  | zero => omega
  | succ fuel ih =>
      rw [scopeChain.go]
      by_cases hne : id = m.predeclared
      · have hparent := parent_predeclared h
        rw [hne, hparent]
        exact ⟨.outermost hparent, rfl⟩
      · have hx := Array.getElem?_eq_getElem hid
        obtain ⟨up, outer, hlies⟩ := exists_liesIn h hx hne
        have hlt := hlies.earlier
        have hparent : (m.scope id).parent = some up := scope_eq hx ▸ hlies.parent
        have hbound : up.index < fuel := by omega
        obtain ⟨hrest, hlast⟩ := ih hbound (Nat.lt_trans hlt hid)
        rw [hparent]
        refine ⟨.inside hparent hrest, ?_⟩
        rw [List.getLast?_cons, hlast, Option.getD_some]

end Outwards

section Inwards

theorem lt_of_mem_children (h : m.outline.Nested texts) {child : ScopeId}
    (hchild : child ∈ (m.scope id).children) :
    id.index < child.index ∧ child.index < m.scopes.size := by
  rw [← length_frames]
  cases hx : m.scopes[id.index]? with
  | none =>
      rw [scope, hx] at hchild
      exact absurd hchild (Array.not_mem_empty child)
  | some x =>
      rw [scope_eq hx, ← Array.mem_toList_iff] at hchild
      exact h.later id.index x.frame (frame_eq_some.mpr ⟨x, hx, rfl⟩) child hchild

-- Numbers grow on the way in, so that there are enough steps for it.
theorem inwards_go (h : m.outline.Nested texts) {fuel : Nat} (hfuel : m.scopes.size ≤ fuel + id.index) :
    m.Inwards file offset id (innermostScope?.go m file offset fuel id) := by
  induction fuel generalizing id with
  | zero =>
      refine .innermost (Array.find?_eq_none.mpr fun child hchild => ?_)
      have := lt_of_mem_children h hchild
      omega
  | succ fuel ih =>
      rw [innermostScope?.go]
      split
      case h_1 child hchild =>
        have := lt_of_mem_children h (Array.mem_of_find?_eq_some hchild)
        exact .step hchild (ih (by omega))
      case h_2 hnone => exact .innermost hnone

theorem Inwards.contains (h : m.Inwards file offset id last)
    (hid : (m.scope id).contains file offset = true) :
    (m.scope last).contains file offset = true := by
  induction h with
  | innermost => exact hid
  | step hfound _ ih => exact ih (Array.find?_some hfound :)

theorem Inwards.not_contains (h : m.Inwards file offset id last) :
    ∀ child ∈ (m.scope last).children, (m.scope child).contains file offset = false := by
  induction h with
  | innermost hnone =>
      intro child hchild
      exact Bool.not_eq_true _ ▸ Array.find?_eq_none.mp hnone child hchild
  | step _ _ ih => exact ih

end Inwards

-- The scope of a file reaches over its text, the end included.
theorem contains_fileScope (h : m.outline.Nested texts) {scope : ScopeId} {text : String}
    (hscope : m.fileScope? file = some scope) (htext : texts file = some text)
    (hoffset : offset ≤ text.utf8ByteSize) : (m.scope scope).contains file offset = true := by
  obtain ⟨frame, hframe, hplace⟩ := exists_frame_of_fileScope? h hscope htext
  obtain ⟨x, hx, rfl⟩ := frame_eq_some.mp hframe
  obtain ⟨hfile, hrange, hend⟩ : x.file = some file ∧ x.range = ⟨0, text.utf8ByteSize⟩ ∧
      x.inclusiveEnd = true := hplace
  rw [scope_eq hx, Scope.contains, hfile, hrange, hend]
  simp only [beq_self_eq_true, Bool.true_and, Nat.zero_le, decide_true, Bool.or_eq_true,
    decide_eq_true_eq, beq_iff_eq]
  omega

-- Two scopes of a file of the program lie apart, or one of them lies in the other: both reach over
-- parts of one tree.
theorem laminar (h : m.outline.Nested texts) {id id' : ScopeId} {x y : Scope}
    (hx : m.scopes[id.index]? = some x) (hy : m.scopes[id'.index]? = some y)
    (hfile : x.file = some file) (hfile' : y.file = some file) (hsource : file.isBundled = false) :
    x.range.Laminar y.range := by
  obtain ⟨text, htext, t, ht, hrange⟩ := h.spans _ _ (frame_eq_some.mpr ⟨x, hx, rfl⟩) file hfile hsource
  obtain ⟨text', htext', u, hu, hrange'⟩ := h.spans _ _ (frame_eq_some.mpr ⟨y, hy, rfl⟩) file hfile' hsource
  obtain rfl := Option.some.inj (htext.symm.trans htext')
  have hlaminar := ht.laminar hu (Syntax.liesIn_parse text)
  rwa [hrange, hrange'] at hlaminar

-- So of two scopes that hold an offset one lies in the other, if they do not just touch there: a
-- scope that holds its end holds the start of the scope behind it.
theorem nested_of_contains (h : m.outline.Nested texts) {id id' : ScopeId} {x y : Scope}
    (hx : m.scopes[id.index]? = some x) (hy : m.scopes[id'.index]? = some y)
    (hsource : file.isBundled = false) (hin : x.contains file offset = true)
    (hin' : y.contains file offset = true) :
    x.range.includes y.range = true ∨ y.range.includes x.range = true ∨
      x.inclusiveEnd = true ∧ x.range.stop = offset ∧ y.range.start = offset ∨
      y.inclusiveEnd = true ∧ y.range.stop = offset ∧ x.range.start = offset := by
  simp only [Scope.contains, Bool.and_eq_true, Bool.or_eq_true, beq_iff_eq, decide_eq_true_eq] at hin hin'
  obtain ⟨⟨hfile, hstart⟩, hend⟩ := hin
  obtain ⟨⟨hfile', hstart'⟩, hend'⟩ := hin'
  rcases laminar h hx hy hfile hfile' hsource with hincludes | hincludes | hbefore | hbefore
  · exact .inl hincludes
  · exact .inr (.inl hincludes)
  · obtain ⟨hinclusive, hoffset⟩ : x.inclusiveEnd = true ∧ offset = x.range.stop :=
      hend.resolve_left (by omega)
    exact .inr (.inr (.inl ⟨hinclusive, hoffset.symm, by omega⟩))
  · obtain ⟨hinclusive, hoffset⟩ : y.inclusiveEnd = true ∧ offset = y.range.stop :=
      hend'.resolve_left (by omega)
    exact .inr (.inr (.inr ⟨hinclusive, hoffset.symm, by omega⟩))

end Model

namespace Program

-- How the scopes of a checked program lie.
structure ScopesNested (q : Parsed) (m : Model) : Prop where
  parent : ∀ (id : ScopeId) (x : Scope), m.scopes[id.index]? = some x → id ≠ m.predeclared →
    ∃ up outer, m.LiesIn id x up outer
  chain : ∀ id : ScopeId, id.index < m.scopes.size →
    m.Outwards id (m.scopeChain id) ∧ (m.scopeChain id).getLast? = some m.predeclared
  search : ∀ (file : FileId) (offset : Nat) (scope : ScopeId), m.fileScope? file = some scope →
    ∃ last, m.innermostScope? file offset = some last ∧ m.Inwards file offset scope last
  innermost : ∀ f ∈ q.files.toList, f.excluded = false → ∀ offset ≤ f.text.utf8ByteSize,
    ∃ last, m.innermostScope? f.file offset = some last ∧ (m.scope last).contains f.file offset = true ∧
      ∀ child ∈ (m.scope last).children, (m.scope child).contains f.file offset = false

theorem scopes_nested (config : Config) (inputs : List (String × String)) :
    ScopesNested (parseFiles config inputs)
    (Check.checkProgram config.package (parseFiles config inputs).sources).model := by
  obtain ⟨q, hq⟩ : ∃ q, parseFiles config inputs = q := ⟨_, rfl⟩
  obtain ⟨result, hresult⟩ : ∃ result, Check.checkProgram config.package q.sources = result := ⟨_, rfl⟩
  have hfits := hq ▸ Parsed.fits_parseFiles config inputs
  have hchecked := checked_parseFiles config inputs hq rfl
  rw [hq, hresult] at *
  have hnested := hchecked.nested
  have hsearch (file : FileId) (offset : Nat) (scope : ScopeId)
      (hscope : result.model.fileScope? file = some scope) :
      ∃ last, result.model.innermostScope? file offset = some last ∧
      result.model.Inwards file offset scope last := by
    refine ⟨_, ?_, Model.inwards_go hnested (Nat.le_add_right _ _)⟩
    rw [Model.innermostScope?, hscope, Option.map_some]
  refine ⟨fun id x => Model.exists_liesIn hnested,
    fun id => Model.outwards_go hnested (Nat.lt_succ_self _), hsearch,
    fun f hf hexcluded offset hoffset => ?_⟩
  obtain ⟨scope, hopened⟩ := hchecked.opened _ (Parsed.mem_sources hf hexcluded)
  obtain ⟨scope, hscope⟩ := Model.exists_fileScope? hopened
  obtain ⟨last, hlast, hinwards⟩ := hsearch f.file offset scope hscope
  have htext :
      (Parsed.setting q.files result.model.origins (Parsed.NoEmptySpread inputs)).text? f.file =
      some f.text :=
    congrArg (Option.map SourceFile.text) (hfits.find? hf)
  exact ⟨last, hlast, hinwards.contains (Model.contains_fileScope hnested hscope htext hoffset),
    hinwards.not_contains⟩

-- The scopes of a checked program that hold an offset lie in each other, those apart that touch in it.
theorem scopes_laminar (config : Config) (inputs : List (String × String)) {m : Model}
    (hm : m = (Check.checkProgram config.package (parseFiles config inputs).sources).model) {file : FileId}
    (hsource : file.isBundled = false) {id id' : ScopeId} {x y : Scope} (hx : m.scopes[id.index]? = some x)
    (hy : m.scopes[id'.index]? = some y) {offset : Nat} (hin : x.contains file offset = true)
    (hin' : y.contains file offset = true) :
    x.range.includes y.range = true ∨ y.range.includes x.range = true ∨
      x.inclusiveEnd = true ∧ x.range.stop = offset ∧ y.range.start = offset ∨
      y.inclusiveEnd = true ∧ y.range.stop = offset ∧ x.range.start = offset :=
  Model.nested_of_contains (hm ▸ (checked_parseFiles config inputs rfl rfl).nested) hx hy hsource hin hin'

end Program

end SpriteScript
