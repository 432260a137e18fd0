import SpriteScript.Proofs.Program.Identifiers
import SpriteScript.Proofs.Program.Named

-- Variables at the top of a file that stand for the resource of their name. Those of the first
-- declaration of the entry file are bound to it, and of all others there is a warning.
namespace SpriteScript

-- The resource that a variable stands for, by its type and its name.
inductive Model.StandsFor (m : Model) (x : SymbolId) : ResourceId → Prop
  | sprite (type : m.isSpriteClass (m.symbol x).ty = true) : StandsFor m x (.sprite (m.symbol x).name)
  | sound (other : m.isSpriteClass (m.symbol x).ty = false)
      (type : m.isEngineType (m.symbol x).ty "Sound" = true) :
      StandsFor m x (.sound (m.symbol x).name)
  | widget (other : m.isSpriteClass (m.symbol x).ty = false)
      (type : m.isEngineType (m.symbol x).ty "Monitor" = true) : StandsFor m x (.widget (m.symbol x).name)

section StandsFor

variable {m : Model} {x : SymbolId} {id id' : ResourceId} {kind : ResourceKind} {name : String}

theorem Vocabulary.resourceFieldKind?_eq_some {type : String} :
    Vocabulary.resourceFieldKind? type = some kind ↔
    type = "Sound" ∧ kind = .sound ∨ type = "Monitor" ∧ kind = .widget := by
  unfold Vocabulary.resourceFieldKind? Vocabulary.resourceFieldTypes
  by_cases hsound : type = "Sound"
  · subst hsound
    simpa using eq_comm
  · by_cases hwidget : type = "Monitor"
    · subst hwidget
      simpa using eq_comm
    · simp [Ne.symm hsound, Ne.symm hwidget, hsound, hwidget]

theorem Model.resourceFieldKind?_eq_some {ty : Ty} : m.resourceFieldKind? ty = some kind ↔
    m.isSpriteClass ty = true ∧ kind = .sprite ∨ m.isSpriteClass ty = false ∧
      (m.isEngineType ty "Sound" = true ∧ kind = .sound ∨ m.isEngineType ty "Monitor" = true ∧
        kind = .widget) := by
  unfold Model.resourceFieldKind? Model.isEngineType
  cases m.isSpriteClass ty with
  | true => simpa using eq_comm
  | false =>
      cases m.engineTypeName? ty with
      | none => simp
      | some type => simp [Vocabulary.resourceFieldKind?_eq_some]

theorem Model.standsFor_iff : m.StandsFor x id ↔ ∃ kind, m.resourceFieldKind? (m.symbol x).ty = some kind ∧
    ResourceId.topLevel? kind (m.symbol x).name = some id := by
  simp only [Model.resourceFieldKind?_eq_some]
  constructor
  · intro h
    cases h with
    | sprite type => exact ⟨.sprite, .inl ⟨type, rfl⟩, rfl⟩
    | sound other type => exact ⟨.sound, .inr ⟨other, .inl ⟨type, rfl⟩⟩, rfl⟩
    | widget other type => exact ⟨.widget, .inr ⟨other, .inr ⟨type, rfl⟩⟩, rfl⟩
  · rintro ⟨kind, ⟨type, rfl⟩ | ⟨other, ⟨type, rfl⟩ | ⟨type, rfl⟩⟩, hid⟩ <;> cases hid
    · exact .sprite type
    · exact .sound other type
    · exact .widget other type

theorem Model.StandsFor.unique (h : m.StandsFor x id) (h' : m.StandsFor x id') : id = id' := by
  rw [Model.standsFor_iff] at h h'
  obtain ⟨kind, hkind, hid⟩ := h
  obtain ⟨kind', hkind', hid'⟩ := h'
  rw [hkind, Option.some.injEq] at hkind'
  rw [hkind', hid', Option.some.injEq] at hid
  exact hid.symm

theorem Model.StandsFor.name_eq (h : m.StandsFor x id) : id.name = (m.symbol x).name := by
  cases h <;> rfl

theorem ResourceId.kind_of_topLevel? (h : ResourceId.topLevel? kind name = some id) :
    id.kind = kind ∧ id.name = name := by
  cases kind <;> cases h <;> exact ⟨rfl, rfl⟩

end StandsFor

namespace Resource

-- The step binds a variable, or refers to a resource by one.
def Step.isAuto : Step → Bool
  | .bind _ _ => true
  | .ref r => r.kind == .autoBinding || r.kind == .autoBindingReference
  | .report _ => false

end Resource

namespace Resource.World

variable {w : World} {file : FileId} {ident : Token} {step : Step} {eligible : Bool}

-- What is done with a variable at the top of a file.
theorem mem_fieldSteps_iff : step ∈ w.fieldSteps file eligible ident ↔
    ∃ x id, w.info.defAt? file (Check.rangeOf ident) = some x ∧ w.model.StandsFor x id ∧
      (eligible = true ∧ step ∈ w.bindSteps file (Check.rangeOf ident) x id ∨
        eligible = false ∧ step = .report
          ((Problem.misplacedField id.kind id.name w.entryName).diagnostic file (Check.rangeOf ident))) := by
  rw [mem_fieldSteps]
  have hfield (x : SymbolId) (kind : ResourceKind) : w.field? file ident = some (x, kind) ↔
      w.info.defAt? file (Check.rangeOf ident) = some x ∧
        w.model.resourceFieldKind? (w.model.symbol x).ty = some kind := by
    simp [field?, Option.bind_eq_some_iff]
  constructor
  · rintro ⟨x, kind, hx, hstep⟩
    obtain ⟨hdef, hkind⟩ := (hfield x kind).mp hx
    rcases hstep with ⟨heligible, id, hid, hstep⟩ | ⟨hother, rfl⟩
    · exact ⟨x, id, hdef, Model.standsFor_iff.mpr ⟨kind, hkind, hid⟩, .inl ⟨heligible, hstep⟩⟩
    · obtain ⟨id, hid⟩ : ∃ id, ResourceId.topLevel? kind (w.model.symbol x).name = some id := by
        rcases Model.resourceFieldKind?_eq_some.mp hkind with ⟨-, rfl⟩ | ⟨-, ⟨-, rfl⟩ | ⟨-, rfl⟩⟩ <;>
          exact ⟨_, rfl⟩
      obtain ⟨hidKind, hidName⟩ := ResourceId.kind_of_topLevel? hid
      refine ⟨x, id, hdef, Model.standsFor_iff.mpr ⟨kind, hkind, hid⟩, .inr ⟨hother, ?_⟩⟩
      rw [hidKind, hidName]
  · rintro ⟨x, id, hdef, hresource, hstep⟩
    obtain ⟨kind, hkind, hid⟩ := Model.standsFor_iff.mp hresource
    obtain ⟨hidKind, hidName⟩ := ResourceId.kind_of_topLevel? hid
    rw [hidKind, hidName] at hstep
    exact ⟨x, kind, (hfield x kind).mpr ⟨hdef, hkind⟩, hstep.imp_left fun h => ⟨h.1, id, hid, h.2⟩⟩

end Resource.World

namespace Program

variable {config : Config} {assets : AssetReader} {inputs : List (String × String)} {p : Program}
variable {f f' : SourceFile} {index index' : Nat} {ident ident' : Token} {x x' : SymbolId}
variable {id id' : ResourceId}
variable {s : Resource.State}

-- A name in one of the declarations of variables at the top of a checked file. It declares a
-- symbol that stands for a resource.
structure Field (p : Program) (f : SourceFile) (index : Nat) (ident : Token) (x : SymbolId)
    (id : ResourceId) : Prop where
  file : f ∈ p.files.toList
  checked : f.excluded = false
  listed : ∃ decl, (f.tree.childrenOf .varDecl)[index]? = some decl ∧ ident ∈ decl.declaredIdents
  declares : p.info.defAt? f.file (Check.rangeOf ident) = some x
  resource : p.model.StandsFor x id

-- The references of a kind at a range.
def refsAt (p : Program) (kind : RefKind) (file : FileId) (range : Text.ByteRange) : List ResourceRef :=
  p.resources.refs.toList.filter fun r => r.kind == kind && r.file == file && r.range == range

-- The warnings at a range of variables that are not bound.
def warningsAt (p : Program) (file : FileId) (range : Text.ByteRange) : List Diagnostic :=
  p.diagnostics.filter fun d => d.file == file && d.range == range && d.code == some "W0001"

-- The variable is bound. It refers to the resource once where it is declared, and once wherever
-- it is used.
structure IsBound (p : Program) (f : SourceFile) (ident : Token) (x : SymbolId) (id : ResourceId) : Prop where
  binding : (x, id) ∈ p.resources.bindings
  declaration : p.refsAt .autoBinding f.file (Check.rangeOf ident) =
    [⟨id, .autoBinding, f.file, Check.rangeOf ident⟩]
  uses : ∀ site ∈ p.info.sitesOf x,
    p.refsAt .autoBindingReference site.1 site.2 = [⟨id, .autoBindingReference, site.1, site.2⟩]

-- The variable is not bound, and nothing refers to a resource by it.
structure IsUnbound (p : Program) (f : SourceFile) (ident : Token) (x : SymbolId) : Prop where
  binding : ∀ id, (x, id) ∉ p.resources.bindings
  declaration : p.refsAt .autoBinding f.file (Check.rangeOf ident) = []
  apart : p.refsAt .autoBindingReference f.file (Check.rangeOf ident) = []
  uses : ∀ site ∈ p.info.sitesOf x, p.refsAt .autoBindingReference site.1 site.2 = []

-- What becomes of the variables at the top of the files.
structure FieldsBound (p : Program) : Prop where
  declared : ∀ f ∈ p.files.toList, f.excluded = false → ∀ ident ∈ f.tree.varIdents, ∃ x,
    p.info.defAt? f.file (Check.rangeOf ident) = some x ∧ (p.model.symbol x).name = ident.text ∧
      (p.model.symbol x).definedAt = some ⟨f.file, Check.rangeOf ident⟩
  bindings : ∀ x id, (x, id) ∈ p.resources.bindings ↔
    ∃ f ident, f.isEntry = true ∧ p.Field f 0 ident x id ∧ p.catalog.contains id = true
  bound : ∀ f ident x id, f.isEntry = true → p.Field f 0 ident x id → p.catalog.contains id = true →
    p.IsBound f ident x id
  missing : ∀ f ident x id, f.isEntry = true → p.Field f 0 ident x id → p.catalog.contains id = false →
    p.IsUnbound f ident x ∧ p.complaintsAt f.file (Check.rangeOf ident) =
      [(Problem.resourceMissing id.kind id.name).diagnostic f.file (Check.rangeOf ident)]
  misplaced : ∀ f index ident x id, p.Field f index ident x id → ¬ (f.isEntry = true ∧ index = 0) →
    p.IsUnbound f ident x ∧ p.warningsAt f.file (Check.rangeOf ident) =
      [(Problem.misplacedField id.kind id.name p.config.entryFile).diagnostic f.file (Check.rangeOf ident)]
  first : ∀ x, (p.model.symbol x).inFirstVarBlock = true ↔ ∃ f ∈ p.files.toList, ∃ decl ident,
    (f.tree.childrenOf .varDecl).head? = some decl ∧ ident ∈ decl.declaredIdents ∧
      (p.model.symbol x).definedAt = some ⟨f.file, Check.rangeOf ident⟩

theorem mem_steps {step : Resource.Step} : step ∈ p.world.steps p.files.toList ↔
    (∃ f index ident x id, p.Field f index ident x id ∧
      (f.isEntry = true ∧ index = 0 ∧ step ∈ p.world.bindSteps f.file (Check.rangeOf ident) x id ∨
        ¬ (f.isEntry = true ∧ index = 0) ∧ step = .report ((Problem.misplacedField id.kind id.name
          p.config.entryFile).diagnostic f.file (Check.rangeOf ident)))) ∨
      ∃ f ∈ p.files.toList, f.excluded = false ∧ ∃ place ∈ f.tree.places, ∃ id how,
        p.world.named? f.file place = some (id, how) ∧
          step ∈ p.world.nameSteps f.file place.tree.range id [.ref ⟨id, how, f.file, place.tree.range⟩] := by
  have heligible (f : SourceFile) (index : Nat) :
      (f.isEntry && index == 0) = true ↔ f.isEntry = true ∧ index = 0 := by simp
  rw [Resource.World.mem_steps]
  constructor
  · rintro ⟨f, hf, hchecked, hstep | hstep⟩
    · obtain ⟨index, decl, hdecl, ident, hident, hstep⟩ := Resource.World.mem_fieldStepsOf.mp hstep
      obtain ⟨x, id, hdef, hresource, hstep⟩ := Resource.World.mem_fieldSteps_iff.mp hstep
      refine .inl ⟨f, index, ident, x, id, ⟨hf, hchecked, ⟨decl, hdecl, hident⟩, hdef, hresource⟩, ?_⟩
      rcases hstep with ⟨hfirst, hstep⟩ | ⟨hother, hstep⟩
      · obtain ⟨hentry, hindex⟩ := (heligible f index).mp hfirst
        exact .inl ⟨hentry, hindex, hstep⟩
      · refine .inr ⟨fun hfirst => ?_, hstep⟩
        exact Bool.false_ne_true (hother.symm.trans ((heligible f index).mpr hfirst))
    · obtain ⟨place, hplace, hstep⟩ := Resource.World.mem_exprStepsOf.mp hstep
      obtain ⟨id, how, hnamed, hstep⟩ := Resource.World.mem_exprSteps.mp hstep
      exact .inr ⟨f, hf, hchecked, place, hplace, id, how, hnamed, hstep⟩
  · rintro (⟨f, index, ident, x, id, hfield, hstep⟩ | ⟨f, hf, hchecked, place, hplace, id, how,
      hnamed, hstep⟩)
    · obtain ⟨decl, hdecl, hident⟩ := hfield.listed
      refine ⟨f, hfield.file, hfield.checked,
        .inl (Resource.World.mem_fieldStepsOf.mpr ⟨index, decl, hdecl, ident, hident,
        Resource.World.mem_fieldSteps_iff.mpr ⟨x, id, hfield.declares, hfield.resource, ?_⟩⟩)⟩
      rcases hstep with ⟨hentry, hindex, hstep⟩ | ⟨hother, hstep⟩
      · exact .inl ⟨(heligible f index).mpr ⟨hentry, hindex⟩, hstep⟩
      · exact .inr ⟨Bool.eq_false_iff.mpr fun hfirst => hother ((heligible f index).mp hfirst), hstep⟩
    · exact ⟨f, hf, hchecked, .inr (Resource.World.mem_exprStepsOf.mpr ⟨place, hplace,
        Resource.World.mem_exprSteps.mpr ⟨id, how, hnamed, hstep⟩⟩)⟩

section Places

variable (h : p.Compiled assets inputs)

theorem Field.mem_varIdents (hfield : p.Field f index ident x id) : ident ∈ f.tree.varIdents := by
  obtain ⟨decl, hdecl, hident⟩ := hfield.listed
  exact List.mem_flatMap_of_mem (List.mem_of_getElem? hdecl) hident

include h

theorem Compiled.mem_tokenize (hf : f ∈ p.files.toList) (hident : ident ∈ f.tree.varIdents) :
    ident ∈ Token.tokenize f.text := by
  have htokens := f.tree.varIdents_subset hident
  rwa [h.tree f hf, Syntax.tokens_parse] at htokens

theorem Compiled.exists_file {file : FileId} {text : String}
    (htext : (p.setting inputs).text? file = some text) :
    ∃ f ∈ p.files.toList, f.file = file ∧ f.text = text := by
  obtain ⟨f, hfind, rfl⟩ := Option.map_eq_some_iff.mp htext
  cases file with
  | bundled => cases hfind
  | source index =>
      exact ⟨f, Array.mem_toList_iff.mpr (Array.mem_of_getElem? hfind), h.file index f hfind, rfl⟩

-- The symbol that is declared by a name is named and placed so.
theorem Compiled.symbol_of_ident (hf : f ∈ p.files.toList) (hident : ident ∈ f.tree.varIdents)
    (hdef : p.info.defAt? f.file (Check.rangeOf ident) = some x) : (p.model.symbol x).name = ident.text ∧
      (p.model.symbol x).definedAt = some ⟨f.file, Check.rangeOf ident⟩ := by
  have hat := h.info.defs f.file (Check.rangeOf ident) x hdef
  have hsource := h.isBundled_eq hf
  constructor
  · obtain ⟨token, o, hstands, hrange, ho, hname⟩ := hat.spelled (.inl hsource)
    obtain ⟨text, htext, htoken⟩ := hstands.exists_text
    obtain rfl : f.text = text := Option.some.inj ((h.text_eq hf).symm.trans htext)
    have hsame : token = ident := Check.eq_of_rangeOf_eq htoken (h.mem_tokenize hf hident) hrange
    subst hsame
    have hkind : token.kind = .ident := by
      obtain ⟨decl, -, hdeclared⟩ := List.mem_flatMap.mp hident
      obtain ⟨spec, -, name, -, hname⟩ := Tree.mem_declaredIdents.mp hdeclared
      exact beq_iff_eq.mp (List.find?_some hname :)
    rcases hname with ⟨-, hname⟩ | hbare
    · exact (congrArg Origin.name (Model.symbol_of_origins ho)).trans hname.symm
    · have hpath := hbare.kind_eq
      rw [hkind] at hpath
      cases hpath
  · obtain ⟨o, ho, hplace⟩ := hat.exists_origin hsource
    exact (congrArg Origin.definedAt (Model.symbol_of_origins ho)).trans hplace

-- A name is listed in one declaration.
theorem Compiled.listed_unique (hf : f ∈ p.files.toList) {decl decl' : Tree}
    (hdecl : (f.tree.childrenOf .varDecl)[index]? = some decl) (hident : ident ∈ decl.declaredIdents)
    (hdecl' : (f.tree.childrenOf .varDecl)[index']? = some decl') (hident' : ident ∈ decl'.declaredIdents) :
    index = index' := by
  have hnodup : f.tree.tokens.Nodup := h.tree f hf ▸ Syntax.nodup_tokens_parse f.text
  have hapart : (f.tree.childrenOf .varDecl).Pairwise fun c c' => c.tokens.Disjoint c'.tokens :=
    (Tree.nodup_children hnodup).2.sublist List.filter_sublist
  obtain ⟨hlt, rfl⟩ := List.getElem?_eq_some_iff.mp hdecl
  obtain ⟨hlt', rfl⟩ := List.getElem?_eq_some_iff.mp hdecl'
  rw [List.pairwise_iff_getElem] at hapart
  have hmem := Tree.declaredIdents_subset _ hident
  have hmem' := Tree.declaredIdents_subset _ hident'
  rcases Nat.lt_trichotomy index index' with hless | hsame | hmore
  · exact absurd hmem' (hapart _ _ hlt hlt' hless hmem)
  · exact hsame
  · exact absurd hmem (hapart _ _ hlt' hlt hmore hmem')

-- Names of variables at one place are the same.
theorem Compiled.field_unique (hfield : p.Field f index ident x id)
    (hfield' : p.Field f' index' ident' x' id') (hfile : f.file = f'.file)
    (hrange : Check.rangeOf ident = Check.rangeOf ident') :
    f = f' ∧ index = index' ∧ x = x' ∧ id = id' := by
  obtain rfl := h.file_unique hfield.file hfield'.file hfile
  obtain rfl := Check.eq_of_rangeOf_eq (h.mem_tokenize hfield.file hfield.mem_varIdents)
    (h.mem_tokenize hfield.file hfield'.mem_varIdents) hrange
  obtain ⟨decl, hdecl, hident⟩ := hfield.listed
  obtain ⟨decl', hdecl', hident'⟩ := hfield'.listed
  have hindex := h.listed_unique hfield.file hdecl hident hdecl' hident'
  obtain rfl : x = x' := Option.some.inj (hfield.declares.symm.trans hfield'.declares)
  exact ⟨rfl, hindex, rfl, hfield.resource.unique hfield'.resource⟩

theorem Compiled.field_unique_symbol (hfield : p.Field f index ident x id)
    (hfield' : p.Field f' index' ident' x id') : f = f' ∧ index = index' ∧ id = id' := by
  have hplace := (h.symbol_of_ident hfield.file hfield.mem_varIdents hfield.declares).2
  have hplace' := (h.symbol_of_ident hfield'.file hfield'.mem_varIdents hfield'.declares).2
  rw [hplace, Option.some.injEq, DefSite.mk.injEq] at hplace'
  obtain ⟨hf, hindex, -, hid⟩ := h.field_unique hfield hfield' hplace'.1 hplace'.2
  exact ⟨hf, hindex, hid⟩

-- A resource that a variable stands for has a name.
theorem Compiled.complaint?_of_field (hfield : p.Field f index ident x id) : p.world.complaint? id =
    if p.catalog.contains id then none else some (.resourceMissing id.kind id.name) := by
  have hname := (h.symbol_of_ident hfield.file hfield.mem_varIdents hfield.declares).1
  have hne : id.name.isEmpty = false := by
    rw [hfield.resource.name_eq, hname, Bool.eq_false_iff]
    intro hempty
    exact Check.text_ne_empty (h.mem_tokenize hfield.file hfield.mem_varIdents) (String.isEmpty_iff.mp hempty)
  unfold Resource.World.complaint? world
  dsimp only
  rw [hne]
  cases p.catalog.contains id <;> rfl

-- The first variables of the files.
theorem Compiled.first_iff : (p.model.symbol x).inFirstVarBlock = true ↔ ∃ f ∈ p.files.toList, ∃ decl ident,
    (f.tree.childrenOf .varDecl).head? = some decl ∧ ident ∈ decl.declaredIdents ∧
      (p.model.symbol x).definedAt = some ⟨f.file, Check.rangeOf ident⟩ := by
  have hlisted (root : Tree) (s : Token) : s ∈ root.firstVarIdents ↔
      ∃ decl, (root.childrenOf .varDecl).head? = some decl ∧ s ∈ decl.declaredIdents := by
    unfold Tree.firstVarIdents
    cases (root.childrenOf .varDecl).head? <;> simp
  have hidents {f : SourceFile} (hf : f ∈ p.files.toList) :
      (p.setting inputs).firstVarIdents f.file = f.tree.firstVarIdents := by
    have htext := h.text_eq hf
    cases hfile : f.file with
    | bundled =>
        have hsource := h.isBundled_eq hf
        rw [hfile] at hsource
        cases hsource
    | source index =>
        rw [hfile] at htext
        unfold Check.Setting.firstVarIdents Check.Setting.identsOf
        dsimp only
        rw [htext, h.tree f hf, Option.map_some, Option.getD_some]
  cases hsymbol : p.model.symbols[x.index]? with
  | none =>
      have hdefault : p.model.symbol x = default := by
        rw [Model.symbol, hsymbol]
        rfl
      rw [hdefault]
      constructor
      · exact fun hfirst => absurd hfirst Bool.false_ne_true
      · rintro ⟨f, -, decl, ident, -, -, hplace⟩
        cases hplace
  | some symbol =>
      have hfound : p.model.symbol x = symbol := by
        rw [Model.symbol, hsymbol]
        rfl
      have hmem : symbol.origin ∈ p.model.origins :=
        List.mem_map_of_mem (Array.mem_toList_iff.mpr (Array.mem_of_getElem? hsymbol))
      rw [hfound]
      apply (h.model.origins symbol.origin hmem).first.trans
      constructor
      · rintro ⟨site, s, hplace, hs, hrange⟩
        obtain ⟨text, htext, -⟩ :=
          (Check.stands_of_mem_varIdents (Check.firstVarIdents_subset hs)).exists_text
        obtain ⟨f, hf, hfile, -⟩ := h.exists_file htext
        rw [← hfile, hidents hf] at hs
        obtain ⟨decl, hdecl, hs⟩ := (hlisted f.tree s).mp hs
        refine ⟨f, hf, decl, s, hdecl, hs, ?_⟩
        rw [hfile, hrange]
        exact hplace
      · rintro ⟨f, hf, decl, ident, hdecl, hident, hplace⟩
        refine ⟨_, ident, hplace, ?_, rfl⟩
        rw [hidents hf]
        exact (hlisted f.tree ident).mpr ⟨decl, hdecl, hident⟩

end Places

section Bound

variable (h : p.Compiled assets inputs) (hs : p.Searched s)

include h

theorem Compiled.mem_bindSteps {step : Resource.Step} (hfield : p.Field f index ident x id) :
    step ∈ p.world.bindSteps f.file (Check.rangeOf ident) x id ↔
      p.catalog.contains id = false ∧ step = .report
        ((Problem.resourceMissing id.kind id.name).diagnostic f.file (Check.rangeOf ident)) ∨
      p.catalog.contains id = true ∧ (step = .ref ⟨id, .autoBinding, f.file, Check.rangeOf ident⟩ ∨
        (∃ site ∈ p.info.sitesOf x, step = .ref ⟨id, .autoBindingReference, site.1, site.2⟩) ∨
        step = .bind x id) := by
  rw [Resource.World.mem_bindSteps, h.complaint?_of_field hfield]
  cases p.catalog.contains id <;> simp [world]

-- What is bound, and what refers to a resource by a variable, comes from the first variables of
-- the entry file that are in the catalog.
theorem mem_steps_of_isAuto {step : Resource.Step} (hauto : step.isAuto = true) :
    step ∈ p.world.steps p.files.toList ↔ ∃ f ident x id, f.isEntry = true ∧ p.Field f 0 ident x id ∧
      p.catalog.contains id = true ∧ (step = .ref ⟨id, .autoBinding, f.file, Check.rangeOf ident⟩ ∨
        (∃ site ∈ p.info.sitesOf x, step = .ref ⟨id, .autoBindingReference, site.1, site.2⟩) ∨
        step = .bind x id) := by
  rw [mem_steps]
  constructor
  · rintro (⟨f, index, ident, x, id, hfield, ⟨hentry, rfl, hstep⟩ | ⟨-, rfl⟩⟩ | ⟨f, -, -, place, -, id,
      how, hnamed, hstep⟩)
    · obtain ⟨-, rfl⟩ | ⟨hfound, hstep⟩ := (h.mem_bindSteps hfield).mp hstep
      · cases hauto
      · exact ⟨f, ident, x, id, hentry, hfield, hfound, hstep⟩
    · cases hauto
    · obtain ⟨q, -, rfl⟩ | ⟨-, hstep⟩ := Resource.World.mem_nameSteps.mp hstep
      · cases hauto
      · rw [List.mem_singleton.mp hstep] at hauto
        obtain ⟨tv, kind, name, -, -, hname, -⟩ := Resource.World.named?_eq_some.mp hnamed
        rcases Resource.World.kind?_of_nameAt? hname with ⟨-, -, rfl⟩ | ⟨-, -, rfl⟩ <;> cases hauto
  · rintro ⟨f, ident, x, id, hentry, hfield, hfound, hstep⟩
    exact .inl ⟨f, 0, ident, x, id, hfield,
      .inl ⟨hentry, rfl, (h.mem_bindSteps hfield).mpr (.inr ⟨hfound, hstep⟩)⟩⟩

-- What the search reports at a variable that stands for a resource.
theorem report_of_field {d : Diagnostic} (hfield : p.Field f index ident x id)
    (hd : .report d ∈ p.world.steps p.files.toList) (hfile : d.file = f.file)
    (hrange : d.range = Check.rangeOf ident) :
    f.isEntry = true ∧ index = 0 ∧ p.catalog.contains id = false ∧
        d = (Problem.resourceMissing id.kind id.name).diagnostic f.file (Check.rangeOf ident) ∨
      ¬ (f.isEntry = true ∧ index = 0) ∧
        d = (Problem.misplacedField id.kind id.name p.config.entryFile).diagnostic f.file
          (Check.rangeOf ident) := by
  rw [mem_steps] at hd
  obtain ⟨f', index', ident', x', id', hfield', hstep⟩ | ⟨f', hf', -, place, hplace, id', how, hnamed,
        hstep⟩ := hd
  · have hat : d.file = f'.file ∧ d.range = Check.rangeOf ident' := by
      obtain ⟨-, -, hstep⟩ | ⟨-, hstep⟩ := hstep
      · obtain ⟨-, hstep⟩ | ⟨-, hstep | ⟨site, -, hstep⟩ | hstep⟩ :=
          (h.mem_bindSteps hfield').mp hstep <;> cases hstep
        exact ⟨rfl, rfl⟩
      · cases hstep
        exact ⟨rfl, rfl⟩
    have hsame : Check.rangeOf ident' = Check.rangeOf ident := hat.2.symm.trans hrange
    obtain ⟨rfl, rfl, rfl, rfl⟩ := h.field_unique hfield hfield' (hfile.symm.trans hat.1) hsame.symm
    rw [hsame] at hstep
    obtain ⟨hentry, hindex, hstep⟩ | ⟨hother, hstep⟩ := hstep
    · obtain ⟨hmissing, hstep⟩ | ⟨-, hstep | ⟨site, -, hstep⟩ | hstep⟩ :=
        (h.mem_bindSteps hfield).mp hstep <;> cases hstep
      exact .inl ⟨hentry, hindex, hmissing, rfl⟩
    · cases hstep
      exact .inr ⟨hother, rfl⟩
  · -- A text or a constant stands at another place.
    have hat : d.file = f'.file ∧ d.range = place.tree.range := by
      obtain ⟨q, -, hstep⟩ | ⟨-, hstep⟩ := Resource.World.mem_nameSteps.mp hstep
      · cases hstep
        exact ⟨rfl, rfl⟩
      · cases List.mem_singleton.mp hstep
    obtain rfl := h.file_unique hf' hfield.file (hat.1.symm.trans hfile)
    obtain ⟨⟨t, ht⟩, hkind⟩ := Resource.World.atom?_of_named? hnamed
    exact absurd (hat.2.symm.trans hrange) (h.ne_rangeOf hf' hplace ht hkind hfield.mem_varIdents)

-- Only the search has something to say of resources.
omit h in
theorem Searched.mem_steps_of_code (hs : p.Searched s) {d : Diagnostic} (hd : d ∈ p.diagnostics)
    (hcode : d.code = some "E0060" ∨ d.code = some "E0061" ∨ d.code = some "W0001") :
    .report d ∈ p.world.steps p.files.toList := by
  rcases hs.mem_diagnostics hd with hearly | hstep
  · obtain ⟨q, file, range, rfl, hq⟩ := hearly.problem
    have hresource : q.isOfResource = true := by
      simp only [Problem.diagnostic, Option.some.injEq] at hcode
      rcases hcode with hcode | hcode | hcode
      · exact Problem.isOfResource_of_isOfName (Problem.isOfName_of_code (.inl hcode))
      · exact Problem.isOfResource_of_isOfName (Problem.isOfName_of_code (.inr hcode))
      · obtain ⟨kind, name, entry, rfl⟩ := Problem.misplaced_of_code hcode
        rfl
    rcases hq with hq | rfl | ⟨⟨text, rfl⟩, -⟩
    · exact absurd (hq.symm.trans hresource) Bool.false_ne_true
    · simp [Problem.diagnostic, Problem.code] at hcode
    · simp [Problem.diagnostic, Problem.code] at hcode
  · exact hstep

include hs

theorem mem_bindings_iff : (x, id) ∈ p.resources.bindings ↔
    ∃ f ident, f.isEntry = true ∧ p.Field f 0 ident x id ∧ p.catalog.contains id = true := by
  rw [hs.mem_bindings, mem_steps_of_isAuto h rfl]
  simp

theorem autoBinding_iff {file : FileId} {range : Text.ByteRange} :
    ⟨id, .autoBinding, file, range⟩ ∈ p.resources.refs.toList ↔ ∃ f ident x, f.isEntry = true ∧
      p.Field f 0 ident x id ∧ p.catalog.contains id = true ∧ file = f.file ∧
      range = Check.rangeOf ident := by
  rw [hs.mem_refs, mem_steps_of_isAuto h rfl]
  constructor
  · rintro ⟨f, ident, x, id', hentry, hfield, hfound, hstep | ⟨site, -, hstep⟩ | hstep⟩ <;> cases hstep
    exact ⟨f, ident, x, hentry, hfield, hfound, rfl, rfl⟩
  · rintro ⟨f, ident, x, hentry, hfield, hfound, rfl, rfl⟩
    exact ⟨f, ident, x, id, hentry, hfield, hfound, .inl rfl⟩

theorem autoBindingReference_iff {file : FileId} {range : Text.ByteRange} :
    ⟨id, .autoBindingReference, file, range⟩ ∈ p.resources.refs.toList ↔ ∃ f ident x, f.isEntry = true ∧
      p.Field f 0 ident x id ∧ p.catalog.contains id = true ∧ (file, range) ∈ p.info.sitesOf x := by
  rw [hs.mem_refs, mem_steps_of_isAuto h rfl]
  constructor
  · rintro ⟨f, ident, x, id', hentry, hfield, hfound, hstep | ⟨site, hsite, hstep⟩ | hstep⟩ <;> cases hstep
    exact ⟨f, ident, x, hentry, hfield, hfound, hsite⟩
  · rintro ⟨f, ident, x, hentry, hfield, hfound, hsite⟩
    exact ⟨f, ident, x, id, hentry, hfield, hfound, .inr (.inl ⟨_, hsite, rfl⟩)⟩

theorem isBound_of_field (hentry : f.isEntry = true) (hfield : p.Field f 0 ident x id)
    (hfound : p.catalog.contains id = true) : p.IsBound f ident x id where
  binding := (mem_bindings_iff h hs).mpr ⟨f, ident, hentry, hfield, hfound⟩
  declaration := by
    apply filter_eq_singleton hs.nodup_refs
    · exact (autoBinding_iff h hs).mpr ⟨f, ident, x, hentry, hfield, hfound, rfl, rfl⟩
    · simp
    · rintro ⟨id', kind, file, range⟩ hr hplace
      simp only [Bool.and_eq_true, beq_iff_eq] at hplace
      obtain ⟨⟨rfl, rfl⟩, rfl⟩ := hplace
      obtain ⟨f', ident', x', -, hfield', -, hfile, hrange⟩ := (autoBinding_iff h hs).mp hr
      obtain ⟨-, -, -, rfl⟩ := h.field_unique hfield hfield' hfile hrange
      rfl
  uses := by
    rintro ⟨file, range⟩ hsite
    apply filter_eq_singleton hs.nodup_refs
    · exact (autoBindingReference_iff h hs).mpr ⟨f, ident, x, hentry, hfield, hfound, hsite⟩
    · simp
    · rintro ⟨id', kind, file', range'⟩ hr hplace
      simp only [Bool.and_eq_true, beq_iff_eq] at hplace
      obtain ⟨⟨rfl, rfl⟩, rfl⟩ := hplace
      obtain ⟨f', ident', x', -, hfield', -, hsite'⟩ := (autoBindingReference_iff h hs).mp hr
      obtain rfl := h.info.unique x x' _ hsite hsite'
      obtain ⟨-, -, rfl⟩ := h.field_unique_symbol hfield hfield'
      rfl

theorem isUnbound_of_field (hfield : p.Field f index ident x id)
    (hother : ¬ (f.isEntry = true ∧ index = 0 ∧ p.catalog.contains id = true)) : p.IsUnbound f ident x where
  binding id' hbinding := by
    obtain ⟨f', ident', hentry, hfield', hfound⟩ := (mem_bindings_iff h hs).mp hbinding
    obtain ⟨rfl, rfl, rfl⟩ := h.field_unique_symbol hfield hfield'
    exact hother ⟨hentry, rfl, hfound⟩
  declaration := by
    apply List.filter_eq_nil_iff.mpr
    rintro ⟨id', kind, file, range⟩ hr hplace
    simp only [Bool.and_eq_true, beq_iff_eq] at hplace
    obtain ⟨⟨rfl, rfl⟩, rfl⟩ := hplace
    obtain ⟨f', ident', x', hentry, hfield', hfound, hfile, hrange⟩ := (autoBinding_iff h hs).mp hr
    obtain ⟨rfl, rfl, -, rfl⟩ := h.field_unique hfield hfield' hfile hrange
    exact hother ⟨hentry, rfl, hfound⟩
  apart := by
    apply List.filter_eq_nil_iff.mpr
    rintro ⟨id', kind, file, range⟩ hr hplace
    simp only [Bool.and_eq_true, beq_iff_eq] at hplace
    obtain ⟨⟨rfl, rfl⟩, rfl⟩ := hplace
    obtain ⟨f', ident', x', -, -, -, hsite⟩ := (autoBindingReference_iff h hs).mp hr
    -- What is declared at a place is not used there.
    have huse := (h.indexed.sites x' f.file (Check.rangeOf ident)).mp hsite
    exact h.indexed.apart f.file (Check.rangeOf ident)
      ⟨Option.isSome_of_eq_some hfield.declares, Option.isSome_of_eq_some huse⟩
  uses := by
    rintro ⟨file, range⟩ hsite
    apply List.filter_eq_nil_iff.mpr
    rintro ⟨id', kind, file', range'⟩ hr hplace
    simp only [Bool.and_eq_true, beq_iff_eq] at hplace
    obtain ⟨⟨rfl, rfl⟩, rfl⟩ := hplace
    obtain ⟨f', ident', x', hentry, hfield', hfound, hsite'⟩ := (autoBindingReference_iff h hs).mp hr
    obtain rfl := h.info.unique x x' _ hsite hsite'
    obtain ⟨rfl, rfl, rfl⟩ := h.field_unique_symbol hfield hfield'
    exact hother ⟨hentry, rfl, hfound⟩

theorem warningsAt_of_field (hfield : p.Field f index ident x id)
    (hother : ¬ (f.isEntry = true ∧ index = 0)) :
    p.warningsAt f.file (Check.rangeOf ident) =
      [(Problem.misplacedField id.kind id.name p.config.entryFile).diagnostic f.file
        (Check.rangeOf ident)] := by
  apply filter_eq_singleton hs.nodup_diagnostics
  · apply hs.mem_of_report (.inr rfl)
      (h.rangeOf_ne_empty hfield.file (f.tree.varIdents_subset hfield.mem_varIdents))
    exact mem_steps.mpr (.inl ⟨f, index, ident, x, id, hfield, .inr ⟨hother, rfl⟩⟩)
  · simp [Problem.diagnostic, Problem.code]
  · intro d hd hplace
    simp only [Bool.and_eq_true, beq_iff_eq] at hplace
    obtain ⟨⟨hfile, hrange⟩, hcode⟩ := hplace
    obtain ⟨hentry, hindex, -⟩ | ⟨-, rfl⟩ :=
      report_of_field h hfield (hs.mem_steps_of_code hd (.inr (.inr hcode))) hfile hrange
    · exact absurd ⟨hentry, hindex⟩ hother
    · rfl

theorem complaintsAt_of_field (hentry : f.isEntry = true) (hfield : p.Field f 0 ident x id)
    (hmissing : p.catalog.contains id = false) : p.complaintsAt f.file (Check.rangeOf ident) =
      [(Problem.resourceMissing id.kind id.name).diagnostic f.file (Check.rangeOf ident)] := by
  apply filter_eq_singleton hs.nodup_diagnostics
  · apply hs.mem_of_report (.inl rfl)
      (h.rangeOf_ne_empty hfield.file (f.tree.varIdents_subset hfield.mem_varIdents))
    exact mem_steps.mpr (.inl ⟨f, 0, ident, x, id, hfield, .inl ⟨hentry, rfl,
      (h.mem_bindSteps hfield).mpr (.inl ⟨hmissing, rfl⟩)⟩⟩)
  · simp [Problem.diagnostic, Problem.code]
  · intro d hd hplace
    simp only [Bool.and_eq_true, Bool.or_eq_true, beq_iff_eq] at hplace
    obtain ⟨⟨hfile, hrange⟩, hcode⟩ := hplace
    obtain ⟨-, -, -, rfl⟩ | ⟨hother, -⟩ :=
      report_of_field h hfield (hs.mem_steps_of_code hd (hcode.imp_right .inl)) hfile hrange
    · rfl
    · exact absurd ⟨hentry, rfl⟩ hother

end Bound

-- Exactly those variables are bound to resources that the first declaration of the entry file
-- declares, and that the catalog has. All others are reported, each once.
theorem fields_bound (h : compile config assets inputs false = .ok p) (hloaded : p.CatalogLoaded assets) :
    p.FieldsBound := by
  have hcompiled := compiled_of_compile h
  obtain ⟨s, hs⟩ := hcompiled.exists_searched hloaded
  constructor
  case declared =>
    intro f hf hchecked ident hident
    have hrecorded := hcompiled.recorded f hf hchecked ident hident
    rw [Std.HashMap.contains_eq_isSome_getElem?] at hrecorded
    obtain ⟨x, hx⟩ := Option.isSome_iff_exists.mp hrecorded
    exact ⟨x, hx, hcompiled.symbol_of_ident hf hident hx⟩
  case bindings => exact fun x id => mem_bindings_iff hcompiled hs
  case bound => exact fun f ident x id hentry hfield hfound =>
    isBound_of_field hcompiled hs hentry hfield hfound
  case missing =>
    intro f ident x id hentry hfield hmissing
    have hother : ¬ (f.isEntry = true ∧ 0 = 0 ∧ p.catalog.contains id = true) := by simp [hmissing]
    exact ⟨isUnbound_of_field hcompiled hs hfield hother,
      complaintsAt_of_field hcompiled hs hentry hfield hmissing⟩
  case misplaced =>
    intro f index ident x id hfield hother
    have hunbound := isUnbound_of_field hcompiled hs hfield fun hfirst => hother ⟨hfirst.1, hfirst.2.1⟩
    exact ⟨hunbound, warningsAt_of_field hcompiled hs hfield hother⟩
  case first => exact fun x => hcompiled.first_iff

-- Two sounds of the entry file, the second of which is declared too late.
theorem fields_bound_sounds : ∃ p, compile {} (.ofFiles [("assets/sounds/hop/a.wav", "")])
    [("main.spx", "var hop Sound\nvar hip Sound")] false = .ok p ∧
      p.CatalogLoaded (.ofFiles [("assets/sounds/hop/a.wav", "")]) ∧ p.FieldsBound := by
  have hspread : Parsed.NoEmptySpread [("main.spx", "var hop Sound\nvar hip Sound")] :=
    Parsed.noEmptySpread_of_tokenize (by cbv)
  obtain ⟨p, hp, hcompiled⟩ := compile_ok {} (.ofFiles [("assets/sounds/hop/a.wav", "")]) hspread
  exact ⟨p, hp, hcompiled.catalogLoaded_ofFiles, fields_bound hp hcompiled.catalogLoaded_ofFiles⟩

end Program

end SpriteScript
