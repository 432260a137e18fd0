import SpriteScript.Proofs.Checking.Sources
import SpriteScript.Proofs.Resource.Resolver
import SpriteScript.Proofs.Semantics.NodeKeys

-- Which steps the search for resources takes: one by one, by the place that each is about.
namespace SpriteScript.Resource

variable {w : World} {file : FileId} {range : Text.ByteRange} {id : ResourceId} {found : List Step}
variable {step : Step}
variable {f : SourceFile} {files : List SourceFile} {place : Place} {ident : Token} {d : Diagnostic}

namespace World

theorem mem_steps : step ∈ w.steps files ↔
    ∃ f ∈ files, f.excluded = false ∧ (step ∈ w.fieldStepsOf f ∨ step ∈ w.exprStepsOf f) := by
  simp only [steps, List.mem_append, List.mem_flatMap, List.mem_filter, Bool.not_eq_true']
  constructor
  · rintro (⟨f, ⟨hf, hchecked⟩, hstep⟩ | ⟨f, ⟨hf, hchecked⟩, hstep⟩)
    · exact ⟨f, hf, hchecked, .inl hstep⟩
    · exact ⟨f, hf, hchecked, .inr hstep⟩
  · rintro ⟨f, hf, hchecked, hstep | hstep⟩
    · exact .inl ⟨f, ⟨hf, hchecked⟩, hstep⟩
    · exact .inr ⟨f, ⟨hf, hchecked⟩, hstep⟩

-- A declaration of variables at the top of a file: the first one of the entry file is eligible.
theorem mem_fieldStepsOf : step ∈ w.fieldStepsOf f ↔
    ∃ index decl, (f.tree.childrenOf .varDecl)[index]? = some decl ∧ ∃ ident ∈ decl.declaredIdents,
      step ∈ w.fieldSteps f.file (f.isEntry && index == 0) ident := by
  simp only [fieldStepsOf, List.mem_flatMap, Prod.exists, List.mem_zipIdx_iff_getElem?, Tree.declaredIdents]
  constructor
  · rintro ⟨decl, index, hdecl, spec, hspec, ident, hident, hstep⟩
    exact ⟨index, decl, hdecl, ident, ⟨spec, hspec, hident⟩, hstep⟩
  · rintro ⟨index, decl, hdecl, ident, ⟨spec, hspec, hident⟩, hstep⟩
    exact ⟨decl, index, hdecl, spec, hspec, ident, hident, hstep⟩

theorem mem_exprStepsOf : step ∈ w.exprStepsOf f ↔ ∃ place ∈ f.tree.places, step ∈ w.exprSteps f.file place :=
  List.mem_flatMap

theorem mem_exprSteps : step ∈ w.exprSteps file place ↔ ∃ id how, w.named? file place = some (id, how) ∧
    step ∈ w.nameSteps file place.tree.range id [.ref ⟨id, how, file, place.tree.range⟩] := by
  unfold exprSteps
  cases hnamed : w.named? file place with
  | none => simp
  | some found =>
      obtain ⟨id, how⟩ := found
      simp

theorem mem_nameSteps : step ∈ w.nameSteps file range id found ↔
    (∃ p, w.complaint? id = some p ∧ step = .report (p.diagnostic file range)) ∨
      w.complaint? id = none ∧ step ∈ found := by
  unfold nameSteps
  cases w.complaint? id with
  | none => simp
  | some p => simp

-- A name is complained of when it is empty or not in the catalog.
theorem complaint?_eq_none : w.complaint? id = none ↔ id.name ≠ "" ∧ w.catalog.contains id = true := by
  unfold complaint?
  split
  case isTrue hempty => simp [String.isEmpty_iff.mp hempty]
  case isFalse hne =>
    have hne : id.name ≠ "" := fun heq => hne (by simp [heq])
    split
    case isTrue hmissing => simp_all
    case isFalse hfound => simp_all

theorem mem_bindSteps {x : SymbolId} : step ∈ w.bindSteps file range x id ↔
    (∃ p, w.complaint? id = some p ∧ step = .report (p.diagnostic file range)) ∨
      w.complaint? id = none ∧ (step = .ref ⟨id, .autoBinding, file, range⟩ ∨
        (∃ site ∈ w.info.sitesOf x, step = .ref ⟨id, .autoBindingReference, site.1, site.2⟩) ∨
        step = .bind x id) := by
  unfold bindSteps
  rw [mem_nameSteps]
  simp only [List.mem_append, List.mem_cons, List.mem_map, List.not_mem_nil, or_false, or_assoc]
  simp only [eq_comm (a := step)]

theorem mem_fieldSteps {eligible : Bool} : step ∈ w.fieldSteps file eligible ident ↔
    ∃ x kind, w.field? file ident = some (x, kind) ∧
      (eligible = true ∧ (∃ id, ResourceId.topLevel? kind (w.model.symbol x).name = some id ∧
          step ∈ w.bindSteps file (Check.rangeOf ident) x id) ∨
        eligible = false ∧ step = .report ((Problem.misplacedField kind (w.model.symbol x).name
          w.entryName).diagnostic file (Check.rangeOf ident))) := by
  unfold fieldSteps
  cases hfield : w.field? file ident with
  | none => simp
  | some field =>
      obtain ⟨x, kind⟩ := field
      cases eligible with
      | false => simp
      | true =>
          cases hid : ResourceId.topLevel? kind (w.model.symbol x).name with
          | none => simp [hid]
          | some id => simp [hid]

-- Every report is about a name of a variable or about an expression.
theorem place_of_mem_steps (h : .report d ∈ w.steps files) : ∃ f ∈ files, d.file = f.file ∧
    ((∃ ident ∈ f.tree.varIdents, d.range = Check.rangeOf ident) ∨ ∃ place ∈ f.tree.places,
      d.range = place.tree.range) := by
  obtain ⟨f, hf, -, hstep | hstep⟩ := mem_steps.mp h
  · obtain ⟨index, decl, hdecl, ident, hident, hstep⟩ := mem_fieldStepsOf.mp hstep
    have hident : ident ∈ f.tree.varIdents := List.mem_flatMap_of_mem (List.mem_of_getElem? hdecl) hident
    obtain ⟨x, kind, -, ⟨-, id, -, hstep⟩ | ⟨-, hstep⟩⟩ := mem_fieldSteps.mp hstep
    · obtain ⟨p, -, hstep⟩ | ⟨-, hstep | ⟨site, -, hstep⟩ | hstep⟩ := mem_bindSteps.mp hstep
      · cases hstep
        exact ⟨f, hf, rfl, .inl ⟨ident, hident, rfl⟩⟩
      all_goals cases hstep
    · cases hstep
      exact ⟨f, hf, rfl, .inl ⟨ident, hident, rfl⟩⟩
  · obtain ⟨place, hplace, hstep⟩ := mem_exprStepsOf.mp hstep
    obtain ⟨id, how, -, hstep⟩ := mem_exprSteps.mp hstep
    obtain ⟨p, -, hstep⟩ | ⟨-, hstep⟩ := mem_nameSteps.mp hstep
    · cases hstep
      exact ⟨f, hf, rfl, .inr ⟨place, hplace, rfl⟩⟩
    · cases List.mem_singleton.mp hstep

theorem named?_eq_none (hliteral : place.tree.kind? ≠ some .literal)
    (hname : place.tree.kind? ≠ some .nameRef) : w.named? file place = none := by
  simp [named?, nameAt?_eq_none hliteral hname]

section Recorded

variable {i : Info}

-- The other table holds the same of names, calls and texts. Types of other nodes may differ.
structure Reads (w : World) (i : Info) : Prop where
  defs : i.defs = w.info.defs
  uses : i.uses = w.info.uses
  calls : i.calls = w.info.calls
  useSites : i.useSites = w.info.useSites
  type? : ∀ file (t : Tree), t.kind? = some .literal ∨ t.kind? = some .nameRef →
    i.type? file t = w.info.type? file t

theorem reads_recordType {t : Tree} (hliteral : t.kind? ≠ some .literal) (hname : t.kind? ≠ some .nameRef)
    (tv : TypeAndValue) : w.Reads (w.info.recordType file t tv) := by
  have htype (other : FileId) (u : Tree) (hu : u.kind? = some .literal ∨ u.kind? = some .nameRef) :
      (w.info.recordType file t tv).type? other u = w.info.type? other u :=
    Info.type?_recordType_of_kind w.info tv fun hkind => hu.elim (hkind ▸ hliteral) (hkind ▸ hname)
  generalize hi : w.info.recordType file t tv = i at htype
  rw [Info.recordType] at hi
  split at hi
  · subst hi
    exact ⟨rfl, rfl, rfl, rfl, htype⟩
  · subst hi
    exact ⟨rfl, rfl, rfl, rfl, htype⟩

theorem Reads.named? (h : w.Reads i) (place : Place) :
    { w with info := i : World }.named? file place = w.named? file place := by
  by_cases hkind : place.tree.kind? = some .literal ∨ place.tree.kind? = some .nameRef
  · simp only [World.named?, nameAt?, idAt?, spriteContext?, Info.useAt?, Info.call?,
      h.type? file place.tree hkind, h.uses, h.calls]
    rfl
  · rw [named?_eq_none (fun h => hkind (.inl h)) fun h => hkind (.inr h),
      named?_eq_none (fun h => hkind (.inl h)) fun h => hkind (.inr h)]

theorem Reads.exprSteps (h : w.Reads i) : { w with info := i : World }.exprSteps file = w.exprSteps file := by
  funext place
  simp only [World.exprSteps, h.named?]
  rfl

theorem Reads.bindSteps (h : w.Reads i) (x : SymbolId) :
    { w with info := i : World }.bindSteps file range x = w.bindSteps file range x := by
  funext id
  simp only [World.bindSteps, Info.sitesOf, h.useSites]
  rfl

theorem Reads.fieldSteps (h : w.Reads i) :
    { w with info := i : World }.fieldSteps file = w.fieldSteps file := by
  funext eligible ident
  simp only [World.fieldSteps, field?, Info.defAt?, h.defs, h.bindSteps]

-- So the search takes the same steps.
theorem Reads.steps (h : w.Reads i) : { w with info := i : World }.steps files = w.steps files := by
  have hexprs : { w with info := i : World }.exprStepsOf = w.exprStepsOf := by
    funext f
    simp only [exprStepsOf, h.exprSteps]
  have hfields : { w with info := i : World }.fieldStepsOf = w.fieldStepsOf := by
    funext f
    simp only [fieldStepsOf, h.fieldSteps]
  rw [World.steps, World.steps, hexprs, hfields]

end Recorded

end World

-- A constant in parentheses that gets the type of a parameter: this is recorded of the parentheses,
-- where the search does not look for it. It finds the same resources, and complains of the same, as
-- if nothing had been recorded.
theorem resolve_convertRecorded {t : Tree} (hliteral : t.kind? ≠ some .literal)
    (hname : t.kind? ≠ some .nameRef) (o : Check.Operand) (target : Ty) {s s' : Check.State}
    (hs : ((Check.convertRecorded t o target).run s).2 = s') (catalog : Catalog) (entryName : String)
    (files : List SourceFile) (report : Report) :
    resolve ⟨s'.model, s'.info, catalog, entryName⟩ files report =
      resolve ⟨s.model, s.info, catalog, entryName⟩ files report := by
  subst hs
  rcases Check.recorded_convertRecorded t o target s with heq | ⟨tv, heq⟩
  · rw [heq]
  · rw [heq, resolve_eq, resolve_eq]
    dsimp only
    rw [(World.reads_recordType (w := ⟨s.model, s.info, catalog, entryName⟩) hliteral hname tv).steps]

end SpriteScript.Resource
