import Mathlib
import SpriteScript.Proofs.Program.Search

-- Texts and constants that name resources: each place that names one comes to one of three ends.
namespace SpriteScript.Program

variable {config : Config} {assets : AssetReader} {inputs : List (String × String)} {p : Program}
variable {s : Resource.State} {f : SourceFile} {place : Place} {id : ResourceId} {how : RefKind}

-- A text whose type names resources, or a use of a constant that has a text for its value.
inductive Gives (p : Program) (f : SourceFile) (t : Tree) : ResourceKind → String → RefKind → Prop
  | text {tv : TypeAndValue} {kind : ResourceKind} (type : p.info.type? f.file t = some tv)
      (kind_eq : p.model.resourceNameKind? tv.ty = some kind) (node : t.kind? = some .literal)
      (literal : t.literalKind? = some .string) : Gives p f t kind (t.stringValue?.getD "") .stringLiteral
  | constant {tv : TypeAndValue} {kind : ResourceKind} {ident : Token} {x : SymbolId} {name : String}
      (type : p.info.type? f.file t = some tv) (kind_eq : p.model.resourceNameKind? tv.ty = some kind)
      (node : t.kind? = some .nameRef) (ident_eq : t.ident? = some ident)
      (use : p.info.useAt? f.file (Check.rangeOf ident) = some x) (const : (p.model.symbol x).kind = .const)
      (value : tv.value = some (.string name)) : Gives p f t kind name .constantReference

-- The resource that a name stands for. Costumes and animations are those of the sprite around.
inductive Denotes (p : Program) (f : SourceFile) (place : Place) : ResourceKind → String → ResourceId → Prop
  | backdrop {name : String} : Denotes p f place .backdrop name (.backdrop name)
  | sound {name : String} : Denotes p f place .sound name (.sound name)
  | sprite {name : String} : Denotes p f place .sprite name (.sprite name)
  | widget {name : String} : Denotes p f place .widget name (.widget name)
  | costume {owner name : String} (context : spriteContext? p.model p.info f.file place = some owner) :
      Denotes p f place .spriteCostume name (.costume owner name)
  | animation {owner name : String} (context : spriteContext? p.model p.info f.file place = some owner) :
      Denotes p f place .spriteAnimation name (.animation owner name)

-- The references that texts and constants make at a range.
def referencesAt (p : Program) (file : FileId) (range : Text.ByteRange) : List ResourceRef :=
  p.resources.refs.toList.filter fun r =>
    r.file == file && r.range == range && (r.kind == .stringLiteral || r.kind == .constantReference)

-- What is said at a range of the name of a resource.
def complaintsAt (p : Program) (file : FileId) (range : Text.ByteRange) : List Diagnostic :=
  p.diagnostics.filter fun d =>
    d.file == file && d.range == range && (d.code == some "E0060" || d.code == some "E0061")

structure IsUnnamed (p : Program) (file : FileId) (range : Text.ByteRange) (id : ResourceId) : Prop where
  empty : id.name = ""
  complaints : p.complaintsAt file range = [(Problem.resourceUnnamed id.kind).diagnostic file range]
  references : p.referencesAt file range = []

structure IsFound (p : Program) (file : FileId) (range : Text.ByteRange) (id : ResourceId)
    (how : RefKind) : Prop where
  contained : p.catalog.contains id = true
  complaints : p.complaintsAt file range = []
  references : p.referencesAt file range = [⟨id, how, file, range⟩]

structure IsMissing (p : Program) (file : FileId) (range : Text.ByteRange) (id : ResourceId) : Prop where
  missing : p.catalog.contains id = false
  complaints : p.complaintsAt file range = [(Problem.resourceMissing id.kind id.name).diagnostic file range]
  references : p.referencesAt file range = []

section Apart

variable {file : FileId} {range : Text.ByteRange}

theorem IsUnnamed.not_isFound (h : p.IsUnnamed file range id) : ¬ p.IsFound file range id how :=
  fun h' => List.cons_ne_nil _ _ (h.complaints.symm.trans h'.complaints)

theorem IsFound.not_isMissing (h : p.IsFound file range id how) : ¬ p.IsMissing file range id :=
  fun h' => List.cons_ne_nil _ _ (h'.complaints.symm.trans h.complaints)

theorem IsUnnamed.not_isMissing (h : p.IsUnnamed file range id) : ¬ p.IsMissing file range id := by
  intro h'
  have hcode := congrArg Diagnostic.code (List.head_eq_of_cons_eq (h.complaints.symm.trans h'.complaints))
  simp [Problem.diagnostic, Problem.code] at hcode

end Apart

-- One of three holds, and the other two do not.
def ExactlyOne (a b c : Prop) : Prop := a ∧ ¬b ∧ ¬c ∨ ¬a ∧ b ∧ ¬c ∨ ¬a ∧ ¬b ∧ c

-- Every place of a checked file that names a resource comes to exactly one end.
def NamesResolved (p : Program) : Prop :=
  ∀ f ∈ p.files.toList, f.excluded = false → ∀ place ∈ f.tree.places, ∀ kind name how id,
    p.Gives f place.tree kind name how → p.Denotes f place kind name id →
      ExactlyOne (p.IsUnnamed f.file place.tree.range id) (p.IsFound f.file place.tree.range id how)
        (p.IsMissing f.file place.tree.range id)

section Naming

variable {kind : ResourceKind} {name : String}

theorem nameAt?_of_gives {t : Tree} (h : p.Gives f t kind name how) : ∃ tv, p.info.type? f.file t = some tv ∧
    p.model.resourceNameKind? tv.ty = some kind ∧ p.world.nameAt? f.file t tv.value = some (name, how) := by
  cases h with
  | text type kind_eq node literal =>
      refine ⟨_, type, kind_eq, ?_⟩
      simp [Resource.World.nameAt?, node, literal]
  | constant type kind_eq node ident_eq use const value =>
      refine ⟨_, type, kind_eq, ?_⟩
      simp [Resource.World.nameAt?, node, ident_eq, value, Constant.text?, world, use, const]

theorem idAt?_of_denotes (h : p.Denotes f place kind name id) :
    p.world.idAt? f.file place kind name = some id := by
  cases h with
  | backdrop | sound | sprite | widget => rfl
  | costume context | animation context =>
      exact Option.bind_eq_some_iff.mpr ⟨_, context, rfl⟩

theorem named?_of_gives (hgives : p.Gives f place.tree kind name how)
    (hdenotes : p.Denotes f place kind name id) : p.world.named? f.file place = some (id, how) := by
  obtain ⟨tv, htype, hkind, hname⟩ := nameAt?_of_gives hgives
  exact Resource.World.named?_eq_some.mpr ⟨tv, kind, name, htype, hkind, hname, idAt?_of_denotes hdenotes⟩

end Naming

section Ends

variable (h : p.Compiled assets inputs) (hs : p.Searched s) (hf : f ∈ p.files.toList)
variable (hchecked : f.excluded = false)
variable (hplace : place ∈ f.tree.places) (hnamed : p.world.named? f.file place = some (id, how))

include h hf hplace hnamed

-- Another place of the program that names a resource has another range.
theorem place_eq_of_named {f' : SourceFile} {place' : Place} {id' : ResourceId} {how' : RefKind}
    (hf' : f' ∈ p.files.toList) (hplace' : place' ∈ f'.tree.places)
    (hnamed' : p.world.named? f'.file place' = some (id', how')) (hfile : f'.file = f.file)
    (hrange : place'.tree.range = place.tree.range) : id' = id ∧ how' = how := by
  obtain rfl := h.file_unique hf' hf hfile
  obtain ⟨⟨t, ht⟩, -⟩ := Resource.World.atom?_of_named? hnamed
  obtain ⟨⟨t', ht'⟩, -⟩ := Resource.World.atom?_of_named? hnamed'
  obtain rfl := h.place_unique hf hplace' hplace ht' ht hrange
  rw [hnamed] at hnamed'
  cases hnamed'
  exact ⟨rfl, rfl⟩

-- What the search says of names at the place.
theorem complaint_of_mem_steps {d : Diagnostic} (hd : .report d ∈ p.world.steps p.files.toList)
    (hfile : d.file = f.file) (hrange : d.range = place.tree.range) :
    ∃ q, p.world.complaint? id = some q ∧ d = q.diagnostic f.file place.tree.range := by
  obtain ⟨f', hf', -, hstep | hstep⟩ := Resource.World.mem_steps.mp hd
  · -- A field is reported at its name, and that is another place.
    obtain ⟨index, decl, hdecl, ident, hident, hstep⟩ := Resource.World.mem_fieldStepsOf.mp hstep
    have hident : ident ∈ f'.tree.varIdents := List.mem_flatMap_of_mem (List.mem_of_getElem? hdecl) hident
    have hfield : d.file = f'.file ∧ d.range = Check.rangeOf ident := by
      obtain ⟨x, kind, -, ⟨-, id', -, hstep⟩ | ⟨-, hstep⟩⟩ := Resource.World.mem_fieldSteps.mp hstep
      · obtain ⟨q, -, hstep⟩ | ⟨-, hstep | ⟨site, -, hstep⟩ | hstep⟩ := Resource.World.mem_bindSteps.mp hstep
        · cases hstep
          exact ⟨rfl, rfl⟩
        all_goals cases hstep
      · cases hstep
        exact ⟨rfl, rfl⟩
    obtain rfl := h.file_unique hf' hf (hfield.1.symm.trans hfile)
    obtain ⟨⟨t, ht⟩, hkind⟩ := Resource.World.atom?_of_named? hnamed
    exact absurd (hrange.symm.trans hfield.2) (h.ne_rangeOf hf hplace ht hkind hident)
  · obtain ⟨place', hplace', hstep⟩ := Resource.World.mem_exprStepsOf.mp hstep
    obtain ⟨id', how', hnamed', hstep⟩ := Resource.World.mem_exprSteps.mp hstep
    obtain ⟨q, hq, hstep⟩ | ⟨-, hstep⟩ := Resource.World.mem_nameSteps.mp hstep
    · cases hstep
      obtain ⟨rfl, rfl⟩ := place_eq_of_named h hf hplace hnamed hf' hplace' hnamed' hfile hrange
      exact ⟨q, hq, by rw [← hfile, ← hrange]; rfl⟩
    · cases List.mem_singleton.mp hstep

-- What the search refers to at the place by a text or a constant.
theorem reference_of_mem_steps {r : ResourceRef} (hr : .ref r ∈ p.world.steps p.files.toList)
    (hkind : r.kind = .stringLiteral ∨ r.kind = .constantReference) (hfile : r.file = f.file)
    (hrange : r.range = place.tree.range) :
    p.world.complaint? id = none ∧ r = ⟨id, how, f.file, place.tree.range⟩ := by
  obtain ⟨f', hf', -, hstep | hstep⟩ := Resource.World.mem_steps.mp hr
  · obtain ⟨index, decl, -, ident, -, hstep⟩ := Resource.World.mem_fieldStepsOf.mp hstep
    obtain ⟨x, kind, -, ⟨-, id', -, hstep⟩ | ⟨-, hstep⟩⟩ := Resource.World.mem_fieldSteps.mp hstep
    · obtain ⟨q, -, hstep⟩ | ⟨-, hstep | ⟨site, -, hstep⟩ | hstep⟩ :=
        Resource.World.mem_bindSteps.mp hstep <;>
        cases hstep <;> rcases hkind with hkind | hkind <;> cases hkind
    · cases hstep
  · obtain ⟨place', hplace', hstep⟩ := Resource.World.mem_exprStepsOf.mp hstep
    obtain ⟨id', how', hnamed', hstep⟩ := Resource.World.mem_exprSteps.mp hstep
    obtain ⟨q, -, hstep⟩ | ⟨hfound, hstep⟩ := Resource.World.mem_nameSteps.mp hstep
    · cases hstep
    · cases List.mem_singleton.mp hstep
      obtain ⟨rfl, rfl⟩ := place_eq_of_named h hf hplace hnamed hf' hplace' hnamed' hfile hrange
      exact ⟨hfound, by rw [← hfile, ← hrange]⟩

include hs hchecked in
theorem complaintsAt_eq : p.complaintsAt f.file place.tree.range =
    ((p.world.complaint? id).map fun q => q.diagnostic f.file place.tree.range).toList := by
  have hother (d : Diagnostic) (hd : d ∈ p.diagnostics)
      (hp : (d.file == f.file && d.range == place.tree.range &&
        (d.code == some "E0060" || d.code == some "E0061")) = true) :
      ∃ q, p.world.complaint? id = some q ∧ d = q.diagnostic f.file place.tree.range := by
    simp only [Bool.and_eq_true, Bool.or_eq_true, beq_iff_eq] at hp
    obtain ⟨⟨hfile, hrange⟩, hcode⟩ := hp
    rcases hs.mem_diagnostics hd with hearly | hstep
    · -- Nothing is said of names before the search.
      obtain ⟨q, file, range, rfl, hq⟩ := hearly.problem
      have hname : q.isOfName = true := by
        refine Problem.isOfName_of_code (hcode.imp ?_ ?_) <;> exact fun heq => Option.some.inj heq
      rcases hq with hq | rfl | ⟨⟨text, rfl⟩, -⟩
      · exact absurd (hq.symm.trans (Problem.isOfResource_of_isOfName hname)) Bool.false_ne_true
      · cases hname
      · cases hname
    · exact complaint_of_mem_steps h hf hplace hnamed hstep hfile hrange
  unfold complaintsAt
  cases hcomplaint : p.world.complaint? id with
  | none =>
      refine List.filter_eq_nil_iff.mpr fun d hd hp => ?_
      obtain ⟨q, hq, -⟩ := hother d hd hp
      cases hcomplaint.symm.trans hq
  | some q =>
      have hname := Resource.World.isOfName_of_complaint? hcomplaint
      obtain ⟨⟨t, ht⟩, -⟩ := Resource.World.atom?_of_named? hnamed
      have hrange : place.tree.range ≠ .empty 0 :=
        h.range_eq hf hplace ht ▸ h.rangeOf_ne_empty hf (h.mem_tokens_of_atom? hf hplace ht)
      have hstep : .report (q.diagnostic f.file place.tree.range) ∈ p.world.steps p.files.toList :=
        Resource.World.mem_steps.mpr ⟨f, hf, hchecked,
          .inr (Resource.World.mem_exprStepsOf.mpr ⟨place, hplace,
          Resource.World.mem_exprSteps.mpr ⟨id, how, hnamed, Resource.World.mem_nameSteps.mpr
            (.inl ⟨q, hcomplaint, rfl⟩)⟩⟩)⟩
      have hcode : q.code = "E0060" ∨ q.code = "E0061" :=
        (Problem.closing_of_isOfName hname).imp And.left And.left
      refine filter_eq_singleton hs.nodup_diagnostics (hs.mem_of_report (.inl hname) hrange hstep) ?_
        fun d hd hp => ?_
      · rcases hcode with hcode | hcode <;> simp [Problem.diagnostic, hcode]
      · obtain ⟨q', hq', rfl⟩ := hother d hd hp
        rw [hcomplaint] at hq'
        cases hq'
        rfl

include hs hchecked in
theorem referencesAt_eq : p.referencesAt f.file place.tree.range =
    if (p.world.complaint? id).isNone then [⟨id, how, f.file, place.tree.range⟩] else [] := by
  have hother (r : ResourceRef) (hr : r ∈ p.resources.refs.toList) (hp : (r.file == f.file &&
      r.range == place.tree.range && (r.kind == .stringLiteral || r.kind == .constantReference)) = true) :
      p.world.complaint? id = none ∧ r = ⟨id, how, f.file, place.tree.range⟩ := by
    simp only [Bool.and_eq_true, Bool.or_eq_true, beq_iff_eq] at hp
    exact reference_of_mem_steps h hf hplace hnamed (hs.mem_refs.mp hr) hp.2 hp.1.1 hp.1.2
  unfold referencesAt
  cases hcomplaint : p.world.complaint? id with
  | some q =>
      rw [if_neg (by simp)]
      refine List.filter_eq_nil_iff.mpr fun r hr hp => ?_
      cases hcomplaint.symm.trans (hother r hr hp).1
  | none =>
      rw [Option.isNone_none, if_pos rfl]
      have hstep : .ref ⟨id, how, f.file, place.tree.range⟩ ∈ p.world.steps p.files.toList :=
        Resource.World.mem_steps.mpr ⟨f, hf, hchecked,
          .inr (Resource.World.mem_exprStepsOf.mpr ⟨place, hplace,
          Resource.World.mem_exprSteps.mpr ⟨id, how, hnamed, Resource.World.mem_nameSteps.mpr
            (.inr ⟨hcomplaint, List.mem_singleton_self _⟩)⟩⟩)⟩
      refine filter_eq_singleton hs.nodup_refs (hs.mem_refs.mpr hstep) ?_ fun r hr hp => (hother r hr hp).2
      obtain ⟨tv, kind, name, -, -, hname, -⟩ := Resource.World.named?_eq_some.mp hnamed
      rcases Resource.World.kind?_of_nameAt? hname with ⟨-, -, rfl⟩ | ⟨-, -, rfl⟩ <;> simp

include hs hchecked in
theorem exactlyOne_of_named : ExactlyOne (p.IsUnnamed f.file place.tree.range id)
    (p.IsFound f.file place.tree.range id how) (p.IsMissing f.file place.tree.range id) := by
  have hcomplaints := complaintsAt_eq h hs hf hchecked hplace hnamed
  have hreferences := referencesAt_eq h hs hf hchecked hplace hnamed
  by_cases hempty : id.name = ""
  · have hcomplaint : p.world.complaint? id = some (.resourceUnnamed id.kind) := by
      simp [Resource.World.complaint?, hempty]
    rw [hcomplaint] at hcomplaints hreferences
    have hend : p.IsUnnamed f.file place.tree.range id := ⟨hempty, hcomplaints, hreferences⟩
    exact .inl ⟨hend, hend.not_isFound, hend.not_isMissing⟩
  · cases hcontained : p.catalog.contains id with
    | true =>
        have hcomplaint : p.world.complaint? id = none :=
          Resource.World.complaint?_eq_none.mpr ⟨hempty, hcontained⟩
        rw [hcomplaint] at hcomplaints hreferences
        have hend : p.IsFound f.file place.tree.range id how := ⟨hcontained, hcomplaints, hreferences⟩
        exact .inr (.inl ⟨fun hunnamed => hunnamed.not_isFound hend, hend, hend.not_isMissing⟩)
    | false =>
        have hcomplaint : p.world.complaint? id = some (.resourceMissing id.kind id.name) := by
          simp [Resource.World.complaint?, hempty, world, hcontained]
        rw [hcomplaint] at hcomplaints hreferences
        have hend : p.IsMissing f.file place.tree.range id := ⟨hcontained, hcomplaints, hreferences⟩
        exact .inr (.inr ⟨fun hunnamed => hunnamed.not_isMissing hend,
          fun hfound => hfound.not_isMissing hend, hend⟩)

end Ends

-- Wherever a checked file names a resource by a text or a constant, the name is empty and that
-- is said, or there is no such resource and that is said, or the place refers to the resource.
theorem names_resolved (h : compile config assets inputs false = .ok p) (hloaded : p.CatalogLoaded assets) :
    p.NamesResolved := by
  have hcompiled := compiled_of_compile h
  obtain ⟨s, hs⟩ := hcompiled.exists_searched hloaded
  intro f hf hchecked place hplace kind name how id hgives hdenotes
  exact exactlyOne_of_named hcompiled hs hf hchecked hplace (named?_of_gives hgives hdenotes)

-- A sound that there is, one that there is not, and one without a name.
set_option maxRecDepth 4000 in
theorem names_resolved_sounds : ∃ p, compile {} (.ofFiles [("assets/sounds/hop/a.wav", "")])
    [("main.spx", "play \"hop\"\nplay \"hip\"\nplay \"\"")] false = .ok p ∧
      p.CatalogLoaded (.ofFiles [("assets/sounds/hop/a.wav", "")]) ∧ p.NamesResolved := by
  have hcalls : ((Syntax.parse "play \"hop\"\nplay \"hip\"\nplay \"\"").tree.nodes.all
      fun t => !t.isEmptySpread) = true := by cbv
  have hspread : Parsed.NoEmptySpread [("main.spx", "play \"hop\"\nplay \"hip\"\nplay \"\"")] := by
    intro input hinput t ht
    rw [List.mem_singleton.mp hinput] at ht
    simpa using List.all_eq_true.mp hcalls t ht
  obtain ⟨p, hp, hcompiled⟩ := compile_ok {} (.ofFiles [("assets/sounds/hop/a.wav", "")]) hspread
  exact ⟨p, hp, hcompiled.catalogLoaded_ofFiles, names_resolved hp hcompiled.catalogLoaded_ofFiles⟩

end SpriteScript.Program
