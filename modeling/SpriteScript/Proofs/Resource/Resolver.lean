import SpriteScript.Proofs.Report
import SpriteScript.Resource.References

-- What the search for references does, as a list of steps that no state decides on.
namespace SpriteScript

namespace ResourceIndex

variable {i : ResourceIndex} {r r' : ResourceRef}

-- What was seen is what the index holds.
structure Faithful (i : ResourceIndex) : Prop where
  seen : ∀ r, i.seen.contains r = true ↔ r ∈ i.refs.toList
  nodup : i.refs.toList.Nodup

theorem faithful_empty : Faithful {} where
  seen := by simp
  nodup := .nil

theorem mem_add (h : i.Faithful) : r' ∈ (i.add r).refs.toList ↔ r' ∈ i.refs.toList ∨ r' = r := by
  unfold add
  split
  case isTrue hseen =>
    rw [h.seen] at hseen
    exact ⟨.inl, fun hmem => hmem.elim id fun heq => heq ▸ hseen⟩
  case isFalse => simp

theorem bindings_add (i : ResourceIndex) (r : ResourceRef) : (i.add r).bindings = i.bindings := by
  unfold add
  split <;> rfl

theorem Faithful.add (h : i.Faithful) (r : ResourceRef) : (i.add r).Faithful := by
  have hmem (r' : ResourceRef) : r' ∈ (i.add r).refs.toList ↔ r' ∈ i.refs.toList ∨ r' = r := mem_add h
  unfold ResourceIndex.add at hmem ⊢
  split at hmem
  case isTrue hseen =>
    rw [if_pos hseen]
    exact h
  case isFalse hnew =>
    rw [if_neg hnew]
    constructor
    · intro r'
      rw [hmem, Std.HashSet.contains_insert, Bool.or_eq_true, h.seen, beq_iff_eq, or_comm, eq_comm]
    · rw [Array.toList_push, List.nodup_append']
      refine ⟨h.nodup, List.nodup_singleton _, fun r' hr' hr => hnew ?_⟩
      rw [← List.mem_singleton.mp hr, h.seen]
      exact hr'

end ResourceIndex

namespace Resource

inductive Step where
  | report (d : Diagnostic)
  | ref (r : ResourceRef)
  | bind (s : SymbolId) (id : ResourceId)

namespace Step

def apply (s : State) : Step → State
  | report d => { s with report := s.report.add d }
  | ref r => { s with index := s.index.add r }
  | bind x id => { s with index := { s.index with bindings := (x, id) :: s.index.bindings } }

def diagnostic? : Step → Option Diagnostic
  | report d => some d
  | _ => none

end Step

-- Where the steps lead.
structure Leads (s : State) (steps : List Step) (s' : State) : Prop where
  report : s'.report = s.report.addAll (steps.filterMap Step.diagnostic?)
  refs : ∀ r, r ∈ s'.index.refs.toList ↔ r ∈ s.index.refs.toList ∨ .ref r ∈ steps
  bindings : ∀ x id, (x, id) ∈ s'.index.bindings ↔ (x, id) ∈ s.index.bindings ∨ .bind x id ∈ steps
  faithful : s'.index.Faithful

theorem leads_foldl {s : State} (h : s.index.Faithful) (steps : List Step) :
    Leads s steps (steps.foldl Step.apply s) := by
  induction steps generalizing s with
  | nil => exact ⟨rfl, by simp, by simp, h⟩
  | cons step steps ih =>
      cases step with
      | report d =>
          have hrest := ih (s := Step.apply s (.report d)) h
          exact ⟨hrest.report, by simpa [Step.apply] using hrest.refs,
            by simpa [Step.apply] using hrest.bindings, hrest.faithful⟩
      | ref r =>
          have hrest := ih (s := Step.apply s (.ref r)) (h.add r)
          refine ⟨hrest.report, fun r' => ?_,
            by simpa [Step.apply, ResourceIndex.bindings_add] using hrest.bindings, hrest.faithful⟩
          rw [List.foldl_cons, hrest.refs, Step.apply, ResourceIndex.mem_add h]
          simp [or_assoc]
      | bind x id =>
          have hrest := ih (s := Step.apply s (.bind x id)) ⟨h.seen, h.nodup⟩
          refine ⟨hrest.report, by simpa [Step.apply] using hrest.refs, fun x' id' => ?_, hrest.faithful⟩
          rw [List.foldl_cons, hrest.bindings, Step.apply]
          simp only [List.mem_cons, Prod.mk.injEq, Step.bind.injEq]
          tauto

-- What is found does not hang on what was reported.
theorem index_foldl (steps : List Step) (index : ResourceIndex) (report report' : Report) :
    (steps.foldl Step.apply { index, report }).index =
      (steps.foldl Step.apply { index, report := report' }).index := by
  induction steps generalizing index report report' with
  | nil => rfl
  | cons step steps ih => cases step <;> exact ih _ _ _

-- In every state the action does these steps, and returns the same.
def Takes {α : Type} (w : World) (a : Resolve α) (steps : List Step) (x : α) : Prop :=
  ∀ s, (a.run w).run s = (x, steps.foldl Step.apply s)

section Takes

variable {w : World} {α β γ : Type} {a : Resolve α} {f : α → Resolve β} {x : α} {y : β}
variable {steps steps' : List Step}

theorem Takes.pure : Takes w (Pure.pure x) [] x := fun _ => rfl

theorem Takes.bind (ha : Takes w a steps x) (hf : Takes w (f x) steps' y) :
    Takes w (a >>= f) (steps ++ steps') y := by
  intro s
  rw [List.foldl_append, ← hf, ReaderT.run_bind, StateT.run_bind, ha]
  rfl

theorem Takes.forM {l : List γ} {g : γ → Resolve PUnit} {stepsOf : γ → List Step}
    (h : ∀ x ∈ l, Takes w (g x) (stepsOf x) ⟨⟩) : Takes w (ForM.forM l g) (l.flatMap stepsOf) ⟨⟩ := by
  induction l with
  | nil => exact .pure
  | cons x rest ih =>
      rw [List.forM_cons, List.flatMap_cons]
      exact .bind (h x List.mem_cons_self) (ih fun y hy => h y (List.mem_cons_of_mem x hy))

-- A loop that always goes on.
theorem Takes.forIn {l : List γ} {g : γ → Resolve PUnit} {stepsOf : γ → List Step}
    (h : ∀ x ∈ l, Takes w (g x) (stepsOf x) ⟨⟩) :
    Takes w (forIn l PUnit.unit fun x _ => do g x; Pure.pure (ForInStep.yield PUnit.unit))
      (l.flatMap stepsOf) ⟨⟩ := by
  induction l with
  | nil => exact .pure
  | cons x rest ih =>
      rw [List.forIn_cons, List.flatMap_cons]
      refine .bind (x := ForInStep.yield PUnit.unit) ?_ (ih fun y hy => h y (List.mem_cons_of_mem x hy))
      have := Takes.bind (f := fun _ => Pure.pure (ForInStep.yield PUnit.unit)) (h x List.mem_cons_self) .pure
      rwa [List.append_nil] at this

end Takes

namespace World

variable (w : World)

-- What is wrong with the name of a resource.
def complaint? (id : ResourceId) : Option Problem :=
  if id.name.isEmpty then some (.resourceUnnamed id.kind)
  else if !w.catalog.contains id then some (.resourceMissing id.kind id.name)
  else none

-- What is done with a resource that is named in a range.
def nameSteps (file : FileId) (range : Text.ByteRange) (id : ResourceId) (found : List Step) : List Step :=
  match w.complaint? id with
  | some p => [.report (p.diagnostic file range)]
  | none => found

def bindSteps (file : FileId) (range : Text.ByteRange) (x : SymbolId) (id : ResourceId) : List Step :=
  w.nameSteps file range id <| .ref ⟨id, .autoBinding, file, range⟩ ::
    ((w.info.sitesOf x).map fun site => .ref ⟨id, .autoBindingReference, site.1, site.2⟩) ++ [.bind x id]

-- The symbol that a name declares, if fields of its type stand for resources.
def field? (file : FileId) (ident : Token) : Option (SymbolId × ResourceKind) := do
  let x ← w.info.defAt? file (Check.rangeOf ident)
  let kind ← w.model.resourceFieldKind? (w.model.symbol x).ty
  return (x, kind)

def fieldSteps (file : FileId) (eligible : Bool) (ident : Token) : List Step :=
  match w.field? file ident with
  | some (x, kind) =>
      let name := (w.model.symbol x).name
      if eligible then
        ((ResourceId.topLevel? kind name).map (w.bindSteps file (Check.rangeOf ident) x)).getD []
      else [.report ((Problem.misplacedField kind name w.entryName).diagnostic file (Check.rangeOf ident))]
  | none => []

-- The resource of a kind that a name stands for at a place.
def idAt? (file : FileId) (place : Place) (kind : ResourceKind) (name : String) : Option ResourceId :=
  if kind.isSpriteScoped then
    (spriteContext? w.model w.info file place).bind fun owner => ResourceId.ofSprite? kind owner name
  else ResourceId.topLevel? kind name

-- The name that a text or a constant gives, and how.
def nameAt? (file : FileId) (t : Tree) (value : Option Constant) : Option (String × RefKind) :=
  match t.kind? with
  | some .literal =>
      if t.literalKind? == some .string then some (t.stringValue?.getD "", .stringLiteral) else none
  | some .nameRef =>
      let s? := t.ident?.bind fun ident => w.info.useAt? file (Check.rangeOf ident)
      if s?.any fun s => (w.model.symbol s).kind == .const then
        (value.bind Constant.text?).map (·, .constantReference)
      else none
  | _ => none

-- The resource that a place names, and how.
def named? (file : FileId) (place : Place) : Option (ResourceId × RefKind) := do
  let tv ← w.info.type? file place.tree
  let kind ← w.model.resourceNameKind? tv.ty
  let (name, how) ← w.nameAt? file place.tree tv.value
  return (← w.idAt? file place kind name, how)

def exprSteps (file : FileId) (place : Place) : List Step :=
  match w.named? file place with
  | some (id, how) => w.nameSteps file place.tree.range id [.ref ⟨id, how, file, place.tree.range⟩]
  | none => []

-- The steps for the fields of a file, and for its expressions.
def fieldStepsOf (f : SourceFile) : List Step :=
  (f.tree.childrenOf .varDecl).zipIdx.flatMap fun (decl, index) => decl.specs.flatMap fun spec =>
    (spec.names.filterMap Tree.ident?).flatMap (w.fieldSteps f.file (f.isEntry && index == 0))

def exprStepsOf (f : SourceFile) : List Step := f.tree.places.flatMap (w.exprSteps f.file)

def steps (files : List SourceFile) : List Step :=
  (files.filter (!·.excluded)).flatMap w.fieldStepsOf ++ (files.filter (!·.excluded)).flatMap w.exprStepsOf

end World

variable {w : World} {file : FileId} {range : Text.ByteRange} {id : ResourceId} {place : Place}
variable {ident : Token}

theorem World.nameAt?_eq_none {t : Tree} {value : Option Constant} (hliteral : t.kind? ≠ some .literal)
    (hname : t.kind? ≠ some .nameRef) : w.nameAt? file t value = none := by
  unfold nameAt?
  split
  · exact (hliteral ‹_›).elim
  · exact (hname ‹_›).elim
  · rfl

theorem takes_problem (p : Problem) : Takes w (problem file range p) [.report (p.diagnostic file range)] ⟨⟩ :=
  fun _ => rfl

theorem takes_addRef (r : ResourceRef) : Takes w (addRef r) [.ref r] ⟨⟩ := fun _ => rfl

theorem takes_read : Takes w read [] w := fun _ => rfl

-- What is done next may ask for the world.
theorem Takes.read_bind {α : Type} {f : World → Resolve α} {steps : List Step} {x : α}
    (h : Takes w (f w) steps x) : Takes w (read >>= f) steps x :=
  .bind takes_read h

theorem takes_checkExists :
    Takes w (checkExists file range id) (w.nameSteps file range id []) (w.complaint? id).isNone := by
  unfold checkExists World.nameSteps World.complaint?
  split
  · exact .bind (takes_problem _) .pure
  · refine .read_bind ?_
    split
    · exact .bind (takes_problem _) .pure
    · exact .pure

-- What is done only with a resource that exists.
theorem Takes.checkExists {body : Resolve PUnit} {found : List Step} (h : Takes w body found ⟨⟩) :
    Takes w (do if ← checkExists file range id then body) (w.nameSteps file range id found) ⟨⟩ := by
  have hcheck : Takes w (Resource.checkExists file range id) _ _ := takes_checkExists
  unfold World.nameSteps at hcheck ⊢
  cases hcomplaint : w.complaint? id with
  | some p =>
      rw [hcomplaint] at hcheck
      exact .bind hcheck .pure
  | none =>
      rw [hcomplaint] at hcheck
      change Takes w _ ([] ++ found) _
      exact .bind hcheck h

theorem takes_bindField {x : SymbolId} :
    Takes w (bindField file range x id) (w.bindSteps file range x id) ⟨⟩ := by
  unfold bindField World.bindSteps
  refine .checkExists ?_
  rw [List.cons_append, ← List.singleton_append]
  refine .bind (takes_addRef _) (.read_bind ?_)
  refine .bind (x := PUnit.unit) ?_ fun _ => rfl
  rw [← List.flatMap_pure_eq_map]
  simp only
  exact .forIn fun site _ => takes_addRef _

theorem takes_checkField {eligible : Bool} :
    Takes w (checkField file eligible ident) (w.fieldSteps file eligible ident) ⟨⟩ := by
  unfold checkField World.fieldSteps World.field?
  refine .read_bind ?_
  dsimp only
  cases hdef : w.info.defAt? file (Check.rangeOf ident) with
  | none => exact .pure
  | some x =>
      dsimp only [Option.bind_eq_bind, Option.bind_some]
      cases hkind : w.model.resourceFieldKind? (w.model.symbol x).ty with
      | none => exact .pure
      | some kind =>
          dsimp only [Option.bind_some, Option.pure_def]
          split
          · cases hid : ResourceId.topLevel? kind (w.model.symbol x).name with
            | none => exact .pure
            | some id => exact takes_bindField
          · exact takes_problem _

theorem takes_checkExpr : Takes w (checkExpr file place) (w.exprSteps file place) ⟨⟩ := by
  unfold checkExpr World.exprSteps World.named?
  refine .read_bind ?_
  dsimp only
  cases htype : w.info.type? file place.tree with
  | none => exact .pure
  | some tv =>
      dsimp only [Option.bind_eq_bind, Option.bind_some]
      cases hkind : w.model.resourceNameKind? tv.ty with
      | none => exact .pure
      | some kind =>
          dsimp only [Option.bind_some, Option.pure_def]
          have hadd (name : String) (how : RefKind) : Takes w (addName file place kind name how)
              (match (w.idAt? file place kind name).bind fun id => some (id, how) with
                | some (id, how) =>
                    w.nameSteps file place.tree.range id [.ref ⟨id, how, file, place.tree.range⟩]
                | none => []) ⟨⟩ := by
            unfold addName
            refine .read_bind ?_
            extract_lets id?
            have hid : id? = w.idAt? file place kind name := rfl
            clear_value id?
            subst hid
            cases w.idAt? file place kind name with
            | none => exact .pure
            | some id => exact .checkExists (takes_addRef _)
          by_cases hliteral : place.tree.kind? = some .literal
          · unfold World.nameAt?
            rw [hliteral]
            dsimp only
            cases place.tree.literalKind? == some .string with
            | true => exact hadd _ _
            | false => exact .pure
          by_cases hname : place.tree.kind? = some .nameRef
          · unfold World.nameAt?
            rw [hname]
            dsimp only
            cases (place.tree.ident?.bind fun ident => w.info.useAt? file (Check.rangeOf ident)).any
                fun s => (w.model.symbol s).kind == .const with
            | true =>
                cases tv.value.bind Constant.text? with
                | none => exact .pure
                | some name => exact hadd _ _
            | false => exact .pure
          rw [World.nameAt?_eq_none hliteral hname]
          split
          · exact (hliteral ‹_›).elim
          · exact (hname ‹_›).elim
          · exact .pure

theorem takes_checkFields {f : SourceFile} : Takes w (checkFields f) (w.fieldStepsOf f) ⟨⟩ := by
  unfold checkFields World.fieldStepsOf
  refine .forIn fun entry _ => .forIn fun spec _ => .forIn fun ident _ => takes_checkField

-- All that the search does.
theorem resolve_eq (w : World) (files : List SourceFile) (report : Report) :
    resolve w files report = (((w.steps files).foldl Step.apply { report }).index,
      ((w.steps files).foldl Step.apply { report }).report) := by
  have hall : Takes w (do
      (files.filter (!·.excluded)).forM checkFields
      for f in files.filter (!·.excluded) do
        f.tree.places.forM (checkExpr f.file)) (w.steps files) ⟨⟩ :=
    .bind (.forM fun f _ => takes_checkFields) (.forIn fun f _ => .forM fun place _ => takes_checkExpr)
  unfold resolve
  dsimp only
  rw [hall]

theorem leads_resolve (w : World) (files : List SourceFile) (report : Report) : ∃ s,
    Leads { report } (w.steps files) s ∧ resolve w files report = (s.index, s.report) :=
  ⟨_, leads_foldl ResourceIndex.faithful_empty _, resolve_eq w files report⟩

end Resource

end SpriteScript
