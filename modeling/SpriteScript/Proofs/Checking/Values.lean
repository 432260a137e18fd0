import SpriteScript.Check.Values
import SpriteScript.Proofs.Checking.Types

-- Values, and the specifications that declare names for them.
namespace SpriteScript.Check

-- The instances for the parts of a long function are found in one search.
set_option synthInstance.maxSize 1000

variable {w : Stage} {file : FileId}

-- The rules may be used on all trees of the program, in the file that the tree belongs to and
-- wherever there is room for it.
class KeepsRules (w : Setting) (r : Rules) : Prop where
  expr : ∀ span base file t expected?, Sits ⟨w, span⟩ file t →
    Keeps ⟨⟨w, span⟩, base⟩ file (r.expr t expected?)
  statement : ∀ span base file t, Sits ⟨w, span⟩ file t → Keeps ⟨⟨w, span⟩, base⟩ file (r.statement t)

section Values

variable {t : Tree} [Sits w file t]

instance (t : Tree) (o : Operand) : Keeps w file (describe t o) := by
  unfold describe
  infer_instance

theorem refuted_valueProblem? {m : Model} {text : String} {o : Operand} {p : Problem}
    (h : valueProblem? m text o = some p) : Refuted p.isOfResource := by
  unfold valueProblem? at h
  split at h
  case h_2 =>
    split at h <;> cases h
    infer_instance
  all_goals cases h
  all_goals infer_instance

instance (o : Operand) : Keeps w file (checkValue t o) := by
  unfold checkValue
  split
  · infer_instance
  · refine .bind inferInstance fun m => ?_
    split
    case h_1 p hp =>
      have := refuted_valueProblem? hp
      infer_instance
    case h_2 => infer_instance

instance (ty : Ty) (value : Option Constant) : Keeps w file (convertedValue ty value) := by
  unfold convertedValue
  refine .bind inferInstance fun kind => ?_
  split <;> infer_instance

instance (t : Tree) (o : Operand) (target : Ty) : Keeps w file (convertRecorded t o target) := by
  unfold convertRecorded
  infer_instance

-- A constant that gets a type changes what is recorded of its own node at most.
theorem recorded_convertRecorded (t : Tree) (o : Operand) (target : Ty) (s : State) :
    ((convertRecorded t o target).run s).2 = s ∨
      ∃ tv, ((convertRecorded t o target).run s).2 =
      { s with info := s.info.recordType s.context.file t tv } := by
  obtain ⟨ty, hty⟩ : ∃ ty, ty = if s.model.isInterface target then o.ty.defaulted else target := ⟨_, rfl⟩
  have hvalue : ∃ value, (convertedValue ty o.value).run s = (value, s) := by
    have hask : (basicOf? ty).run s = (s.model.basicOf? ty, s) := rfl
    rw [convertedValue, StateT.run_bind, hask]
    cases s.model.basicOf? ty with
    | none => exact ⟨_, rfl⟩
    | some kind => exact ⟨_, rfl⟩
  obtain ⟨value, hvalue⟩ := hvalue
  have hrun : (convertRecorded t o target).run s = (if ty.basic? == some .untypedNil then pure o else do
      let value ← convertedValue ty o.value
      recordType t ty value
      pure { o with ty, value } : CheckM Operand).run s := by
    rw [hty]
    rfl
  rw [hrun]
  split
  · exact .inl rfl
  · rw [StateT.run_bind, hvalue]
    exact .inr ⟨⟨ty, value⟩, rfl⟩

instance (o : Operand) (target : Ty) (purpose : String) :
    Keeps w file (assignTo t o target purpose) := by
  unfold assignTo
  infer_instance

instance (o : Operand) : Keeps w file (defaultType t o) := by
  unfold defaultType
  refine .bind inferInstance fun fits => ?_
  split
  · infer_instance
  · split <;> infer_instance

instance (o : Operand) (type? : Option Ty) (isConst : Bool) :
    Keeps w file (initialValue t o type? isConst) := by
  unfold initialValue
  split
  · infer_instance
  · split <;> infer_instance

end Values

section Specifications

variable {r : Rules} [hr : KeepsRules w r]

instance (t : Tree) (expected? : Option Ty) [ht : Sits w file t] :
    Keeps w file (r.expr t expected?) :=
  hr.expr w.span w.base file t expected? ht

instance (t : Tree) [ht : Sits w file t] : Keeps w file (r.statement t) :=
  hr.statement w.span w.base file t ht

-- The body of a new scope is right wherever its tree may stand.
theorem KeepsRules.inScope {α : Type} {kind : ScopeKind} {inclusiveEnd : Bool} {t : Tree} {body : CheckM α}
    [Sits w file t] (h : ∀ w : Stage, KeepsRules w r → Sits w file t → Keeps w file body) :
    Keeps w file (inScope kind t.range inclusiveEnd body) :=
  .inScope (h _ hr .within_range)

instance (spec : Tree) (count : Nat) (isConst : Bool) [hspec : SpecSits w file spec] :
    Keeps w file (specValues r spec count isConst) := by
  unfold specValues
  refine .bind (.optionMapM fun type htype => ?_) fun type? => ?_
  · have := hspec.type type htype
    infer_instance
  · have hvalues := hspec.values
    generalize spec.listed 0 = values at hvalues
    cases values with
    | nil => infer_instance
    | cons value others =>
        have : Sits w file value := hvalues.sits value List.mem_cons_self
        dsimp only
        split
        · refine .mapM fun v hv => ?_
          have : Sits w file v := hvalues.sits v hv
          infer_instance
        · split
          · refine .bind inferInstance fun o => ?_
            split
            · split
              · refine .mapM fun item _ => ?_
                split <;> infer_instance
              · infer_instance
            · infer_instance
          · refine .bind (.forIn fun v hv _ => ?_) fun _ => inferInstance
            have : Sits w file v := hvalues.sits v hv
            infer_instance

instance (isConst : Bool) (id : SymbolId) (ty : Ty) (value : Option Constant) :
    Keeps w file (settle isConst id ty value) := by
  have hsymbol : Keeps w file (modifyModel (·.modifySymbol id fun s =>
      { s with ty, value := if isConst then value else s.value })) :=
    .modifySymbol fun _ => rfl
  unfold settle
  refine .bind inferInstance fun s => ?_
  dsimp only
  split
  · refine .bind (Keeps.modifyNamed fun n hn => ?_) fun _ => hsymbol
    obtain ⟨name, package, underlying, methods, symbol, classKind⟩ := n
    cases underlying with
    | struct fields =>
        intro x hx
        obtain ⟨f, hf, rfl⟩ := List.mem_map.mp hx
        have hname := hn f hf
        split <;> exact hname
    | _ => exact hn
  · exact hsymbol

instance (index : Nat) (progress : Progress) : Keeps w file (setProgress index progress) :=
  .of_sane (fun _ => rfl) (fun _ => rfl) (fun _ => rfl) (fun _ => List.suffix_rfl) fun _ hs =>
    { hs with specs := forall_modify hs.specs fun _ h => h }

-- A specification is looked into in its own file, where there is room for it.
instance (index : Nat) : Keeps w file (resolveSpec r index) := by
  unfold resolveSpec
  refine Keeps.bind_from (P := fun m s => ∀ p ∈ s.specs.toList, p.Waits w m) inferInstance
    (fun s hs => hs.specs) fun m s hspecs => ?_
  dsimp only
  split
  case h_1 pending hpending =>
    obtain ⟨span, hroom, hspec⟩ := hspecs pending (Array.mem_toList_iff.mpr (Array.mem_of_getElem? hpending))
    have hplace := hspec.place
    have hvalues : Keeps { w with base := m } file
        (within pending.context (specValues r pending.spec pending.symbols.length pending.isConst)) :=
      .within hroom inferInstance
    split
    · infer_instance
    · infer_instance
    · refine .bind inferInstance fun _ => .bind hvalues fun values =>
        .bind (.forIn fun entry _ _ => ?_) fun _ => inferInstance
      infer_instance
  case h_2 => infer_instance

instance (id : SymbolId) : Keeps w file (ensureResolved r id) := by
  unfold ensureResolved
  refine .bind inferInstance fun s => ?_
  split <;> infer_instance

end Specifications

end SpriteScript.Check
