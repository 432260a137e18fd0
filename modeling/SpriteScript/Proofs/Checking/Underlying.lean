import SpriteScript.Proofs.Checking.Routine.Declarations

-- What declared types stand for. When a check is over this is known of every type, and it is found
-- in one step.
namespace SpriteScript

-- It is not left to the declaration of another type what a type stands for.
def Underlying.IsFlat (u : Underlying) : Prop := ∀ ty, u = .type ty → ty.named? = none

namespace Model

def Flat (m : Model) : Prop := ∀ id, (m.namedType id).underlying.IsFlat

-- What the type stands for was not found yet.
def Awaits (m : Model) (id : NamedId) : Prop := id.index < m.named.size ∧ (m.namedType id).isPending = true

structure Settled (m : Model) : Prop where
  known : ∀ id, ¬ m.Awaits id
  flat : m.Flat

-- What the table of the declared types says of a type.
def standsFor (m : Model) : Ty → Ty
  | .named id =>
      match (m.namedType id).underlying with
      | .type inner => inner
      | _ => .named id
  | ty => ty

variable {m : Model} {id other : NamedId} {n : NamedType} {f : NamedType → NamedType} {ty : Ty}

theorem standsFor_named {inner : Ty} (h : (m.namedType id).underlying = .type inner) :
    m.standsFor (.named id) = inner := by
  simp only [standsFor, h]

theorem standsFor_of_not_named (h : ty.named? = none) : m.standsFor ty = ty := by
  cases ty with
  | named => cases h
  | _ => rfl

theorem go_of_not_named (h : ty.named? = none) (fuel : Nat) : underlying.go m (fuel + 1) ty = ty := by
  cases ty with
  | named => cases h
  | _ => rfl

-- Following declarations ends after one step.
theorem go_of_flat (h : m.Flat) (fuel : Nat) (ty : Ty) : underlying.go m (fuel + 2) ty = m.standsFor ty := by
  cases ty with
  | named id =>
      unfold underlying.go
      split
      case h_1 inner hinner => rw [standsFor_named hinner, go_of_not_named (h id inner hinner)]
      case h_2 hother => simp only [standsFor]
  | _ => rfl

theorem underlying_of_flat (h : m.Flat) (ty : Ty) : m.underlying ty = m.standsFor ty := m.go_of_flat h 14 ty

theorem standsFor_standsFor (h : m.Flat) (ty : Ty) : m.standsFor (m.standsFor ty) = m.standsFor ty := by
  cases ty with
  | named id =>
      cases hid : (m.namedType id).underlying with
      | type inner => rw [standsFor_named hid, standsFor_of_not_named (h id inner hid)]
      | _ => simp only [standsFor, hid]
  | _ => rfl

theorem awaits_of_named {m' : Model} (h : m'.named = m.named) : m'.Awaits id ↔ m.Awaits id := by
  unfold Awaits namedType
  rw [h]

theorem flat_of_named {m' : Model} (h : m'.named = m.named) (hm : m.Flat) : m'.Flat := by
  unfold Flat namedType
  rw [h]
  exact hm

theorem named_addScope (m : Model) (x : Scope) : (m.addScope x).2.named = m.named := by
  unfold addScope
  dsimp only
  split <;> rfl

theorem namedType_addNamed_of_ne (m : Model) (n : NamedType) (h : other ≠ ⟨m.named.size⟩) :
    (m.addNamed n).2.namedType other = m.namedType other := by
  have hne : other.index ≠ m.named.size := fun heq => h (congrArg NamedId.mk heq)
  change (m.named.push n)[other.index]?.getD default = _
  rw [Array.getElem?_push, if_neg hne]
  rfl

theorem namedType_addNamed (m : Model) (n : NamedType) : (m.addNamed n).2.namedType ⟨m.named.size⟩ = n := by
  change (m.named.push n)[m.named.size]?.getD default = _
  rw [Array.getElem?_push_size, Option.getD_some]

theorem awaits_addNamed (h : (m.addNamed n).2.Awaits other) : m.Awaits other ∨ other = ⟨m.named.size⟩ := by
  by_cases hother : other = ⟨m.named.size⟩
  · exact .inr hother
  · obtain ⟨hlt, hpending⟩ := h
    rw [m.namedType_addNamed_of_ne n hother] at hpending
    have hlt : other.index < (m.named.push n).size := hlt
    rw [Array.size_push] at hlt
    refine .inl ⟨lt_of_le_of_ne (Nat.le_of_lt_succ hlt) fun heq => hother (congrArg NamedId.mk heq), hpending⟩

theorem flat_addNamed (h : m.Flat) (hn : n.underlying.IsFlat) : (m.addNamed n).2.Flat := by
  intro other
  by_cases hother : other = ⟨m.named.size⟩
  · rw [hother, namedType_addNamed]
    exact hn
  · rw [m.namedType_addNamed_of_ne n hother]
    exact h other

theorem size_modifyNamed (m : Model) (id : NamedId) (f : NamedType → NamedType) :
    (m.modifyNamed id f).named.size = m.named.size := Array.size_modify ..

-- What the changed type stands for is known.
theorem not_awaits_modifyNamed (hf : ∀ n, (f n).isPending = false) : ¬ (m.modifyNamed id f).Awaits id := by
  rintro ⟨hlt, hpending⟩
  rw [m.namedType_modifyNamed f (hlt.trans_eq (m.size_modifyNamed id f)), hf] at hpending
  cases hpending

theorem awaits_modifyNamed (hf : ∀ n, (f n).isPending = true → n.isPending = true)
    (h : (m.modifyNamed id f).Awaits other) : m.Awaits other := by
  obtain ⟨hlt, hpending⟩ := h
  rw [size_modifyNamed] at hlt
  refine ⟨hlt, ?_⟩
  by_cases hother : other = id
  · subst hother
    rw [m.namedType_modifyNamed f hlt] at hpending
    exact hf _ hpending
  · rwa [m.namedType_modifyNamed_of_ne f hother] at hpending

theorem flat_modifyNamed (h : m.Flat) (hf : ∀ n, n.underlying.IsFlat → (f n).underlying.IsFlat) :
    (m.modifyNamed id f).Flat := by
  intro other
  by_cases hother : other = id
  · subst hother
    by_cases hlt : other.index < m.named.size
    · rw [m.namedType_modifyNamed f hlt]
      exact hf _ (h other)
    · have hnone : (m.modifyNamed other f).named[other.index]? = none :=
        Array.getElem?_eq_none ((m.size_modifyNamed other f).trans_le (Nat.le_of_not_lt hlt))
      rw [namedType, hnone]
      rintro _ ⟨⟩
  · rw [m.namedType_modifyNamed_of_ne f hother]
    exact h other

end Model

theorem Underlying.isFlat_of_isComposite {u : Underlying} (h : u.isComposite = true) : u.IsFlat := by
  rintro ty rfl
  cases h

theorem NamedType.isPending_eq_of_isComposite {n : NamedType} (h : n.underlying.isComposite = true) :
    n.isPending = false := by
  unfold isPending
  cases hn : n.underlying with
  | pending =>
      rw [hn] at h
      cases h
  | _ => rfl

namespace Check

def State.Declares (s : State) (id : NamedId) : Prop := ∃ d ∈ s.typeDecls, d.1 = id

-- No type is awaited anew, and all types stay flat.
structure Flattening (s s' : State) : Prop where
  typeDecls : s'.typeDecls = s.typeDecls
  size : s.model.named.size ≤ s'.model.named.size
  awaits : ∀ id, s'.model.Awaits id → s.model.Awaits id
  flat : s.model.Flat → s'.model.Flat

-- The same while types are declared: a type that is awaited anew has a declaration.
structure Owning (s s' : State) : Prop where
  declares : ∀ id, s.Declares id → s'.Declares id
  awaits : ∀ id, s'.model.Awaits id → s'.Declares id ∨ s.model.Awaits id
  flat : s.model.Flat → s'.model.Flat

instance : IsPreorder State Flattening where
  refl _ := ⟨rfl, le_rfl, fun _ h => h, fun h => h⟩
  trans _ _ _ h h' := ⟨h'.typeDecls.trans h.typeDecls, h.size.trans h'.size,
    fun id hid => h.awaits id (h'.awaits id hid), fun hs => h'.flat (h.flat hs)⟩

instance : IsPreorder State Owning where
  refl _ := ⟨fun _ h => h, fun _ h => .inr h, fun h => h⟩
  trans _ _ _ h h' := ⟨fun id hid => h'.declares id (h.declares id hid),
    fun id hid => (h'.awaits id hid).elim .inl fun hmid => (h.awaits id hmid).imp_left (h'.declares id),
    fun hs => h'.flat (h.flat hs)⟩

variable {s s' : State} {id : NamedId} {fuel : Nat} {pending : PendingDecl}

theorem Flattening.owning (h : Flattening s s') : Owning s s' where
  declares id := by
    unfold State.Declares
    rw [h.typeDecls]
    exact fun hid => hid
  awaits id hid := .inr (h.awaits id hid)
  flat := h.flat

theorem flattening_of_named (hdecls : s'.typeDecls = s.typeDecls) (hnamed : s'.model.named = s.model.named) :
    Flattening s s' :=
  ⟨hdecls, hnamed ▸ le_rfl, fun _ => (Model.awaits_of_named hnamed).mp, Model.flat_of_named hnamed⟩

theorem owning_of_named (hdecls : s'.typeDecls = s.typeDecls)
    (hnamed : s'.model.named = s.model.named) : Owning s s' :=
  (flattening_of_named hdecls hnamed).owning

theorem flattening_modifyNamed (s : State) (id : NamedId) {f : NamedType → NamedType}
    (hpending : ∀ n, (f n).isPending = true → n.isPending = true)
    (hflat : ∀ n, n.underlying.IsFlat → (f n).underlying.IsFlat) :
    Flattening s { s with model := s.model.modifyNamed id f } :=
  ⟨rfl, (s.model.size_modifyNamed id f).ge, fun _ => Model.awaits_modifyNamed hpending,
    fun hs => Model.flat_modifyNamed hs hflat⟩

section Routine

theorem isPending_of_underlying {n n' : NamedType}
    (h : n'.underlying = n.underlying ∨ n'.underlying.isComposite = true)
    (hpending : n'.isPending = true) : n.isPending = true := by
  rcases h with h | h
  · rwa [NamedType.isPending, h] at hpending
  · rw [NamedType.isPending_eq_of_isComposite h] at hpending
    cases hpending

theorem isFlat_of_underlying {n n' : NamedType}
    (h : n'.underlying = n.underlying ∨ n'.underlying.isComposite = true)
    (hflat : n.underlying.IsFlat) : n'.underlying.IsFlat := by
  rcases h with h | h
  · exact h ▸ hflat
  · exact Underlying.isFlat_of_isComposite h

-- A composite type is awaited until it is filled in.
theorem awaits_composite {underlying : Underlying} {other : NamedId}
    (hcomposite : underlying.isComposite = true)
    (h : (s.model.modifyNamed id fun n => { n with underlying }).Awaits other) :
    other ≠ id ∧ s.model.Awaits other := by
  have hknown (n : NamedType) : ({ n with underlying } : NamedType).isPending = false :=
    NamedType.isPending_eq_of_isComposite hcomposite
  refine ⟨?_, Model.awaits_modifyNamed (fun n hn => ?_) h⟩
  · rintro rfl
    exact Model.not_awaits_modifyNamed hknown h
  · rw [hknown] at hn
    cases hn

instance : Routine Flattening where
  context _ _ := flattening_of_named rfl rfl
  info _ _ := flattening_of_named rfl rfl
  problem _ _ _ _ _ := flattening_of_named rfl rfl
  symbol _ _ _ := flattening_of_named rfl rfl
  crashed _ := flattening_of_named rfl rfl
  addScope s x := flattening_of_named rfl (s.model.named_addScope x)
  declare _ _ _ _ := flattening_of_named rfl rfl
  composite x body hx hbody hcomposite := by
    refine ⟨fun s => ?_⟩
    have hinner := (hbody ⟨s.model.named.size⟩).run ((addNamed x).run s).2
    have hsize : s.model.named.size ≤ (s.model.addNamed x).2.named.size := Array.size_push _ ▸ Nat.le_succ _
    refine ⟨hinner.typeDecls, (hsize.trans hinner.size).trans_eq (Model.size_modifyNamed ..).symm,
      fun other hother => ?_, fun hs => ?_⟩
    · obtain ⟨hne, hother⟩ := awaits_composite (hcomposite _ _) hother
      exact (Model.awaits_addNamed (hinner.awaits other hother)).resolve_right hne
    · exact Model.flat_modifyNamed (hinner.flat (Model.flat_addNamed hs (hx ▸ nofun))) fun _ _ =>
        Underlying.isFlat_of_isComposite (hcomposite _ _)

theorem flattening_addNamed {n : NamedType} (s : State) (hn : n.underlying.isComposite = true) :
    Flattening s { s with model := (s.model.addNamed n).2 } := by
  refine ⟨rfl, Array.size_push _ ▸ Nat.le_succ _,
    fun other hother => (Model.awaits_addNamed hother).resolve_right ?_, fun hs => ?_⟩
  · rintro rfl
    have hpending := hother.2
    rw [Model.namedType_addNamed, NamedType.isPending_eq_of_isComposite hn] at hpending
    cases hpending
  · exact Model.flat_addNamed hs (Underlying.isFlat_of_isComposite hn)

instance : DeclaresTypes Owning where
  context _ _ := owning_of_named rfl rfl
  info _ _ := owning_of_named rfl rfl
  problem _ _ _ _ _ := owning_of_named rfl rfl
  symbol _ _ _ := owning_of_named rfl rfl
  crashed _ := owning_of_named rfl rfl
  addScope s x := owning_of_named rfl (s.model.named_addScope x)
  declare _ _ _ _ := owning_of_named rfl rfl
  composite x body hx hbody hcomposite := by
    refine ⟨fun s => ?_⟩
    have hinner := (hbody ⟨s.model.named.size⟩).run ((addNamed x).run s).2
    refine ⟨hinner.declares, fun other hother => ?_, fun hs => ?_⟩
    · obtain ⟨hne, hother⟩ := awaits_composite (hcomposite _ _) hother
      exact (hinner.awaits other hother).imp_right fun hmid => (Model.awaits_addNamed hmid).resolve_right hne
    · exact Model.flat_modifyNamed (hinner.flat (Model.flat_addNamed hs (hx ▸ nofun))) fun _ _ =>
        Underlying.isFlat_of_isComposite (hcomposite _ _)
  scopes _ _ _ hnamed := owning_of_named rfl hnamed
  modifyNamed s id _ hf :=
    (flattening_modifyNamed s id (fun n => isPending_of_underlying ((hf n).imp_right And.right))
      fun n => isFlat_of_underlying ((hf n).imp_right And.right)).owning
  unnamed _ _ _ := owning_of_named rfl rfl
  openClass n x source hn := by
    have hname (id : NamedId) (symbol : SymbolId) :
        Runs Flattening (modifyModel (·.modifyNamed id fun n => { n with symbol := some symbol })) :=
      ⟨fun s => flattening_modifyNamed s id (fun _ hn => hn) fun _ hn => hn⟩
    have hsymbol (x : Symbol) : Runs Flattening (addSymbol x) := ⟨fun _ => flattening_of_named rfl rfl⟩
    have hclass : Runs Flattening (addType n x) := by
      unfold addType
      exact .bind ⟨fun s => flattening_addNamed s hn⟩ fun id => inferInstance
    have hnote (id : NamedId) : Runs Owning (modify fun s => { s with
        classes := s.classes ++ [(source.file, id)]
        gameClass := if source.isEntry then some id else s.gameClass } : CheckM Unit) :=
      ⟨fun s => owning_of_named rfl rfl⟩
    unfold openClass
    exact .bind ⟨fun s => (hclass.run s).owning⟩ fun added => inferInstance
  aliases _ _ := owning_of_named rfl rfl
  openType n x pending hn := by
    refine ⟨fun s =>
      ⟨fun id ⟨d, hd, hid⟩ => ⟨d, List.mem_cons_of_mem _ hd, hid⟩, fun other hother => ?_, fun hs => ?_⟩⟩
    · have hadded : (s.model.addNamed n).2.Awaits other :=
        Model.awaits_modifyNamed (f := fun n => { n with symbol := some ⟨s.model.symbols.size⟩ })
          (fun _ hn => hn) hother
      rcases Model.awaits_addNamed hadded with hold | rfl
      · exact .inr hold
      · exact .inl ⟨_, List.mem_cons_self, rfl⟩
    · exact Model.flat_modifyNamed (Model.flat_addNamed hs (hn ▸ nofun)) fun _ hn => hn

instance : DeclaresFuncs Owning where
  funcs _ _ := owning_of_named rfl rfl

instance : DeclaresSpecs Owning where
  pushSpec _ _ _ _ _ := owning_of_named rfl rfl

instance {fileClass : Option NamedId} : Fills Owning fileClass where
  fill owner _ s _ hf := (flattening_modifyNamed s owner (fun n => isPending_of_underlying (.inr (hf n)))
    fun n => isFlat_of_underlying (.inr (hf n))).owning

end Routine

section Specifications

instance {index : Nat} {progress : Progress} : Runs Flattening (setProgress index progress) :=
  ⟨fun _ => flattening_of_named rfl rfl⟩

instance {id : SymbolId} {f : Symbol → Symbol} : Runs Flattening (modifyModel (·.modifySymbol id f)) :=
  ⟨fun _ => flattening_of_named rfl rfl⟩

instance {isConst : Bool} {id : SymbolId} {ty : Ty} {value : Option Constant} :
    Runs Flattening (settle isConst id ty value) := by
  have hfield (owner : NamedId) : Runs Flattening (modifyModel (·.modifyNamed owner fun n =>
      match n.underlying with
      | .struct fields =>
          { n with underlying := .struct (fields.map fun f => if f.symbol == id then { f with ty } else f) }
      | _ => n)) := by
    refine ⟨fun s => flattening_modifyNamed s owner (fun n => isPending_of_underlying ?_) fun n =>
      isFlat_of_underlying ?_⟩
    all_goals
      split
      · exact .inr rfl
      · exact .inl rfl
  unfold settle
  refine .bind inferInstance fun s => ?_
  dsimp only
  split <;> infer_instance

instance : Resolves Flattening :=
  .of_moves (fun _ _ _ => ⟨fun _ => flattening_of_named rfl rfl⟩)
    (fun _ _ => inferInstance) fun _ _ _ _ => inferInstance

end Specifications

section Resolving

-- What a declared type stands for, by its declaration.
def lookInto (fuel : Nat) (id : NamedId) (pending : PendingDecl) : CheckM Underlying := do
  match pending.decl.type? with
  | some t =>
      match t.kind? with
      | some .structType => return .struct (← structFields typeOf t id)
      | some .interfaceType => return .interface (← interfaceMethods typeOf t id)
      | _ =>
          let ty ← typeOf t
          if let some other := ty.named? then
            resolveNamed fuel other
          return underlyingOf (← model) ty
  | none => return .type .invalid

def closeType (id : NamedId) (underlying : Underlying) : CheckM Unit := do
  modify fun s => { s with resolving := s.resolving.erase id }
  if (← namedType id).isPending then
    modifyModel (·.modifyNamed id fun n => { n with underlying })

-- A type that stands for itself.
def reportRecursion (id : NamedId) (name : String) (pending : PendingDecl) : CheckM Unit := do
  let range := (pending.decl.name?.map Tree.range).getD pending.decl.range
  problemIn pending.context.file range (.recursiveType name)
  modifyModel (·.modifyNamed id fun n => { n with underlying := .type .invalid })

theorem resolveNamed_succ (fuel : Nat) (id : NamedId) : resolveNamed (fuel + 1) id = (do
    let named ← namedType id
    if !named.isPending then
      return
    let some (_, pending) := (← get).typeDecls.find? (·.1 == id) | return
    if (← get).resolving.contains id then
      reportRecursion id named.name pending
    else
      modify fun s => { s with resolving := id :: s.resolving }
      let underlying ← within pending.context (lookInto fuel id pending)
      closeType id underlying) := rfl

-- A type is looked into if it is awaited, its declaration is there, and it is not being looked into already.
theorem resolveNamed_cases (fuel : Nat) (id : NamedId) (s : State) :
    ((s.model.namedType id).isPending = false ∨ s.typeDecls.find? (·.1 == id) = none) ∧
      (resolveNamed (fuel + 1) id).run s = (⟨⟩, s) ∨
    ∃ found, (s.model.namedType id).isPending = true ∧ s.typeDecls.find? (·.1 == id) = some found ∧
      (id ∈ s.resolving ∧ (resolveNamed (fuel + 1) id).run s =
          (reportRecursion id (s.model.namedType id).name found.2).run s ∨
        id ∉ s.resolving ∧ (resolveNamed (fuel + 1) id).run s =
          (within found.2.context (lookInto fuel id found.2) >>= closeType id).run
          { s with resolving := id :: s.resolving }) := by
  obtain ⟨r, hr⟩ : ∃ r, r = (resolveNamed (fuel + 1) id).run s := ⟨_, rfl⟩
  rw [← hr]
  rw [resolveNamed_succ] at hr
  change r = StateT.run (ite ((!(s.model.namedType id).isPending) = true) _ _) s at hr
  cases hpending : (s.model.namedType id).isPending with
  | false =>
      rw [hpending] at hr
      exact .inl ⟨.inl rfl, hr⟩
  | true =>
      rw [hpending, if_neg (by simp), run_get_bind] at hr
      cases hfound : s.typeDecls.find? (·.1 == id) with
      | none =>
          rw [hfound] at hr
          exact .inl ⟨.inr rfl, hr⟩
      | some found =>
          rw [hfound] at hr
          dsimp only at hr
          rw [run_get_bind] at hr
          refine .inr ⟨found, rfl, rfl, ?_⟩
          by_cases hentered : id ∈ s.resolving
          · rw [if_pos (List.contains_iff_mem.mpr hentered)] at hr
            exact .inl ⟨hentered, hr⟩
          · rw [if_neg (mt List.contains_iff_mem.mp hentered)] at hr
            exact .inr ⟨hentered, hr⟩

theorem Runs.lookInto {R : State → State → Prop} [TypeRoutine R]
    (h : ∀ other, Runs R (resolveNamed fuel other)) : Runs R (lookInto fuel id pending) := by
  unfold Check.lookInto
  split
  · split
    · infer_instance
    · infer_instance
    · refine .bind inferInstance fun ty => ?_
      split <;> infer_instance
  · infer_instance

theorem Runs.resolveNamed {R : State → State → Prop} [TypeRoutine R]
    (hresolving : ∀ s resolving, R s { s with resolving })
    (hreport : ∀ id name pending, Runs R (reportRecursion id name pending))
    (hclose : ∀ id u, Runs R (closeType id u)) : Runs R (resolveNamed fuel id) := by
  induction fuel generalizing id with
  | zero =>
      unfold Check.resolveNamed
      infer_instance
  | succ fuel ih =>
      refine ⟨fun s => ?_⟩
      rcases resolveNamed_cases fuel id s with ⟨-, hrun⟩ | ⟨found, -, -, ⟨-, hrun⟩ | ⟨-, hrun⟩⟩
      · rw [hrun]
        exact refl_of R s
      · rw [hrun]
        exact (hreport _ _ _).run s
      · have hlook : Runs R (within found.2.context (Check.lookInto fuel id found.2)) :=
          .withinContext (.lookInto fun _ => ih)
        have hall : Runs R (within found.2.context (Check.lookInto fuel id found.2) >>= closeType id) :=
          .bind hlook (hclose id)
        rw [hrun]
        exact trans_of R (hresolving s _) (hall.run _)

theorem underlyingOf_ne_pending (m : Model) (ty : Ty) : underlyingOf m ty ≠ .pending := by
  unfold underlyingOf
  split
  · split
    · rintro ⟨⟩
    · assumption
  · rintro ⟨⟩

theorem isFlat_underlyingOf {m : Model} (h : m.Flat) (ty : Ty) : (underlyingOf m ty).IsFlat := by
  unfold underlyingOf
  split
  case h_1 other =>
    split
    · rintro _ ⟨⟩
      rfl
    · exact h other
  case h_2 hother =>
    rintro _ ⟨⟩
    cases ty with
    | named other => exact (hother other rfl).elim
    | _ => rfl

-- The action finds what a type stands for, and no other declared type.
def Concludes (a : CheckM Underlying) : Prop :=
  ∀ s, (a.run s).1 ≠ .pending ∧ ((a.run s).2.model.Flat → (a.run s).1.IsFlat)

theorem Concludes.bind {α : Type} {a : CheckM α} {f : α → CheckM Underlying} (h : ∀ x, Concludes (f x)) :
    Concludes (a >>= f) := fun _ => h _ _

theorem Concludes.within {c : Context} {a : CheckM Underlying} (h : Concludes a) : Concludes (within c a) :=
  fun s => h { s with context := c }

theorem concludes_pure {u : Underlying} (h : u ≠ .pending) (hflat : u.IsFlat) : Concludes (pure u) :=
  fun _ => ⟨h, fun _ => hflat⟩

theorem concludes_lookInto (fuel : Nat) (id : NamedId) (pending : PendingDecl) :
    Concludes (lookInto fuel id pending) := by
  have hask (ty : Ty) : Concludes (do return underlyingOf (← model) ty) :=
    fun s => ⟨underlyingOf_ne_pending s.model ty, fun h => isFlat_underlyingOf h ty⟩
  unfold lookInto
  split
  · split
    · exact .bind fun fields => concludes_pure (by rintro ⟨⟩) (by rintro _ ⟨⟩)
    · exact .bind fun methods => concludes_pure (by rintro ⟨⟩) (by rintro _ ⟨⟩)
    · refine .bind fun ty => ?_
      split
      · exact .bind fun _ => hask ty
      · exact hask ty
  · refine concludes_pure (by rintro ⟨⟩) ?_
    rintro _ ⟨⟩
    rfl

theorem isPending_with {u : Underlying} (h : u ≠ .pending) (n : NamedType) :
    ({ n with underlying := u } : NamedType).isPending = false := by
  unfold NamedType.isPending
  cases u with
  | pending => exact absurd rfl h
  | _ => rfl

theorem run_closeType (id : NamedId) (u : Underlying) (s : State) : ((closeType id u).run s).2 = { s with
    resolving := s.resolving.erase id
    model := if (s.model.namedType id).isPending then s.model.modifyNamed id
      fun n => { n with underlying := u } else s.model } := by
  change (StateT.run (ite ((s.model.namedType id).isPending = true) (modifyModel _) (pure ⟨⟩) :
    CheckM Unit) _).2 = _
  split <;> rfl

theorem flattening_closeType (s : State) {u : Underlying} (hfinal : u ≠ .pending)
    (hflat : s.model.Flat → u.IsFlat) : Flattening s ((closeType id u).run s).2 := by
  rw [run_closeType]
  split
  · refine ⟨rfl, (Model.size_modifyNamed ..).ge, fun other => Model.awaits_modifyNamed fun n hn => ?_,
      fun hs => Model.flat_modifyNamed hs fun _ _ => hflat hs⟩
    rw [isPending_with hfinal] at hn
    cases hn
  · exact flattening_of_named rfl rfl

instance {name : String} : Runs Flattening (reportRecursion id name pending) := by
  unfold reportRecursion
  refine .bind ⟨fun _ => flattening_of_named rfl rfl⟩ fun _ =>
    ⟨fun s => flattening_modifyNamed s id (f := fun n => { n with underlying := .type .invalid })
      (fun _ hn => nomatch hn) ?_⟩
  rintro _ - _ ⟨⟩
  rfl

instance : Runs Flattening (resolveNamed fuel id) := by
  induction fuel generalizing id with
  | zero =>
      unfold resolveNamed
      infer_instance
  | succ fuel ih =>
      refine ⟨fun s => ?_⟩
      rcases resolveNamed_cases fuel id s with ⟨-, hrun⟩ | ⟨found, hpending, hfound, ⟨-, hrun⟩ | ⟨-, hrun⟩⟩
      · rw [hrun]
        exact refl_of Flattening s
      · rw [hrun]
        exact Runs.run s
      · rw [hrun]
        obtain ⟨entered, hentered⟩ :
            ∃ entered : State, entered = { s with resolving := id :: s.resolving } := ⟨_, rfl⟩
        have hstart : Flattening s entered := by
          rw [hentered]
          exact flattening_of_named rfl rfl
        have hlook : Runs Flattening (within found.2.context (lookInto fuel id found.2)) :=
          .withinContext (.lookInto fun _ => ih)
        obtain ⟨hfinal, hflat⟩ := (concludes_lookInto fuel id found.2).within (c := found.2.context) entered
        rw [← hentered, StateT.run_bind]
        exact trans_of Flattening (trans_of Flattening hstart (hlook.run entered))
          (flattening_closeType _ hfinal hflat)

theorem State.Declares.find?_ne_none (h : s.Declares id) : s.typeDecls.find? (·.1 == id) ≠ none := by
  obtain ⟨d, hd, hid⟩ := h
  intro hnone
  exact List.find?_eq_none.mp hnone d hd (beq_iff_eq.mpr hid)

-- A declared type that is looked into is not awaited any more, however it comes out.
theorem not_awaits_resolveNamed (h : s.Declares id) (fuel : Nat) :
    ¬ ((resolveNamed (fuel + 1) id).run s).2.model.Awaits id := by
  rcases resolveNamed_cases fuel id s with ⟨hknown | hnone, hrun⟩ | ⟨found, -, -, ⟨-, hrun⟩ | ⟨-, hrun⟩⟩
  · rw [hrun]
    rintro ⟨-, hpending⟩
    exact Bool.false_ne_true (hknown.symm.trans hpending)
  · exact absurd hnone h.find?_ne_none
  · rw [hrun]
    exact Model.not_awaits_modifyNamed (f := fun n => { n with underlying := .type .invalid }) fun _ => rfl
  · obtain ⟨hfinal, -⟩ := (concludes_lookInto fuel id found.2).within (c := found.2.context)
      { s with resolving := id :: s.resolving }
    rw [hrun, StateT.run_bind]
    change ¬ ((closeType id _).run _).2.model.Awaits id
    rw [run_closeType]
    split
    case isTrue => exact Model.not_awaits_modifyNamed (isPending_with hfinal)
    case isFalse hknown => exact fun hawaits => hknown hawaits.2

instance : Runs Flattening resolveTypes := .resolveTypes fun _ _ => inferInstance

-- No declared type is awaited when all declarations were looked into.
theorem not_awaits_resolveTypes (h : s.Declares id) : ¬ (resolveTypes.run s).2.model.Awaits id := by
  obtain ⟨d, hd, rfl⟩ := h
  obtain ⟨s', hbefore, hbehind⟩ := exists_run_forM (R := Flattening)
    (f := fun (d : NamedId × PendingDecl) => resolveNamed (s.typeDecls.reverse.length + 1) d.1)
    (fun _ _ => inferInstance) (List.mem_reverse.mpr hd) s
  have hdeclares : s'.Declares d.1 := ⟨d, hbefore.typeDecls ▸ hd, rfl⟩
  exact mt (hbehind.awaits d.1) (not_awaits_resolveNamed hdeclares _)

instance {r : Rules} [RunsRules Flattening r] : Runs Flattening (resolveOthers r) :=
  .resolveOthers (fun _ _ => flattening_of_named rfl rfl) (fun _ _ => flattening_of_named rfl rfl)
    fun _ _ _ => flattening_of_named rfl rfl

end Resolving

section Whole

theorem Flattening.settled (h : Flattening s s') (hs : s.model.Settled) : s'.model.Settled :=
  ⟨fun id hid => hs.known id (h.awaits id hid), h.flat hs.flat⟩

-- All declared types are settled when the declarations were resolved.
theorem settled_resolve {declare : CheckM Unit} [hdeclare : Runs Owning declare] {r : Rules}
    [RunsRules Flattening r]
    (hs : s.model.Settled) : ((do declare; resolveDeclarations r : CheckM Unit).run s).2.model.Settled := by
  have htypes : Runs Flattening resolveTypes := inferInstance
  have hothers : Runs Flattening (resolveOthers r) := inferInstance
  obtain ⟨s', hs'⟩ : ∃ s', s' = (declare.run s).2 := ⟨_, rfl⟩
  have hstart : Owning s s' := hs' ▸ hdeclare.run s
  have hdeclared (id : NamedId) (hid : s'.model.Awaits id) : s'.Declares id :=
    (hstart.awaits id hid).resolve_right (hs.known id)
  rw [StateT.run_bind, resolveDeclarations_eq]
  change ((resolveOthers r).run (resolveTypes.run (declare.run s).2).2).2.model.Settled
  rw [← hs']
  refine (hothers.run (resolveTypes.run s').2).settled ⟨fun id hid => ?_, ?_⟩
  · exact not_awaits_resolveTypes (hdeclared id ((htypes.run s').awaits id hid)) hid
  · exact (htypes.run s').flat (hstart.flat hs.flat)

theorem settled_prelude : prelude.model.Settled := by
  obtain ⟨s, hs, hprelude⟩ := exists_bundled
  obtain ⟨start, hstart⟩ : ∃ start : State, start = {} := ⟨_, rfl⟩
  have hempty : start.model.Settled := by
    rw [hstart]
    exact ⟨fun id hid => absurd hid.1 (Nat.not_lt_zero _), fun id => nofun⟩
  rw [hprelude]
  change s.model.Settled
  rw [bundle_eq, ← hstart] at hs
  rw [← hs]
  exact settled_resolve hempty

-- In a checked program it is known of every type what it stands for, and it is no other declared type.
theorem settled_checkProgram (package : String) (sources : List Source) :
    (checkProgram package sources).model.Settled := by
  obtain ⟨s, hs, hchecked⟩ := exists_checked package sources
  have hbodies : Runs Flattening (checkSources (rulesFor (sources.map (·.tree))) package sources) :=
    inferInstance
  have hprelude := settled_prelude
  rw [hchecked]
  change s.model.Settled
  generalize prelude = start at hs hprelude
  rw [checkWhole, ← bind_assoc, StateT.run_bind] at hs
  rw [← hs]
  exact (hbodies.run _).settled (settled_resolve hprelude)

end Whole

end Check

end SpriteScript
