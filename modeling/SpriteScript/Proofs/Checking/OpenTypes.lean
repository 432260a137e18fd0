import SpriteScript.Proofs.Checking.Silence
import SpriteScript.Proofs.Checking.TypeNames

-- Most of a check adds to what is there, and leaves open types open.
namespace SpriteScript.Check

-- New types have new names.
structure Unmoved (s s' : State) : Prop where
  typeDecls : s'.typeDecls = s.typeDecls
  resolving : s'.resolving = s.resolving
  size : s.model.named.size ≤ s'.model.named.size
  names : ∀ x id, id.index < s.model.named.size → (s'.model.NamesType x id ↔ s.model.NamesType x id)

-- Nothing changes about the types that are there either, apart from the class of a file, which may
-- be filled, and no type is found to stand for itself.
structure Adding (fileClass : Option NamedId) (s s' : State) : Prop extends Unmoved s s' where
  pending : ∀ id, id.index < s.model.named.size → fileClass ≠ some id →
    (s'.model.namedType id).isPending = (s.model.namedType id).isPending
  classes : ∀ c ∈ s'.classes, c ∈ s.classes ∨ s.model.named.size ≤ c.2.index ∧ c.2.index < s'.model.named.size
  silent : Unreported Problem.IsRecursion s s'

variable {fileClass : Option NamedId} {s s' : State}

instance : IsPreorder State Unmoved where
  refl _ := ⟨rfl, rfl, le_rfl, fun _ _ _ => .rfl⟩
  trans _ _ _ h h' := ⟨h'.typeDecls.trans h.typeDecls, h'.resolving.trans h.resolving, h.size.trans h'.size,
    fun x id hid => (h'.names x id (hid.trans_le h.size)).trans (h.names x id hid)⟩

instance : IsPreorder State (Adding fileClass) where
  refl s := ⟨refl_of Unmoved s, fun _ _ _ => rfl, fun _ h => .inl h, refl_of (Unreported _) s⟩
  trans _ _ _ h h' := by
    refine ⟨trans_of Unmoved h.toUnmoved h'.toUnmoved, fun id hid hne => ?_,
      fun c hc => ?_, trans_of (Unreported _) h.silent h'.silent⟩
    · rw [h'.pending id (hid.trans_le h.size) hne, h.pending id hid hne]
    · rcases h'.classes c hc with hmid | ⟨hle, hlt⟩
      · exact (h.classes c hmid).imp_right fun hnew => ⟨hnew.1, hnew.2.trans_le h'.size⟩
      · exact .inr ⟨h.size.trans hle, hlt⟩

theorem unmoved_of_eq (hsymbols : s'.model.symbols = s.model.symbols)
    (hsize : s.model.named.size ≤ s'.model.named.size) (hdecls : s'.typeDecls = s.typeDecls)
    (hresolving : s'.resolving = s.resolving) : Unmoved s s' :=
  ⟨hdecls, hresolving, hsize, fun _ _ _ => Model.namesType_congr hsymbols⟩

theorem adding_of_eq (hsymbols : s'.model.symbols = s.model.symbols) (hnamed : s'.model.named = s.model.named)
    (hdecls : s'.typeDecls = s.typeDecls) (hresolving : s'.resolving = s.resolving)
    (hclasses : s'.classes = s.classes) (hproblems : s'.problems = s.problems) :
    Adding fileClass s s' where
  toUnmoved := unmoved_of_eq hsymbols (hnamed ▸ le_rfl) hdecls hresolving
  pending id _ _ := by rw [Model.namedType, Model.namedType, hnamed]
  classes c hc := .inl (hclasses ▸ hc)
  silent := unreported_of_problems hproblems

theorem unmoved_addSymbol (s : State) {x : Symbol} (hx : x.kind.isTypeName = false ∨ x.ty.named? = none) :
    Unmoved s { s with model := (s.model.addSymbol x).2 } :=
  ⟨rfl, rfl, le_rfl, fun _ _ _ => Model.namesType_addSymbol hx⟩

theorem adding_addSymbol (s : State) {x : Symbol} (hx : x.kind.isTypeName = false ∨ x.ty.named? = none) :
    Adding fileClass s { s with model := (s.model.addSymbol x).2 } :=
  ⟨unmoved_addSymbol s hx, fun _ _ _ => rfl, fun _ h => .inl h, unreported_of_problems rfl⟩

theorem unmoved_modifyNamed (s : State) (id : NamedId) (f : NamedType → NamedType) :
    Unmoved s { s with model := s.model.modifyNamed id f } :=
  unmoved_of_eq rfl (s.model.size_modifyNamed id f).ge rfl rfl

theorem adding_modifyNamed (s : State) {id : NamedId} {f : NamedType → NamedType}
    (hf : fileClass = some id ∨ ∀ n, (f n).isPending = n.isPending) :
    Adding fileClass s { s with model := s.model.modifyNamed id f } := by
  refine ⟨unmoved_modifyNamed s id f, fun other hother hne => ?_,
    fun _ h => .inl h, unreported_of_problems rfl⟩
  by_cases heq : other = id
  · subst heq
    rw [Model.namedType_modifyNamed _ _ hother, hf.resolve_left hne]
  · rw [Model.namedType_modifyNamed_of_ne _ _ heq]

theorem unmoved_addNamed (s : State) (n : NamedType) : Unmoved s { s with model := (s.model.addNamed n).2 } :=
  unmoved_of_eq rfl (Array.size_push _ ▸ Nat.le_succ _) rfl rfl

theorem adding_addNamed (s : State) (n : NamedType) :
    Adding fileClass s { s with model := (s.model.addNamed n).2 } := by
  refine ⟨unmoved_addNamed s n, fun id hid _ => ?_, fun _ h => .inl h, unreported_of_problems rfl⟩
  rw [s.model.namedType_addNamed_of_ne n]
  rintro rfl
  exact lt_irrefl _ hid

-- What is done to a type that is new may be anything.
theorem adding_modifyNew {id : NamedId} {f : NamedType → NamedType} (h : Adding fileClass s s')
    (hid : s.model.named.size ≤ id.index) :
    Adding fileClass s { s' with model := s'.model.modifyNamed id f } := by
  have hsize := (s'.model.size_modifyNamed id f).symm
  refine ⟨trans_of Unmoved h.toUnmoved (unmoved_modifyNamed s' id f), fun other hother hne => ?_,
    fun c hc => (h.classes c hc).imp_right fun hnew => ⟨hnew.1, hnew.2.trans_eq hsize⟩, h.silent⟩
  rw [Model.namedType_modifyNamed_of_ne, h.pending other hother hne]
  rintro rfl
  exact absurd hid (Nat.not_le_of_lt hother)

-- A type and its name.
theorem adding_addType (n : NamedType) (x : Symbol) (s : State) :
    Adding fileClass s ((addType n x).run s).2 := by
  have hadded : Adding fileClass s ((addNamed n).run s).2 := adding_addNamed s n
  have hnamed : Adding fileClass s
      ((addSymbol { x with ty := .named ⟨s.model.named.size⟩ }).run ((addNamed n).run s).2).2 := by
    refine ⟨⟨rfl, rfl, hadded.size, fun y id hid => ?_⟩, hadded.pending,
      fun _ h => .inl h, unreported_of_problems rfl⟩
    refine Model.namesType_addSymbol_iff.trans (or_iff_left ?_)
    rintro ⟨-, -, ⟨⟩⟩
    exact lt_irrefl _ hid
  exact adding_modifyNew hnamed le_rfl

-- A new type has one name.
theorem namesType_addType {x : Symbol} {y : SymbolId} (hs : TypesNamed s) (hkind : x.kind = .typeName)
    (n : NamedType) :
    ((addType n x).run s).2.model.NamesType y ⟨s.model.named.size⟩ ↔ y = ⟨s.model.symbols.size⟩ := by
  have hold : ¬ ((addNamed n).run s).2.model.NamesType y ⟨s.model.named.size⟩ := fun hy =>
    lt_irrefl _ (hs.known y ⟨s.model.named.size⟩ hy)
  exact Model.namesType_addSymbol_iff.trans ((or_iff_right hold).trans (and_iff_left ⟨hkind, rfl⟩))

theorem awaits_addType {n : NamedType} (hn : n.underlying = .pending) (x : Symbol) (s : State) :
    ((addType n x).run s).2.model.Awaits ⟨s.model.named.size⟩ := by
  obtain ⟨id, hid⟩ : ∃ id : NamedId, id = ⟨s.model.named.size⟩ := ⟨_, rfl⟩
  obtain ⟨m, hm⟩ :
      ∃ m, m = ((addSymbol { x with ty := .named id }).run ((addNamed n).run s).2).2.model := ⟨_, rfl⟩
  have hrun : ((addType n x).run s).2.model =
      m.modifyNamed id fun n => { n with symbol := some ⟨s.model.symbols.size⟩ } := by
    rw [hm, hid]
    rfl
  have hlt : id.index < m.named.size := by
    rw [hm, hid]
    exact Array.size_push n ▸ Nat.lt_succ_self _
  have hnamed : m.namedType id = n := by
    rw [hm, hid]
    exact s.model.namedType_addNamed n
  rw [hrun, ← hid]
  refine ⟨hlt.trans_eq (m.size_modifyNamed _ _).symm, ?_⟩
  rw [m.namedType_modifyNamed _ hlt, NamedType.isPending, hnamed, hn]

instance : Declares (Adding fileClass) where
  context _ _ := adding_of_eq rfl rfl rfl rfl rfl rfl
  info _ _ := adding_of_eq rfl rfl rfl rfl rfl rfl
  problem _ _ _ _ hp := ⟨unmoved_of_eq rfl le_rfl rfl rfl, fun _ _ _ => rfl, fun _ h => .inl h,
    unreported_of_not_isCycle hp⟩
  symbol s _ hx := adding_addSymbol s (.inl hx)
  crashed _ := adding_of_eq rfl rfl rfl rfl rfl rfl
  addScope s x := adding_of_eq (s.model.symbols_addScope x) (s.model.named_addScope x) rfl rfl rfl rfl
  declare _ _ _ _ := adding_of_eq rfl rfl rfl rfl rfl rfl
  composite x body _ hbody _ := ⟨fun s => adding_modifyNew
    (trans_of (Adding fileClass) (adding_addNamed s x) ((hbody ⟨s.model.named.size⟩).run _)) le_rfl⟩
  scopes _ _ hsymbols hnamed := adding_of_eq hsymbols hnamed rfl rfl rfl rfl
  modifyNamed s id f hf := adding_modifyNamed s (.inr fun n => by
    rcases hf n with hsame | ⟨hbefore, hbehind⟩
    · rw [NamedType.isPending, NamedType.isPending, hsame]
    · rw [NamedType.isPending_eq_of_isComposite hbefore, NamedType.isPending_eq_of_isComposite hbehind])
  unnamed s _ hx := adding_addSymbol s (.inr hx)
  openClass n x source _ := by
    refine ⟨fun s => ?_⟩
    have hadded : Adding fileClass s ((addType n x).run s).2 := adding_addType n x s
    refine ⟨⟨hadded.typeDecls, hadded.resolving, hadded.size, hadded.names⟩, hadded.pending,
      fun c hc => ?_, hadded.silent⟩
    rcases List.mem_append.mp hc with hc | hc
    · exact hadded.classes c hc
    · rw [List.mem_singleton.mp hc]
      refine .inr ⟨le_rfl, ?_⟩
      change s.model.named.size < (Array.modify _ _ _).size
      rw [Array.size_modify]
      exact Array.size_push n ▸ Nat.lt_succ_self _

instance : DeclaresFuncs (Adding fileClass) where
  funcs _ _ := adding_of_eq rfl rfl rfl rfl rfl rfl

instance : DeclaresSpecs (Adding fileClass) where
  pushSpec _ _ _ _ _ := adding_of_eq rfl rfl rfl rfl rfl rfl

instance : Fills (Adding fileClass) fileClass where
  fill _ howner s _ _ := adding_modifyNamed s (.inl howner)

section Resolving

variable {id : NamedId} {fuel : Nat}

instance : TypeRoutine Unmoved where
  context _ _ := unmoved_of_eq rfl le_rfl rfl rfl
  info _ _ := unmoved_of_eq rfl le_rfl rfl rfl
  problem _ _ _ _ _ := unmoved_of_eq rfl le_rfl rfl rfl
  symbol s _ hx := unmoved_addSymbol s (.inl hx)
  composite x _ _ hbody _ := ⟨fun s => trans_of Unmoved (unmoved_addNamed s x)
    (trans_of Unmoved ((hbody ⟨s.model.named.size⟩).run _) (unmoved_modifyNamed _ _ _))⟩

instance {name : String} {pending : PendingDecl} : Runs Unmoved (reportRecursion id name pending) := by
  unfold reportRecursion
  exact .bind ⟨fun _ => unmoved_of_eq rfl le_rfl rfl rfl⟩ fun _ => ⟨fun s => unmoved_modifyNamed s id _⟩

-- Types that are looked into are left again.
instance : Runs Unmoved (resolveNamed fuel id) := by
  induction fuel generalizing id with
  | zero =>
      unfold resolveNamed
      infer_instance
  | succ fuel ih =>
      refine ⟨fun s => ?_⟩
      rcases resolveNamed_cases fuel id s with ⟨-, hrun⟩ | ⟨found, -, -, ⟨-, hrun⟩ | ⟨-, hrun⟩⟩
      · rw [hrun]
        exact refl_of Unmoved s
      · rw [hrun]
        exact Runs.run s
      · have hlook : Runs Unmoved (within found.2.context (lookInto fuel id found.2)) :=
          .withinContext (.lookInto fun _ => ih)
        have hfound := hlook.run { s with resolving := id :: s.resolving }
        rw [hrun, StateT.run_bind]
        change Unmoved s ((closeType id _).run _).2
        have hleft :
            ((within found.2.context (lookInto fuel id found.2)).run { s with resolving :=
              id :: s.resolving }).2.resolving.erase id = s.resolving := by
          rw [hfound.resolving, List.erase_cons_head]
        rw [run_closeType]
        split
        · exact ⟨hfound.typeDecls, hleft, hfound.size.trans_eq (Model.size_modifyNamed ..).symm, hfound.names⟩
        · exact ⟨hfound.typeDecls, hleft, hfound.size, hfound.names⟩

end Resolving

end SpriteScript.Check
