import SpriteScript.Proofs.Checking.Underlying
import SpriteScript.Proofs.Identifiers.Statements

-- A declaration is read once: its name when it is bound, and the rest when its types are found.
namespace SpriteScript.Check

-- The instances for the parts of a long function are found in one search.
set_option synthInstance.maxSize 1000

variable {ground : Ground} {file : FileId}

section PuttingOff

variable {α : Type} {c : Context} {decl : Tree}

-- The place that is asked for is in the file.
theorem Visits.of_context {parts : List Part} {f : Context → CheckM α}
    (h : ∀ c, c.file = file → Visits ground file parts (f c)) : Visits ground file parts (context >>= f) :=
  fun rest s hs => h s.context hs.context rest s hs

theorem Reads.of_context {ts : List Tree} {f : Context → CheckM α}
    (h : ∀ c, c.file = file → Reads ground file ts (f c)) : Reads ground file ts (context >>= f) :=
  Visits.of_context h

theorem State.putOff_alias (s : State) (d : SymbolId × PendingDecl) :
    ({ s with aliases := d :: s.aliases } : State).putOff.Perm (d.2.typeParts ++ s.putOff) := by
  unfold State.putOff
  rw [List.flatMap_cons, List.append_assoc d.2.typeParts]
  exact ((List.perm_append_comm_assoc _ _ _).append_left _).trans (List.perm_append_comm_assoc _ _ _)

theorem State.putOff_func (s : State) (d : SymbolId × PendingDecl) :
    ({ s with funcs := d :: s.funcs } : State).putOff.Perm (d.2.signatureParts ++ s.putOff) := by
  unfold State.putOff
  rw [List.flatMap_cons]
  refine List.Perm.trans (.append_left _ ?_) (List.perm_append_comm_assoc _ _ _)
  exact ((List.perm_append_comm_assoc _ _ _).append_left _).trans (List.perm_append_comm_assoc _ _ _)

theorem State.putOff_spec (s : State) (p : PendingSpec) (specOf : Std.HashMap SymbolId Nat) :
    ({ s with specs := s.specs.push p, specOf } : State).putOff.Perm (p.parts ++ s.putOff) := by
  unfold State.putOff
  rw [Array.toList_push, List.flatMap_append, List.flatMap_singleton, List.append_assoc]
  exact List.perm_append_comm_assoc _ _ _

theorem State.putOff_type (s : State) (d : NamedId × PendingDecl) :
    ({ s with typeDecls := d :: s.typeDecls } : State).putOff.Subperm (d.2.typeParts ++ s.putOff) := by
  have hopen : (if s.isOpen d.1 then d.2.typeParts else []).Sublist d.2.typeParts := by
    split
    · exact List.Sublist.refl _
    · exact List.nil_sublist _
  refine List.Subperm.trans ?_
    (List.perm_append_comm_assoc (s.specs.toList.flatMap PendingSpec.parts) _ _).subperm
  unfold State.putOff
  rw [List.flatMap_cons, List.append_assoc (ite ..)]
  exact ((hopen.append_right _).append_left _).subperm

theorem reads_putOffAlias (hc : c.file = file) (id : SymbolId) : Reads ground file decl.type?.toList
    (modify fun s => { s with aliases := (id, ⟨c, decl⟩) :: s.aliases } : CheckM Unit) := by
  subst hc
  exact fun rest s hs => hs.putOff hs.context (s.putOff_alias _).subperm rfl hs.known
    (hs.valued.of_model rfl List.prefix_rfl rfl)

theorem reads_putOffFunc (hc : c.file = file) (id : SymbolId) : Reads ground file decl.signatureParts
    (modify fun s => { s with funcs := (id, ⟨c, decl⟩) :: s.funcs } : CheckM Unit) := by
  subst hc
  exact fun rest s hs => hs.putOff hs.context (s.putOff_func _).subperm rfl hs.known
    (hs.valued.of_model rfl List.prefix_rfl rfl)

-- A specification of new symbols is put off.
theorem Valued.push {s : State} {p : PendingSpec} (h : Valued ground s) (hnodup : p.symbols.Nodup)
    (hthere : ∀ x ∈ p.symbols, x.index < s.model.symbols.size)
    (hunset : ∀ x ∈ p.symbols, (s.model.symbol x).value = none)
    (hnew : ∀ q ∈ s.specs.toList, ∀ x ∈ q.symbols, x ∉ p.symbols) (specOf : Std.HashMap SymbolId Nat) :
    Valued ground { s with specs := s.specs.push p, specOf } := by
  have hmem (q : PendingSpec) (hq : q ∈ (s.specs.push p).toList) : q ∈ s.specs.toList ∨ q = p := by
    rwa [Array.toList_push, List.mem_append, List.mem_singleton] at hq
  refine ⟨fun fact hfact => ?_, h.named, ?_, fun q hq x hx => ?_, fun q hq hprogress x hx => ?_⟩
  · refine State.Onward.holds (s := s) ⟨.refl _, fun _ _ hv => hv, fun i q hq _ => ?_⟩ (h.facts fact hfact)
    change (s.specs.push p)[i]? = some q
    rw [Array.getElem?_push_lt (Array.getElem?_eq_some_iff.mp hq).1, ← Array.getElem?_eq_getElem, hq]
  · change ((s.specs.push p).toList.flatMap PendingSpec.symbols).Nodup
    rw [Array.toList_push, List.flatMap_append, List.flatMap_singleton]
    refine List.Nodup.append h.apart hnodup fun x hx hxp => ?_
    obtain ⟨q, hq, hxq⟩ := List.mem_flatMap.mp hx
    exact hnew q hq x hxq hxp
  · rcases hmem q hq with hq | rfl
    · exact h.there q hq x hx
    · exact hthere x hx
  · rcases hmem q hq with hq | rfl
    · exact h.unset q hq hprogress x hx
    · exact hunset x hx

end PuttingOff

section Binding

theorem reads_declareTypeName (scope : ScopeId) (decl : Tree) :
    Reads ground file decl.typeDeclParts (declareTypeName scope decl) := by
  refine Reads.below ?_ (.of_perm List.perm_append_comm)
  unfold declareTypeName
  split
  case h_1 ident hident =>
    refine .of_context fun c hc => .after inferInstance fun x => ?_
    extract_lets next
    have hnext (id : SymbolId) : Reads ground file decl.name?.toList (next id) :=
      ((reads_recordDef ident id).before fun _ => inferInstance).below (Tree.below_bind_ident? hident)
    simp only [pure_bind]
    split
    · exact .after inferInstance fun id => .bind (reads_putOffAlias hc id) fun _ => hnext id
    · intro rest s hs
      have hnew : Runs (Passing ground file) (do
          let named ← addNamed { name := ident.text, package := x.package }
          let id ← addSymbol { x with ty := .named named }
          modifyModel (·.modifyNamed named fun n => { n with symbol := some id })) :=
        .bind inferInstance fun named => .bind inferInstance fun id => .modifyNamed fun _ h => h
      have hadded := hnew.run s _ hs
      rw [partsIn, List.map_append, List.append_assoc] at hadded
      subst hc
      refine hnext _ rest _ (hadded.putOff hadded.context
        (State.putOff_type _ (⟨s.model.named.size⟩, ⟨c, decl⟩)) rfl
        (List.forall_mem_cons.mpr ⟨?_, hadded.known⟩) (hadded.valued.of_model rfl List.prefix_rfl rfl))
      change s.model.named.size < (Array.modify _ _ _).size
      rw [Array.size_modify]
      exact (Array.size_push _).symm ▸ Nat.lt_succ_self _
  case h_2 => exact .of_runs inferInstance

theorem reads_declareTypeNames (root : Tree) (scope : ScopeId) :
    Reads ground file ((root.childrenOf .typeDecl).flatMap Tree.typeDeclParts)
    (declareTypeNames root scope) :=
  .forM fun decl _ => reads_declareTypeName scope decl

-- An import has its name, or a path instead.
theorem reads_declareImport (spec : Tree) : Reads ground file [spec] (declareImport spec) := by
  unfold declareImport
  split
  case h_1 path token _ htoken =>
    refine .after inferInstance fun m => ?_
    split
    · exact .of_runs inferInstance
    · extract_lets alias? name range
      refine .after inferInstance fun c => .after inferInstance fun id => ?_
      have hplace : Tree.Below [.token (alias?.getD token)] [spec] := by
        cases halias : alias? with
        | none => exact Tree.below_childToken (List.mem_of_find?_eq_some htoken)
        | some ident => exact (Tree.below_bind_ident? halias).trans (spec.below_child? _)
      exact ((reads_recordDef _ id).before fun _ => inferInstance).below hplace
  case h_2 => exact .of_runs inferInstance

theorem reads_declareField (owner : NamedId) (ident : Token) :
    Reads ground file [.token ident] (declareField owner ident) := by
  unfold declareField
  refine .after inferInstance fun x => .after inferInstance fun id =>
    (reads_recordDef ident id).before fun _ => ?_
  have hadd : Runs (Passing ground file) (modifyModel (·.modifyNamed owner fun n =>
      { n with underlying := .struct (n.fields ++ [⟨id, ident.text, .invalid, false⟩]) })) :=
    .modifyNamed fun _ h => nomatch h
  infer_instance

theorem reads_declareSpecName (scope : ScopeId) (kind : SymbolKind) (ident : Token) :
    Reads ground file [.token ident] (declareSpecName scope kind ident) := by
  unfold declareSpecName
  refine .after inferInstance fun x => .after inferInstance fun id =>
    (reads_recordDef ident id).before fun _ => ?_
  infer_instance

-- The symbols of the specification are the last ones that were added.
theorem Ahead.push {rest : List Part} {s : State} {spec : Tree} {symbols : List SymbolId} {isConst : Bool}
    {before : List (Option Constant)} {count : Nat}
    (h : Ahead ground file (partsIn file (spec.type?.toList ++ spec.listed 0) ++ rest) s)
    (hsymbols : symbols = (List.range' before.length count).map SymbolId.mk)
    (hvalues : s.model.values = before ++ List.replicate count none)
    (hold : ∀ q ∈ s.specs.toList, ∀ x ∈ q.symbols, x.index < before.length) :
    Ahead ground file rest ((pushSpec spec symbols isConst).run s).2 := by
  have hindex {x : SymbolId} (hx : x ∈ symbols) :
      before.length ≤ x.index ∧ x.index < before.length + count := by
    rw [hsymbols] at hx
    obtain ⟨i, hi, rfl⟩ := List.mem_map.mp hx
    simpa using hi
  have hsize : s.model.symbols.size = before.length + count := by
    rw [← Model.length_values, hvalues, List.length_append, List.length_replicate]
  have hcontext := h.context
  subst hcontext
  refine h.putOff rfl (s.putOff_spec _ _).subperm rfl h.known
    (h.valued.push ?_ (fun x hx => ?_) (fun x hx => ?_) (fun q hq x hxq hx => ?_) _)
  · change symbols.Nodup
    rw [hsymbols]
    exact List.Nodup.map (fun _ _ heq => congrArg SymbolId.index heq) List.nodup_range'
  · rw [hsize]
    exact (hindex hx).2
  · obtain ⟨hle, hlt⟩ := hindex hx
    rw [Model.value_symbol, hvalues, List.getElem?_append_right hle, List.getElem?_replicate]
    split <;> rfl
  · exact absurd (hold q hq x hxq) (Nat.not_lt.mpr (hindex hx).1)

-- A specification is put off when its names are declared.
theorem reads_declareSpec {declareOne : Token → CheckM SymbolId}
    (h : ∀ ident, Reads ground file [.token ident] (declareOne ident))
    (hadds : ∀ ident, AddsSymbol (declareOne ident)) (isConst : Bool) (spec : Tree) :
    Reads ground file [spec] (declareSpec declareOne isConst spec) := by
  have hnames := Reads.mapM (l := spec.names.filterMap Tree.ident?) fun ident _ => h ident
  rw [← List.map_eq_flatMap] at hnames
  refine Reads.below (fun rest s hs => ?_) ((Tree.Below.of_perm List.perm_append_comm).trans spec.below_spec)
  rw [partsIn, List.map_append, List.append_assoc] at hs
  have hnamed := hnames.below (Tree.below_idents _) _ s hs
  obtain ⟨xs, hlength, hxs, hids, hsymbols, hspecs⟩ :=
    AddsSymbol.mapM hadds (spec.names.filterMap Tree.ident?) s
  have hnone : xs.map Symbol.value = List.replicate (spec.names.filterMap Tree.ident?).length none :=
    List.eq_replicate_iff.mpr ⟨by rw [List.length_map,
      hlength], List.forall_mem_map.mpr fun x hx => (hxs x hx).2⟩
  rw [← Model.length_values] at hids
  refine hnamed.push hids (hnone ▸ (congrArg (List.map Symbol.value) hsymbols).trans List.map_append)
    fun q hq x hx => ?_
  rw [hspecs] at hq
  rw [Model.length_values]
  exact hs.valued.there q hq x hx

theorem reads_declareFields (owner : NamedId) (decl : Tree) :
    Reads ground file [decl] (declareFields owner decl) := by
  rw [declareFields_eq]
  exact Reads.below (.forM_trees fun spec _ => reads_declareSpec (reads_declareField owner)
    (addsSymbol_declareField owner) false spec) (decl.below_one _)

theorem reads_declareSpecs (scope : ScopeId) (isConst : Bool) (decl : Tree) :
    Reads ground file [decl] (declareSpecs scope isConst decl) := by
  rw [declareSpecs_eq]
  exact Reads.below (.forM_trees fun spec _ => reads_declareSpec (reads_declareSpecName scope _)
    (addsSymbol_declareSpecName scope (if isConst then .const else .var)) isConst spec) (decl.below_one _)

theorem reads_receiverNamed? {decl receiver : Tree} (hreceiver : decl.receiver? = some receiver) :
    Reads ground file decl.receiverType (receiverNamed? receiver) := by
  unfold receiverNamed? Tree.receiverType
  rw [hreceiver, Option.bind_some]
  cases hparam : receiver.child? .param with
  | none => exact .of_runs inferInstance
  | some param =>
      dsimp -zeta only
      extract_lets ident?
      have hbelow (ident : Token) (hident : ident? = some ident) : Tree.Below [.token ident]
          (if param.type?.isSome then param.type?.toList else param.name?.toList) := by
        unfold ident? at hident
        split at hident
        case h_1 type htype =>
          rw [htype]
          exact Tree.below_embeddedName? hident
        case h_2 hnone =>
          rw [hnone]
          exact Tree.below_bind_ident? hident
      clear_value ident?
      cases ident? with
      | none => exact .of_runs inferInstance
      | some ident =>
          refine Reads.below (.after inferInstance fun found => ?_) (hbelow ident rfl)
          split
          · exact (reads_recordUse ident _).before fun _ => inferInstance
          · exact .of_runs inferInstance

instance (owner : NamedId) (ident : Token) : Runs (Passing ground file) (declareMethod owner ident) := by
  have hadd (id : SymbolId) : Runs (Passing ground file) (modifyModel (·.modifyNamed owner fun n =>
      { n with methods := n.methods ++ [id] })) :=
    .modifyNamed fun _ h => h
  unfold declareMethod
  refine .bind inferInstance fun c => .bind inferInstance fun m => ?_
  dsimp only
  refine .bind inferInstance fun x => ?_
  split <;> infer_instance

instance (scope : ScopeId) (ident : Token) : Runs (Passing ground file) (declareFunction scope ident) := by
  unfold declareFunction
  refine .bind inferInstance fun c => .bind inferInstance fun m => ?_
  dsimp only
  split <;> infer_instance

theorem reads_declareFunc (scope : ScopeId) (fileClass : Option NamedId) (decl : Tree) :
    Reads ground file decl.headParts (declareFunc scope fileClass decl) := by
  unfold declareFunc
  split
  case h_1 ident hident =>
    extract_lets finish declare
    have hfinish (id : SymbolId) : Reads ground file (decl.name?.toList ++ decl.signatureParts) (finish id) :=
      .bind ((reads_recordDef ident id).below (Tree.below_bind_ident? hident)) fun _ =>
        .of_context fun c hc => reads_putOffFunc hc id
    have hdeclare (owner? : Option NamedId) :
        Reads ground file (decl.name?.toList ++ decl.signatureParts) (declare owner?) := by
      unfold declare
      split
      · exact .after inferInstance hfinish
      · exact .after inferInstance hfinish
    split
    case h_1 receiver hreceiver =>
      refine Reads.below (.bind (reads_receiverNamed? hreceiver) hdeclare) ?_
      exact .of_perm (List.perm_append_comm_assoc _ _ _)
    case h_2 =>
      refine (Reads.after inferInstance hdeclare).sublist ?_
      exact (List.sublist_append_right _ _).append_left _
  case h_2 => exact .of_runs inferInstance

theorem reads_declareItem (scope : ScopeId) (fileClass : Option NamedId) (isFirst : Bool) (item : Tree) :
    Reads ground file item.memberStepParts (declareItem scope fileClass isFirst item) := by
  unfold declareItem
  have himports : Reads ground file [item] ((item.childrenOf .importSpec).forM declareImport) :=
    Reads.below (.forM_trees fun spec _ => reads_declareImport spec) (item.below_one _)
  split
  case h_1 hkind =>
    rw [Tree.memberStepParts, hkind]
    exact himports
  case h_2 hkind =>
    rw [Tree.memberStepParts, hkind]
    dsimp only
    split
    · exact reads_declareFields _ item
    · exact reads_declareSpecs _ _ item
  case h_3 hkind =>
    rw [Tree.memberStepParts, hkind]
    exact reads_declareSpecs _ _ item
  case h_4 hkind =>
    rw [Tree.memberStepParts, hkind]
    exact reads_declareSpecs _ _ item
  case h_5 hkind =>
    rw [Tree.memberStepParts, hkind]
    exact reads_declareFunc _ _ item
  case h_6 => exact .of_runs inferInstance

theorem reads_declareMembers (scope : ScopeId) (fileClass : Option NamedId) (isFirst : Bool)
    (items : List Tree) :
    Reads ground file (items.flatMap Tree.memberStepParts)
    (declareMembers scope fileClass isFirst items) := by
  induction items generalizing isFirst with
  | nil =>
      unfold declareMembers
      exact .of_runs inferInstance
  | cons item rest ih =>
      rw [declareMembers_cons, List.flatMap_cons]
      exact .bind (reads_declareItem scope fileClass isFirst item) fun _ => ih _

end Binding

section Finding

variable {s s' : State}

-- The first declaration of a type is taken up when the type is not open any more.
theorem subperm_typeParts {id : NamedId} {found : NamedId × PendingDecl}
    {decls : List (NamedId × PendingDecl)} (hfound : decls.find? (·.1 == id) = some found)
    (hopen : s.isOpen id = true) (hclosed : s'.isOpen id = false)
    (hless : ∀ other : NamedId, s'.isOpen other = true → s.isOpen other = true) :
    (found.2.typeParts ++ decls.flatMap fun d => if s'.isOpen d.1 then d.2.typeParts else []).Subperm
      (decls.flatMap fun d => if s.isOpen d.1 then d.2.typeParts else []) := by
  induction decls with
  | nil => cases hfound
  | cons d rest ih =>
      rw [List.flatMap_cons, List.flatMap_cons]
      rw [List.find?_cons] at hfound
      split at hfound
      case h_1 hd =>
        cases hfound
        rw [beq_iff_eq.mp hd, if_pos hopen, if_neg (by simp [hclosed]), List.nil_append]
        exact ((State.sublist_typeParts _ fun other _ => hless other.1).append_left _).subperm
      case h_2 =>
        refine (List.perm_append_comm_assoc _ _ _).subperm.trans (List.Subperm.append ?_ (ih hfound))
        have hhead := State.sublist_typeParts [d] fun other _ => hless other.1
        rw [List.flatMap_singleton, List.flatMap_singleton] at hhead
        exact hhead.subperm

-- What was put off is ahead when the type is looked into.
theorem Ahead.startType {id : NamedId} {found : NamedId × PendingDecl} {rest : List Part}
    (h : Ahead ground file rest s) (hfound : s.typeDecls.find? (·.1 == id) = some found)
    (hopen : s.isOpen id = true) :
    Ahead ground file (found.2.typeParts ++ rest) { s with resolving := id :: s.resolving } := by
  refine h.takeUp h.context ?_ rfl h.known (h.valued.of_model rfl List.prefix_rfl rfl)
  refine (List.perm_append_comm_assoc _ _ _).subperm.trans ((List.subperm_append_left _).mpr ?_)
  rw [← List.append_assoc]
  refine (subperm_typeParts hfound hopen ?_ fun other hother => ?_).append (List.Subperm.refl _)
  · simp [State.isOpen]
  · unfold State.isOpen at hother ⊢
    simp only [List.contains_cons, Bool.not_or, Bool.and_eq_true] at hother ⊢
    exact ⟨hother.1, hother.2.2⟩

-- A type that is closed is not open, and the others are as open as before.
theorem isOpen_of_erase (id : NamedId) {other : NamedId} (hresolving : s'.resolving = s.resolving.erase id)
    (hsame : other ≠ id → s'.model.namedType other = s.model.namedType other)
    (hclosed : other = id → (s'.model.namedType other).isPending = false) (h : s'.isOpen other = true) :
    s.isOpen other = true := by
  obtain ⟨hpending, hfree⟩ := Bool.and_eq_true_iff.mp h
  by_cases hid : other = id
  · rw [hclosed hid] at hpending
    cases hpending
  · rw [hsame hid] at hpending
    rw [hresolving] at hfree
    exact Bool.and_eq_true_iff.mpr ⟨hpending, by simpa [List.mem_erase_of_ne hid] using hfree⟩

-- A type is closed for good when what it stands for is known.
theorem passing_closeType {id : NamedId} {underlying : Underlying} (h : underlying ≠ .pending) :
    Runs (Passing ground file) (closeType id underlying) := by
  refine ⟨fun s rest hs => ?_⟩
  rw [run_closeType]
  split
  case isTrue =>
    refine hs.next hs.context (List.Sublist.subperm ?_) rfl (fun d hd => ?_)
      (hs.valued.of_model rfl List.prefix_rfl rfl)
    · refine (List.Sublist.refl rest).append ((List.Sublist.refl _).append
        (.append (State.sublist_typeParts _ fun d hd => isOpen_of_erase id rfl (fun hne => ?_) ?_)
          (List.Sublist.refl _)))
      · exact Model.namedType_modifyNamed_of_ne _ _ hne
      · rintro rfl
        change ((s.model.modifyNamed d.1 _).namedType d.1).isPending = false
        rw [Model.namedType_modifyNamed _ _ (hs.known d hd)]
        exact isPending_with h _
    · exact (hs.known d hd).trans_eq (Array.size_modify ..).symm
  case isFalse hpending =>
    refine hs.next hs.context (List.Sublist.subperm ?_) rfl hs.known
      (hs.valued.of_model rfl List.prefix_rfl rfl)
    refine (List.Sublist.refl rest).append ((List.Sublist.refl _).append
      (.append (State.sublist_typeParts _ fun d hd => isOpen_of_erase id rfl (fun _ => rfl) ?_)
        (List.Sublist.refl _)))
    rintro rfl
    exact Bool.eq_false_iff.mpr hpending

instance (id : NamedId) (name : String) (pending : PendingDecl) :
    Runs (Passing ground file) (reportRecursion id name pending) := by
  have hinvalid : Runs (Passing ground file) (modifyModel (·.modifyNamed id fun n =>
      { n with underlying := .type .invalid })) := .modifyNamed fun _ h => nomatch h
  unfold reportRecursion
  infer_instance

theorem reads_lookInto {fuel : Nat} (id : NamedId) (pending : PendingDecl)
    (h : ∀ other, Runs (Passing ground file) (resolveNamed fuel other)) :
    Reads ground file pending.decl.type?.toList (lookInto fuel id pending) := by
  unfold lookInto
  split
  case h_1 t ht =>
    rw [ht]
    split
    · exact (reads_structFields reads_typeOf t id).before fun fields => inferInstance
    · exact (reads_interfaceMethods reads_typeOf t id).before fun methods => inferInstance
    · refine (reads_typeOf t).before fun ty => ?_
      split <;> infer_instance
  case h_2 => exact .of_runs inferInstance

instance (fuel : Nat) (id : NamedId) : Runs (Passing ground file) (resolveNamed fuel id) := by
  induction fuel generalizing file id with
  | zero =>
      unfold resolveNamed
      infer_instance
  | succ fuel ih =>
      refine ⟨fun s rest hs => ?_⟩
      rcases resolveNamed_cases fuel id s with
        ⟨-, hrun⟩ | ⟨found, hpending, hfound, ⟨-, hrun⟩ | ⟨hfree, hrun⟩⟩
      · rw [hrun]
        exact hs
      · rw [hrun]
        exact Runs.run (R := Passing ground file) s rest hs
      · have hopen : s.isOpen id = true := by
          unfold State.isOpen
          exact Bool.and_eq_true_iff.mpr ⟨hpending, by simpa using hfree⟩
        have hvisits : Visits ground file (found.2.typeParts ++ [])
            (within found.2.context (lookInto fuel id found.2) >>= closeType id) :=
          .bind_of (P := (· ≠ .pending)) (.within (reads_lookInto id found.2 fun _ => ih _))
            (fun s => ((concludes_lookInto fuel id found.2).within s).1) fun underlying h =>
              .of_runs (h := passing_closeType h)
        rw [hrun]
        rw [List.append_nil] at hvisits
        exact hvisits rest _ (hs.startType hfound hopen)

theorem visits_resolveAlias (id : SymbolId) (pending : PendingDecl) :
    Visits ground file pending.typeParts (resolveAlias id pending) := by
  unfold resolveAlias
  refine .before (.within ?_) fun ty => .modifySymbol fun _ => rfl
  change Reads ground pending.context.file _ _
  split
  case h_1 t ht =>
    rw [ht]
    exact reads_typeOf t
  case h_2 => exact .of_runs inferInstance

theorem visits_resolveFunc (id : SymbolId) (pending : PendingDecl) :
    Visits ground file pending.signatureParts (resolveFunc id pending) := by
  unfold resolveFunc
  exact .before (.within (reads_signatureOf pending.decl)) fun signature => .modifySymbol fun _ => rfl

-- What was put off for aliases is taken up.
theorem Ahead.takeAliases {rest : List Part} {s : State} (hs : Ahead ground file rest s) :
    Ahead ground file (s.aliases.reverse.flatMap (·.2.typeParts) ++ rest) { s with aliases := [] } := by
  refine hs.takeUp hs.context (List.Perm.subperm ?_) rfl hs.known (hs.valued.of_model rfl List.prefix_rfl rfl)
  unfold State.putOff
  rw [List.flatMap_nil, List.nil_append]
  refine (((List.reverse_perm _).flatMap_right _).append_right _).trans ?_
  exact (List.perm_append_comm_assoc _ _ _).trans ((List.perm_append_comm_assoc _ _ _).append_left _)

theorem Ahead.takeFuncs {rest : List Part} {s : State} (hs : Ahead ground file rest s) :
    Ahead ground file (s.funcs.reverse.flatMap (·.2.signatureParts) ++ rest) { s with funcs := [] } := by
  refine hs.takeUp hs.context (List.Perm.subperm ?_) rfl hs.known (hs.valued.of_model rfl List.prefix_rfl rfl)
  unfold State.putOff
  rw [List.flatMap_nil, List.append_nil]
  refine (((List.reverse_perm _).flatMap_right _).append_right _).trans ?_
  refine (List.perm_append_comm_assoc _ _ _).trans (List.Perm.append_left _ ?_)
  exact (List.perm_append_comm_assoc _ _ _).trans (List.perm_append_comm.append_left _)

theorem visits_resolveAliases (l : List (SymbolId × PendingDecl)) :
    Visits ground file (l.flatMap (·.2.typeParts)) (l.forM fun d => resolveAlias d.1 d.2) :=
  .forM fun d _ => visits_resolveAlias d.1 d.2

variable {r : Rules} [ReadsRules r]

instance : Runs (Passing ground file) resolveTypes := .resolveTypes fun _ _ => inferInstance

instance : Runs (Passing ground file) resolveAliases :=
  ⟨fun s rest hs => visits_resolveAliases s.aliases.reverse rest _ hs.takeAliases⟩

instance : Runs (Passing ground file) resolveFuncs where
  run s rest hs :=
    have hvisits : Visits ground file (s.funcs.reverse.flatMap (·.2.signatureParts))
        (s.funcs.reverse.forM fun d => resolveFunc d.1 d.2) := .forM fun d _ => visits_resolveFunc d.1 d.2
    hvisits rest _ hs.takeFuncs

instance : Runs (Passing ground file) resolveSignatures := by
  unfold resolveSignatures
  infer_instance

instance : Runs (Passing ground file) (resolveSpecs r) := by
  unfold resolveSpecs
  exact .bind inferInstance fun s => .forM fun index _ => inferInstance

instance : Runs (Passing ground file) (resolveOthers r) := by
  rw [resolveOthers_eq]
  infer_instance

instance : Runs (Passing ground file) (resolveDeclarations r) := by
  rw [resolveDeclarations_eq]
  infer_instance

end Finding

end SpriteScript.Check
