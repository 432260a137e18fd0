import Mathlib.Data.List.Nodup
import SpriteScript.Check.Values
import SpriteScript.Proofs.Identifiers.Types

-- Values look at no identifier. A specification that is put off is read when it is looked into
-- for the first time.
namespace SpriteScript.Check

-- The instances for the parts of a long function are found in one search.
set_option synthInstance.maxSize 1000

variable {ground : Ground} {file : FileId}

-- The rules read the trees that they are used on, in whatever file. Of a name they return a text
-- only if it means a constant that has it.
class ReadsRules (r : Rules) : Prop where
  expr : ∀ ground file t expected?,
    Learns ground file [t] (r.expr t expected?) fun ground o => Told ground file t o.value
  statement : ∀ ground file t, Reads ground file [t] (r.statement t)

section Values

variable {t : Tree}

instance (t : Tree) (o : Operand) : Runs (Passing ground file) (describe t o) := by
  unfold describe
  infer_instance

instance (o : Operand) : Runs (Passing ground file) (checkValue t o) := by
  unfold checkValue
  split
  · infer_instance
  · refine .bind inferInstance fun m => ?_
    split <;> infer_instance

instance (ty : Ty) (value : Option Constant) : Runs (Passing ground file) (convertedValue ty value) := by
  unfold convertedValue
  refine .bind inferInstance fun kind => ?_
  split <;> infer_instance

-- A conversion makes no text of anything else.
theorem text_of_convert? {c : Constant} {kind : BasicKind} {text : String}
    (h : c.convert? kind = some (.string text)) : c = .string text := by
  unfold Constant.convert? at h
  split at h
  · cases h
  · split at h <;> cases h
  · exact Option.some.inj h

theorem text_of_convertedValue {ty : Ty} {value : Option Constant} {text : String} (s : State)
    (h : ((convertedValue ty value).run s).1 = some (.string text)) : value = some (.string text) := by
  unfold convertedValue at h
  rw [StateT.run_bind] at h
  dsimp only [Bind.bind, Id.run] at h
  split at h
  · obtain ⟨c, hc, hconverted⟩ := Option.bind_eq_some_iff.mp h
    rw [hc, text_of_convert? hconverted]
  · exact h

theorem Told.of_text {value other : Option Constant} (h : Told ground file t value)
    (hsame : ∀ text, other = some (.string text) → value = some (.string text)) :
    Told ground file t other where
  told hkind text hother := h.told hkind text (hsame text hother)

instance (o : Operand) (target : Ty) [htold : Told ground file t o.value] :
    Runs (Passing ground file) (convertRecorded t o target) := by
  unfold convertRecorded
  refine .bind inferInstance fun m => ?_
  extract_lets ty
  split
  · infer_instance
  · refine Runs.bind_of (P := fun value => ∀ text, value = some (.string text) →
      o.value = some (.string text))
      inferInstance (fun s text => text_of_convertedValue s) fun value hvalue => ?_
    have := htold.of_text hvalue
    infer_instance

instance (o : Operand) (target : Ty) (purpose : String) [Told ground file t o.value] :
    Runs (Passing ground file) (assignTo t o target purpose) := by
  unfold assignTo
  infer_instance

instance (o : Operand) [Told ground file t o.value] : Runs (Passing ground file) (defaultType t o) := by
  unfold defaultType
  refine .bind inferInstance fun fits => ?_
  split
  · infer_instance
  · split <;> infer_instance

instance (o : Operand) (type? : Option Ty) (isConst : Bool) [Told ground file t o.value] :
    Runs (Passing ground file) (initialValue t o type? isConst) := by
  unfold initialValue
  split
  · infer_instance
  · split <;> infer_instance

end Values

section Specifications

variable {r : Rules} [hr : ReadsRules r]

theorem reads_expr (t : Tree) (expected? : Option Ty) : Reads ground file [t] (r.expr t expected?) :=
  (hr.expr ground file t expected?).reads

theorem reads_expr_before {α : Type} {f : Operand → CheckM α} (t : Tree) (expected? : Option Ty)
    (hf : ∀ (facts : List Fact) (o : Operand), Told (ground.learn facts) file t o.value →
      Runs (Passing (ground.learn facts) file) (f o)) : Reads ground file [t] (r.expr t expected? >>= f) :=
  (hr.expr ground file t expected?).before hf

theorem reads_expr_bind {α : Type} {f : Operand → CheckM α} {ts : List Tree} (t : Tree)
    (expected? : Option Ty)
    (hf : ∀ (facts : List Fact) (o : Operand), Told (ground.learn facts) file t o.value →
      Reads (ground.learn facts) file ts (f o)) : Reads ground file (t :: ts) (r.expr t expected? >>= f) :=
  (hr.expr ground file t expected?).bind hf

theorem reads_statement (t : Tree) : Reads ground file [t] (r.statement t) := hr.statement ground file t

theorem reads_specValues (spec : Tree) (count : Nat) (isConst : Bool) :
    Reads ground file (spec.type?.toList ++ spec.listed 0) (specValues r spec count isConst) := by
  unfold specValues
  refine .bind (.optionMapM_tree fun type _ => reads_typeOf type) fun type? => ?_
  generalize spec.listed 0 = values
  cases values with
  | nil =>
      refine .of_runs ?_
      dsimp only
      infer_instance
  | cons value others =>
      dsimp only
      split
      · exact .mapM_trees fun v _ => reads_expr_before v type? fun facts o _ => inferInstance
      · split
        · refine Reads.sublist ((reads_expr value none).before fun o => ?_) (by simp)
          split
          · split
            · refine .mapM fun item _ => ?_
              split <;> infer_instance
            · infer_instance
          · infer_instance
        · refine Reads.before (.forIn_trees fun v _ _ => ?_) fun _ => inferInstance
          exact (reads_expr v type?).discard.before fun _ => inferInstance

-- A list of parts when one of the entries has none any more.
theorem perm_flatMap_modify {α β : Type} {f : α → List β} {g : α → α} {x : α} (hg : f (g x) = []) {l : List α}
    {index : Nat} (hx : l[index]? = some x) : (l.flatMap f).Perm (f x ++ (l.modify index g).flatMap f) := by
  induction l generalizing index with
  | nil => cases hx
  | cons y rest ih =>
      rw [List.flatMap_cons]
      cases index with
      | zero =>
          cases hx
          rw [List.modify_zero_cons, List.flatMap_cons, hg, List.nil_append]
      | succ index =>
          rw [List.modify_succ_cons, List.flatMap_cons]
          refine ((ih hx).append_left _).trans ?_
          rw [← List.append_assoc, ← List.append_assoc]
          exact List.perm_append_comm.append_right _

-- Entries other than the one that is changed are as before.
theorem mem_modify {α : Type} {l : List α} {index : Nat} {g : α → α} {y : α} (h : y ∈ l.modify index g) :
    (∃ i, i ≠ index ∧ l[i]? = some y) ∨ ∃ x, l[index]? = some x ∧ g x = y := by
  obtain ⟨i, hi⟩ := List.mem_iff_getElem?.mp h
  rw [List.getElem?_modify] at hi
  obtain ⟨x, hx, hxy⟩ := Option.map_eq_some_iff.mp hi
  by_cases hindex : index = i
  · subst hindex
    exact .inr ⟨x, hx, by rwa [if_pos rfl] at hxy⟩
  · rw [if_neg hindex] at hxy
    exact .inl ⟨i, Ne.symm hindex, hxy ▸ hx⟩

theorem flatMap_modify {α β : Type} {f : α → List β} {g : α → α} (hg : ∀ x, f (g x) = f x) (l : List α)
    (index : Nat) : (l.modify index g).flatMap f = l.flatMap f := by
  induction l generalizing index with
  | nil => rw [List.modify_nil]
  | cons y rest ih =>
      cases index with
      | zero => rw [List.modify_zero_cons, List.flatMap_cons, List.flatMap_cons, hg]
      | succ index => rw [List.modify_succ_cons, List.flatMap_cons, List.flatMap_cons, ih]

theorem flatMap_symbols_modify (specs : Array PendingSpec) (index : Nat) (progress : Progress) :
    (specs.modify index ({ · with progress })).toList.flatMap PendingSpec.symbols =
      specs.toList.flatMap PendingSpec.symbols := by
  rw [Array.toList_modify]
  exact flatMap_modify (g := fun p : PendingSpec => { p with progress }) (fun _ => rfl) _ _

-- Specifications declare symbols of their own.
theorem Valued.not_mem_symbols {s : State} (h : Valued ground s) {index other : Nat} {p q : PendingSpec}
    (hp : s.specs[index]? = some p) (hq : s.specs[other]? = some q) (hne : other ≠ index) {x : SymbolId}
    (hx : x ∈ q.symbols) : x ∉ p.symbols := by
  intro hxp
  rw [← Array.getElem?_toList] at hp hq
  obtain ⟨hindex, rfl⟩ := List.getElem?_eq_some_iff.mp hp
  obtain ⟨hother, rfl⟩ := List.getElem?_eq_some_iff.mp hq
  have hpairs := List.pairwise_iff_getElem.mp (List.nodup_flatMap.mp h.apart).2
  rcases Nat.lt_or_gt_of_ne hne with hlt | hlt
  · exact hpairs _ _ hother hindex hlt hx hxp
  · exact hpairs _ _ hindex hother hlt hxp hx

-- What was put off is ahead when the specification is started with.
theorem Ahead.start {rest : List Part} {s : State} {index : Nat} {pending : PendingSpec}
    (h : Ahead ground file rest s) (hpending : s.specs[index]? = some pending)
    (huntouched : pending.progress = .untouched) :
    Ahead (ground.learn [.started index { pending with progress := .running }]) file (pending.parts ++ rest)
      ((setProgress index .running).run s).2 := by
  have hfound : s.specs.toList[index]? = some pending := by rwa [Array.getElem?_toList]
  have hstart : ((setProgress index .running).run s).2.specs[index]? =
      some { pending with progress := .running } := by
    change (s.specs.modify index _)[index]? = _
    rw [Array.getElem?_modify, if_pos rfl, hpending]
    rfl
  have honward : s.Onward ((setProgress index .running).run s).2 := by
    refine ⟨.refl _, fun _ _ hv => hv, fun i p hp hrunning => ?_⟩
    change (s.specs.modify index _)[i]? = _
    rw [Array.getElem?_modify, if_neg ?_]
    · exact hp
    · rintro rfl
      rw [hpending] at hp
      cases hp
      cases huntouched.symm.trans hrunning
  refine Ahead.learn (h.takeUp h.context ?_ rfl h.known ?_) (List.forall_mem_singleton.mpr ⟨hstart, rfl⟩)
  · have hperm :=
      perm_flatMap_modify (f := PendingSpec.parts) (g := ({ · with progress := .running })) rfl hfound
    rw [← Array.toList_modify] at hperm
    unfold State.putOff
    rw [← List.append_assoc]
    exact (hperm.symm.append_right _).subperm
  · have hspecs (q : PendingSpec) (hq : q ∈ ((setProgress index .running).run s).2.specs.toList) :
        ∃ p ∈ s.specs.toList, q.symbols = p.symbols ∧ (q.progress ≠ .finished → p.progress ≠ .finished) := by
      change q ∈ (s.specs.modify index _).toList at hq
      rw [Array.toList_modify] at hq
      obtain ⟨i, -, hi⟩ | ⟨p, hp, rfl⟩ := mem_modify hq
      · exact ⟨q, List.mem_of_getElem? hi, rfl, id⟩
      · rw [hfound] at hp
        cases hp
        exact ⟨pending, List.mem_of_getElem? hfound, rfl, fun _ => huntouched ▸ nofun⟩
    refine ⟨fun fact hfact => honward.holds (h.valued.facts fact hfact), h.valued.named, ?_, ?_, ?_⟩
    · exact (flatMap_symbols_modify s.specs index .running).symm ▸ h.valued.apart
    · intro q hq x hx
      obtain ⟨p, hp, hsame, -⟩ := hspecs q hq
      exact h.valued.there p hp x (hsame ▸ hx)
    · intro q hq hprogress x hx
      obtain ⟨p, hp, hsame, hunfinished⟩ := hspecs q hq
      exact h.valued.unset p hp (hunfinished hprogress) x (hsame ▸ hx)

theorem sublist_flatMap_modify {α β : Type} {f : α → List β} {g : α → α} (hg : ∀ x, f (g x) = []) (l : List α)
    (index : Nat) : ((l.modify index g).flatMap f).Sublist (l.flatMap f) := by
  induction l generalizing index with
  | nil => rw [List.modify_nil]
  | cons y rest ih =>
      rw [List.flatMap_cons]
      cases index with
      | zero =>
          rw [List.modify_zero_cons, List.flatMap_cons, hg]
          exact List.sublist_append_right _ _
      | succ index =>
          rw [List.modify_succ_cons, List.flatMap_cons]
          exact (ih index).append_left _

-- The symbols get their types and values, and nothing else changes but types of fields.
structure Settling (ids : List SymbolId) (s s' : State) : Prop where
  state : s' = { s with model := s'.model }
  size : s'.model.symbols.size = s.model.symbols.size
  named : s'.model.named.size = s.model.named.size
  pending : ∀ id, (s'.model.namedType id).isPending = true → (s.model.namedType id).isPending = true
  values : ∀ x, x ∉ ids → (s'.model.symbol x).value = (s.model.symbol x).value

instance (ids : List SymbolId) : IsPreorder State (Settling ids) where
  refl _ := ⟨rfl, rfl, rfl, fun _ h => h, fun _ _ => rfl⟩
  trans _ _ _ h h' := ⟨by rw [h'.state, h.state], h'.size.trans h.size, h'.named.trans h.named,
    fun id hid => h.pending id (h'.pending id hid), fun x hx => (h'.values x hx).trans (h.values x hx)⟩

theorem settling_modifyNamed {ids : List SymbolId} {id : NamedId} {f : NamedType → NamedType}
    (hf : ∀ n, (f n).isPending = true → n.isPending = true) :
    Runs (Settling ids) (modifyModel fun m => m.modifyNamed id f) :=
  ⟨fun s => ⟨rfl, rfl, Array.size_modify .., fun _ => isPending_of_modifyNamed s.model hf,
    fun _ _ => rfl⟩⟩

theorem settling_settle {ids : List SymbolId} {id : SymbolId} (hid : id ∈ ids) (isConst : Bool) (ty : Ty)
    (value : Option Constant) : Runs (Settling ids) (settle isConst id ty value) := by
  have hsymbol : Runs (Settling ids) (modifyModel (·.modifySymbol id fun s =>
      { s with ty, value := if isConst then value else s.value })) := by
    refine ⟨fun s => ⟨rfl, Array.size_modify .., rfl, fun _ h => h, fun x hx => ?_⟩⟩
    have hindex : id.index ≠ x.index := fun heq => hx (by cases id; cases x; cases heq; exact hid)
    change ((s.model.modifySymbol id _).symbol x).value = _
    unfold Model.symbol Model.modifySymbol
    rw [Array.getElem?_modify, if_neg hindex]
  unfold settle
  refine .bind inferInstance fun s => ?_
  dsimp only
  split
  · refine .bind (settling_modifyNamed fun n hn => ?_) fun _ => hsymbol
    obtain ⟨name, package, underlying, methods, symbol, classKind⟩ := n
    cases underlying with
    | struct fields => exact hn
    | _ => exact hn
  · exact hsymbol

-- The symbols of a specification have their types and values when it is finished with. Before,
-- none of them had a value.
theorem Ahead.finish {rest : List Part} {s s' : State} {index : Nat} {p : PendingSpec}
    (h : Ahead (ground.learn [.started index p]) file rest s)
    (hfirst : ∀ q, Fact.started index q ∉ ground.facts) (hsettling : Settling p.symbols s s') :
    Ahead ground file rest ((setProgress index .finished).run s').2 := by
  obtain ⟨hp, hrunning⟩ : (Fact.started index p).Holds s := h.valued.facts _ List.mem_cons_self
  have hunset (x : SymbolId) (hx : x ∈ p.symbols) : (s.model.symbol x).value = none :=
    h.valued.unset p (Array.mem_toList_iff.mpr (Array.mem_of_getElem? hp)) (hrunning ▸ nofun) x hx
  obtain ⟨m, rfl⟩ : ∃ m, s' = { s with model := m } := ⟨_, hsettling.state⟩
  have hvalues (x : SymbolId) (v : Constant) (hv : (s.model.symbol x).value = some v) :
      (m.symbol x).value = some v := by
    refine (hsettling.values x fun hx => ?_).trans hv
    rw [hunset x hx] at hv
    cases hv
  have hmodified (q : PendingSpec)
      (hq : q ∈ (s.specs.modify index ({ · with progress := .finished })).toList) :
      ∃ i q', s.specs[i]? = some q' ∧ q.symbols = q'.symbols ∧
      (q.progress ≠ .finished → i ≠ index ∧ q' = q) := by
    rw [Array.toList_modify] at hq
    obtain ⟨i, hi, hq⟩ | ⟨q', hq', rfl⟩ := mem_modify hq
    · exact ⟨i, q, by rwa [← Array.getElem?_toList], rfl, fun _ => ⟨hi, rfl⟩⟩
    · exact ⟨index, q', by rwa [← Array.getElem?_toList], rfl, fun hprogress => absurd rfl hprogress⟩
  have hmem {i : Nat} {q : PendingSpec} (hq : s.specs[i]? = some q) : q ∈ s.specs.toList :=
    Array.mem_toList_iff.mpr (Array.mem_of_getElem? hq)
  refine h.forget.next h.context (List.Sublist.subperm ((List.Sublist.refl rest).append ?_)) rfl
    (fun d hd => (h.known d hd).trans_eq hsettling.named.symm) ⟨fun fact hfact => ?_, ?_, ?_, ?_, ?_⟩
  · refine List.Sublist.append ?_ (.append (State.sublist_typeParts _ fun d _ hopen => ?_)
      (List.Sublist.refl _))
    · change ((s.specs.modify index _).toList.flatMap PendingSpec.parts).Sublist _
      rw [Array.toList_modify]
      exact sublist_flatMap_modify (fun _ => rfl) _ _
    · obtain ⟨hstill, hfree⟩ := Bool.and_eq_true_iff.mp hopen
      exact Bool.and_eq_true_iff.mpr ⟨hsettling.pending d.1 hstill, hfree⟩
  · have hholds := h.valued.facts fact (List.mem_append_right _ hfact)
    cases fact with
    | use key x => exact hholds
    | declares key x => exact hholds
    | value x text => exact hvalues x _ hholds
    | started i q =>
        have hi : index ≠ i := by
          rintro rfl
          exact hfirst q hfact
        refine ⟨?_, hholds.2⟩
        change (s.specs.modify index _)[i]? = some q
        rw [Array.getElem?_modify, if_neg hi]
        exact hholds.1
  · intro key tv text htv hkind hvalue hty
    exact (h.valued.named key tv text htv hkind hvalue hty).imp fun x hx => ⟨hx.1, hvalues x _ hx.2⟩
  · exact (flatMap_symbols_modify s.specs index .finished).symm ▸ h.valued.apart
  · intro q hq x hx
    obtain ⟨i, q', hq', hsame, -⟩ := hmodified q hq
    exact (h.valued.there q' (hmem hq') x (hsame ▸ hx)).trans_eq hsettling.size.symm
  · intro q hq hprogress x hx
    obtain ⟨i, q', hq', -, hother⟩ := hmodified q hq
    obtain ⟨hi, rfl⟩ := hother hprogress
    refine (hsettling.values x (h.valued.not_mem_symbols hp hq' hi hx)).trans ?_
    exact h.valued.unset q' (hmem hq') hprogress x hx

-- A specification is looked into in its own file.
instance (index : Nat) : Runs (Passing ground file) (resolveSpec r index) := by
  unfold resolveSpec
  refine .get_bind fun s => ?_
  dsimp only
  split
  case h_1 pending hpending =>
    split
    case h_1 => exact Runs.run (R := Passing ground file) s
    case h_2 => exact Runs.run (R := Passing ground file) s
    case h_3 huntouched =>
      intro rest hs
      have hparts : pending.parts =
          partsIn pending.context.file (pending.spec.type?.toList ++ pending.spec.listed 0) := by
        unfold PendingSpec.parts
        rw [huntouched]
      have hfirst (q : PendingSpec) : Fact.started index q ∉ ground.facts := by
        intro hq
        obtain ⟨hq, hrunning⟩ := hs.valued.facts _ hq
        rw [hpending] at hq
        cases hq
        cases huntouched.symm.trans hrunning
      have hvalues :
          Visits (ground.learn [.started index { pending with progress := .running }]) file pending.parts
          (within pending.context (specValues r pending.spec pending.symbols.length pending.isConst)) :=
        Visits.within (hparts ▸ reads_specValues _ _ _)
      have hmid := hvalues rest _ (hs.start hpending huntouched)
      have hsettle (values : List (Ty × Option Constant)) : Runs (Settling pending.symbols)
          (forIn (pending.symbols.zip values) PUnit.unit fun (id, ty, value) _ => do
            settle pending.isConst id ty value
            pure (ForInStep.yield PUnit.unit)) := by
        refine .forIn fun (id, ty, value) hentry _ => ?_
        exact .bind (settling_settle (List.of_mem_zip hentry).1 _ ty value) fun _ => inferInstance
      exact Ahead.finish hmid hfirst ((hsettle _).run _)
  case h_2 => exact Runs.run (R := Passing ground file) s

instance (id : SymbolId) : Runs (Passing ground file) (ensureResolved r id) := by
  unfold ensureResolved
  refine .bind inferInstance fun s => ?_
  split <;> infer_instance

end Specifications

end SpriteScript.Check
