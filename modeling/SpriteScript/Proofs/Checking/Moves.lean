import SpriteScript.Proofs.Checking.State

-- What the moves on the state of a check keep.
namespace SpriteScript.Check

variable {w : Stage} {file : FileId} {α β γ : Type}

section Combinators

variable {R : State → State → Prop} [IsPreorder State R] {a b : CheckM α} {f : α → CheckM β}

theorem Runs.of_read (h : ∀ s, (a.run s).2 = s) : Runs R a :=
  ⟨fun s => by
    rw [h s]
    exact refl_of R s⟩

theorem Runs.bind (ha : Runs R a) (hf : ∀ x, Runs R (f x)) : Runs R (a >>= f) :=
  ⟨fun s => trans_of R (ha.run s) ((hf _).run _)⟩

instance (x : α) : Runs R (pure x : CheckM α) := .of_read fun _ => rfl

instance [ha : Runs R a] [hf : ∀ x, Runs R (f x)] : Runs R (a >>= f) := .bind ha hf

instance {c : Prop} [Decidable c] [Runs R a] [Runs R b] : Runs R (if c then a else b) := by
  split <;> assumption

instance [ha : Runs R a] : Runs R (discard a) := ⟨ha.run⟩

instance {g : α → β} [ha : Runs R a] : Runs R (g <$> a) := ⟨ha.run⟩

theorem Runs.optionMapM {o : Option γ} {f : γ → CheckM β}
    (h : ∀ x, o = some x → Runs R (f x)) : Runs R (o.mapM f) := by
  cases o with
  | none => exact (inferInstance : Runs R (pure none : CheckM (Option β)))
  | some x =>
      have := h x rfl
      exact (inferInstance : Runs R (some <$> f x))

theorem Runs.forIn {l : List γ} {init : β} {f : γ → β → CheckM (ForInStep β)}
    (h : ∀ x ∈ l, ∀ acc, Runs R (f x acc)) : Runs R (forIn l init f) := by
  induction l generalizing init with
  | nil => exact (inferInstance : Runs R (pure init : CheckM β))
  | cons x rest ih =>
      rw [List.forIn_cons]
      refine .bind (h x List.mem_cons_self init) fun step => ?_
      cases step with
      | done acc => infer_instance
      | yield acc => exact ih fun y hy => h y (List.mem_cons_of_mem x hy)

theorem Runs.forM {l : List γ} {f : γ → CheckM PUnit} (h : ∀ x ∈ l, Runs R (f x)) :
    Runs R (forM l f) := by
  induction l with
  | nil => exact (inferInstance : Runs R (pure ⟨⟩ : CheckM PUnit))
  | cons x rest ih =>
      rw [List.forM_cons]
      exact .bind (h x List.mem_cons_self) fun _ => ih fun y hy => h y (List.mem_cons_of_mem x hy)

theorem Runs.mapM {l : List γ} {f : γ → CheckM β} (h : ∀ x ∈ l, Runs R (f x)) :
    Runs R (l.mapM f) := by
  induction l with
  | nil => exact (inferInstance : Runs R (pure [] : CheckM (List β)))
  | cons x rest ih =>
      rw [List.mapM_cons]
      have := ih fun y hy => h y (List.mem_cons_of_mem x hy)
      exact .bind (h x List.mem_cons_self) fun _ => inferInstance

theorem Runs.foldlM {l : List γ} {init : β} {f : β → γ → CheckM β}
    (h : ∀ x ∈ l, ∀ acc, Runs R (f acc x)) : Runs R (l.foldlM f init) := by
  induction l generalizing init with
  | nil => exact (inferInstance : Runs R (pure init : CheckM β))
  | cons x rest ih =>
      rw [List.foldlM_cons]
      exact .bind (h x List.mem_cons_self init) fun _ => ih fun y hy => h y (List.mem_cons_of_mem x hy)

theorem Runs.filterMapM {l : List γ} {f : γ → CheckM (Option β)} (h : ∀ x ∈ l, Runs R (f x)) :
    Runs R (l.filterMapM f) := by
  induction l with
  | nil => exact (inferInstance : Runs R (pure [] : CheckM (List β)))
  | cons x rest ih =>
      rw [List.filterMapM_cons]
      refine .bind (h x List.mem_cons_self) fun found => ?_
      have hrest := ih fun y hy => h y (List.mem_cons_of_mem x hy)
      cases found <;> infer_instance

-- Each entry of a list gets its turn.
theorem exists_run_forM {l : List γ} {f : γ → CheckM PUnit} {x : γ} (hl : ∀ y ∈ l, Runs R (f y))
    (hx : x ∈ l) (s : State) : ∃ s', R s s' ∧ R ((f x).run s').2 ((ForM.forM l f).run s).2 := by
  induction l generalizing s with
  | nil => cases hx
  | cons y rest ih =>
      have hrest (z : γ) (hz : z ∈ rest) := hl z (List.mem_cons_of_mem y hz)
      rw [List.forM_cons]
      rcases List.mem_cons.mp hx with rfl | hx
      · exact ⟨s, refl_of R s, (Runs.forM hrest).run _⟩
      · obtain ⟨s', hbefore, hbehind⟩ := ih hrest hx ((f y).run s).2
        exact ⟨s', trans_of R ((hl y List.mem_cons_self).run s) hbefore, hbehind⟩

-- A loop that always goes on.
theorem forIn_eq_forM (l : List γ) (g : γ → CheckM PUnit) :
    (forIn l PUnit.unit fun x _ => do g x; pure (.yield PUnit.unit)) = ForM.forM l g := by
  induction l with
  | nil => rfl
  | cons x rest ih =>
      rw [List.forIn_cons, List.forM_cons, bind_assoc]
      simp only [pure_bind, ih]

end Combinators

section Facts

variable {a : CheckM α} {f : α → CheckM β} {P : α → Prop} {Q : β → Prop}

theorem Ensures.pure {x : α} (h : P x) : Ensures w file (Pure.pure x) P := fun _ _ => h

theorem Ensures.bind (ha : Stays w file a) (h : Ensures w file a P)
    (hf : ∀ x, P x → Ensures w file (f x) Q) : Ensures w file (a >>= f) Q :=
  fun s hs => hf _ (h s hs) _ ((ha.run s).sane hs)

theorem Ensures.mapM {l : List γ} {f : γ → CheckM β} {P : γ → β → Prop}
    (hf : ∀ x ∈ l, Stays w file (f x)) (h : ∀ x ∈ l, Ensures w file (f x) (P x)) :
    Ensures w file (l.mapM f) (List.Forall₂ P l) := by
  induction l with
  | nil => exact .pure .nil
  | cons x rest ih =>
      have hrest (z : γ) (hz : z ∈ rest) := List.mem_cons_of_mem x hz
      rw [List.mapM_cons]
      refine .bind (hf x List.mem_cons_self) (h x List.mem_cons_self) fun y hy => ?_
      refine .bind (.mapM fun z hz => hf z (hrest z hz))
        (ih (fun z hz => hf z (hrest z hz)) fun z hz => h z (hrest z hz)) fun ys hys => ?_
      exact .pure (.cons hy hys)

theorem Ensures.yields (ha : Keeps w file a) (h : Ensures w file a P) : Yields w file a P :=
  ⟨ha, fun s hs _ _ => h s hs⟩

theorem Keeps.yields (ha : Keeps w file a) : Yields w file a fun _ => True :=
  ⟨ha, fun _ _ _ _ => trivial⟩

theorem Yields.pure {x : α} (h : P x) : Yields w file (Pure.pure x) P :=
  ⟨inferInstance, fun _ _ _ _ => h⟩

-- The rest of an action may use what was found, and stays in any case.
theorem Yields.bind (ha : Yields w file a P) (hs : ∀ x, Stays w file (f x))
    (hf : ∀ x, P x → Yields w file (f x) Q) : Yields w file (a >>= f) Q := by
  have hmid (s : State) (hsane : Sane w file s) := (ha.keeps.run s).sane hsane
  have hagrees (s : State) (hsane : Sane w file s) :=
    (((hs (a.run s).1).run (a.run s).2).extending (hmid s hsane)).agrees (w := w)
  have hstays : Stays w file a := have := ha.keeps; inferInstance
  refine ⟨⟨fun s => ?_⟩, fun s hsane ht h => ?_⟩
  · refine ⟨(Runs.bind hstays hs).run s, fun hsane ht h => ?_⟩
    have h' := hagrees s hsane h
    exact ((hf _ (ha.finds s hsane ht h')).keeps.run _).tables (hmid s hsane)
      ((ha.keeps.run s).tables hsane ht h') h
  · have h' := hagrees s hsane h
    exact (hf _ (ha.finds s hsane ht h')).finds _ (hmid s hsane) ((ha.keeps.run s).tables hsane ht h') h

theorem Yields.mono {P' : α → Prop} (h : Yields w file a P) (hP : ∀ x, P x → P' x) : Yields w file a P' :=
  ⟨h.keeps, fun s hs ht hagrees => hP _ (h.finds s hs ht hagrees)⟩

theorem Yields.foldlM {l : List γ} {init : α} {f : α → γ → CheckM α} (hinit : P init)
    (hs : ∀ x ∈ l, ∀ acc, Stays w file (f acc x))
    (hf : ∀ x ∈ l, ∀ acc, P acc → Yields w file (f acc x) P) : Yields w file (l.foldlM f init) P := by
  induction l generalizing init with
  | nil => exact .pure hinit
  | cons x rest ih =>
      have hrest (y : γ) (hy : y ∈ rest) := List.mem_cons_of_mem x hy
      rw [List.foldlM_cons]
      refine .bind (hf x List.mem_cons_self init hinit)
        (fun acc => .foldlM fun y hy => hs y (hrest y hy)) fun acc hacc => ?_
      exact ih hacc (fun y hy => hs y (hrest y hy)) fun y hy => hf y (hrest y hy)

-- A sane state is one to go on from.
theorem Sane.rebase {s : State} (h : Sane w file s) : Sane { w with base := s.model } file s :=
  { h with base := .refl _ }

theorem Sane.of_rebase {m : Model} {s : State} (hbase : w.base.Extends m)
    (h : Sane { w with base := m } file s) : Sane w file s :=
  { h with base := hbase.trans h.base }

theorem Keeping.of_rebase {s s' : State} (h : Keeping { w with base := s.model } file s s')
    (hs : Sane w file s) : Keeping w file s s' where
  sane _ := (h.sane hs.rebase).of_rebase hs.base
  extending _ := h.extending hs.rebase
  tables _ := h.tables hs.rebase

theorem Stays.bind_of (ha : Stays w file a) (h : Ensures w file a P)
    (hf : ∀ x, P x → Stays w file (f x)) : Stays w file (a >>= f) := by
  refine ⟨fun s => ⟨fun hs => ?_, fun hs => ?_⟩⟩
  · exact ((hf _ (h s hs)).run _).sane ((ha.run s).sane hs)
  · exact ((ha.run s).extending hs).trans (((hf _ (h s hs)).run _).extending ((ha.run s).sane hs))

theorem Keeps.bind_of (ha : Keeps w file a) (h : Ensures w file a P)
    (hf : ∀ x, P x → Keeps w file (f x)) : Keeps w file (a >>= f) where
  run s := by
    refine ⟨(Stays.bind_of inferInstance h fun x hx => have := hf x hx; inferInstance).run s,
      fun hs ht hagrees => ?_⟩
    have hmid := (ha.run s).sane hs
    have hnext := (hf _ (h s hs)).run (a.run s).2
    exact hnext.tables hmid ((ha.run s).tables hs ht ((hnext.extending hmid).agrees hagrees)) hagrees

-- The rest of an action may go on from the model that the first part leaves.
theorem Keeps.bind_from {P : Model → α → Prop} (ha : Keeps w file a)
    (h : ∀ s, Sane w file s → P (a.run s).2.model (a.run s).1)
    (hf : ∀ m x, P m x → Keeps { w with base := m } file (f x)) : Keeps w file (a >>= f) where
  run s := by
    have hnext (hs : Sane w file s) := (hf _ _ (h s hs)).run (a.run s).2
    have hmid (hs : Sane w file s) := (ha.run s).sane hs
    refine ⟨⟨fun hs => ?_, fun hs => ?_⟩, fun hs ht hagrees => ?_⟩
    · exact ((hnext hs).sane (hmid hs).rebase).of_rebase (hmid hs).base
    · exact ((ha.run s).extending hs).trans ((hnext hs).extending (hmid hs).rebase)
    · have hext := (hnext hs).extending (hmid hs).rebase
      exact (hnext hs).tables (hmid hs).rebase ((ha.run s).tables hs ht (hext.agrees hagrees)) hagrees

theorem Keeps.bind_yields (ha : Yields w file a P) (hs : ∀ x, Stays w file (f x))
    (hf : ∀ x, P x → Keeps w file (f x)) : Keeps w file (a >>= f) :=
  (Yields.bind (Q := fun _ => True) ha hs fun x hx => (hf x hx).yields).keeps

theorem Keeps.bind_find (ha : Keeps w file a) (h : Finds w file a P) (hs : ∀ x, Stays w file (f x))
    (hf : ∀ x, P x → Keeps w file (f x)) : Keeps w file (a >>= f) :=
  .bind_yields ⟨ha, h⟩ hs hf

end Facts

-- The place where the check is lies in the file, and has room for the region.
theorem Keeps.context_bind {P : Region → Prop} (hP : P w) {f : Context → CheckM α}
    (h : ∀ (w : Stage) (c : Context), P w → c.file = file → w.base.outline.Encloses c.scope c.file w.span →
      Keeps w file (f c)) :
    Keeps w file (context >>= f) :=
  .bind_from (P := fun m c => c.file = file ∧ m.outline.Encloses c.scope c.file w.span)
    (.of_read fun _ => rfl)
    (fun _ hs => ⟨hs.context, hs.context.symm ▸ hs.room⟩) fun _ c hc => h _ c hP hc.1 hc.2

section Trees

instance (priority := low) (f : Tree → CheckM α) (t : Tree) [hf : KeepsOn w file f]
    [ht : Sits w file t] : Keeps w file (f t) :=
  hf.keeps t ht

variable {ts : List Tree} [hts : SitAll w file ts]

instance {f : Tree → CheckM PUnit} [hf : KeepsOn w file f] : Keeps w file (forM ts f) :=
  .forM fun t ht => hf.keeps t (hts.sits t ht)

instance {f : Tree → CheckM β} [hf : KeepsOn w file f] : Keeps w file (ts.mapM f) :=
  .mapM fun t ht => hf.keeps t (hts.sits t ht)

end Trees

section Reading

variable {R : State → State → Prop} [IsPreorder State R]

instance : Runs R (get : CheckM State) := .of_read fun _ => rfl

instance : Runs R model := .of_read fun _ => rfl

instance : Runs R context := .of_read fun _ => rfl

instance (id : SymbolId) : Runs R (symbol id) := .of_read fun _ => rfl

instance (id : NamedId) : Runs R (namedType id) := .of_read fun _ => rfl

instance (ty : Ty) : Runs R (underlying ty) := .of_read fun _ => rfl

instance (ty : Ty) : Runs R (basicOf? ty) := .of_read fun _ => rfl

instance (ty : Ty) : Runs R (display ty) := .of_read fun _ => rfl

instance (source target : Ty) : Runs R (assignable source target) := .of_read fun _ => rfl

instance (name : String) (offset? : Option Nat) : Runs R (lookup? name offset?) := .of_read fun _ => rfl

instance (scope : ScopeId) (name : String) : Runs R (boundIn? scope name) := .of_read fun _ => rfl

instance (ident : Token) (kind : SymbolKind) : Runs R (declared ident kind) := by
  unfold declared
  infer_instance

theorem ensures_context : Ensures w file context fun c => c.file = file := fun _ hs => hs.context

theorem finds_model : Finds w file model fun m => m.Fits w ∧ m.Agrees w :=
  fun _ _ ht hagrees => ⟨ht.model, hagrees⟩

theorem finds_namedType {id : NamedId} : Finds w file (namedType id) fun n => Spelled w n.fields :=
  fun _ _ ht _ => ht.model.spelled_fields id

theorem finds_lookup? {name : String} {offset? : Option Nat} (hne : name ≠ "") :
    Finds w file (lookup? name offset?) fun found => ∀ id, found = some id → Names w id name :=
  fun _ _ ht hagrees _ h => ht.model.names_of_lookup? hagrees h hne

theorem finds_boundIn? {scope : ScopeId} {name : String} :
    Finds w file (boundIn? scope name) fun found => ∀ entry, found = some entry →
      Names w entry.symbol name :=
  fun _ _ ht _ _ h => ht.model.names_of_bound? h

theorem ensures_declared {ident : Token} {kind : SymbolKind} : Ensures w file (declared ident kind)
    fun x => x.origin = ⟨ident.text, kind, some ⟨file, rangeOf ident⟩, false⟩ := by
  intro s hs
  rw [← hs.context]
  rfl

end Reading

section Changes

variable {s : State}

theorem Deferred.mono {m m' : Model} {c : Context} {P : Region → Prop} (h : Deferred w m c P)
    (hext : m.Extends m') : Deferred w m' c P := by
  obtain ⟨span, hroom, hp⟩ := h
  exact ⟨span, hext.encloses _ _ _ hroom, hp⟩

-- What is put off where there is room for the region.
theorem Sane.deferred (h : Sane w file s) {c : Context} {P : Region → Prop}
    (hroom : w.base.outline.Encloses c.scope c.file w.span) (hp : P w) : Deferred w s.model c P :=
  ⟨w.span, h.base.encloses _ _ _ hroom, hp⟩

-- A change of places.
theorem Sane.of_context (h : Sane w file s) {c : Context} {span : Text.ByteRange}
    (hroom : s.model.outline.Encloses c.scope c.file span) :
    Sane { w with span } c.file { s with context := c } :=
  { h with context := rfl, room := hroom }

-- A change of the tables alone.
theorem Sane.of_tables (h : Sane w file s) (info : Info) {model : Model} (hext : s.model.Extends model)
    (hnested : model.outline.Nested w.text?) : Sane w file { s with model, info } where
  context := h.context
  room := hext.encloses _ _ _ h.room
  nested := hnested
  base := h.base.trans hext
  problems := h.problems
  specs p hp := (h.specs p hp).mono hext
  typeDecls p hp := (h.typeDecls p hp).mono hext
  aliases p hp := (h.aliases p hp).mono hext
  funcs p hp := (h.funcs p hp).mono hext
  crashed := h.crashed

-- An action that leaves the tables alone.
theorem Keeps.of_sane {a : CheckM α} (hmodel : ∀ s, (a.run s).2.model = s.model)
    (hinfo : ∀ s, (a.run s).2.info = s.info) (hclasses : ∀ s, (a.run s).2.classes = s.classes)
    (hproblems : ∀ s, s.problems <:+ (a.run s).2.problems)
    (h : ∀ s, Sane w file s → Sane w file (a.run s).2) : Keeps w file a where
  run s := by
    refine ⟨⟨h s, fun _ => ?_⟩, fun _ ht _ => ?_⟩
    · rw [show (a.run s).2 = { (a.run s).2 with model := s.model, info := s.info, classes := s.classes }
        by rw [← hmodel s, ← hinfo s, ← hclasses s]]
      exact ⟨.refl _, List.prefix_rfl, hproblems s, fun _ h => h⟩
    · exact ⟨hmodel s ▸ ht.model, hinfo s ▸ ht.info⟩

-- Problems may be reported in any file, at a place of it.
instance (other : FileId) (range : Text.ByteRange) (p : Problem) [h : InText w other range]
    [hp : Refuted p.isOfResource] : Keeps w file (problemIn other range p) :=
  .of_sane (fun _ => rfl) (fun _ => rfl) (fun _ => rfl) (fun _ => List.suffix_cons ..) fun _ hs =>
    { hs with problems := List.forall_mem_cons.mpr ⟨⟨h, hp.eq_false⟩, hs.problems⟩ }

instance (range : Text.ByteRange) (p : Problem) [InText w file range] [Refuted p.isOfResource] :
    Keeps w file (problem range p) := by
  unfold problem
  refine Keeps.bind_of inferInstance ensures_context fun c hc => ?_
  rw [hc]
  infer_instance

-- In another place the body has to be right for a range that the scope there has room for.
section Within

variable {c : Context} {span : Text.ByteRange} (hroom : w.base.outline.Encloses c.scope c.file span)

include hroom

theorem Sane.within (hs : Sane w file s) : Sane { w with span } c.file { s with context := c } :=
  hs.of_context (hs.base.encloses _ _ _ hroom)

theorem Stays.within {body : CheckM α} (hb : Stays { w with span } c.file body) :
    Stays w file (within c body) where
  run s := by
    have hstart (hs : Sane w file s) := hs.within hroom
    refine ⟨fun hs => ?_, fun hs => ?_⟩
    · have hend := (hb.run _).sane (hstart hs)
      have hext := (hb.run _).extending (hstart hs)
      have hroom := hext.model.encloses _ _ _ hs.room
      rw [← hs.context] at hroom
      have hback := hend.of_context hroom
      rw [hs.context] at hback
      exact hback
    · have hext := (hb.run _).extending (hstart hs)
      exact ⟨hext.model, hext.classes, hext.problems, hext.defs⟩

theorem Keeps.within {body : CheckM α} (hb : Keeps { w with span } c.file body) :
    Keeps w file (within c body) where
  run s := by
    refine ⟨(Stays.within hroom inferInstance).run s, fun hs ht hagrees => ?_⟩
    have hbody := (hb.run _).tables (hs.within hroom) ⟨ht.model, ht.info⟩ hagrees
    exact ⟨hbody.model, hbody.info⟩

theorem Yields.within {body : CheckM α} {P : α → Prop} (h : Yields { w with span } c.file body P) :
    Yields w file (within c body) P where
  keeps := .within hroom h.keeps
  finds _ hs ht hagrees := h.finds _ (hs.within hroom) ⟨ht.model, ht.info⟩ hagrees

end Within

-- The rest of the place may change; the file and the scope stay.
theorem Keeps.modify_context {f : Context → Context} (h : ∀ c, (f c).file = c.file ∧ (f c).scope = c.scope) :
    Keeps w file (modify fun s => { s with context := f s.context } : CheckM Unit) :=
  .of_sane (fun _ => rfl) (fun _ => rfl) (fun _ => rfl) (fun _ => List.suffix_rfl) fun s hs =>
    { hs with context := (h s.context).1.trans hs.context, room := (h s.context).2.symm ▸ hs.room }

section Tables

variable {f : Model → Model}

theorem Stays.modifyModel (hext : ∀ m : Model, m.Extends (f m))
    (houtline : ∀ m : Model, (f m).outline = m.outline) :
    Stays w file (modifyModel f) where
  run s := ⟨fun hs => hs.of_tables s.info (hext s.model) ((houtline s.model).symm ▸ hs.nested),
    fun _ => ⟨hext s.model, List.prefix_rfl, List.suffix_rfl, fun _ h => h⟩⟩

theorem Keeps.modifyModel (hext : ∀ m : Model, m.Extends (f m))
    (houtline : ∀ m : Model, (f m).outline = m.outline)
    (hf : ∀ m : Model, m.Fits w → m.Agrees w → (f m).Fits w) : Keeps w file (modifyModel f) where
  run s := ⟨(Stays.modifyModel hext houtline).run s, fun _ ht hagrees =>
    ⟨hf s.model ht.model ((hext s.model).origins.trans hagrees), ht.info⟩⟩

instance (scope : ScopeId) (name : String) (entry : ScopeEntry) :
    Stays w file (modifyModel fun m => m.declare scope name entry) :=
  .modifyModel (fun m => Model.extends_declare m scope name entry) fun _ => Model.outline_declare

instance (scope : ScopeId) (name : String) (id : SymbolId) (visibleFrom : Nat) (bodyLocal : Bool)
    [h : Names w id name] :
    Keeps w file (modifyModel fun m => m.declare scope name ⟨id, visibleFrom, bodyLocal⟩) :=
  .modifyModel (fun m => Model.extends_declare m scope name _) (fun _ => Model.outline_declare)
    fun _ hm _ => hm.declare h

instance (id : NamedId) (f : NamedType → NamedType) :
    Stays w file (modifyModel fun m => m.modifyNamed id f) :=
  .modifyModel (fun m => Model.extends_modifyNamed m id f) fun _ => rfl

theorem Keeps.modifyNamed {id : NamedId} {f : NamedType → NamedType}
    (hf : ∀ n, Spelled w n.fields → Spelled w (f n).fields) :
    Keeps w file (Check.modifyModel fun m => m.modifyNamed id f) :=
  .modifyModel (fun m => Model.extends_modifyNamed m id f) (fun _ => rfl) fun _ hm _ => hm.modifyNamed hf

theorem Keeps.modifySymbol {id : SymbolId} {f : Symbol → Symbol}
    (hf : ∀ x, (f x).origin = x.origin) :
    Keeps w file (Check.modifyModel fun m => m.modifySymbol id f) :=
  .modifyModel (fun m => Model.extends_modifySymbol m id hf) (fun _ => rfl) fun _ hm _ => hm.modifySymbol hf

instance (x : Symbol) : Stays w file (addSymbol x) where
  run s := ⟨fun hs => hs.of_tables s.info (Model.extends_addSymbol s.model x) hs.nested,
    fun _ => ⟨Model.extends_addSymbol s.model x, List.prefix_rfl, List.suffix_rfl, fun _ h => h⟩⟩

theorem Keeps.addSymbol {x : Symbol} (hx : x.origin.Fits w) : Keeps w file (addSymbol x) where
  run s := ⟨(inferInstance : Stays w file (Check.addSymbol x)).run s,
    fun _ ht _ => ⟨ht.model.addSymbol hx, ht.info⟩⟩

theorem finds_addSymbol {x : Symbol} : Finds w file (addSymbol x) fun id =>
    w.origins[id.index]? = some x.origin :=
  fun _ _ _ hagrees => Model.origin_addSymbol hagrees

instance (n : NamedType) : Stays w file (addNamed n) where
  run s := ⟨fun hs => hs.of_tables s.info (Model.extends_addNamed s.model n) hs.nested,
    fun _ => ⟨Model.extends_addNamed s.model n, List.prefix_rfl, List.suffix_rfl, fun _ h => h⟩⟩

theorem Keeps.addNamed {n : NamedType} (hn : n.fields = []) : Keeps w file (addNamed n) where
  run s := ⟨(inferInstance : Stays w file (Check.addNamed n)).run s,
    fun _ ht _ => ⟨ht.model.addNamed hn, ht.info⟩⟩

theorem Stays.modifyInfo {f : Info → Info}
    (h : ∀ i key, i.defs.contains key = true → (f i).defs.contains key = true) :
    Stays w file (modifyInfo f) where
  run s :=
    ⟨fun hs => hs.of_tables (f s.info) (.refl _) hs.nested,
      fun _ => ⟨.refl _, List.prefix_rfl, List.suffix_rfl, h s.info⟩⟩

-- What the checker finds out about types and calls.
theorem Keeps.modifyInfo {f : Info → Info} (hdefs : ∀ i, (f i).defs = i.defs)
    (huses : ∀ i, (f i).uses = i.uses) (hsites : ∀ i, (f i).useSites = i.useSites) :
    Keeps w file (modifyInfo f) where
  run s := ⟨(Stays.modifyInfo fun i _ hkey => by rwa [hdefs i]).run s,
    fun _ ht _ => ⟨ht.model, ht.info.of_eq (hdefs s.info) (huses s.info) (hsites s.info)⟩⟩

end Tables

-- Scopes

-- A scope that is put into one with room for it.
theorem Sane.addScope (hs : Sane w file s) {x : Scope} {parent : ScopeId} {other : FileId}
    (hparent : x.parent = some parent) (hchildren : x.children = #[])
    (hfile : x.file = none ∨ x.file = some other) (hspans : x.frame.Spans w.text?)
    (hroom : s.model.outline.Encloses parent other x.range) :
    Sane w file { s with model := (s.model.addScope x).2 } ∧
      (s.model.addScope x).2.outline.frames[(s.model.addScope x).1.index]? = some x.frame := by
  obtain ⟨outer, houter, hholds⟩ := hroom
  have hlt := (List.getElem?_eq_some_iff.mp houter).1
  constructor
  · refine hs.of_tables s.info (Model.extends_addScope s.model hparent) ?_
    rw [Model.outline_addScope hparent]
    refine hs.nested.add hparent (congrArg Array.toList hchildren) hspans ⟨outer, houter, fun g hg => ?_⟩
    obtain rfl : g = other := by
      rcases hfile with hnone | hsome
      · exact absurd (hnone.symm.trans hg) (by simp)
      · exact Option.some.inj (hg.symm.trans hsome)
    exact hholds
  · rw [Model.outline_addScope hparent, Model.fst_addScope]
    exact Outline.getElem?_add_length hlt

-- The body is run in a new scope, for which there is room in the old one.
theorem Keeps.inScope {kind : ScopeKind} {inclusiveEnd : Bool} {t : Tree} {body : CheckM α}
    [ht : Sits w file t] (h : Keeps { w with span := t.range } file body) :
    Keeps w file (inScope kind t.range inclusiveEnd body) where
  run s := by
    obtain ⟨x, hx⟩ : ∃ x : Scope, x = { kind, parent := some s.context.scope, file := some s.context.file
                                        range := t.range, inclusiveEnd } := ⟨_, rfl⟩
    obtain ⟨start, hstart⟩ : ∃ start : State, start = { s with
        model := (s.model.addScope x).2
        context := { s.context with scope := (s.model.addScope x).1 } } := ⟨_, rfl⟩
    have hrun : ((Check.inScope kind t.range inclusiveEnd body).run s).2 = { (body.run start).2 with
        context := { (body.run start).2.context with scope := s.context.scope } } := by
      rw [hstart, hx]
      rfl
    have hparent : x.parent = some s.context.scope := by rw [hx]
    have hext : s.Extends start := by
      rw [hstart]
      exact ⟨Model.extends_addScope s.model hparent, List.prefix_rfl, List.suffix_rfl, fun _ h => h⟩
    have hopen (hs : Sane w file s) : Sane { w with span := t.range } file start := by
      have hfile : x.file = some file := by rw [hx, hs.context]
      have hrange : x.range = t.range := by rw [hx]
      have hspans : x.frame.Spans w.text? := fun other hother _ => by
        obtain rfl : file = other := Option.some.inj (hfile.symm.trans hother)
        obtain ⟨text, htext, hpart⟩ := ht.part
        exact ⟨text, htext, t, hpart, hrange.symm⟩
      obtain ⟨hplaced, hfound⟩ := hs.addScope hparent (by rw [hx]) (.inr hfile) hspans
        (hrange ▸ hs.room.of_includes ht.inside)
      have hroom : (s.model.addScope x).2.outline.Encloses (s.model.addScope x).1 file t.range :=
        hrange ▸ ⟨x.frame, hfound, Frame.holds_range hfile⟩
      rw [hstart]
      exact { hplaced with room := hroom }
    have hbody := h.run start
    rw [hrun]
    refine ⟨⟨fun hs => ?_, fun hs => ?_⟩, fun hs ht hagrees => ?_⟩
    · have hend := hbody.sane (hopen hs)
      have hall := hext.trans (hbody.extending (hopen hs))
      exact { hend with room := hall.model.encloses _ _ _ hs.room }
    · have hall := hext.trans (hbody.extending (hopen hs))
      exact ⟨hall.model, hall.classes, hall.problems, hall.defs⟩
    · have hfits : Tables w start := by
        rw [hstart, hx]
        exact ⟨ht.model.addScope rfl, ht.info⟩
      have hend := hbody.tables (hopen hs) hfits hagrees
      exact ⟨hend.model, hend.info⟩

-- A new scope that is noted in the tables of the model.
def openScope (x : Scope) (note : ScopeId → Model → Model) : CheckM ScopeId := do
  let scope ← addScope x
  modifyModel (note scope)
  return scope

-- Only which scope is which is noted, and the scopes of packages and files are as they should be.
structure Notes (w : Setting) (x : Scope) (note : ScopeId → Model → Model) : Prop where
  symbols : ∀ id m, (note id m).symbols = m.symbols
  named : ∀ id m, (note id m).named = m.named
  scopes : ∀ id m, (note id m).scopes = m.scopes
  files : ∀ id m, m.fileScopes <+: (note id m).fileScopes
  nested : ∀ id m, m.outline.frames[id.index]? = some x.frame → m.outline.Nested w.text? →
    (note id m).outline.Nested w.text?

section OpenScope

variable {x : Scope} {parent : ScopeId} {note : ScopeId → Model → Model} {other : FileId}

theorem Notes.extends (h : Notes w x note) (id : ScopeId) (m : Model) : m.Extends (note id m) := by
  have horigins : (note id m).origins = m.origins := by rw [Model.origins, Model.origins, h.symbols]
  have hframes : (note id m).outline.frames = m.outline.frames := by
    rw [Model.outline, Model.outline, h.scopes]
  refine ⟨horigins ▸ List.prefix_rfl, h.files id m, fun scope file range hroom => ?_⟩
  unfold Outline.Encloses
  rw [hframes]
  exact hroom

theorem Notes.fits (h : Notes w x note) {id : ScopeId} {m : Model} (hm : m.Fits w) : (note id m).Fits w := by
  refine ⟨?_, ?_, ?_, ?_⟩
  · rw [Model.origins, h.symbols]
    exact hm.origins
  · rw [h.scopes]
    exact hm.once
  · rw [h.scopes]
    exact hm.entries
  · rw [h.named]
    exact hm.fields

variable (hparent : x.parent = some parent) (hentries : x.entries = #[]) (hchildren : x.children = #[])
variable (hfile : x.file = none ∨ x.file = some other) (hspans : x.frame.Spans w.text?)
variable (hroom : w.base.outline.Encloses parent other x.range) (hnote : Notes w x note)

include hparent hentries hchildren hfile hspans hroom hnote

theorem keeps_openScope : Keeps w file (openScope x note) where
  run s := by
    have hext :=
      (Model.extends_addScope s.model hparent).trans
      (hnote.extends (s.model.addScope x).1 (s.model.addScope x).2)
    refine ⟨⟨fun hs => ?_, fun _ => ⟨hext, List.prefix_rfl, List.suffix_rfl, fun _ h => h⟩⟩, fun _ ht _ => ?_⟩
    · obtain ⟨hplaced, hfound⟩ := hs.addScope hparent hchildren hfile hspans (hs.base.encloses _ _ _ hroom)
      exact hplaced.of_tables s.info (hnote.extends _ _) (hnote.nested _ _ hfound hplaced.nested)
    · exact ⟨hnote.fits (ht.model.addScope hentries), ht.info⟩

omit hentries in
theorem found_openScope {s : State} (hs : Sane w file s) : ((openScope x note).run s).2.model.outline.frames[
    ((openScope x note).run s).1.index]? = some x.frame := by
  obtain ⟨-, hfound⟩ := hs.addScope hparent hchildren hfile hspans (hs.base.encloses _ _ _ hroom)
  have hscopes : ((openScope x note).run s).2.model.scopes = (s.model.addScope x).2.scopes := hnote.scopes _ _
  rw [Model.outline] at hfound ⊢
  rw [hscopes]
  exact hfound

end OpenScope

theorem Keeps.returning {results : List Ty} {body : CheckM α} (h : Keeps w file body) :
    Keeps w file (returning results body) := by
  unfold Check.returning
  have (results : Option (List Ty)) : Keeps w file
      (modify fun s => { s with context := { s.context with results } } : CheckM Unit) :=
    .modify_context (f := ({ · with results })) fun _ => ⟨rfl, rfl⟩
  infer_instance

end Changes

section Records

instance (t : Tree) (ty : Ty) (value : Option Constant) : Keeps w file (recordType t ty value) := by
  have (f : FileId) : Keeps w file (modifyInfo (·.recordType f t ⟨ty, value⟩)) := by
    refine .modifyInfo ?_ ?_ ?_ <;> intro i <;> unfold Info.recordType <;> split <;> rfl
  unfold recordType
  infer_instance

instance (t : Tree) (ty : Ty) : Keeps w file (recordExpected t ty) := by
  have (f : FileId) : Keeps w file (modifyInfo (·.recordExpected f t ty)) := by
    refine .modifyInfo ?_ ?_ ?_ <;> intro i <;> unfold Info.recordExpected <;> split <;>
      first | rfl | (split <;> rfl)
  unfold recordExpected
  infer_instance

instance (t : Tree) (call : CallInfo) : Keeps w file (recordCall t call) := by
  have (f : FileId) : Keeps w file (modifyInfo (·.recordCall f t call)) := by
    refine .modifyInfo ?_ ?_ ?_ <;> intro i <;> unfold Info.recordCall <;> split <;> rfl
  unfold recordCall
  infer_instance

instance (range : Text.ByteRange) (id : SymbolId) : Stays w file (recordDef range id) := by
  have (f : FileId) : Stays w file (modifyInfo (·.recordDef f range id)) :=
    .modifyInfo fun i key hkey => by
      rw [Info.recordDef, Std.HashMap.contains_insert, hkey, Bool.or_true]
  unfold recordDef
  infer_instance

-- A place where a symbol is declared is given to that symbol.
instance (range : Text.ByteRange) (id : SymbolId) [h : DefinedAt w id file range] :
    Keeps w file (recordDef range id) where
  run s := ⟨(inferInstance : Stays w file (recordDef range id)).run s, fun hs ht _ =>
    ⟨ht.model, ht.info.recordDef (hs.context.symm ▸ h)⟩⟩

instance (range : Text.ByteRange) (id : SymbolId) : Stays w file (recordUse range id) := by
  have (f : FileId) : Stays w file (modifyInfo (·.recordUse f range id)) :=
    .modifyInfo fun i key hkey => by
      unfold Info.recordUse
      split <;> exact hkey
  unfold recordUse
  infer_instance

theorem usedAt_rangeOf {s : Token} {id : SymbolId} [hs : FreeWord w file s] [hid : Names w id s.text] :
    UsedAt w id (file, rangeOf s) where
  bundled hbundled := by
    obtain ⟨text, htext, -⟩ := hs.exists_text
    obtain ⟨o, ho, -⟩ := hid.exists_origin
    have hlt := (List.getElem?_eq_some_iff.mp ho).1
    have hle := w.bundled file hbundled (htext ▸ rfl)
    omega
  source _ := ⟨s, hs, rfl, hid⟩

-- An identifier is a use of a symbol of its name.
instance (ident : Token) (id : SymbolId) [hident : FreeWord w file ident] [hid : Names w id ident.text] :
    Keeps w file (recordUse (rangeOf ident) id) where
  run s := ⟨(inferInstance : Stays w file (recordUse (rangeOf ident) id)).run s, fun hs ht _ =>
    ⟨ht.model, ht.info.recordUse (hs.context.symm ▸ usedAt_rangeOf)⟩⟩

end Records

section Declarations

theorem Word.text_ne_empty {w : Setting} {s : Token} (h : Word w file s) : s.text ≠ "" := by
  obtain ⟨text, -, hmem⟩ := h.exists_text
  exact Check.text_ne_empty hmem

-- A symbol that is declared at a token.
theorem fits_of_stands {s : Token} {name : String} {kind : SymbolKind} {first : Bool}
    [hs : Stands w file s] (hname : s.text = name ∨ s.kind = .str)
    (hfirst : first = true ↔ s ∈ w.firstVarIdents file) :
    Origin.Fits w ⟨name, kind, some ⟨file, rangeOf s⟩, first⟩ := by
  obtain ⟨text, htext, hmem⟩ := hs.exists_text
  constructor
  case known =>
    rintro site ⟨⟩
    exact .inr (htext ▸ rfl)
  case spelled =>
    rintro site text' s' ⟨⟩ htext' hs' hkind hrange
    obtain rfl : text = text' := Option.some.inj (htext.symm.trans htext')
    obtain rfl := eq_of_rangeOf_eq hs' hmem hrange
    exact hname.resolve_right fun hstr => absurd (hkind.symm.trans hstr) nofun
  case first =>
    refine ⟨fun h => ⟨_, s, rfl, hfirst.mp h, rfl⟩, ?_⟩
    rintro ⟨site, s', ⟨⟩, hs', hrange⟩
    obtain ⟨text', htext', hmem'⟩ :=
      (stands_of_mem_varIdents (firstVarIdents_subset hs')).exists_text
    obtain rfl : text = text' := Option.some.inj (htext.symm.trans htext')
    obtain rfl := eq_of_rangeOf_eq hmem' hmem hrange
    exact hfirst.mpr hs'

theorem Apart.not_first {s : Token} (h : Apart w file s) : false = true ↔ s ∈ w.firstVarIdents file :=
  ⟨nofun, fun hs => absurd (firstVarIdents_subset hs) h.notMem⟩

-- A symbol that has no place.
theorem fits_unplaced {name : String} {kind : SymbolKind} :
    Origin.Fits w ⟨name, kind, none, false⟩ where
  known _ h := nomatch h
  spelled _ _ _ h := nomatch h
  first := ⟨fun h => (nomatch h), fun ⟨_, _, h, _⟩ => nomatch h⟩

-- A new symbol with a given origin.
theorem Yields.addSymbol {x : Symbol} {o : Origin} (hx : x.origin = o) (ho : o.Fits w) :
    Yields w file (addSymbol x) fun id => w.origins[id.index]? = some o :=
  ⟨.addSymbol (hx ▸ ho), hx ▸ finds_addSymbol⟩

variable {ident : Token} {kind : SymbolKind} {g : Symbol → Symbol} {f : SymbolId → CheckM α}

theorem BareImport.kind_eq {w : Setting} {s : Token} (h : BareImport w file s) : s.kind = .str := by
  obtain ⟨_, _, _, _, hpath, _⟩ := h
  exact beq_iff_eq.mp (List.find?_some hpath :)

-- A new symbol that is declared at a token.
theorem Yields.addSymbol_bind {P : α → Prop} {x : Symbol} {s : Token} {name : String} {first : Bool}
    [Stands w file s] (hx : x.origin = ⟨name, kind, some ⟨file, rangeOf s⟩, first⟩)
    (hname : NameOrImport w file s name)
    (hfirst : first = true ↔ s ∈ w.firstVarIdents file) (hs : ∀ id, Stays w file (f id))
    (hf : ∀ id, Names w id name → DefinedAt w id file (rangeOf s) → Yields w file (f id) P) :
    Yields w file (Check.addSymbol x >>= f) P :=
  .bind (.addSymbol hx (fits_of_stands (hname.imp And.right BareImport.kind_eq) hfirst)) hs fun id hid =>
    hf id ⟨_, hid, rfl⟩ ⟨fun _ => ⟨_, hid, rfl⟩, fun _ => ⟨s, _, inferInstance, rfl, hid, hname⟩⟩

theorem Keeps.addSymbol_bind {x : Symbol} {s : Token} {name : String} {first : Bool}
    [Stands w file s] (hx : x.origin = ⟨name, kind, some ⟨file, rangeOf s⟩, first⟩)
    (hname : NameOrImport w file s name)
    (hfirst : first = true ↔ s ∈ w.firstVarIdents file) (hs : ∀ id, Stays w file (f id))
    (hf : ∀ id, Names w id name → DefinedAt w id file (rangeOf s) → Keeps w file (f id)) :
    Keeps w file (Check.addSymbol x >>= f) :=
  (Yields.addSymbol_bind (P := fun _ => True) hx hname hfirst hs fun id hid hdef =>
    (hf id hid hdef).yields).keeps

-- It may be the name of one of the first variables.
theorem Yields.declared_bind_first {P : α → Prop} [hword : Word w file ident] {first : Bool}
    (hfirst : first = true ↔ ident ∈ w.firstVarIdents file)
    (hg : ∀ x, x.inFirstVarBlock = false → (g x).origin = { x.origin with inFirstVarBlock := first })
    (hs : ∀ id, Stays w file (f id))
    (hf : ∀ id, Names w id ident.text → DefinedAt w id file (rangeOf ident) → Yields w file (f id) P) :
    Yields w file (declared ident kind >>= fun x => Check.addSymbol (g x) >>= f) P := by
  refine .bind (ensures_declared.yields inferInstance) (fun _ => inferInstance) fun x hx => ?_
  have hg := hg x (congrArg Origin.inFirstVarBlock hx)
  rw [hx] at hg
  exact .addSymbol_bind hg (.inl ⟨hword.kind, rfl⟩) hfirst hs hf

theorem Yields.declared_bind {P : α → Prop} [h : FreeWord w file ident]
    (hg : ∀ x, (g x).origin = x.origin) (hs : ∀ id, Stays w file (f id))
    (hf : ∀ id, Names w id ident.text → DefinedAt w id file (rangeOf ident) → Yields w file (f id) P) :
    Yields w file (declared ident kind >>= fun x => Check.addSymbol (g x) >>= f) P :=
  .declared_bind_first h.toApart.not_first (fun x hx => by rw [hg, Symbol.origin, hx]) hs hf

theorem Keeps.declared_bind [FreeWord w file ident] (hg : ∀ x, (g x).origin = x.origin)
    (hs : ∀ id, Stays w file (f id))
    (hf : ∀ id, Names w id ident.text → DefinedAt w id file (rangeOf ident) → Keeps w file (f id)) :
    Keeps w file (declared ident kind >>= fun x => Check.addSymbol (g x) >>= f) :=
  (Yields.declared_bind (P := fun _ => True) hg hs fun id hname hdef =>
    (hf id hname hdef).yields).keeps

instance (ty : Ty) (visibleFrom : Nat) (value : Option Constant) [FreeWord w file ident] :
    Keeps w file (declareLocal ident kind ty visibleFrom value) := by
  unfold declareLocal
  exact .declared_bind (fun _ => rfl) (fun _ => inferInstance) fun id _ _ => inferInstance

instance (scope : ScopeId) (name : String) (id : SymbolId) (range : Text.ByteRange)
    [InText w file range] : Stays w file (bind scope name id range) := by
  unfold bind
  infer_instance

instance (scope : ScopeId) (name : String) (id : SymbolId) (range : Text.ByteRange)
    [InText w file range] [Names w id name] : Keeps w file (bind scope name id range) := by
  unfold bind
  infer_instance

end Declarations

end SpriteScript.Check
