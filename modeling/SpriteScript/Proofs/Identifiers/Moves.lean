import SpriteScript.Proofs.Identifiers.Ahead

-- What the moves on the state of a check look at.
namespace SpriteScript.Check

variable {ground : Ground} {file : FileId} {α β γ : Type}

theorem sublist_fst_zip (l : List α) (l' : List β) : ((l.zip l').map Prod.fst).Sublist l := by
  induction l generalizing l' with
  | nil => exact List.Sublist.refl _
  | cons x rest ih =>
      cases l' with
      | nil => exact List.nil_sublist _
      | cons y others => exact (ih others).cons_cons x

theorem sublist_snd_zip (l : List α) (l' : List β) : ((l.zip l').map Prod.snd).Sublist l' := by
  induction l generalizing l' with
  | nil => exact List.nil_sublist _
  | cons x rest ih =>
      cases l' with
      | nil => exact List.Sublist.refl _
      | cons y others => exact (ih others).cons_cons y

section Combinators

variable {a : CheckM α} {f : α → CheckM β} {parts parts' : List Part} {ts us vs : List Tree}

namespace Visits

theorem of_runs [h : Runs (Passing ground file) a] : Visits ground file [] a :=
  fun rest s hs => h.run s rest hs

theorem subperm (h : Visits ground file parts a) (hparts : parts.Subperm parts') :
    Visits ground file parts' a :=
  fun rest s hs => h rest s <| hs.next hs.context
    ((hparts.append (List.Subperm.refl rest)).append (List.Subperm.refl _)) rfl hs.known hs.valued

-- The later part may use what the earlier one found.
theorem bind_of {P : α → Prop} (ha : Visits ground file parts a) (h : ∀ s, P (a.run s).1)
    (hf : ∀ x, P x → Visits ground file parts' (f x)) : Visits ground file (parts ++ parts') (a >>= f) :=
  fun rest s hs => hf _ (h s) rest _ (ha (parts' ++ rest) s (List.append_assoc .. ▸ hs))

theorem bind (ha : Visits ground file parts a) (hf : ∀ x, Visits ground file parts' (f x)) :
    Visits ground file (parts ++ parts') (a >>= f) :=
  ha.bind_of (P := fun _ => True) (fun _ => trivial) fun x _ => hf x

theorem after (ha : Runs (Passing ground file) a) (hf : ∀ x, Visits ground file parts (f x)) :
    Visits ground file parts (a >>= f) :=
  fun rest s hs => hf _ rest _ (ha.run s _ hs)

-- Only the earlier part looks at anything.
theorem before (ha : Visits ground file parts a) (hf : ∀ x, Runs (Passing ground file) (f x)) :
    Visits ground file parts (a >>= f) :=
  fun rest s hs => (hf _).run _ rest (ha rest s hs)

theorem forM {l : List γ} {g : γ → CheckM PUnit} {p : γ → List Part}
    (h : ∀ x ∈ l, Visits ground file (p x) (g x)) : Visits ground file (l.flatMap p) (forM l g) := by
  induction l with
  | nil => exact .of_runs (h := (inferInstance : Runs _ (pure ⟨⟩ : CheckM PUnit)))
  | cons x rest ih =>
      rw [List.forM_cons, List.flatMap_cons]
      exact .bind (h x List.mem_cons_self) fun _ => ih fun y hy => h y (List.mem_cons_of_mem x hy)

theorem forIn {l : List γ} {b : β} {g : γ → β → CheckM (ForInStep β)} {p : γ → List Part}
    (h : ∀ x ∈ l, ∀ acc, Visits ground file (p x) (g x acc)) :
    Visits ground file (l.flatMap p) (forIn l b g) := by
  induction l generalizing b with
  | nil => exact .of_runs (h := (inferInstance : Runs _ (pure b : CheckM β)))
  | cons x rest ih =>
      rw [List.forIn_cons, List.flatMap_cons]
      refine .bind (h x List.mem_cons_self b) fun step => ?_
      cases step with
      | done acc =>
          exact (of_runs (h := (inferInstance : Runs _ (pure acc : CheckM β)))).subperm List.nil_subperm
      | yield acc => exact ih fun y hy => h y (List.mem_cons_of_mem x hy)

end Visits

namespace Reads

theorem of_runs (h : Runs (Passing ground file) a) : Reads ground file ts a :=
  (Visits.of_runs (h := h)).subperm List.nil_subperm

theorem runs (h : Reads ground file [] a) : Runs (Passing ground file) a := ⟨fun s rest hs => h rest s hs⟩

-- What is made of parts may be read as a whole.
theorem below (h : Reads ground file ts a) (hbelow : Tree.Below ts us) : Reads ground file us a :=
  fun rest s hs => h rest s (hs.below hbelow)

theorem sublist (h : Reads ground file ts a) (hsub : ts.Sublist us) : Reads ground file us a :=
  h.below (.of_sublist hsub)

-- The later part may use what the earlier one found.
theorem bind_of {P : α → Prop} (ha : Reads ground file ts a) (h : ∀ s, P (a.run s).1)
    (hf : ∀ x, P x → Reads ground file us (f x)) : Reads ground file (ts ++ us) (a >>= f) := by
  rw [Reads, partsIn, List.map_append]
  exact Visits.bind_of ha h hf

theorem bind (ha : Reads ground file ts a) (hf : ∀ x, Reads ground file us (f x)) :
    Reads ground file (ts ++ us) (a >>= f) :=
  ha.bind_of (P := fun _ => True) (fun _ => trivial) fun x _ => hf x

-- The earlier part reads a tree.
theorem bind_cons {t : Tree} (ha : Reads ground file [t] a) (hf : ∀ x, Reads ground file ts (f x)) :
    Reads ground file (t :: ts) (a >>= f) :=
  bind ha hf

-- Only the later part reads.
theorem after_of {P : α → Prop} (ha : Runs (Passing ground file) a) (h : ∀ s, P (a.run s).1)
    (hf : ∀ x, P x → Reads ground file ts (f x)) : Reads ground file ts (a >>= f) :=
  fun rest s hs => hf _ (h s) rest _ (ha.run s _ hs)

theorem after (ha : Runs (Passing ground file) a) (hf : ∀ x, Reads ground file ts (f x)) :
    Reads ground file ts (a >>= f) :=
  Visits.after ha hf

theorem before (ha : Reads ground file ts a) (hf : ∀ x, Runs (Passing ground file) (f x)) :
    Reads ground file ts (a >>= f) :=
  Visits.before ha hf

theorem map {g : α → β} (h : Reads ground file ts a) : Reads ground file ts (g <$> a) := h

theorem discard (h : Reads ground file ts a) : Reads ground file ts (discard a) := h

theorem optionMapM {o : Option Tree} {f : Tree → CheckM β} {p : Tree → List Tree}
    (h : ∀ t, o = some t → Reads ground file (p t) (f t)) :
    Reads ground file ((o.map p).getD []) (o.mapM f) := by
  cases o with
  | none => exact of_runs (inferInstance : Runs _ (pure none : CheckM (Option β)))
  | some t => exact (h t rfl).map

variable {l : List γ} {p : γ → List Tree}

theorem forIn {b : β} {f : γ → β → CheckM (ForInStep β)}
    (h : ∀ x ∈ l, ∀ acc, Reads ground file (p x) (f x acc)) :
    Reads ground file (l.flatMap p) (forIn l b f) := by
  rw [Reads, partsIn, List.map_flatMap]
  exact Visits.forIn h

theorem forM {g : γ → CheckM PUnit} (h : ∀ x ∈ l, Reads ground file (p x) (g x)) :
    Reads ground file (l.flatMap p) (forM l g) := by
  rw [Reads, partsIn, List.map_flatMap]
  exact Visits.forM h

theorem mapM {g : γ → CheckM β} (h : ∀ x ∈ l, Reads ground file (p x) (g x)) :
    Reads ground file (l.flatMap p) (l.mapM g) := by
  induction l with
  | nil => exact of_runs (inferInstance : Runs _ (pure [] : CheckM (List β)))
  | cons x rest ih =>
      rw [List.mapM_cons, List.flatMap_cons]
      have hrest := ih fun y hy => h y (List.mem_cons_of_mem x hy)
      exact .bind (h x List.mem_cons_self) fun y => hrest.before fun ys => inferInstance

theorem foldlM {b : β} {g : β → γ → CheckM β} (h : ∀ x ∈ l, ∀ acc, Reads ground file (p x) (g acc x)) :
    Reads ground file (l.flatMap p) (l.foldlM g b) := by
  induction l generalizing b with
  | nil => exact of_runs (inferInstance : Runs _ (pure b : CheckM β))
  | cons x rest ih =>
      rw [List.foldlM_cons, List.flatMap_cons]
      exact .bind (h x List.mem_cons_self b) fun acc => ih fun y hy => h y (List.mem_cons_of_mem x hy)

theorem filterMapM {g : γ → CheckM (Option β)} (h : ∀ x ∈ l, Reads ground file (p x) (g x)) :
    Reads ground file (l.flatMap p) (l.filterMapM g) := by
  induction l with
  | nil => exact of_runs (inferInstance : Runs _ (pure [] : CheckM (List β)))
  | cons x rest ih =>
      rw [List.filterMapM_cons, List.flatMap_cons]
      have hrest := ih fun y hy => h y (List.mem_cons_of_mem x hy)
      refine .bind (h x List.mem_cons_self) fun found => ?_
      cases found with
      | none => exact hrest
      | some y => exact hrest.before fun ys => inferInstance

-- Trees one after the other.
theorem forIn_trees {ts : List Tree} {b : β} {f : Tree → β → CheckM (ForInStep β)}
    (h : ∀ t ∈ ts, ∀ acc, Reads ground file [t] (f t acc)) : Reads ground file ts (ForIn.forIn ts b f) := by
  simpa using forIn (p := fun t => [t]) h

-- Entries that have a tree each.
theorem forIn_of {e : γ → Tree} {b : β} {f : γ → β → CheckM (ForInStep β)} (hsub : (l.map e).Sublist ts)
    (h : ∀ x ∈ l, ∀ acc, Reads ground file [e x] (f x acc)) : Reads ground file ts (ForIn.forIn l b f) := by
  have hall : Reads ground file (l.flatMap fun x => [e x]) (ForIn.forIn l b f) := forIn h
  rw [← List.map_eq_flatMap] at hall
  exact hall.sublist hsub

theorem foldlM_trees {ts : List Tree} {b : β} {g : β → Tree → CheckM β}
    (h : ∀ t ∈ ts, ∀ acc, Reads ground file [t] (g acc t)) : Reads ground file ts (ts.foldlM g b) := by
  simpa using foldlM (p := fun t => [t]) h

theorem mapM_trees {ts : List Tree} {g : Tree → CheckM β} (h : ∀ t ∈ ts, Reads ground file [t] (g t)) :
    Reads ground file ts (ts.mapM g) := by
  simpa using mapM (p := fun t => [t]) h

theorem forM_trees {ts : List Tree} {g : Tree → CheckM PUnit} (h : ∀ t ∈ ts, Reads ground file [t] (g t)) :
    Reads ground file ts (ForM.forM ts g) := by
  simpa using forM (p := fun t => [t]) h

theorem optionMapM_tree {o : Option Tree} {f : Tree → CheckM β}
    (h : ∀ t, o = some t → Reads ground file [t] (f t)) :
    Reads ground file o.toList (o.mapM f) := by
  cases o with
  | none => exact of_runs (inferInstance : Runs _ (pure none : CheckM (Option β)))
  | some t => exact (h t rfl).map

-- It is known that the tree is a part of the text.
theorem of_stands {t : Tree} (h : ∀ text, t.StandsIn text → Reads ground file [t] a) :
    Reads ground file [t] a := by
  intro rest s hs
  obtain ⟨text, -, hstands⟩ := hs.stands (file, t) List.mem_cons_self
  exact h text hstands rest s hs

end Reads

theorem Ground.learn_learn (ground : Ground) (facts others : List Fact) :
    (ground.learn facts).learn others = ground.learn (others ++ facts) := by
  unfold Ground.learn
  rw [List.append_assoc]

namespace Learns

variable {P : Ground → α → Prop} {Q : Ground → β → Prop}

theorem reads (h : Learns ground file ts a P) : Reads ground file ts a := by
  intro rest s hs
  obtain ⟨facts, hnext, -⟩ := h rest s hs
  exact hnext.forget

theorem of_reads (h : Reads ground file ts a) (hP : ∀ x, P ground x) : Learns ground file ts a P :=
  fun rest s hs => ⟨[], h rest s hs, hP _⟩

theorem of_runs (h : Runs (Passing ground file) a) (hP : ∀ s, P ground (a.run s).1) :
    Learns ground file ts a P :=
  fun rest s hs => ⟨[], Reads.of_runs h rest s hs, hP s⟩

theorem mono {P' : Ground → α → Prop} (h : Learns ground file ts a P)
    (hP : ∀ ground x, P ground x → P' ground x) : Learns ground file ts a P' := by
  intro rest s hs
  obtain ⟨facts, hnext, hx⟩ := h rest s hs
  exact ⟨facts, hnext, hP _ _ hx⟩

theorem of_stands {t : Tree} (h : ∀ text, t.StandsIn text → Learns ground file [t] a P) :
    Learns ground file [t] a P := by
  intro rest s hs
  obtain ⟨text, -, hstands⟩ := hs.stands (file, t) List.mem_cons_self
  exact h text hstands rest s hs

theorem below (h : Learns ground file ts a P) (hbelow : Tree.Below ts us) : Learns ground file us a P :=
  fun rest s hs => h rest s (hs.below hbelow)

theorem bind_learns (ha : Learns ground file ts a P)
    (hf : ∀ facts x, P (ground.learn facts) x → Learns (ground.learn facts) file us (f x) Q) :
    Learns ground file (ts ++ us) (a >>= f) Q := by
  intro rest s hs
  rw [partsIn, List.map_append, List.append_assoc] at hs
  obtain ⟨facts, hnext, hx⟩ := ha _ s hs
  obtain ⟨others, hend, hy⟩ := hf facts _ hx rest _ hnext
  rw [Ground.learn_learn] at hend hy
  exact ⟨others ++ facts, hend, hy⟩

theorem bind (ha : Learns ground file ts a P)
    (hf : ∀ facts x, P (ground.learn facts) x → Reads (ground.learn facts) file us (f x)) :
    Reads ground file (ts ++ us) (a >>= f) :=
  (ha.bind_learns (Q := fun _ _ => True) fun facts x hx => .of_reads (hf facts x hx) fun _ => trivial).reads

-- Only the later part learns anything.
theorem after (ha : Runs (Passing ground file) a) (hf : ∀ x, Learns ground file ts (f x) Q) :
    Learns ground file ts (a >>= f) Q :=
  fun rest s hs => hf _ rest _ (ha.run s _ hs)

theorem before_learns (ha : Learns ground file ts a P)
    (hf : ∀ facts x, P (ground.learn facts) x → Learns (ground.learn facts) file [] (f x) Q) :
    Learns ground file ts (a >>= f) Q := by
  rw [← List.append_nil ts]
  exact ha.bind_learns hf

theorem before (ha : Learns ground file ts a P)
    (hf : ∀ facts x, P (ground.learn facts) x → Runs (Passing (ground.learn facts) file) (f x)) :
    Reads ground file ts (a >>= f) := by
  rw [← List.append_nil ts]
  exact ha.bind fun facts x hx => .of_runs (hf facts x hx)

theorem map {g : α → β} (h : Learns ground file ts a P) (hQ : ∀ ground x, P ground x → Q ground (g x)) :
    Learns ground file ts (g <$> a) Q := by
  intro rest s hs
  obtain ⟨facts, hnext, hx⟩ := h rest s hs
  exact ⟨facts, hnext, hQ _ _ hx⟩

-- What is known of the entries stays known.
theorem mapM {l : List γ} {p : γ → List Tree} {g : γ → CheckM β} {Q : γ → Ground → β → Prop}
    (h : ∀ ground, ∀ x ∈ l, Learns ground file (p x) (g x) (Q x))
    (hmono : ∀ x ground facts y, Q x ground y → Q x (Ground.learn ground facts) y) :
    Learns ground file (l.flatMap p) (l.mapM g) fun ground => List.Forall₂ (fun x y => Q x ground y) l := by
  induction l generalizing ground with
  | nil => exact of_runs (inferInstance : Runs _ (pure [] : CheckM (List β))) fun _ => .nil
  | cons x rest ih =>
      rw [List.mapM_cons, List.flatMap_cons]
      refine (h ground x List.mem_cons_self).bind_learns fun facts y hy => ?_
      refine (ih fun ground z hz => h ground z (List.mem_cons_of_mem x hz)).before_learns
        fun others ys hys => ?_
      exact .of_runs inferInstance fun _ => .cons (hmono x _ others y hy) hys

end Learns

end Combinators

-- The later part may use what the earlier one returned.
theorem Runs.bind_of {R : State → State → Prop} [IsPreorder State R] {a : CheckM α} {f : α → CheckM β}
    {P : α → Prop} (ha : Runs R a) (h : ∀ s, P (a.run s).1) (hf : ∀ x, P x → Runs R (f x)) :
    Runs R (a >>= f) :=
  ⟨fun s => trans_of R (ha.run s) ((hf _ (h s)).run _)⟩

-- What is read from the state is known of it.
theorem Runs.get_bind {R : State → State → Prop} {f : State → CheckM α} (h : ∀ s, R s ((f s).run s).2) :
    Runs R (get >>= f) := ⟨h⟩

section Passing

variable {s s' : State} {parts : List Part}

-- An action that leaves what is put off and what is noted.
theorem Runs.passing {a : CheckM α} (hcontext : ∀ s, (a.run s).2.context.file = s.context.file)
    (hputOff : ∀ s : State, s.Known → (a.run s).2.putOff.Sublist s.putOff)
    (hinfo : ∀ s, (a.run s).2.info = s.info) (hknown : ∀ s : State, s.Known → (a.run s).2.Known)
    (hspecs : ∀ s, (a.run s).2.specs = s.specs)
    (hvalues : ∀ s, s.model.values <+: (a.run s).2.model.values) : Runs (Passing ground file) a where
  run s rest hs :=
    hs.next ((hcontext s).trans hs.context) ((List.Sublist.refl rest).append (hputOff s hs.known)).subperm
      (hinfo s) (hknown s hs.known) (hs.valued.of_model (hinfo s) (hvalues s) (hspecs s))

-- A change of what is neither put off nor noted.
theorem Runs.passing_of_eq {a : CheckM α} (hcontext : ∀ s, (a.run s).2.context.file = s.context.file)
    (hspecs : ∀ s, (a.run s).2.specs = s.specs) (htypes : ∀ s, (a.run s).2.typeDecls = s.typeDecls)
    (haliases : ∀ s, (a.run s).2.aliases = s.aliases) (hfuncs : ∀ s, (a.run s).2.funcs = s.funcs)
    (hresolving : ∀ s, (a.run s).2.resolving = s.resolving)
    (hmodel : ∀ s, (a.run s).2.model.named = s.model.named)
    (hvalues : ∀ s, s.model.values <+: (a.run s).2.model.values) (hinfo : ∀ s, (a.run s).2.info = s.info) :
    Runs (Passing ground file) a := by
  refine .passing hcontext (fun s _ => ?_) hinfo (fun s hknown => by rwa [State.Known, htypes, hmodel])
    hspecs hvalues
  have hopen : (a.run s).2.isOpen = s.isOpen := by
    funext id
    rw [State.isOpen, State.isOpen, Model.namedType, Model.namedType, hmodel, hresolving]
  rw [State.putOff, State.putOff, hspecs, htypes, haliases, hfuncs, hopen]

-- Fewer types are open.
theorem State.sublist_typeParts (decls : List (NamedId × PendingDecl))
    (h : ∀ d ∈ decls, s'.isOpen d.1 = true → s.isOpen d.1 = true) :
    (decls.flatMap fun d => if s'.isOpen d.1 then d.2.typeParts else []).Sublist
      (decls.flatMap fun d => if s.isOpen d.1 then d.2.typeParts else []) := by
  refine List.Sublist.flatMap_right _ fun d hd => ?_
  split
  case isTrue hopen => rw [if_pos (h d hd hopen)]
  case isFalse => exact List.nil_sublist _

-- A change of the model after which no type is open again.
theorem Runs.passing_of_model {a : CheckM α} (ha : ∀ s, (a.run s).2 = { s with model := (a.run s).2.model })
    (hsize : ∀ s, s.model.named.size ≤ (a.run s).2.model.named.size)
    (hvalues : ∀ s, s.model.values <+: (a.run s).2.model.values)
    (hpending : ∀ s id, ((a.run s).2.model.namedType id).isPending = true →
      (s.model.namedType id).isPending = true) : Runs (Passing ground file) a := by
  refine .passing (fun s => by rw [ha s]) (fun s _ => ?_) (fun s => by rw [ha s]) (fun s hknown d hd => ?_)
    (fun s => by rw [ha s]) hvalues
  · rw [ha s]
    refine (List.Sublist.refl _).append (.append (State.sublist_typeParts _ fun d _ hopen => ?_)
      (List.Sublist.refl _))
    obtain ⟨hstill, hfree⟩ := Bool.and_eq_true_iff.mp hopen
    exact Bool.and_eq_true_iff.mpr ⟨hpending s d.1 hstill, hfree⟩
  · rw [ha s] at hd
    exact (hknown d hd).trans_le (hsize s)

theorem isPending_of_modifyNamed (m : Model) {id other : NamedId} {f : NamedType → NamedType}
    (hf : ∀ n, (f n).isPending = true → n.isPending = true)
    (h : ((m.modifyNamed id f).namedType other).isPending = true) : (m.namedType other).isPending = true := by
  unfold Model.namedType Model.modifyNamed at h
  rw [Array.getElem?_modify] at h
  unfold Model.namedType
  cases hold : m.named[other.index]? with
  | none => rfl
  | some n =>
      rw [hold] at h
      dsimp only [Option.map_some, Option.getD_some] at h ⊢
      split at h
      · exact hf n h
      · exact h

theorem Runs.modifyNamed {id : NamedId} {f : NamedType → NamedType}
    (hf : ∀ n, (f n).isPending = true → n.isPending = true) :
    Runs (Passing ground file) (Check.modifyModel fun m => m.modifyNamed id f) :=
  .passing_of_model (fun _ => rfl) (fun _ => (Array.size_modify ..).ge) (fun _ => List.prefix_rfl)
    fun s _ => isPending_of_modifyNamed s.model hf

-- A type that is not there counts as open.
instance (n : NamedType) : Runs (Passing ground file) (addNamed n) := by
  refine .passing_of_model (fun _ => rfl) (fun _ => (Array.size_push _).symm ▸ Nat.le_succ _)
    (fun _ => List.prefix_rfl) fun s id => ?_
  change ((s.model.addNamed n).2.namedType id).isPending = true → _
  unfold Model.namedType Model.addNamed
  cases hold : s.model.named[id.index]? with
  | none => exact fun _ => rfl
  | some old =>
      rw [Array.getElem?_push_lt (Array.getElem?_eq_some_iff.mp hold).1, ← Array.getElem?_eq_getElem, hold]
      exact fun h => h

instance (x : Symbol) : Runs (Passing ground file) (addSymbol x) :=
  .passing_of_eq (fun _ => rfl) (fun _ => rfl) (fun _ => rfl) (fun _ => rfl) (fun _ => rfl) (fun _ => rfl)
    (fun _ => rfl) (fun s => s.model.values_addSymbol x) fun _ => rfl

instance (x : Scope) : Runs (Passing ground file) (addScope x) := by
  refine .passing_of_eq (fun _ => rfl) (fun _ => rfl) (fun _ => rfl) (fun _ => rfl) (fun _ => rfl)
    (fun _ => rfl) (fun s => ?_) (fun s => ?_) fun _ => rfl
  · change (s.model.addScope x).2.named = s.model.named
    unfold Model.addScope
    dsimp only
    split <;> rfl
  · change _ <+: (s.model.addScope x).2.values
    unfold Model.addScope
    dsimp only
    split <;> exact List.prefix_rfl

theorem Runs.modifySymbol {id : SymbolId} {f : Symbol → Symbol} (hf : ∀ x, (f x).value = x.value) :
    Runs (Passing ground file) (Check.modifyModel fun m => m.modifySymbol id f) :=
  .passing_of_eq (fun _ => rfl) (fun _ => rfl) (fun _ => rfl) (fun _ => rfl) (fun _ => rfl) (fun _ => rfl)
    (fun _ => rfl) (fun s => (s.model.values_modifySymbol id hf).symm ▸ List.prefix_rfl) fun _ => rfl

instance (scope : ScopeId) (name : String) (entry : ScopeEntry) :
    Runs (Passing ground file) (modifyModel fun m => m.declare scope name entry) :=
  .passing_of_eq (fun _ => rfl) (fun _ => rfl) (fun _ => rfl) (fun _ => rfl) (fun _ => rfl) (fun _ => rfl)
    (fun _ => rfl) (fun _ => List.prefix_rfl) fun _ => rfl

instance (other : FileId) (range : Text.ByteRange) (p : Problem) :
    Runs (Passing ground file) (problemIn other range p) :=
  .passing_of_eq (fun _ => rfl) (fun _ => rfl) (fun _ => rfl) (fun _ => rfl) (fun _ => rfl) (fun _ => rfl)
    (fun _ => rfl) (fun _ => List.prefix_rfl) fun _ => rfl

instance (range : Text.ByteRange) (p : Problem) : Runs (Passing ground file) (problem range p) := by
  unfold problem
  infer_instance

instance : Runs (Passing ground file) crash :=
  .passing_of_eq (fun _ => rfl) (fun _ => rfl) (fun _ => rfl) (fun _ => rfl) (fun _ => rfl) (fun _ => rfl)
    (fun _ => rfl) (fun _ => List.prefix_rfl) fun _ => rfl

-- The rest of the place may change; the file stays.
theorem Runs.modify_context {f : Context → Context} (h : ∀ c, (f c).file = c.file) :
    Runs (Passing ground file) (modify fun s => { s with context := f s.context } : CheckM Unit) :=
  .passing_of_eq (fun s => h s.context) (fun _ => rfl) (fun _ => rfl) (fun _ => rfl) (fun _ => rfl)
    (fun _ => rfl) (fun _ => rfl) (fun _ => List.prefix_rfl) fun _ => rfl

-- What the checker finds out about types and calls.
theorem Ahead.modifyInfo {f : Info → Info} (h : Ahead ground file parts s) (hdefs : ∀ i, (f i).defs = i.defs)
    (huses : ∀ i, (f i).uses = i.uses) (hsites : ∀ i, (f i).useSites = i.useSites)
    (hnamed : (f s.info).Named s.model) : Ahead ground file parts ((Check.modifyInfo f).run s).2 := by
  refine h.next_of_keys h.context (List.Subperm.refl _) h.stands (fun key hkey => ?_)
    (h.once.of_eq (hdefs s.info) (huses s.info) (hsites s.info)) h.known
    (h.valued.next ⟨fun key x hx => ?_, fun key x hx => ?_⟩ (fun _ => hnamed) List.prefix_rfl rfl)
  · change (f s.info).Notes key at hkey
    rwa [Info.Notes, hdefs, huses] at hkey
  · change (f s.info).uses[key]? = some x
    rwa [huses]
  · change (f s.info).defs[key]? = some x
    rwa [hdefs]

theorem Runs.modifyInfo {f : Info → Info} (hdefs : ∀ i, (f i).defs = i.defs)
    (huses : ∀ i, (f i).uses = i.uses) (hsites : ∀ i, (f i).useSites = i.useSites)
    (htypes : ∀ i, (f i).types = i.types) :
    Runs (Passing ground file) (Check.modifyInfo f) :=
  ⟨fun s _ hs => hs.modifyInfo hdefs huses hsites (.of_eq hs.valued.named (huses s.info) (htypes s.info))⟩

-- If the tree is a name and the value a text, the name is known to mean a constant that has it.
class Told (ground : Ground) (file : FileId) (t : Tree) (value : Option Constant) : Prop where
  told : t.kind? = some .nameRef → ∀ text, value = some (.string text) → ∃ x,
    Fact.use (file, t.range) x ∈ ground.facts ∧ Fact.value x text ∈ ground.facts

instance (t : Tree) : Told ground file t none := ⟨fun _ _ h => nomatch h⟩

instance (t : Tree) (ty : Ty) : Told ground file t (Operand.ofType ty).value := ⟨fun _ _ h => nomatch h⟩

theorem Told.learn {t : Tree} {value : Option Constant} (h : Told ground file t value) (facts : List Fact) :
    Told (ground.learn facts) file t value where
  told hkind text hvalue := (h.told hkind text hvalue).imp fun _ hx =>
    ⟨List.mem_append_right _ hx.1, List.mem_append_right _ hx.2⟩

theorem passing_recordType {t : Tree} {ty : Ty} {value : Option Constant}
    (h : ∀ s, Valued ground s → t.kind? = some .nameRef → ∀ text, value = some (.string text) →
      ty ≠ .basic .string → s.info.Tells s.model (file, t.range) text) :
    Runs (Passing ground file) (recordType t ty value) := by
  refine ⟨fun s rest hs => ?_⟩
  have hcontext := hs.context
  refine hs.modifyInfo (f := (·.recordType s.context.file t ⟨ty, value⟩))
    (fun i => (i.recordType_eq _ t _).1) (fun i => (i.recordType_eq _ t _).2.1)
    (fun i => (i.recordType_eq _ t _).2.2) fun key tv text htv hkind hvalue hty => ?_
  unfold Info.Tells
  rw [(s.info.recordType_eq _ t _).2.1]
  unfold Info.recordType Info.key? at htv
  cases hnode : t.kind? with
  | none =>
      rw [hnode] at htv
      exact hs.valued.named key tv text htv hkind hvalue hty
  | some kind =>
      rw [hnode] at htv
      change (s.info.types.insert ⟨s.context.file, kind, t.range⟩ ⟨ty, value⟩)[key]? = some tv at htv
      rw [Std.HashMap.getElem?_insert] at htv
      split at htv
      case isTrue hkey =>
        cases beq_iff_eq.mp hkey
        cases htv
        rw [hcontext]
        exact h s hs.valued (hnode.trans (congrArg some hkind)) text hvalue hty
      case isFalse => exact hs.valued.named key tv text htv hkind hvalue hty

instance (t : Tree) (ty : Ty) (value : Option Constant) [htold : Told ground file t value] :
    Runs (Passing ground file) (recordType t ty value) := by
  refine passing_recordType fun s hs hkind text hvalue _ => ?_
  obtain ⟨x, huse, hx⟩ := htold.told hkind text hvalue
  exact ⟨x, hs.facts _ huse, hs.facts _ hx⟩

instance (t : Tree) (value : Option Constant) :
    Runs (Passing ground file) (recordType t (.basic .string) value) :=
  passing_recordType fun _ _ _ _ _ hty => absurd rfl hty

instance (t : Tree) (ty : Ty) : Runs (Passing ground file) (recordExpected t ty) := by
  have (f : FileId) : Runs (Passing ground file) (modifyInfo (·.recordExpected f t ty)) := by
    refine .modifyInfo ?_ ?_ ?_ ?_ <;> intro i <;> unfold Info.recordExpected <;> split <;>
      first | rfl | (split <;> rfl)
  unfold recordExpected
  infer_instance

instance (t : Tree) (call : CallInfo) : Runs (Passing ground file) (recordCall t call) := by
  have (f : FileId) : Runs (Passing ground file) (modifyInfo (·.recordCall f t call)) := by
    refine .modifyInfo ?_ ?_ ?_ ?_ <;> intro i <;> unfold Info.recordCall <;> split <;> rfl
  unfold recordCall
  infer_instance

end Passing

section Reading

variable {parts : List Part} {ts : List Tree} {s : State}

-- In another file the body looks at parts of that file.
theorem Visits.within {c : Context} {body : CheckM α} (h : Visits ground c.file parts body) :
    Visits ground file parts (within c body) := by
  intro rest s hs
  have hbody := h rest { s with context := c } (hs.next rfl (List.Subperm.refl _) rfl hs.known
    (hs.valued.of_model rfl List.prefix_rfl rfl))
  exact hbody.next hs.context (List.Subperm.refl _) rfl hbody.known
    (hbody.valued.of_model rfl List.prefix_rfl rfl)

theorem Reads.inScope {kind : ScopeKind} {range : Text.ByteRange} {inclusiveEnd : Bool} {body : CheckM α}
    (h : Reads ground file ts body) : Reads ground file ts (inScope kind range inclusiveEnd body) := by
  unfold Check.inScope
  have hmove (scope : ScopeId) : Runs (Passing ground file)
      (modify fun s => { s with context := { s.context with scope } } : CheckM Unit) :=
    .modify_context (f := ({ · with scope })) fun _ => rfl
  exact .after inferInstance fun c => .after inferInstance fun scope => .after (hmove scope) fun _ =>
    h.before fun _ => inferInstance

theorem Reads.returning {results : List Ty} {body : CheckM α} (h : Reads ground file ts body) :
    Reads ground file ts (returning results body) := by
  unfold Check.returning
  have hset (results : Option (List Ty)) : Runs (Passing ground file)
      (modify fun s => { s with context := { s.context with results } } : CheckM Unit) :=
    .modify_context (f := ({ · with results })) fun _ => rfl
  exact .after inferInstance fun c => .after (hset _) fun _ => h.before fun _ => inferInstance

-- One entry for a token, which pays for it.
theorem Ahead.pay {ident : Token} {i : Info} (h : Ahead ground file (partsIn file [.token ident] ++ parts) s)
    (honce : ¬ s.info.Notes (file, rangeOf ident) → ground.texts file ≠ none → i.Once ground)
    (hnotes : ∀ key, i.Notes key ↔ (file, rangeOf ident) = key ∨ s.info.Notes key)
    (hkeeps : ¬ s.info.Notes (file, rangeOf ident) → s.info.Keeps i) (htypes : i.types = s.info.types) :
    Ahead ground file parts { s with info := i } := by
  obtain ⟨text, htext, hstands⟩ := h.stands (file, .token ident) List.mem_cons_self
  have hkeys : keysOf (partsIn file [.token ident] ++ parts ++ s.putOff) =
      (file, rangeOf ident) :: keysOf (parts ++ s.putOff) := by
    rw [List.append_assoc, keysOf_append]
    rfl
  have hnodup := h.nodup
  have hunnoted := h.unnoted
  rw [hkeys] at hnodup hunnoted
  refine ⟨h.context, fun p hp => h.stands p (List.mem_cons_of_mem _ hp), (List.nodup_cons.mp hnodup).2,
    fun key hkey hnoted => ?_, ?_, h.known,
    h.valued.next_of_types (hkeeps (hunnoted _ List.mem_cons_self)) htypes List.prefix_rfl rfl⟩
  · rcases (hnotes key).mp hnoted with rfl | hnoted
    · exact (List.nodup_cons.mp hnodup).1 hkey
    · exact hunnoted key (List.mem_cons_of_mem _ hkey) hnoted
  · exact honce (hunnoted _ List.mem_cons_self) (htext ▸ nofun)

theorem learns_recordUse (ident : Token) (id : SymbolId) : Learns ground file [.token ident]
    (recordUse (rangeOf ident) id) fun ground _ => Fact.use (file, rangeOf ident) id ∈ ground.facts := by
  intro rest s hs
  have hcontext := hs.context
  refine ⟨[.use (file, rangeOf ident) id], Ahead.learn ?_ (List.forall_mem_singleton.mpr ?_),
    List.mem_cons_self⟩
  · refine Ahead.pay (i := s.info.recordUse s.context.file (rangeOf ident) id) hs ?_ ?_ ?_
      Info.types_recordUse
    · rw [hcontext]
      exact hs.once.recordUse
    · rw [hcontext]
      exact fun key => Info.notes_recordUse
    · rw [hcontext]
      exact Info.keeps_recordUse
  · change (s.info.recordUse s.context.file (rangeOf ident) id).uses[(file, rangeOf ident)]? = some id
    rw [Info.uses_recordUse, hcontext, Std.HashMap.getElem?_insert_self]

theorem reads_recordUse (ident : Token) (id : SymbolId) :
    Reads ground file [.token ident] (recordUse (rangeOf ident) id) :=
  (learns_recordUse ident id).reads

theorem learns_recordDef (ident : Token) (id : SymbolId) : Learns ground file [.token ident]
    (recordDef (rangeOf ident) id) fun ground _ => Fact.declares (file, rangeOf ident) id ∈ ground.facts := by
  intro rest s hs
  have hcontext := hs.context
  refine ⟨[.declares (file, rangeOf ident) id], Ahead.learn ?_ (List.forall_mem_singleton.mpr ?_),
    List.mem_cons_self⟩
  · refine Ahead.pay (i := s.info.recordDef s.context.file (rangeOf ident) id) hs ?_ ?_ ?_ rfl
    · rw [hcontext]
      exact hs.once.recordDef
    · rw [hcontext]
      exact fun key => Info.notes_recordDef
    · rw [hcontext]
      exact Info.keeps_recordDef
  · change (s.info.recordDef s.context.file (rangeOf ident) id).defs[(file, rangeOf ident)]? = some id
    rw [Info.recordDef, hcontext, Std.HashMap.getElem?_insert_self]

theorem reads_recordDef (ident : Token) (id : SymbolId) :
    Reads ground file [.token ident] (recordDef (rangeOf ident) id) :=
  (learns_recordDef ident id).reads

instance (scope : ScopeId) (name : String) (id : SymbolId) (range : Text.ByteRange) :
    Runs (Passing ground file) (bind scope name id range) := by
  unfold bind
  infer_instance

theorem reads_declareLocal (ident : Token) (kind : SymbolKind) (ty : Ty) (visibleFrom : Nat)
    (value : Option Constant) :
    Reads ground file [.token ident] (declareLocal ident kind ty visibleFrom value) := by
  unfold declareLocal
  refine .after inferInstance fun x => .after inferInstance fun id => ?_
  exact (reads_recordDef ident id).before fun _ => inferInstance

end Reading

end SpriteScript.Check
