import SpriteScript.Proofs.Identifiers.Statements
import SpriteScript.Proofs.Initialization.Search

-- Rules that lead deep enough look at every name in a value, and at everything that is needed for
-- it. Rules that lead deeper do the same.
namespace SpriteScript.Check

-- The instances for the parts of a long function are found in one search.
set_option synthInstance.maxSize 1000

-- The name is known to mean nothing, or what it means was looked into.
def Outlook.Answers (w : Outlook) (s : State) (missing : List Part) (key : FileId × Text.ByteRange) : Prop :=
  key ∈ keysOf missing ∨ ∃ x, s.info.uses[key]? = some x ∧ ∀ b, w.specOf[x]? = some b →
    s.ReportsInitCycle ∨ s.IsAt .finished b

-- How far a check came when the names with the property were looked at.
structure Reached (w : Outlook) (ground : Ground) (file : FileId) (missing rest : List Part) (path : List Nat)
    (P : Token → Prop) (s s' : State) : Prop where
  initializing : Initializing w ground file missing rest path s'
  progressing : Progressing s s'
  keeps : s.info.Keeps s'.info
  answers : ∀ ident, P ident → w.Answers s' missing (file, rangeOf ident)

-- The first action looks at the parts, and at the names with the property. The second one does the
-- same, as long as no more is to be looked at than the budget allows.
def Explores (w : Outlook) (path : List Nat) (budget : Nat) (ground : Ground) (file : FileId) (ts : List Tree)
    (P : Token → Prop) {α : Type} (a b : CheckM α) : Prop :=
  ∀ missing rest s, Initializing w ground file missing (partsIn file ts ++ rest) path s → s.owed ≤ budget →
    b.run s = a.run s ∧ ∃ missing', Reached w ground file (missing' ++ missing) rest path P s (a.run s).2

variable {w : Outlook} {path : List Nat} {budget n m : Nat} {ground : Ground} {file : FileId}
variable {ts us values : List Tree}
variable {P P' : Token → Prop} {α β : Type} {a b : CheckM α} {f g : α → CheckM β}
variable {missing missing' rest rest' : List Part}
variable {s s' s'' : State} {r r' : Rules} {t : Tree} {ident : Token} {id : SymbolId} {p : PendingSpec}
variable {facts : List Fact}

section Combinators

theorem Outlook.Answers.mono {key : FileId × Text.ByteRange} (h : w.Answers s missing key)
    (hprogressing : Progressing s s') (hkeeps : s.info.Keeps s'.info) (missing' : List Part) :
    w.Answers s' (missing' ++ missing) key := by
  rcases h with hmissing | ⟨x, hx, hdone⟩
  · rw [Outlook.Answers, keysOf_append]
    exact .inl (List.mem_append_right _ hmissing)
  · refine .inr ⟨x, hkeeps.uses key x hx,
      fun b hb => (hdone b hb).imp (fun hreports => ?_) hprogressing.finished⟩
    obtain ⟨name, y, hy, hname⟩ := hreports
    exact ⟨name, y, hprogressing.problems.subset hy, hname⟩

theorem Reached.trans (h : Reached w ground file missing rest path P s s')
    (h' : Reached w ground file (missing' ++ missing) rest' path P' s' s'') :
    Reached w ground file (missing' ++ missing) rest' path (fun ident => P ident ∨ P' ident) s s'' where
  initializing := h'.initializing
  progressing := trans_of Progressing h.progressing h'.progressing
  keeps :=
    ⟨fun key x hx => h'.keeps.uses key x (h.keeps.uses key x hx),
      fun key x hx => h'.keeps.defs key x (h.keeps.defs key x hx)⟩
  answers ident hident :=
    hident.elim (fun hP => (h.answers ident hP).mono h'.progressing h'.keeps missing') (h'.answers ident)

theorem Reached.forget (h : Reached w (ground.learn facts) file missing rest path P s s') :
    Reached w ground file missing rest path P s s' :=
  { h with initializing := h.initializing.forget }

namespace Explores

theorem mono (h : Explores w path budget ground file ts P a b) (hP : ∀ ident, P' ident → P ident) :
    Explores w path budget ground file ts P' a b := by
  intro missing rest s hs howed
  obtain ⟨hrun, missing', hreached⟩ := h missing rest s hs howed
  exact ⟨hrun, missing', { hreached with
    answers := fun ident hident => hreached.answers ident (hP ident hident) }⟩

theorem below (h : Explores w path budget ground file ts P a b) (hbelow : Tree.Below ts us) :
    Explores w path budget ground file us P a b := fun missing rest s hs =>
  h missing rest s (hs.next [] (refl_of Calm s) (.refl _)
    (((hs.ahead.perm (List.perm_append_comm_assoc _ _ _)).below hbelow).perm
      (List.perm_append_comm_assoc _ _ _)))

theorem calm_keeps (h : ∀ facts, Reads (ground.learn facts) file ts a)
    (hs : Initializing w ground file missing (partsIn file ts ++ rest) path s) :
    s.info.Keeps (a.run s).2.info :=
  keeps_of_ahead (fun facts => h facts _ s) (hs.ahead.perm (List.perm_append_comm_assoc _ _ _))

-- Nothing is looked into.
theorem of_calm [hcalm : Runs Calm a] (h : ∀ facts, Reads (ground.learn facts) file ts a) :
    Explores w path budget ground file ts (fun _ => False) a a := by
  intro missing rest s hs _
  have hahead : Ahead ground file (missing ++ rest) (a.run s).2 :=
    h [] _ s (hs.ahead.perm (List.perm_append_comm_assoc _ _ _))
  have hkeeps := calm_keeps h hs
  exact ⟨rfl, [], hs.next [] (hcalm.run s) hkeeps hahead, (hcalm.run s).progressing, hkeeps,
    fun _ h => h.elim⟩

-- Nothing is found out about the name.
theorem of_missing [hcalm : Runs Calm a] (h : ∀ facts, Runs (Passing (ground.learn facts) file) a) :
    Explores w path budget ground file [.token ident] (· = ident) a a := by
  intro missing rest s hs _
  have hahead := (h []).run s _ hs.miss.ahead
  have hkeeps : s.info.Keeps (a.run s).2.info := keeps_of_ahead (fun facts => (h facts).run s _) hs.ahead
  refine ⟨rfl, partsIn file [.token ident], hs.miss.next [] (hcalm.run s) hkeeps hahead,
    (hcalm.run s).progressing, hkeeps, ?_⟩
  rintro _ rfl
  rw [Outlook.Answers, keysOf_append]
  exact .inl (List.mem_append_left _ List.mem_cons_self)

-- The later part may use what is known then.
theorem bind_of (ha : Explores w path budget ground file ts P a b)
    (hf : ∀ missing rest s, Initializing w ground file missing (partsIn file ts ++ rest) path s → ∃ facts,
      (∀ fact ∈ facts, fact.Holds (a.run s).2) ∧
        Explores w path budget (ground.learn facts) file us P' (f (a.run s).1) (g (a.run s).1)) :
    Explores w path budget ground file (ts ++ us) (fun ident => P ident ∨ P' ident) (a >>= f) (b >>= g) := by
  intro missing rest s hs howed
  rw [partsIn, List.map_append, List.append_assoc] at hs
  obtain ⟨hrun, missing', hfirst⟩ := ha missing _ s hs howed
  obtain ⟨facts, hfacts, hnext⟩ := hf missing _ s hs
  obtain ⟨hrun', missing'', hsecond⟩ :=
    hnext _ rest _ (hfirst.initializing.learn hfacts) (hfirst.progressing.owed_le.trans howed)
  have hbind : (b >>= g).run s = (g (a.run s).1).run (a.run s).2 := by
    rw [StateT.run_bind, hrun]
    rfl
  refine ⟨hbind.trans hrun', missing'' ++ missing', ?_⟩
  rw [List.append_assoc]
  exact hfirst.trans hsecond.forget

theorem bind (us : List Tree) (ha : Explores w path budget ground file ts P a b)
    (hf : ∀ x, Explores w path budget ground file us P' (f x) (g x)) :
    Explores w path budget ground file (ts ++ us) (fun ident => P ident ∨ P' ident) (a >>= f) (b >>= g) :=
  ha.bind_of fun _ _ _ _ => ⟨[], List.forall_mem_nil _, hf _⟩

theorem bind_learns {Q : Ground → α → Prop} (ha : Explores w path budget ground file ts P a b)
    (hlearns : Learns ground file ts a Q) (hf : ∀ facts x, Q (ground.learn facts) x →
      Explores w path budget (ground.learn facts) file us P' (f x) (g x)) :
    Explores w path budget ground file (ts ++ us) (fun ident => P ident ∨ P' ident) (a >>= f) (b >>= g) := by
  refine ha.bind_of fun missing rest s hs => ?_
  obtain ⟨facts, hknown, hx⟩ := hlearns _ s (hs.ahead.perm (List.perm_append_comm_assoc _ _ _))
  exact ⟨facts, fun fact hfact => hknown.valued.facts fact (List.mem_append_left _ hfact), hf facts _ hx⟩

-- Only the earlier part looks at anything.
theorem before_learns {Q : Ground → α → Prop} (ha : Explores w path budget ground file ts P a b)
    (hlearns : Learns ground file ts a Q) (hcalm : ∀ x, Runs Calm (f x))
    (hf : ∀ facts others x, Q (ground.learn facts) x →
      Runs (Passing ((ground.learn facts).learn others) file) (f x)) :
    Explores w path budget ground file ts P (a >>= f) (b >>= f) := by
  have hnext (facts : List Fact) (x : α) (hx : Q (ground.learn facts) x) :
      Explores w path budget (ground.learn facts) file [] (fun _ => False) (f x) (f x) :=
    have := hcalm x
    .of_calm fun others => .of_runs (hf facts others x hx)
  rw [← List.append_nil ts]
  exact (ha.bind_learns hlearns hnext).mono fun ident => .inl

theorem before (ha : Explores w path budget ground file ts P a b) (hcalm : ∀ x, Runs Calm (f x))
    (hf : ∀ facts x, Runs (Passing (ground.learn facts) file) (f x)) :
    Explores w path budget ground file ts P (a >>= f) (b >>= f) := by
  have hnext (x : α) : Explores w path budget ground file [] (fun _ => False) (f x) (f x) :=
    have := hcalm x
    .of_calm fun facts => .of_runs (hf facts x)
  rw [← List.append_nil ts]
  exact (ha.bind [] hnext).mono fun ident => .inl

theorem discard (h : Explores w path budget ground file ts P a b) :
    Explores w path budget ground file ts P (discard a) (discard b) := by
  intro missing rest s hs howed
  obtain ⟨hrun, hreached⟩ := h missing rest s hs howed
  refine ⟨?_, hreached⟩
  change (_, (b.run s).2) = (_, (a.run s).2)
  rw [hrun]

-- Only the later part looks at anything.
theorem after (ts : List Tree) [Runs Calm a] (ha : ∀ facts, Reads (ground.learn facts) file ts a)
    (hf : ∀ x, Explores w path budget ground file us P (f x) (g x)) :
    Explores w path budget ground file (ts ++ us) P (a >>= f) (a >>= g) :=
  ((of_calm ha).bind us hf).mono fun _ => .inr

variable {F G : Tree → CheckM α}

-- Values one after the other.
theorem mapM_values (h : ∀ v ∈ values, Explores w path budget ground file [v] v.Mentions (F v) (G v)) :
    Explores w path budget ground file values (fun ident => ∃ v ∈ values, v.Mentions ident)
    (values.mapM F) (values.mapM G) := by
  induction values with
  | nil =>
      have hpure (facts : List Fact) :
          Runs (Passing (ground.learn facts) file) (pure [] : CheckM (List α)) := inferInstance
      exact (of_calm fun facts => .of_runs (hpure facts)).mono fun ident hident => absurd hident (by simp)
  | cons v others ih =>
      obtain ⟨hv, hothers⟩ := List.forall_mem_cons.mp h
      rw [List.mapM_cons, List.mapM_cons]
      refine (hv.bind others fun y => (ih hothers).before (fun _ => inferInstance) fun _ _ =>
        inferInstance).mono fun ident hident => ?_
      exact (List.exists_mem_cons_iff _ _ _).mp hident

theorem forM_values {F G : Tree → CheckM PUnit}
    (h : ∀ v ∈ values, Explores w path budget ground file [v] v.Mentions (F v) (G v)) :
    Explores w path budget ground file values (fun ident => ∃ v ∈ values, v.Mentions ident)
    (forM values F) (forM values G) := by
  induction values with
  | nil =>
      have hpure (facts : List Fact) :
          Runs (Passing (ground.learn facts) file) (pure ⟨⟩ : CheckM PUnit) := inferInstance
      exact (of_calm fun facts => .of_runs (hpure facts)).mono fun ident hident => absurd hident (by simp)
  | cons v others ih =>
      obtain ⟨hv, hothers⟩ := List.forall_mem_cons.mp h
      rw [List.forM_cons, List.forM_cons]
      exact (hv.bind others fun _ => ih hothers).mono fun ident => (List.exists_mem_cons_iff _ _ _).mp

end Explores

end Combinators

section Operands

variable {R : State → State → Prop} [Routine R] {expected? : Option Ty} {o : Operand}

instance (priority := low) : Runs R (recordOperand t expected? o) := by
  unfold recordOperand
  extract_lets result expect
  have hexpect (u : Unit) : Runs R (expect u) := by
    unfold expect result
    split <;> infer_instance
  split
  · exact .bind inferInstance hexpect
  · exact hexpect ()

instance (priority := low) {operand : Tree} {op : TokenKind} : Runs R (applyUnary t operand op o) := by
  unfold applyUnary
  split
  · infer_instance
  · split
    · infer_instance
    · refine .bind inferInstance fun kind => ?_
      split
      · split <;> infer_instance
      · infer_instance

instance (priority := low) {lhs rhs : Tree} {op : TokenKind} {left right : Operand} :
    Runs R (combine t lhs rhs op left right) := by
  unfold combine
  split
  · infer_instance
  · split
    · infer_instance
    · refine .bind inferInstance fun found => ?_
      split <;> infer_instance

instance [Told ground file t o.value] : Runs (Passing ground file) (recordOperand t expected? o) := by
  unfold recordOperand
  extract_lets result expect
  have hexpect (u : Unit) : Runs (Passing ground file) (expect u) := by
    unfold expect result
    split <;> infer_instance
  split
  · exact .bind inferInstance hexpect
  · exact hexpect ()

instance {operand : Tree} {op : TokenKind} : Runs (Passing ground file) (applyUnary t operand op o) := by
  unfold applyUnary
  split
  · infer_instance
  · split
    · infer_instance
    · refine .bind inferInstance fun kind => ?_
      split
      · split <;> infer_instance
      · infer_instance

instance {lhs rhs : Tree} {op : TokenKind} {left right : Operand} [Told ground file lhs left.value]
    [Told ground file rhs right.value] : Runs (Passing ground file) (combine t lhs rhs op left right) := by
  unfold combine
  split
  · infer_instance
  · split
    · infer_instance
    · refine .bind inferInstance fun found => ?_
      split <;> infer_instance

end Operands

section Values

-- The rules explore plain values that are not too deep. The names in such a value stand in the
-- specification that is looked into.
def Outlook.Explored (w : Outlook) (n : Nat) (r r' : Rules) : Prop :=
  ∀ ground file path budget t expected?, t.Plain → t.height + budget ≤ n →
    (∀ b ∈ path.head?, ∀ ident, t.Mentions ident → w.Mentions b (file, rangeOf ident)) →
      Explores w path budget ground file [t] t.Mentions (r.expr t expected?) (r'.expr t expected?)

-- Specifications are looked into, or come back to.
def Outlook.Entered (w : Outlook) (n : Nat) (r r' : Rules) : Prop :=
  ∀ ground file missing rest path s index, Initializing w ground file missing rest path s → s.owed ≤ n →
    index < w.parts.length → (∀ b ∈ path.head?, w.Needs s.info b index) →
      (resolveSpec r' index).run s = (resolveSpec r index).run s ∧
        (((resolveSpec r index).run s).2.ReportsInitCycle ∨
          ((resolveSpec r index).run s).2.IsAt .finished index) ∧
        ∃ missing', Reached w ground file (missing' ++ missing) rest path (fun _ => False) s
        ((resolveSpec r index).run s).2

variable {expected? : Option Ty}

theorem run_ensureResolved (r : Rules) (id : SymbolId) (s : State) : (ensureResolved r id).run s =
    match s.specOf[id]? with
    | some index => (resolveSpec r index).run s
    | none => (⟨⟩, s) := by
  unfold ensureResolved
  rw [run_get_bind]
  cases s.specOf[id]? <;> rfl

-- What a name means is looked into.
theorem explores_ensureResolved (hentered : w.Entered budget r r')
    (huse : Fact.use (file, rangeOf ident) id ∈ ground.facts)
    (hpath : ∀ b ∈ path.head?, w.Mentions b (file, rangeOf ident)) :
    Explores w path budget ground file [] (· = ident) (ensureResolved r id) (ensureResolved r' id) := by
  intro missing rest s hs howed
  have hnoted : s.info.uses[(file, rangeOf ident)]? = some id := hs.ahead.valued.facts _ huse
  rw [run_ensureResolved, run_ensureResolved, hs.specOf]
  cases hspec : w.specOf[id]? with
  | none =>
      refine ⟨rfl, [], hs, refl_of Progressing s, .refl _, ?_⟩
      rintro _ rfl
      refine .inr ⟨id, hnoted, fun b hb => ?_⟩
      rw [hspec] at hb
      cases hb
  | some index =>
      obtain ⟨hrun, hdone, missing', hreached⟩ := hentered ground file missing rest path s index hs howed
        (w.linked id index hspec) fun b hb => ⟨_, id, hpath b hb, hnoted, hspec⟩
      refine ⟨hrun, missing', { hreached with answers := ?_ }⟩
      rintro _ rfl
      refine .inr ⟨id, hreached.keeps.uses _ id hnoted, fun b hb => ?_⟩
      obtain rfl := Option.some.inj (hspec.symm.trans hb)
      exact hdone

theorem explores_useSymbol (hentered : w.Entered budget r r')
    (hpath : ∀ b ∈ path.head?, w.Mentions b (file, rangeOf ident)) :
    Explores w path budget ground file [.token ident] (· = ident) (useSymbol r ident id)
    (useSymbol r' ident id) := by
  have hrecord :
      Explores w path budget ground file [.token ident] (fun _ => False) (recordUse (rangeOf ident) id)
      (recordUse (rangeOf ident) id) := .of_calm fun facts => reads_recordUse ident id
  unfold useSymbol
  rw [← List.append_nil [Tree.token ident]]
  refine (hrecord.bind_learns (learns_recordUse ident id) fun facts _ huse => ?_).mono fun _ => .inr
  exact (explores_ensureResolved hentered huse hpath).before (fun _ => inferInstance) fun _ _ => inferInstance

theorem explores_checkName (hentered : w.Entered budget r r') (hkind : t.kind? = some .nameRef)
    (hident : t.ident? = some ident) (hpath : ∀ b ∈ path.head?, w.Mentions b (file, rangeOf ident)) :
    Explores w path budget ground file [t] t.Mentions (checkName r t) (checkName r' t) := by
  refine Explores.mono (P := (· = ident)) (.below ?_ (Tree.below_ident hident)) fun other hother =>
    (Tree.mentions_name_iff hkind hident).mp hother
  unfold checkName
  rw [hident]
  dsimp only
  by_cases hblank : (ident.text == "_") = true
  · rw [if_pos hblank, if_pos hblank]
    exact .of_missing fun _ => inferInstance
  · rw [if_neg hblank, if_neg hblank]
    refine Explores.after [] (fun _ => .of_runs inferInstance) fun found => ?_
    cases found with
    | some id => exact explores_useSymbol hentered hpath
    | none => exact .of_missing fun _ => inferInstance

section Specifications

variable [ReadsRules r]

-- What is done with the operand of a value is told about it.
theorem Explores.expr_before {f : Operand → CheckM β}
    (h : Explores w path budget ground file [t] P (r.expr t expected?) (r'.expr t expected?))
    (hcalm : ∀ o, Runs Calm (f o))
    (hf : ∀ ground o, Told ground file t o.value → Runs (Passing ground file) (f o)) :
    Explores w path budget ground file [t] P (r.expr t expected? >>= f) (r'.expr t expected? >>= f) :=
  h.before_learns (ReadsRules.expr ground file t expected?) hcalm fun _ others o ho =>
    hf _ o (ho.learn others)

-- The initial values of a specification are explored.
theorem explores_specValues {spec : Tree} (count : Nat) (isConst : Bool)
    (h : ∀ v ∈ spec.listed 0, ∀ expected?,
      Explores w path budget ground file [v] v.Mentions (r.expr v expected?) (r'.expr v expected?)) :
    Explores w path budget ground file (spec.type?.toList ++ spec.listed 0)
      (fun ident => ∃ v ∈ spec.listed 0, v.Mentions ident) (specValues r spec count isConst)
      (specValues r' spec count isConst) := by
  unfold specValues
  refine .after _ (fun _ => .optionMapM_tree fun type _ => reads_typeOf type) fun type? => ?_
  generalize spec.listed 0 = values at h
  cases values with
  | nil =>
      refine (Explores.of_calm fun facts => .of_runs ?_).mono fun ident hident => absurd hident (by simp)
      dsimp only
      infer_instance
  | cons value others =>
      dsimp only
      by_cases hcount : ((value :: others).length == count) = true
      · rw [if_pos hcount, if_pos hcount]
        exact .mapM_values fun v hv => (h v hv type?).expr_before (fun _ => inferInstance) fun _ o _ =>
          inferInstance
      · rw [if_neg hcount, if_neg hcount]
        by_cases hone : (others.isEmpty && !isConst) = true
        · rw [if_pos hone, if_pos hone]
          obtain rfl := List.isEmpty_iff.mp (Bool.and_eq_true_iff.mp hone).1
          refine Explores.mono (P := value.Mentions)
            (.before (h value List.mem_cons_self none) (fun o => ?_) fun facts o => ?_) ?_
          · split
            · split
              · refine .mapM fun item _ => ?_
                split <;> infer_instance
              · infer_instance
            · infer_instance
          · split
            · split
              · refine .mapM fun item _ => ?_
                split <;> infer_instance
              · infer_instance
            · infer_instance
          · rintro ident ⟨v, hv, hident⟩
            rwa [List.mem_singleton.mp hv] at hident
        · rw [if_neg hone, if_neg hone, forIn_eq_forM, forIn_eq_forM]
          exact .before (.forM_values fun v hv => (h v hv type?).discard)
            (fun _ => inferInstance) fun _ _ => inferInstance

end Specifications

end Values

end SpriteScript.Check
