import Mathlib.Data.List.TakeWhile
import SpriteScript.Proofs.Grammar
import SpriteScript.Proofs.Lossless

-- What the moves of a parser add to the tree, as long as nothing is reported.
namespace SpriteScript.Syntax

open Grammar

-- Between two states trees were added that follow the grammar, and for which `P` holds.
structure Grown (s₀ s : Cursor) (P : List Tree → Prop) : Prop where
  start : s₀.Sound
  grown : ∃ new, Grows s₀ s new ∧ (∀ t ∈ new, t.conforms = true) ∧ P new

-- The trees that were added fill the slots.
abbrev Filled (s₀ s : Cursor) (slots : List Slot) : Prop := Grown s₀ s (Fills slots)

-- How an action ends, if it reports nothing.
def Quiet {α : Type} (a : Action α) (s : Cursor) (Q : α → Cursor → Prop) : Prop :=
  (a.run s).2.errors = s.errors → Q (a.run s).1 (a.run s).2

-- What holds of the trees that an action adds.
def Adds {α : Type} (a : Action α) (s : Cursor) (P : List Tree → Prop) : Prop :=
  Quiet a s fun _ s' => Grown s s' P

-- The trees that an action adds fill the slots.
abbrev Makes {α : Type} (a : Action α) (s : Cursor) (slots : List Slot) : Prop :=
  Adds a s (Fills slots)

theorem Adds.mono {α : Type} {a : Action α} {s : Cursor} {P Q : List Tree → Prop} (ha : Adds a s P)
    (himp : ∀ ts, P ts → Q ts) : Adds a s Q := fun hquiet =>
  have hgrown := ha hquiet
  ⟨hgrown.start, hgrown.grown.imp fun _ hnew => ⟨hnew.1, hnew.2.1, himp _ hnew.2.2⟩⟩

theorem Adds.ofType {α : Type} {a : Action α} {s : Cursor} (kind : NodeKind)
    (hkind : kind.isType = true) (ha : Makes a s [nodeOf kind]) : Makes a s [typeSlot] :=
  ha.mono fun _ hts => Fills.one hts (isType_of_isA kind hkind)

theorem Adds.ofExpr {α : Type} {a : Action α} {s : Cursor} (kind : NodeKind)
    (hkind : kind.isExpr = true) (ha : Makes a s [nodeOf kind]) : Makes a s [exprSlot] :=
  ha.mono fun _ hts => Fills.one hts (isExpr_of_isA kind hkind)

theorem Adds.ofStatement {α : Type} {a : Action α} {s : Cursor} (kind : NodeKind)
    (hkind : kind.isStatement = true) (ha : Makes a s [nodeOf kind]) :
    Makes a s [.one Tree.isStatement] :=
  ha.mono fun _ hts => Fills.one hts (isStatement_of_isA kind hkind)

namespace Grown

variable {s₀ s s' : Cursor} {P Q : List Tree → Prop}

theorem refl (h : s.Sound) (hP : P []) : Grown s s P :=
  ⟨h, [], .refl h, by simp, hP⟩

theorem here (h : s.Sound) : Grown s s fun _ => True := refl h trivial

theorem sound (h : Grown s₀ s P) : s.Sound := by
  obtain ⟨_, _, hgrows, _⟩ := h
  exact hgrows.sound

theorem length_le (h : Grown s₀ s P) : s.rest.length ≤ s₀.rest.length := by
  obtain ⟨_, _, hgrows, _⟩ := h
  exact hgrows.length_le

theorem checkpoint_le (h : Grown s₀ s P) : s₀.builder.checkpoint ≤ s.builder.checkpoint := by
  obtain ⟨_, _, hgrows, _⟩ := h
  exact hgrows.checkpoint_le

theorem choose {β : Type} {l : List β} {R : β → List Tree → Prop}
    (h : Grown s₀ s fun ts => ∃ x ∈ l, R x ts) : ∃ x ∈ l, Grown s₀ s (R x) := by
  obtain ⟨hstart, new, hgrows, hconforms, x, hx, hR⟩ := h
  exact ⟨x, hx, hstart, new, hgrows, hconforms, hR⟩

theorem append {R : List Tree → Prop} (h : Grown s₀ s P) (h' : Grown s s' Q)
    (happend : ∀ ts us, P ts → Q us → R (ts ++ us)) : Grown s₀ s' R := by
  obtain ⟨hstart, new, hgrows, hconforms, hP⟩ := h
  obtain ⟨-, more, hgrows', hconforms', hQ⟩ := h'
  refine ⟨hstart, new ++ more, hgrows.trans hgrows', ?_, happend new more hP hQ⟩
  intro t ht
  exact (List.mem_append.mp ht).elim (hconforms t) (hconforms' t)

theorem mono (h : Grown s₀ s P) (himp : ∀ ts, P ts → Q ts) : Grown s₀ s Q := by
  obtain ⟨hstart, new, hgrows, hconforms, hP⟩ := h
  exact ⟨hstart, new, hgrows, hconforms, himp new hP⟩

end Grown

namespace Filled

variable {s₀ s s' : Cursor} {acc slots : List Slot}

theorem refl (h : s.Sound) : Filled s s [] := Grown.refl h .nil

theorem trans (h : Filled s₀ s acc) (h' : Filled s s' slots) : Filled s₀ s' (acc ++ slots) :=
  Grown.append h h' fun _ _ => Fills.append

-- A list at the end can be made longer.
theorem extend {p : Tree → Bool} (h : Filled s₀ s (acc ++ [.many p]))
    (h' : Filled s s' [.many p]) : Filled s₀ s' (acc ++ [.many p]) :=
  Grown.append h h' fun _ _ => Fills.many_append

-- A place for one tree or none may be left out.
theorem optional (h : Filled s₀ s acc) (p : Tree → Bool) : Filled s₀ s (acc ++ [.opt p]) := by
  have hnone : Filled s s [.opt p] := (refl h.sound).mono fun _ => .opt_nil
  exact h.trans hnone

end Filled

namespace Quiet

variable {α β : Type} {a b : Action α} {f : α → Action β} {s₀ s : Cursor} {acc slots : List Slot}
variable {Q : α → Cursor → Prop} {R : β → Cursor → Prop}

theorem imp {Q' : α → Cursor → Prop} (ha : Quiet a s Q) (himp : ∀ x s', Q x s' → Q' x s') :
    Quiet a s Q' :=
  fun hquiet => himp _ _ (ha hquiet)

theorem pure {x : α} (h : Q x s) : Quiet (Pure.pure x) s Q := fun _ => h

-- If the whole reports nothing, its first part does not either.
theorem bind {P : List Tree → Prop} (h : Grown s₀ s P) [ha' : BracketedFrom s₀.builder.checkpoint a]
    [hf' : ∀ x, BracketedFrom s₀.builder.checkpoint (f x)] (ha : Quiet a s Q)
    (hf : ∀ x s', Q x s' → Quiet (f x) s' R) : Quiet (a >>= f) s R := by
  intro hquiet
  obtain ⟨hstart, left, hleft, -⟩ := h
  obtain ⟨new, hnew, herrors⟩ := ha'.grows s₀ s left hstart rfl hleft
  obtain ⟨-, -, herrors'⟩ := (hf' (a.run s).1).grows s₀ _ new hstart rfl hnew
  have hquiet' : ((f (a.run s).1).run (a.run s).2).2.errors = s.errors := hquiet
  have hsame : (a.run s).2.errors = s.errors :=
    ((hquiet' ▸ herrors').eq_of_length_le herrors.length_le)
  exact hf _ _ (ha hsame) (hquiet'.trans hsame.symm)

-- An action that adds trees behind those that are there.
theorem step (h : Filled s₀ s acc) [Bracketed a]
    [∀ x, BracketedFrom s₀.builder.checkpoint (f x)] (ha : Makes a s slots)
    (hf : ∀ x s', Filled s₀ s' (acc ++ slots) → s'.rest.length ≤ s.rest.length →
      Quiet (f x) s' R) : Quiet (a >>= f) s R :=
  bind h ha fun x s' h' => hf x s' (h.trans h') h'.length_le

theorem ite {c : Prop} [Decidable c] (ha : c → Quiet a s Q) (hb : ¬c → Quiet b s Q) :
    Quiet (if c then a else b) s Q := by
  split
  · exact ha ‹_›
  · exact hb ‹_›

-- A tree that may be left out.
theorem optional {c : Prop} [Decidable c] {a : Action Unit} {next : Unit → Action β}
    {p : Tree → Bool} (h : Filled s₀ s acc) [Bracketed a]
    [∀ x, BracketedFrom s₀.builder.checkpoint (next x)] (ha : c → Makes a s [.one p])
    (hnext : ∀ s', Filled s₀ s' (acc ++ [.opt p]) → s'.rest.length ≤ s.rest.length →
      Quiet (next ()) s' R) : Quiet (if c then a >>= next else next ()) s R := by
  refine .ite (fun hc => ?_) fun _ => hnext s (h.optional p) (Nat.le_refl _)
  refine bind h (ha hc) fun _ s' h' => hnext s' (h.trans ?_) h'.length_le
  exact h'.mono fun _ => Fills.opt

-- Looking leaves the state alone.

theorem get_bind {f : Cursor → Action β} : Quiet (get >>= f) s R ↔ Quiet (f s) s R := .rfl

theorem kind?_bind {f : Option TokenKind → Action β} :
    Quiet (kind? >>= f) s R ↔ Quiet (f s.kind?) s R := .rfl

theorem second?_bind {f : Option TokenKind → Action β} :
    Quiet (second? >>= f) s R ↔ Quiet (f s.second?) s R := .rfl

theorem isAt_bind {kind : TokenKind} {f : Bool → Action β} :
    Quiet (isAt kind >>= f) s R ↔ Quiet (f (s.kind? == some kind)) s R := .rfl

theorem isAtAny_bind {kinds : List TokenKind} {f : Bool → Action β} :
    Quiet (isAtAny kinds >>= f) s R ↔ Quiet (f (s.kind?.any kinds.contains)) s R := .rfl

theorem isAtEnd_bind {f : Bool → Action β} :
    Quiet (isAtEnd >>= f) s R ↔ Quiet (f s.current?.isNone) s R := .rfl

-- An error is no quiet end.
theorem fault {f : Fault} {R : Unit → Cursor → Prop} : Quiet (fault f) s R := fun hquiet =>
  absurd hquiet (List.cons_ne_self _ _)

theorem fault_bind {P : List Tree → Prop} {f : Fault} {next : Unit → Action β}
    (h : Grown s₀ s P)
    [∀ x, BracketedFrom s₀.builder.checkpoint (next x)] : Quiet (Syntax.fault f >>= next) s R :=
  bind (Q := fun _ _ => False) h fault fun _ _ => False.elim

theorem discard (ha : Quiet a s Q) : Quiet (Functor.discard a) s fun _ s' => ∃ x, Q x s' :=
  fun hquiet => ⟨_, ha hquiet⟩

end Quiet

-- Moves

-- Kinds of tokens that follow the grammar whatever their text is.
def plain (kind : TokenKind) : Bool := !kind.isTrivia && kind != .error && kind != .str

section Moves

variable {s₀ s : Cursor} {acc slots : List Slot} {kind : TokenKind} {kinds : List TokenKind}

theorem conforms_of_trivia {t : Token} (h : t.kind.isTrivia = true) :
    (Tree.token t).conforms = true := by
  cases hkind : t.kind <;> simp_all [Tree.conforms, TokenKind.isTrivia]

theorem conforms_of_plain {t : Token} (h : plain t.kind = true) :
    (Tree.token t).conforms = true := by
  simp only [plain, Bool.and_eq_true] at h
  simp [Tree.conforms, h.1.2, h.2]

theorem skipped_blank (h : s.Sound) :
    ∀ t ∈ (s.rest.takeWhile (·.skipped)).map fun l => Tree.token l.token,
      t.conforms = true ∧ t.isBlank = true := by
  intro t ht
  obtain ⟨l, hl, rfl⟩ := List.mem_map.mp ht
  have hskipped : l.skipped = true := by
    simpa using List.mem_takeWhile_imp hl
  have htrivia := h.skips l ((List.takeWhile_prefix _).subset hl) hskipped
  exact ⟨conforms_of_trivia htrivia, by simpa [Tree.isBlank, Tree.token?] using htrivia⟩

theorem filled_flush (h : s.Sound) : Filled s s.flush [] :=
  ⟨h, _, grows_flush h, fun t ht => (skipped_blank h t ht).1,
    .blank fun t ht => (skipped_blank h t ht).2⟩

-- One token is taken, and the blanks before it.
theorem grown_bump (h : s.Sound) {t : Token} (hcurrent : s.current? = some t)
    (hconforms : (Tree.token t).conforms = true) :
    Grown s s.bump fun ts => ∃ us, ts = us ++ [.token t] ∧ ∀ u ∈ us, u.isBlank = true := by
  have hgrows := (grows_bump h).1
  rw [hcurrent] at hgrows
  refine ⟨h, _, hgrows, ?_, _, rfl, fun u hu => (skipped_blank h u hu).2⟩
  intro u hu
  simp only [Option.map_some, Option.toList_some, List.mem_append, List.mem_singleton] at hu
  rcases hu with hu | rfl
  · exact (skipped_blank h u hu).1
  · exact hconforms

theorem filled_bump (h : s.Sound) {t : Token} (hcurrent : s.current? = some t) {p : Tree → Bool}
    (hconforms : (Tree.token t).conforms = true) (hblank : (Tree.token t).isBlank = false)
    (hp : p (.token t) = true) :
    Filled s s.bump [.one p] ∧ s.bump.rest.length < s.rest.length := by
  refine ⟨(grown_bump h hcurrent hconforms).mono ?_, bump_shrinks (by simp [hcurrent])⟩
  rintro _ ⟨us, rfl, hus⟩
  have hone : Fills [.one p] [.token t] := by simp [Fills, solid, hblank, hp]
  exact (Fills.blank hus).append hone

theorem current?_of_kind? (h : s.kind? = some kind) : ∃ t, s.current? = some t ∧ t.kind = kind := by
  simpa [Cursor.kind?] using h

theorem kind?_of_solids {s' : Cursor} {kind : Option TokenKind} (hsolids : s'.solids = s.solids)
    (hkind : s.kind? = kind) : s'.kind? = kind := by
  simpa only [Cursor.kind?, Cursor.current?, hsolids] using hkind

theorem kind?_of_rest {s' : Cursor} {kind : Option TokenKind} (hrest : s'.rest = s.rest)
    (hkind : s.kind? = kind) : s'.kind? = kind :=
  kind?_of_solids (by rw [Cursor.solids, Cursor.solids, hrest]) hkind

theorem second?_of_rest {s' : Cursor} {kind : Option TokenKind} (hrest : s'.rest = s.rest)
    (hkind : s.second? = kind) : s'.second? = kind := by
  simpa only [Cursor.second?, Cursor.solids, hrest] using hkind

theorem quiet_bump (h : s.Sound) (hkind : s.kind? = some kind) (hplain : plain kind = true) :
    Quiet bump s fun _ s' => Filled s s' [tok kind] ∧ s'.rest.length < s.rest.length := by
  intro _
  obtain ⟨t, hcurrent, rfl⟩ := current?_of_kind? hkind
  have htrivia : t.kind.isTrivia = false := by
    simp only [plain, Bool.and_eq_true, Bool.not_eq_true'] at hplain
    exact hplain.1.1
  exact filled_bump h hcurrent (conforms_of_plain hplain)
    (by simpa [Tree.isBlank, Tree.token?] using htrivia) (by simp [Tree.isTok, Tree.token?])

theorem kind?_bump (h : s.Sound) : s.bump.kind? = s.second? := by
  have hsolids : s.bump.solids = s.solids.tail.dropWhile (·.skipped) := by
    rw [Cursor.solids, (grows_bump h).2]
  simp only [Cursor.kind?, Cursor.current?, Cursor.second?, hsolids, List.drop_one,
    List.find?_not_eq_head?_dropWhile, Option.map_map, Function.comp_def]

-- Two tokens are taken.
theorem makes_bump_bump {next : TokenKind} (h : s.Sound) (hkind : s.kind? = some kind)
    (hsecond : s.second? = some next) (hplain : plain kind = true) (hplain' : plain next = true) :
    Makes (do bump; bump) s [tok kind, tok next] := by
  refine .bind (.here h) (Q := fun _ s' => s' = s.bump ∧ Filled s s' [tok kind])
    (fun hquiet => ⟨rfl, (quiet_bump h hkind hplain hquiet).1⟩) ?_
  rintro _ _ ⟨rfl, h₁⟩
  have hkind' : s.bump.kind? = some next := (kind?_bump h).trans hsecond
  exact (quiet_bump h₁.sound hkind' hplain').imp fun _ _ h₂ => h₁.trans h₂.1

theorem quiet_bump_in (h : s.Sound) (hkind : s.kind?.any kinds.contains = true)
    (hplain : kinds.all plain = true) :
    Quiet bump s fun _ s' => Filled s s' [tokIn kinds] ∧ s'.rest.length < s.rest.length := by
  obtain ⟨kind, hkind, hmem⟩ := (Option.any_eq_true _ _).mp hkind
  refine (quiet_bump h hkind (List.all_eq_true.mp hplain kind (by simpa using hmem))).imp ?_
  rintro _ s' ⟨hfilled, hless⟩
  refine ⟨hfilled.mono fun ts hts => hts.one fun t ht => ?_, hless⟩
  cases t <;> simp_all [Tree.isTok, Tree.isTokIn, Tree.token?]

-- Where no blanks are left the token is the first tree.
theorem grown_bump_here (h : s.Sound) (hblanks : s.rest = s.solids) {t : Token}
    (hcurrent : s.current? = some t) (hconforms : (Tree.token t).conforms = true) :
    Grown s s.bump (· = [.token t]) := by
  have hnone : s.rest.takeWhile (·.skipped) = [] := by
    rw [hblanks]
    exact List.takeWhile_eq_nil_iff.mpr fun hl => List.dropWhile_get_zero_not _ _ hl
  have hgrows := (grows_bump h).1
  rw [hcurrent, hnone] at hgrows
  exact ⟨h, [.token t], hgrows, by simpa using hconforms, rfl⟩

theorem quiet_eat_at (h : s.Sound) (hkind : s.kind? = some kind) (hplain : plain kind = true) :
    Quiet (eat kind) s fun taken s' =>
      taken = true ∧ Filled s s' [tok kind] ∧ s'.rest.length < s.rest.length := by
  refine Quiet.isAt_bind.mpr (.ite (fun _ => ?_) fun hnot => absurd (beq_iff_eq.mpr hkind) hnot)
  exact .bind (.here h) (quiet_bump h hkind hplain) fun _ _ hs' => .pure ⟨rfl, hs'⟩

theorem quiet_eat_not (hkind : s.kind? ≠ some kind) :
    Quiet (eat kind) s fun taken s' => taken = false ∧ s' = s :=
  Quiet.isAt_bind.mpr (.ite (fun hat => absurd (beq_iff_eq.mp hat) hkind) fun _ => .pure ⟨rfl, rfl⟩)

theorem quiet_eat (h : s.Sound) (hplain : plain kind = true) :
    Quiet (eat kind) s fun taken s' =>
      (taken = true ∧ Filled s s' [tok kind] ∧ s'.rest.length < s.rest.length) ∨
        (taken = false ∧ s' = s) := by
  by_cases hkind : s.kind? = some kind
  · exact (quiet_eat_at h hkind hplain).imp fun _ _ => .inl
  · exact (quiet_eat_not hkind).imp fun _ _ => .inr

-- A token that is expected is there.
theorem quiet_expect (h : s.Sound) (hplain : plain kind = true) (what : String) :
    Quiet (expect kind what) s fun taken s' =>
      taken = true ∧ Filled s s' [tok kind] ∧ s'.rest.length < s.rest.length := by
  rw [expect]
  refine Quiet.bind (.here h) (quiet_eat h hplain) fun taken s' hs' => ?_
  rcases hs' with ⟨rfl, hs'⟩ | ⟨rfl, rfl⟩
  · exact .pure ⟨rfl, hs'⟩
  · exact Quiet.fault_bind (.here h)

theorem makes_discard {α : Type} {a : Action α} (h : Makes a s slots) : Makes (discard a) s slots :=
  h

theorem makes_eat (h : s.Sound) (hplain : plain kind = true) :
    Makes (discard (eat kind)) s [optTok kind] := by
  refine makes_discard ((quiet_eat h hplain).imp fun taken s' hs' => ?_)
  rcases hs' with ⟨-, hs', -⟩ | ⟨-, rfl⟩
  · exact hs'.mono fun _ => Fills.opt
  · exact (Filled.refl h).mono fun _ => Fills.opt_nil

theorem quiet_require (h : s.Sound) (hplain : plain kind = true) (what : String) :
    Quiet (discard (expect kind what)) s fun _ s' =>
      Filled s s' [tok kind] ∧ s'.rest.length < s.rest.length :=
  (quiet_expect h hplain what).discard.imp fun _ _ ⟨_, hs'⟩ => hs'.2

theorem makes_expect (h : s.Sound) (hplain : plain kind = true) (what : String) :
    Makes (discard (expect kind what)) s [tok kind] :=
  (quiet_require h hplain what).imp fun _ _ hs' => hs'.1

theorem quiet_skipTo {R : Unit → Cursor → Prop} (h : s.Sound) (fuel : Nat) (f : Fault)
    (stops : List TokenKind) : Quiet (skipTo fuel f stops) s R :=
  Quiet.fault_bind (.here h)

end Moves

-- Building

section Building

variable {s₀ s : Cursor} {acc slots : List Slot} {kind : NodeKind}
variable {body : Action Unit}

-- What a node of the kind may be made of.
def Ready (kind : NodeKind) (s s' : Cursor) : Prop := Grown s s' fun ts => fits kind ts = true

theorem ready_of_filled (hloose : loose kind = true) (hslots : slots ∈ productions kind)
    (h : Filled s₀ s slots) : Ready kind s₀ s :=
  h.mono fun _ => fits_of_loose hloose hslots

theorem ready_of_row {p : Tree → Bool} (hslots : slots ++ [.many p] ∈ productions kind)
    (h : Grown s₀ s (ListRow slots p (memberOf kind))) : Ready kind s₀ s :=
  h.mono fun ts hts => by
    rw [fits, Bool.and_eq_true, Bool.and_eq_true]
    exact ⟨List.any_eq_true.mpr ⟨_, hslots, hts.1⟩, hts.2, leads_of_many hslots⟩

theorem ready_of_between {p : Tree → Bool} {first last : TokenKind} {s₁ s₂ s₃ s₄ : Cursor}
    (hslots : [tok first, .many p, tok last] ∈ productions kind)
    (hmembers : ∀ t, t.isNode = false → memberOf kind t = false) (h : Filled s₁ s₂ [tok first])
    (h' : Grown s₂ s₃ (ListRow [] p (memberOf kind))) (h'' : Filled s₃ s₄ [tok last]) :
    Ready kind s₁ s₄ := by
  have hrow : Grown s₁ s₃ fun ts => ∃ xs ys, ts = xs ++ ys ∧ Fills [tok first] xs ∧
      ListRow [] p (memberOf kind) ys := h.append h' fun xs ys hxs hys => ⟨xs, ys, rfl, hxs, hys⟩
  refine hrow.append h'' ?_
  rintro _ zs ⟨xs, ys, rfl, hxs, hys⟩ hzs
  obtain ⟨hfills, hapart⟩ := ListRow.between hxs hys hzs hmembers
  rw [fits, Bool.and_eq_true, Bool.and_eq_true]
  exact ⟨List.any_eq_true.mpr ⟨_, hslots, hfills⟩, hapart,
    leads_of_many (show [tok first] ++ .many p :: [tok last] ∈ productions kind from hslots)⟩

theorem conforms_node {ts : List Tree} {offset : Nat} (hfits : fits kind ts = true)
    (h : ∀ t ∈ ts, t.conforms = true) : (Tree.node kind offset ts).conforms = true := by
  have hall : ∀ us : List Tree, (∀ t ∈ us, t.conforms = true) →
      Tree.conforms.conformsAll us = true := by
    intro us
    induction us with
    | nil => intro _; rfl
    | cons u us ih =>
        intro hus
        simp only [List.mem_cons, forall_eq_or_imp] at hus
        simp [Tree.conforms.conformsAll, hus.1, ih hus.2]
  simp [Tree.conforms, hfits, hall ts h]

-- A finished node is one tree.
theorem filled_finish {s' : Cursor} {P : List Tree → Prop} (h : Grown s₀ s P)
    (hbody : Grown (s.startAt s₀.builder.checkpoint kind) s' fun ts =>
      ∀ us, P us → fits kind (us ++ ts) = true) : Filled s₀ s'.finish [nodeOf kind] := by
  obtain ⟨hstart, left, hleft, hconforms, hP⟩ := h
  obtain ⟨-, inner, hinner, hconforms', hfits⟩ := hbody
  refine ⟨hstart, _, grows_node hstart hleft hinner, ?_, ?_⟩
  · simp only [List.mem_singleton, forall_eq]
    refine conforms_node (hfits left hP) fun t ht => ?_
    exact (List.mem_append.mp ht).elim (hconforms t) (hconforms' t)
  · simp [Fills, solid, Tree.isBlank, Tree.token?, nodeOf, Tree.isA, Tree.kind?]

-- A node starts behind the blanks.
theorem makes_nodeHere [Bracketed body] (h : s.Sound)
    (hbody : ∀ s₁ : Cursor, s₁.Sound → s₁.rest = s.solids →
      Quiet body s₁ fun _ s' => Ready kind s₁ s') :
    Makes (Syntax.node kind body) s [nodeOf kind] := by
  intro hquiet
  have hflush := filled_flush h
  have hready := hbody (s.flush.start kind) (sound_start hflush.sound kind) (rest_flush _)
    (hquiet.trans (errors_flush s).symm)
  rw [start_eq_startAt hflush.sound kind] at hready
  rw [run_node, start_eq_startAt hflush.sound kind]
  refine hflush.trans (filled_finish (Grown.refl (P := (· = [])) hflush.sound rfl) ?_)
  exact hready.mono fun ts hts us hus => by rwa [hus]

theorem makes_node [Bracketed body] (h : s.Sound)
    (hbody : ∀ s₁ : Cursor, s₁.Sound → s₁.solids = s.solids →
      s₁.rest.length ≤ s.rest.length → Quiet body s₁ fun _ s' => Ready kind s₁ s') :
    Makes (Syntax.node kind body) s [nodeOf kind] := by
  refine makes_nodeHere h fun s₁ h₁ hrest => hbody s₁ h₁ ?_ ?_
  · rw [Cursor.solids, hrest, Cursor.solids, List.dropWhile_idempotent]
  · rw [hrest]
    exact (List.dropWhile_suffix _).length_le

-- A node that starts with the next token.
theorem makes_node_bump [Bracketed body] {first : TokenKind} (h : s.Sound)
    (hkind : s.kind? = some first) (hplain : plain first = true)
    (hloose : loose kind = true)
    (hbody : ∀ s₁ s₂ : Cursor, Filled s₁ s₂ [tok first] → s₂.rest.length < s.rest.length →
      Quiet body s₂ fun _ s' => ∃ slots ∈ productions kind, Filled s₁ s' slots) :
    Makes (Syntax.node kind do
      bump
      body) s [nodeOf kind] := by
  refine makes_node h fun s₁ h₁ hsolids hle => ?_
  refine .bind (.here h₁) (quiet_bump h₁ (kind?_of_solids hsolids hkind) hplain) ?_
  rintro _ s₂ ⟨h₂, hless⟩
  refine (hbody s₁ s₂ h₂ (by omega)).imp ?_
  rintro _ s₃ ⟨slots, hslots, h₃⟩
  exact ready_of_filled hloose hslots h₃

-- A prefix operator and what it stands before.
theorem makes_prefix [Bracketed body] {kinds : List TokenKind} (h : s.Sound)
    (hat : s.kind?.any kinds.contains = true) (hplain : kinds.all plain = true)
    (hmembers : ∀ t, memberOf kind t = false) (hslots : tokIn kinds :: slots ∈ productions kind)
    (hbody : ∀ s₁ : Cursor, s₁.Sound → s₁.rest.length < s.rest.length → Makes body s₁ slots) :
    Makes (Syntax.node kind do
      bump
      body) s [nodeOf kind] := by
  refine makes_nodeHere h fun s₁ h₁ hrest => ?_
  have hblanks : s₁.rest = s₁.solids := by
    rw [Cursor.solids, hrest, Cursor.solids, List.dropWhile_idempotent]
  have hkind : s₁.kind? = s.kind? := kind?_of_solids (by rw [← hblanks, hrest]) rfl
  obtain ⟨kind, hsome, hmem⟩ := (Option.any_eq_true _ _).mp hat
  obtain ⟨t, hcurrent, rfl⟩ := current?_of_kind? (hkind.trans hsome)
  have hplain : plain t.kind = true := List.all_eq_true.mp hplain _ (by simpa using hmem)
  have hblank : (Tree.token t).isBlank = false := by
    simp only [plain, Bool.and_eq_true, Bool.not_eq_true'] at hplain
    simpa [Tree.isBlank, Tree.token?] using hplain.1.1
  have hless : s₁.bump.rest.length < s.rest.length :=
    Nat.lt_of_lt_of_le (bump_shrinks (by simp [hcurrent]))
      (hrest ▸ (List.dropWhile_suffix _).length_le)
  have hfirst := grown_bump_here h₁ hblanks hcurrent (conforms_of_plain hplain)
  refine .bind (.here h₁) (Q := fun _ s' => s' = s₁.bump) (fun _ => rfl) ?_
  rintro _ _ rfl
  refine (hbody s₁.bump hfirst.sound hless).imp fun _ s₂ h₂ => ?_
  refine hfirst.append h₂ ?_
  rintro _ us rfl hus
  have hin : (Tree.token t).isTokIn kinds = true := by
    simpa [Tree.isTokIn, Tree.token?] using hmem
  have hop : Fills [tokIn kinds] [.token t] := by simp [Fills, solid, hblank, tokIn, hin]
  have hfills : Fills (tokIn kinds :: slots) ([.token t] ++ us) := hop.append hus
  rw [fits, Bool.and_eq_true, Bool.and_eq_true]
  exact ⟨List.any_eq_true.mpr ⟨_, hslots, hfills⟩, apart_of_none fun t _ => hmembers t,
    by simp [leads, hblank]⟩

-- A node around the trees behind a checkpoint.
theorem quiet_nodeAt (h : Filled s₀ s acc) (hloose : loose kind = true)
    (hbody : ∀ s₁ : Cursor, s₁.Sound → s₁.rest = s.rest →
      Quiet body s₁ fun _ s' => ∃ slots, Filled s₁ s' slots ∧ acc ++ slots ∈ productions kind) :
    Quiet (nodeAt s₀.builder.checkpoint kind body) s fun _ s' =>
      Filled s₀ s' [nodeOf kind] ∧ s'.rest.length ≤ s.rest.length := by
  intro hquiet
  have hplace := h.checkpoint_le
  obtain ⟨slots, hfilled, hslots⟩ :=
    hbody (s.startAt s₀.builder.checkpoint kind) (sound_startAt h.sound kind hplace) rfl hquiet
  refine ⟨filled_finish h (hfilled.mono fun ts hts us hus => ?_), hfilled.length_le⟩
  exact fits_of_loose hloose hslots (hus.append hts)

theorem makes_nodeAt (h : Filled s₀ s acc) (hloose : loose kind = true)
    (hbody : ∀ s₁ : Cursor, s₁.Sound → s₁.rest = s.rest →
      Quiet body s₁ fun _ s' => ∃ slots, Filled s₁ s' slots ∧ acc ++ slots ∈ productions kind) :
    Quiet (nodeAt s₀.builder.checkpoint kind body) s fun _ s' => Filled s₀ s' [nodeOf kind] :=
  (quiet_nodeAt h hloose hbody).imp fun _ _ hs' => hs'.1

-- A node around what is there already.
theorem makes_wrap (h : Filled s₀ s acc) (hloose : loose kind = true)
    (hslots : acc ∈ productions kind) :
    Quiet (nodeAt s₀.builder.checkpoint kind (return ())) s fun _ s' =>
      Filled s₀ s' [nodeOf kind] :=
  makes_nodeAt h hloose fun _ h₁ _ => .pure ⟨[], .refl h₁, by rwa [List.append_nil]⟩

theorem makes_wrap_row {p : Tree → Bool} (h : Grown s₀ s (ListRow slots p (memberOf kind)))
    (hslots : slots ++ [.many p] ∈ productions kind) :
    Quiet (nodeAt s₀.builder.checkpoint kind (return ())) s fun _ s' =>
      Filled s₀ s' [nodeOf kind] := by
  intro _
  refine filled_finish h (.refl (sound_startAt h.sound kind h.checkpoint_le) fun us hus => ?_)
  rw [List.append_nil, fits, Bool.and_eq_true, Bool.and_eq_true]
  exact ⟨List.any_eq_true.mpr ⟨_, hslots, hus.1⟩, hus.2, leads_of_many hslots⟩

theorem quiet_checkpoint {α : Type} {next : Nat → Action α} {Q : α → Cursor → Prop} (h : s.Sound)
    (hnext : ∀ s₁ : Cursor, Filled s s₁ [] → s₁.solids = s.solids →
      Quiet (next s₁.builder.checkpoint) s₁ Q) : Quiet (checkpoint >>= next) s Q := by
  intro hquiet
  exact hnext s.flush (filled_flush h) (solids_flush s) (hquiet.trans (errors_flush s).symm)

theorem adds_withLiterals {allowed : Bool} {P : List Tree → Prop} (h : s.Sound)
    (hbody : ∀ s₁ : Cursor, s₁.Sound → s₁.rest = s.rest → Adds body s₁ P) :
    Adds (withLiterals allowed body) s P := by
  intro hquiet
  obtain ⟨-, new, hgrows, hrest⟩ := hbody (s.allow allowed) (sound_allow h allowed) rfl hquiet
  exact ⟨h, new, grows_allow hgrows, hrest⟩

end Building

-- Loops

-- `I` holds where a turn starts, and `J` where no other turn follows.
theorem quiet_repeatWhile {s₀ : Cursor} {step : Action Bool} {I J : Cursor → Prop}
    [BracketedFrom s₀.builder.checkpoint step] (hgrown : ∀ s, I s → Grown s₀ s fun _ => True)
    (hend : ∀ s, I s → J s)
    (hstep : ∀ s, I s → Quiet step s fun more s' => if more then I s' else J s') (fuel : Nat) :
    ∀ s, I s → Quiet (repeatWhile fuel step) s fun _ s' => J s' := by
  induction fuel with
  | zero => exact fun s hI => .pure (hend s hI)
  | succ fuel ih =>
      intro s hI
      rw [repeatWhile]
      refine .bind (hgrown s hI) (hstep s hI) fun more s' hs' => ?_
      refine .ite (fun hmore => ih s' ?_) fun hdone => .pure ?_
      · simpa [hmore] using hs'
      · simpa [hdone] using hs'

-- `I` holds before and after every turn.
theorem quiet_repeat {s₀ : Cursor} {step : Action Bool} {I : Cursor → Prop}
    [BracketedFrom s₀.builder.checkpoint step] (hgrown : ∀ s, I s → Grown s₀ s fun _ => True)
    (hstep : ∀ s, I s → Quiet step s fun _ s' => I s') (fuel : Nat) (s : Cursor) (h : I s) :
    Quiet (repeatWhile fuel step) s fun _ s' => I s' :=
  quiet_repeatWhile hgrown (fun _ => id) (fun s hI => (hstep s hI).imp fun more _ hs' => by
    cases more <;> exact hs') fuel s h

end SpriteScript.Syntax
