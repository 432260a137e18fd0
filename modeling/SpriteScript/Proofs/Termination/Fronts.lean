import SpriteScript.Proofs.Simulation.Grammar

-- Runs of the same actions from one cursor, as far as they depend on the rules that they run: a
-- rule that takes a token first depends on the others only where less is left.
namespace SpriteScript.Syntax

-- From this cursor the actions do the same, and do not go back.
def Agree {α : Type} (a b : Action α) (s : Cursor) : Prop := a.run s = b.run s ∧ (a.run s).2.rest <:+ s.rest

theorem flush_suffix (s : Cursor) : s.flush.rest <:+ s.rest := by
  rw [rest_flush]
  exact List.dropWhile_suffix _

theorem bump_suffix (s : Cursor) : s.bump.rest <:+ s.rest := by
  rw [rest_bump]
  exact (List.tail_suffix _).trans (List.dropWhile_suffix _)

-- At most the last tokens of `all` are left, and fewer than `n`.
def Within (all : List Lexeme) (n : Nat) (s : Cursor) : Prop := s.rest <:+ all ∧ s.rest.length < n

theorem Within.of_suffix {all : List Lexeme} {n : Nat} {s t : Cursor} (h : Within all n s)
    (hsuffix : t.rest <:+ s.rest) : Within all n t :=
  ⟨hsuffix.trans h.1, Nat.lt_of_le_of_lt hsuffix.length_le h.2⟩

-- Who has taken a token is further on.
theorem Within.of_shorter {all : List Lexeme} {n : Nat} {s t : Cursor} (h : Within all (n + 1) s)
    (hsuffix : t.rest <:+ s.rest) (hshorter : t.rest.length < s.rest.length) : Within all n t :=
  ⟨hsuffix.trans h.1, Nat.lt_of_lt_of_le hshorter (Nat.le_of_lt_succ h.2)⟩

theorem Within.rest_eq_nil {all : List Lexeme} {s : Cursor} (h : Within all (0 + 1) s) : s.rest = [] :=
  List.eq_nil_of_length_eq_zero (Nat.lt_one_iff.mp h.2)

-- The runs from one cursor.
def same (all : List Lexeme) (n : Nat) : Simulation where
  Rel s s' := s = s' ∧ Within all n s
  Steps s s' t t' := s = s' ∧ t = t' ∧ t.rest <:+ s.rest ∧ Within all n s
  refl h := ⟨h.1, h.1, List.suffix_rfl, h.2⟩
  trans h h' := ⟨h.1, h'.2.1, h'.2.2.1.trans h.2.2.1, h.2.2.2⟩
  rel h := ⟨h.2.1, h.2.2.2.of_suffix h.2.2.1⟩
  along := by
    rintro s _ t _ ⟨rfl, rfl, hsuffix, -⟩
    exact ⟨hsuffix, hsuffix, Iff.rfl⟩
  offset := by
    rintro s _ t _ ⟨rfl, rfl, -⟩
    exact Iff.rfl
  alike := by
    rintro s _ ⟨rfl, -⟩
    exact ⟨rfl, rfl, rfl, rfl, rfl, rfl, rfl, fun _ _ => rfl, rfl, rfl⟩
  flush h := ⟨h.1, h.1 ▸ rfl, flush_suffix _, h.2⟩
  bump h := ⟨h.1, h.1 ▸ rfl, bump_suffix _, h.2⟩
  report _ h := ⟨h.1, h.1 ▸ rfl, List.suffix_rfl, h.2⟩
  allow _ h := ⟨h.1 ▸ rfl, h.2⟩
  allowed h h' := ⟨h.1, by rw [h'.2.1, h.1], h'.2.2⟩
  start _ h := ⟨h.1 ▸ rfl, h.2⟩
  finish h h' := ⟨h.1, h'.2.1 ▸ rfl, h'.2.2⟩
  startAt _ h h' := ⟨by rw [h.1, h'.2.1], h.2.of_suffix h'.2.2.1⟩
  finishAt h h' h'' := ⟨h.1, h''.2.1 ▸ rfl, h''.2.2.1.trans h'.2.2.1, h.2⟩

theorem paired_same {all : List Lexeme} {n : Nat} {α : Type} {a b : Action α} :
    Paired (same all n) a b ↔ ∀ s, Within all n s → Agree a b s := by
  constructor
  · rintro ⟨hrun⟩ s hwithin
    obtain ⟨hanswer, -, hend, hsuffix, -⟩ := hrun s s ⟨rfl, hwithin⟩
    exact ⟨Prod.ext hanswer hend, hsuffix⟩
  · refine fun h => ⟨?_⟩
    rintro s _ ⟨rfl, hwithin⟩
    obtain ⟨hrun, hsuffix⟩ := h s hwithin
    exact ⟨congrArg Prod.fst hrun, rfl, congrArg Prod.snd hrun, hsuffix, hwithin⟩

-- Where the next token is of this kind the actions agree.
class At (all : List Lexeme) (n : Nat) (kind : TokenKind) {α : Type} (a b : Action α) : Prop where
  agree : ∀ s, Within all (n + 1) s → s.kind? = some kind → Agree a b s

-- They also take something.
class Enters (all : List Lexeme) (n : Nat) (kind : TokenKind) {α : Type} (a b : Action α) : Prop where
  agree : ∀ s, Within all (n + 1) s → s.kind? = some kind →
    Agree a b s ∧ (a.run s).2.rest.length < s.rest.length

section Agreeing

variable {all : List Lexeme} {n : Nat} {kind : TokenKind} {α β : Type} {a a' b b' c c' : Action α}
variable {f f' : α → Action β} {s : Cursor}

theorem Agree.bind (ha : Agree a a' s) (hf : ∀ x, Agree (f x) (f' x) (a.run s).2) :
    Agree (a >>= f) (a' >>= f') s := by
  obtain ⟨hrun, hsuffix⟩ := ha
  obtain ⟨hrun', hsuffix'⟩ := hf (a.run s).1
  rw [Agree, run_bind, run_bind, ← hrun]
  exact ⟨hrun', hsuffix'.trans hsuffix⟩

theorem Agree.node {node : NodeKind} {body body' : Action Unit} (h : Agree body body' (s.flush.start node)) :
    Agree (Syntax.node node body) (Syntax.node node body') s := by
  refine ⟨?_, h.2.trans (flush_suffix s)⟩
  change ((), (body.run (s.flush.start node)).2.finish) = ((), (body'.run (s.flush.start node)).2.finish)
  rw [h.1]

theorem Agree.nodeAt {place : Nat} {node : NodeKind} {body body' : Action Unit}
    (h : Agree body body' (s.startAt place node)) :
    Agree (Syntax.nodeAt place node body) (Syntax.nodeAt place node body') s := by
  refine ⟨?_, h.2⟩
  change ((), (body.run (s.startAt place node)).2.finish) = ((), (body'.run (s.startAt place node)).2.finish)
  rw [h.1]

theorem kind?_flush (s : Cursor) : s.flush.kind? = s.kind? :=
  congrArg (Option.map Token.kind) (current?_flush s)

-- Going on

instance : Enters all n kind bump bump where
  agree s _ hkind := ⟨⟨rfl, bump_suffix s⟩, bump_shrinks (current?_ne_none hkind)⟩

instance [ha : Enters all n kind a a'] [hf : ∀ x, Paired (same all n) (f x) (f' x)] :
    Enters all n kind (a >>= f) (a' >>= f') where
  agree s hwithin hkind := by
    obtain ⟨hagree, hshorter⟩ := ha.agree s hwithin hkind
    have hnext x := paired_same.mp (hf x) (a.run s).2 (hwithin.of_shorter hagree.2 hshorter)
    exact ⟨hagree.bind hnext, Nat.lt_of_le_of_lt (hnext _).2.length_le hshorter⟩

instance {p : Prop} [Decidable p] [Enters all n kind c c'] [Enters all n kind b b'] :
    Enters all n kind (if p then c else b) (if p then c' else b') := by
  split <;> assumption

instance [ha : Enters all n kind a a'] : Enters all n kind (discard a) (discard a') where
  agree s hwithin hkind := by
    obtain ⟨⟨hrun, hsuffix⟩, hshorter⟩ := ha.agree s hwithin hkind
    exact ⟨⟨congrArg (fun p : α × Cursor => ((), p.2)) hrun, hsuffix⟩, hshorter⟩

instance (node : NodeKind) {body body' : Action Unit} [hb : Enters all n kind body body'] :
    Enters all n kind (Syntax.node node body) (Syntax.node node body') where
  agree s hwithin hkind := by
    have hflush := flush_suffix s
    obtain ⟨hagree, hshorter⟩ := hb.agree (s.flush.start node) (hwithin.of_suffix hflush)
      ((kind?_flush s).trans hkind)
    exact ⟨hagree.node, Nat.lt_of_lt_of_le hshorter hflush.length_le⟩

instance (place : Nat) (node : NodeKind) {body body' : Action Unit} [hb : Enters all n kind body body'] :
    Enters all n kind (nodeAt place node body) (nodeAt place node body') where
  agree s hwithin hkind := by
    obtain ⟨hagree, hshorter⟩ := hb.agree (s.startAt place node) hwithin hkind
    exact ⟨hagree.nodeAt, hshorter⟩

instance {next next' : Nat → Action α} [hn : ∀ place, Enters all n kind (next place) (next' place)] :
    Enters all n kind (checkpoint >>= next) (checkpoint >>= next') where
  agree s hwithin hkind := by
    have hflush := flush_suffix s
    obtain ⟨⟨hrun, hsuffix⟩, hshorter⟩ := (hn s.flush.builder.checkpoint).agree s.flush
      (hwithin.of_suffix hflush) ((kind?_flush s).trans hkind)
    exact ⟨⟨hrun, hsuffix.trans hflush⟩, Nat.lt_of_lt_of_le hshorter hflush.length_le⟩

instance (what : String) : Enters all n kind (expect kind what) (expect kind what) where
  agree s _ hkind := by
    have hrun : (expect kind what).run s = (true, s.bump) := by
      unfold expect
      rw [run_bind, run_eat, if_pos hkind]
      rfl
    rw [Agree, hrun]
    exact ⟨⟨rfl, bump_suffix s⟩, bump_shrinks (current?_ne_none hkind)⟩

instance (what : String) : Enters all n .ident (name what) (name what) where
  agree s hwithin hkind := by
    have hrun : (name what).run s = (node .name bump).run s := by
      unfold name
      rw [run_isAt_bind, hkind]
      rfl
    rw [Agree, hrun]
    exact (inferInstance : Enters all n .ident (node .name bump) (node .name bump)).agree s hwithin hkind

-- Looking

instance (priority := low) [ha : Enters all n kind a a'] : At all n kind a a' :=
  ⟨fun s hwithin hkind => (ha.agree s hwithin hkind).1⟩

instance (priority := low) [ha : Paired (same all (n + 1)) a a'] : At all n kind a a' :=
  ⟨fun s hwithin _ => paired_same.mp ha s hwithin⟩

instance {p : Prop} [Decidable p] [At all n kind c c'] [At all n kind b b'] :
    At all n kind (if p then c else b) (if p then c' else b') := by
  split <;> assumption

instance {p : Cursor → Prop} [∀ s, Decidable (p s)] [hc : At all n kind c c'] [hb : At all n kind b b'] :
    At all n kind (get >>= fun s => if p s then c else b) (get >>= fun s => if p s then c' else b') where
  agree s hwithin hkind := by
    rw [Agree, run_get_bind, run_get_bind]
    split
    · exact hc.agree s hwithin hkind
    · exact hb.agree s hwithin hkind

theorem Paired.kind_bind {f f' : Option TokenKind → Action α}
    (hnone : Paired (same all (n + 1)) (f none) (f' none))
    (hf : ∀ kind, At all n kind (f (some kind)) (f' (some kind))) :
    Paired (same all (n + 1)) (kind? >>= f) (kind? >>= f') := by
  refine paired_same.mpr fun s hwithin => ?_
  rw [Agree, run_kind?_bind, run_kind?_bind]
  cases hkind : s.kind? with
  | none => exact paired_same.mp hnone s hwithin
  | some kind => exact (hf kind).agree s hwithin hkind

theorem At.second?_bind {f f' : Option TokenKind → Action α}
    (hf : ∀ second, At all n kind (f second) (f' second)) :
    At all n kind (second? >>= f) (second? >>= f') := by
  refine ⟨fun s hwithin hkind => ?_⟩
  rw [Agree, run_second?_bind, run_second?_bind]
  exact (hf s.second?).agree s hwithin hkind

instance (kind : TokenKind) (asked : Bool) [hc : At all n kind c c'] [hb : Paired (same all (n + 1)) b b'] :
    Paired (same all (n + 1)) (isAt kind >>= fun x => if (asked && x) = true then c else b)
      (isAt kind >>= fun x => if (asked && x) = true then c' else b') := by
  refine paired_same.mpr fun s hwithin => ?_
  rw [Agree, run_isAt_bind, run_isAt_bind]
  split
  case isTrue hat =>
    have hkind := beq_iff_eq.mp (Bool.and_eq_true_iff.mp hat).2
    exact hc.agree s hwithin hkind
  case isFalse => exact paired_same.mp hb s hwithin

instance (kind : TokenKind) [At all n kind c c'] [Paired (same all (n + 1)) b b'] :
    Paired (same all (n + 1)) (isAt kind >>= fun x => if x = true then c else b)
      (isAt kind >>= fun x => if x = true then c' else b') :=
  inferInstanceAs (Paired _ (isAt kind >>= fun x => if (true && x) = true then c else b)
    (isAt kind >>= fun x => if (true && x) = true then c' else b'))

instance (kinds : List TokenKind) [hc : ∀ kind, At all n kind c c'] [hb : Paired (same all (n + 1)) b b'] :
    Paired (same all (n + 1)) (isAtAny kinds >>= fun x => if x = true then c else b)
      (isAtAny kinds >>= fun x => if x = true then c' else b') := by
  refine paired_same.mpr fun s hwithin => ?_
  rw [Agree, run_isAtAny_bind, run_isAtAny_bind]
  split
  case isTrue hat =>
    obtain ⟨kind, hkind, -⟩ := (Option.any_eq_true _ _).mp hat
    exact (hc kind).agree s hwithin hkind
  case isFalse => exact paired_same.mp hb s hwithin

instance (kind : TokenKind) [hc : Paired (same all n) c c'] [hb : Paired (same all (n + 1)) b b'] :
    Paired (same all (n + 1)) (eat kind >>= fun x => if x = true then c else b)
      (eat kind >>= fun x => if x = true then c' else b') := by
  refine paired_same.mpr fun s hwithin => ?_
  rw [Agree, run_bind, run_bind, run_eat]
  by_cases hkind : s.kind? = some kind
  · rw [if_pos hkind]
    have hbumped := hwithin.of_shorter (bump_suffix s) (bump_shrinks (current?_ne_none hkind))
    obtain ⟨hrun, hsuffix⟩ := paired_same.mp hc s.bump hbumped
    exact ⟨hrun, hsuffix.trans (bump_suffix s)⟩
  · rw [if_neg hkind]
    exact paired_same.mp hb s hwithin

-- Turns

instance {a a' : Action Bool} {s₀ s₀' : Cursor} [ha : ∀ kind, Enters all n kind a a'] :
    TurningHere (same all (n + 1)) s₀ s₀' a a' where
  shorter s s' _ h hcurrent _ := by
    obtain ⟨token, htoken⟩ := Option.ne_none_iff_exists'.mp hcurrent
    have hkind : s.kind? = some token.kind := congrArg (Option.map Token.kind) htoken
    exact ((ha token.kind).agree s ((same _ _).rel h).2 hkind).2

instance {c c' : Action Bool} {s₀ s₀' : Cursor} (kind : TokenKind) [hc : Paired (same all n) c c'] :
    Turning (same all (n + 1)) s₀ s₀' (eat kind >>= fun x => if x = true then c else pure false)
      (eat kind >>= fun x => if x = true then c' else pure false) where
  shorter s s' _ h hmore := by
    rw [run_bind, run_eat] at hmore ⊢
    by_cases hkind : s.kind? = some kind
    · rw [if_pos hkind]
      have hshorter := bump_shrinks (current?_ne_none hkind)
      have hbumped := ((same _ _).rel h).2.of_shorter (bump_suffix s) hshorter
      exact Nat.lt_of_le_of_lt (paired_same.mp hc s.bump hbumped).2.length_le hshorter
    · rw [if_neg hkind] at hmore
      cases hmore

end Agreeing

-- Places

section Places

variable {all : List Lexeme} {n : Nat} {α : Type} {next next' : Nat → Action α} {c c' : Action Bool}
variable {s₀ s₀' : Cursor}

instance (place : Nat) (node : NodeKind) {body body' : Action Unit} [hb : Paired (same all n) body body'] :
    Paired (same all n) (nodeAt place node body) (nodeAt place node body') :=
  paired_same.mpr fun s hwithin => (paired_same.mp hb (s.startAt place node) hwithin).nodeAt

instance [hn : ∀ place, Paired (same all n) (next place) (next' place)] :
    Paired (same all n) (checkpoint >>= next) (checkpoint >>= next') := by
  refine paired_same.mpr fun s hwithin => ?_
  have hflush := flush_suffix s
  obtain ⟨hrun, hsuffix⟩ := paired_same.mp (hn s.flush.builder.checkpoint) s.flush
    (hwithin.of_suffix hflush)
  exact ⟨hrun, hsuffix.trans hflush⟩

-- Every number is the checkpoint of some cursor at which the same is left.

theorem exists_checkpoint (s : Cursor) (place : Nat) :
    ∃ s₀ : Cursor, s₀.builder.checkpoint = place ∧ s₀.rest = s.rest :=
  ⟨{ s with builder := { s.builder with forest := Array.replicate place default } },
    Array.size_replicate, rfl⟩

theorem paired_place (h : ∀ s₀ s₀', PairedFrom (same all n) s₀ s₀' (next s₀.builder.checkpoint)
    (next' s₀'.builder.checkpoint)) (place : Nat) : Paired (same all n) (next place) (next' place) := by
  refine paired_same.mpr fun s hwithin => ?_
  obtain ⟨s₀, rfl, hrest⟩ := exists_checkpoint s place
  have hwithin₀ : Within all n s₀ := hwithin.of_suffix (hrest ▸ List.suffix_rfl)
  obtain ⟨hanswer, ⟨-, hend, -⟩, halong⟩ := (h s₀ s₀).run s s ⟨rfl, hwithin₀⟩
    ⟨rfl, rfl, hrest ▸ List.suffix_rfl, hwithin₀⟩
  exact ⟨Prod.ext hanswer hend, halong.left⟩

theorem turning_place {step step' : Nat → Action Bool} (h : ∀ s₀ s₀', Turning (same all n) s₀ s₀'
    (step s₀.builder.checkpoint) (step' s₀'.builder.checkpoint)) (place : Nat) (t t' : Cursor) :
    Turning (same all n) t t' (step place) (step' place) := by
  refine ⟨fun s _ _ hsteps => ?_⟩
  obtain ⟨s₀, rfl, hrest⟩ := exists_checkpoint s place
  have hwithin₀ : Within all n s₀ := ((same _ _).rel hsteps).2.of_suffix (hrest ▸ List.suffix_rfl)
  exact (h s₀ s₀).shorter s s ⟨rfl, hwithin₀⟩ ⟨rfl, rfl, hrest ▸ List.suffix_rfl, hwithin₀⟩

end Places

end SpriteScript.Syntax
