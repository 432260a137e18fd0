import SpriteScript.Proofs.Growth
import SpriteScript.Syntax.Parser

-- Two runs of the parser beside each other: from cursors that are related, actions that are
-- paired do the same, and end at cursors that are related again.
namespace SpriteScript.Syntax

-- What the grammar sees of a cursor, and sees alike in two of them.
structure Cursor.Alike (s s' : Cursor) : Prop where
  kind : s.kind? = s'.kind?
  second : s.second? = s'.second?
  terminated : (s.current?.any fun t => Token.isTerminatedString t.text) =
    s'.current?.any fun t => Token.isTerminatedString t.text
  pastParen : Cursor.kindPastParen? 0 s.solids = Cursor.kindPastParen? 0 s'.solids
  pastSecond : Cursor.kindPastParen? 0 ((s.solids.drop 1).dropWhile (·.skipped)) =
    Cursor.kindPastParen? 0 ((s'.solids.drop 1).dropWhile (·.skipped))
  spaceBefore : (spaceBefore.run s).1 = (spaceBefore.run s').1
  spaceAfter : (spaceAfter.run s).1 = (spaceAfter.run s').1
  head : ∀ kind : TokenKind, kind.isTrivia = false →
    (Rules.headTokens 0 s.rest).contains (kind, true) = (Rules.headTokens 0 s'.rest).contains (kind, true)
  lastSolid : s.lastSolid = s'.lastSolid
  literalAllowed : s.literalAllowed = s'.literalAllowed

theorem Cursor.Alike.ended {s s' : Cursor} (h : s.Alike s') : s.current?.isNone = s'.current?.isNone := by
  have hkind := congrArg Option.isNone h.kind
  rwa [Cursor.kind?, Cursor.kind?, Option.isNone_map, Option.isNone_map] at hkind

-- Two runs that went on: each has read some of its tokens, or neither has read any.
structure Along (s s' t t' : Cursor) : Prop where
  left : t.rest <:+ s.rest
  right : t'.rest <:+ s'.rest
  stays : t.rest = s.rest ↔ t'.rest = s'.rest

namespace Along

variable {s s' t t' u u' : Cursor}

theorem refl (s s' : Cursor) : Along s s' s s' := ⟨List.suffix_rfl, List.suffix_rfl, iff_of_true rfl rfl⟩

theorem trans (h : Along s s' t t') (h' : Along t t' u u') : Along s s' u u' where
  left := h'.left.trans h.left
  right := h'.right.trans h.right
  stays := by
    constructor
    · intro hsame
      have hback : s.rest <:+ t.rest := hsame ▸ h'.left
      have ht : t.rest = s.rest := h.left.eq_of_length_le hback.length_le
      rw [← h.stays.mp ht]
      exact h'.stays.mp (hsame.trans ht.symm)
    · intro hsame
      have hback : s'.rest <:+ t'.rest := hsame ▸ h'.right
      have ht : t'.rest = s'.rest := h.right.eq_of_length_le hback.length_le
      rw [← h.stays.mpr ht]
      exact h'.stays.mpr (hsame.trans ht.symm)

theorem length_le (h : Along s s' t t') : t.rest.length ≤ s.rest.length := h.left.length_le

-- When one of the runs has read something, so has the other one.
theorem shorter (h : Along s s' t t') (hshorter : t.rest.length < s.rest.length) :
    t'.rest.length < s'.rest.length := by
  refine Nat.lt_of_le_of_ne h.right.length_le fun hlength => ?_
  have hrest := h.stays.mpr (h.right.eq_of_length hlength)
  rw [hrest] at hshorter
  exact Nat.lt_irrefl _ hshorter

end Along

-- Which cursors are related, and what two runs from related cursors have in common: after
-- `Steps s s' t t'` the one that started at `s` is at `t`, and the one from `s'` at `t'`.
structure Simulation where
  Rel : Cursor → Cursor → Prop
  Steps : Cursor → Cursor → Cursor → Cursor → Prop
  refl {s s' : Cursor} : Rel s s' → Steps s s' s s'
  trans {s s' t t' u u' : Cursor} : Steps s s' t t' → Steps t t' u u' → Steps s s' u u'
  rel {s s' t t' : Cursor} : Steps s s' t t' → Rel t t'
  along {s s' t t' : Cursor} : Steps s s' t t' → Along s s' t t'
  offset {s s' t t' : Cursor} : Steps s s' t t' → (t.offset = s.offset ↔ t'.offset = s'.offset)
  alike {s s' : Cursor} : Rel s s' → s.Alike s'
  flush {s s' : Cursor} : Rel s s' → Steps s s' s.flush s'.flush
  bump {s s' : Cursor} : Rel s s' → Steps s s' s.bump s'.bump
  report {s s' : Cursor} (f : Fault) : Rel s s' → Steps s s' (s.report f) (s'.report f)
  allow {s s' : Cursor} (allowed : Bool) : Rel s s' → Rel (s.allow allowed) (s'.allow allowed)
  allowed {s s' t t' : Cursor} {allowed : Bool} : Rel s s' → Steps (s.allow allowed) (s'.allow allowed) t t' →
    Steps s s' (t.allow s.literalAllowed) (t'.allow s'.literalAllowed)
  start {s s' : Cursor} (kind : NodeKind) : Rel s s' → Rel (s.start kind) (s'.start kind)
  finish {s s' t t' : Cursor} {kind : NodeKind} : Rel s s' → Steps (s.start kind) (s'.start kind) t t' →
    Steps s s' t.finish t'.finish
  startAt {s s' t t' : Cursor} (kind : NodeKind) : Rel s s' → Steps s s' t t' →
    Rel (t.startAt s.builder.checkpoint kind) (t'.startAt s'.builder.checkpoint kind)
  finishAt {s s' t t' u u' : Cursor} {kind : NodeKind} : Rel s s' → Steps s s' t t' →
    Steps (t.startAt s.builder.checkpoint kind) (t'.startAt s'.builder.checkpoint kind) u u' →
    Steps s s' u.finish u'.finish

-- From related cursors the actions answer the same and lead to related cursors.
class Paired (S : Simulation) {α : Type} (a b : Action α) : Prop where
  run : ∀ s s', S.Rel s s' → (a.run s).1 = (b.run s').1 ∧ S.Steps s s' (a.run s).2 (b.run s').2

-- The actions may also use the place and the checkpoint of the cursors that the runs came from.
class PairedFrom (S : Simulation) (s₀ s₀' : Cursor) {α : Type} (a b : Action α) : Prop where
  run : ∀ s s', S.Rel s₀ s₀' → S.Steps s₀ s₀' s s' →
    (a.run s).1 = (b.run s').1 ∧ S.Steps s₀ s₀' (a.run s).2 (b.run s').2 ∧ Along s s' (a.run s).2 (b.run s').2

section Combinators

variable {S : Simulation} {α β : Type} {a a' b b' : Action α} {f f' : α → Action β} {s₀ s₀' : Cursor}

instance (x : α) : Paired S (pure x : Action α) (pure x) := ⟨fun _ _ h => ⟨rfl, S.refl h⟩⟩

theorem Paired.bind (ha : Paired S a a') (hf : ∀ x, Paired S (f x) (f' x)) :
    Paired S (a >>= f) (a' >>= f') where
  run s s' h := by
    obtain ⟨hanswer, hsteps⟩ := ha.run s s' h
    obtain ⟨hanswer', hsteps'⟩ := (hf (a.run s).1).run _ _ (S.rel hsteps)
    rw [run_bind, run_bind, ← hanswer]
    exact ⟨hanswer', S.trans hsteps hsteps'⟩

instance [ha : Paired S a a'] [hf : ∀ x, Paired S (f x) (f' x)] : Paired S (a >>= f) (a' >>= f') :=
  .bind ha hf

instance {c : Prop} [Decidable c] [Paired S a a'] [Paired S b b'] :
    Paired S (if c then a else b) (if c then a' else b') := by
  split <;> assumption

instance [ha : Paired S a a'] : Paired S (discard a) (discard a') where
  run s s' h := ⟨rfl, (ha.run s s' h).2⟩

instance (priority := low) [ha : Paired S a a'] : PairedFrom S s₀ s₀' a a' where
  run s s' h₀ h := by
    obtain ⟨hanswer, hsteps⟩ := ha.run s s' (S.rel h)
    exact ⟨hanswer, S.trans h hsteps, S.along hsteps⟩

theorem PairedFrom.bind (ha : PairedFrom S s₀ s₀' a a') (hf : ∀ x, PairedFrom S s₀ s₀' (f x) (f' x)) :
    PairedFrom S s₀ s₀' (a >>= f) (a' >>= f') where
  run s s' h₀ h := by
    obtain ⟨hanswer, hsteps, halong⟩ := ha.run s s' h₀ h
    obtain ⟨hanswer', hsteps', halong'⟩ := (hf (a.run s).1).run _ _ h₀ hsteps
    rw [run_bind, run_bind, ← hanswer]
    exact ⟨hanswer', hsteps', halong.trans halong'⟩

instance [ha : PairedFrom S s₀ s₀' a a'] [hf : ∀ x, PairedFrom S s₀ s₀' (f x) (f' x)] :
    PairedFrom S s₀ s₀' (a >>= f) (a' >>= f') :=
  .bind ha hf

instance {c : Prop} [Decidable c] [PairedFrom S s₀ s₀' a a'] [PairedFrom S s₀ s₀' b b'] :
    PairedFrom S s₀ s₀' (if c then a else b) (if c then a' else b') := by
  split <;> assumption

-- What looks alike can be looked at.
theorem Paired.look (look : Cursor → α) (h : ∀ s s', S.Rel s s' → look s = look s') :
    Paired S (return look (← get)) (return look (← get)) :=
  ⟨fun s s' hrel => ⟨h s s' hrel, S.refl hrel⟩⟩

theorem Paired.get_bind (look : Cursor → α) (h : ∀ s s', S.Rel s s' → look s = look s')
    (hf : ∀ x, Paired S (f x) (f' x)) :
    Paired S (get >>= fun s => f (look s)) (get >>= fun s => f' (look s)) where
  run s s' hrel := by
    rw [run_get_bind, run_get_bind, ← h s s' hrel]
    exact (hf (look s)).run s s' hrel

-- What follows may compare its place with the one where it started.
instance {next next' : Cursor → Action α} [hn : ∀ s₀ s₀', PairedFrom S s₀ s₀' (next s₀) (next' s₀')] :
    Paired S (get >>= next) (get >>= next') where
  run s s' h := by
    obtain ⟨hanswer, hsteps, -⟩ := (hn s s').run s s' h (S.refl h)
    exact ⟨hanswer, hsteps⟩

instance [ha : PairedFrom S s₀ s₀' a a'] [hb : PairedFrom S s₀ s₀' b b'] :
    PairedFrom S s₀ s₀' (get >>= fun s => if (s.offset == s₀.offset) = true then a else b)
      (get >>= fun s => if (s.offset == s₀'.offset) = true then a' else b') where
  run s s' h₀ h := by
    rw [run_get_bind, run_get_bind]
    have hoffset := S.offset h
    by_cases hsame : s.offset = s₀.offset
    · rw [if_pos (beq_iff_eq.mpr hsame), if_pos (beq_iff_eq.mpr (hoffset.mp hsame))]
      exact ha.run s s' h₀ h
    · rw [if_neg (mt beq_iff_eq.mp hsame), if_neg (mt beq_iff_eq.mp (mt hoffset.mpr hsame))]
      exact hb.run s s' h₀ h

instance : PairedFrom S s₀ s₀' (get >>= fun s => pure (s.offset != s₀.offset) : Action Bool)
    (get >>= fun s => pure (s.offset != s₀'.offset)) where
  run s s' _ h := by
    refine ⟨?_, h, .refl s s'⟩
    change (s.offset != s₀.offset) = (s'.offset != s₀'.offset)
    rw [bne, bne, Bool.not_inj_iff, Bool.eq_iff_iff, beq_iff_eq, beq_iff_eq]
    exact S.offset h

-- What follows a checkpoint may use it.
instance {next next' : Nat → Action α}
    [hn : ∀ s₀ s₀', PairedFrom S s₀ s₀' (next s₀.builder.checkpoint) (next' s₀'.builder.checkpoint)] :
    Paired S (checkpoint >>= next) (checkpoint >>= next') where
  run s s' h := by
    have hflush := S.flush h
    obtain ⟨hanswer, hsteps, -⟩ := (hn s.flush s'.flush).run _ _ (S.rel hflush) (S.refl (S.rel hflush))
    exact ⟨hanswer, S.trans hflush hsteps⟩

end Combinators

section Moves

variable {S : Simulation} {s₀ s₀' : Cursor}

instance : Paired S kind? kind? := .look _ fun _ _ h => (S.alike h).kind

instance : Paired S second? second? := .look _ fun _ _ h => (S.alike h).second

instance (kind : TokenKind) : Paired S (isAt kind) (isAt kind) :=
  .look _ fun _ _ h => congrArg (· == some kind) (S.alike h).kind

instance (kinds : List TokenKind) : Paired S (isAtAny kinds) (isAtAny kinds) :=
  .look _ fun _ _ h => congrArg (Option.any kinds.contains) (S.alike h).kind

instance : Paired S isAtEnd isAtEnd := .look _ fun _ _ h => (S.alike h).ended

theorem run_spaceBefore (s : Cursor) : (spaceBefore.run s).2 = s := by
  unfold spaceBefore
  rw [run_get_bind]
  split <;> rfl

instance : Paired S spaceBefore spaceBefore where
  run s s' h := by
    rw [run_spaceBefore, run_spaceBefore]
    exact ⟨(S.alike h).spaceBefore, S.refl h⟩

theorem run_spaceAfter (s : Cursor) : (spaceAfter.run s).2 = s := by
  unfold spaceAfter
  rw [run_get_bind]
  split <;> rfl

instance : Paired S spaceAfter spaceAfter where
  run s s' h := by
    rw [run_spaceAfter, run_spaceAfter]
    exact ⟨(S.alike h).spaceAfter, S.refl h⟩

instance : Paired S flush flush := ⟨fun _ _ h => ⟨rfl, S.flush h⟩⟩

instance : Paired S bump bump := ⟨fun _ _ h => ⟨rfl, S.bump h⟩⟩

instance (f : Fault) : Paired S (fault f) (fault f) := ⟨fun _ _ h => ⟨rfl, S.report f h⟩⟩

instance (kind : TokenKind) : Paired S (eat kind) (eat kind) := by
  unfold eat
  infer_instance

instance (kind : TokenKind) (what : String) : Paired S (expect kind what) (expect kind what) := by
  unfold expect
  infer_instance

instance (kind : NodeKind) (body body' : Action Unit) [hb : Paired S body body'] :
    Paired S (node kind body) (node kind body') where
  run s s' h := by
    have hflush := S.flush h
    obtain ⟨-, hbody⟩ := hb.run _ _ (S.start kind (S.rel hflush))
    exact ⟨rfl, S.trans hflush (S.finish (S.rel hflush) hbody)⟩

instance (kind : NodeKind) (body body' : Action Unit) [hb : Paired S body body'] :
    PairedFrom S s₀ s₀' (nodeAt s₀.builder.checkpoint kind body)
    (nodeAt s₀'.builder.checkpoint kind body') where
  run s s' h₀ h := by
    obtain ⟨-, hbody⟩ := hb.run _ _ (S.startAt kind h₀ h)
    have halong := S.along hbody
    exact ⟨rfl, S.finishAt h₀ h hbody, halong.left, halong.right, halong.stays⟩

instance (allowed : Bool) (body body' : Action Unit) [hb : Paired S body body'] :
    Paired S (withLiterals allowed body) (withLiterals allowed body') where
  run _ _ h := ⟨rfl, S.allowed h (hb.run _ _ (S.allow allowed h)).2⟩

end Moves

end SpriteScript.Syntax
