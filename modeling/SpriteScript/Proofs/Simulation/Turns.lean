import SpriteScript.Proofs.Simulation.Moves

-- Loops turn equally often in two runs, because every turn that asks for another one has taken a
-- token, so that neither loop runs dry.
namespace SpriteScript.Syntax

-- Where there is a token the action takes one.
class Taking (S : Simulation) (s₀ s₀' : Cursor) {α : Type} (a b : Action α) : Prop where
  shorter : ∀ s s', S.Rel s₀ s₀' → S.Steps s₀ s₀' s s' → s.current? ≠ none →
    (a.run s).2.rest.length < s.rest.length

-- A turn that asks for another one has taken a token.
class Turning (S : Simulation) (s₀ s₀' : Cursor) (a b : Action Bool) : Prop where
  shorter : ∀ s s', S.Rel s₀ s₀' → S.Steps s₀ s₀' s s' → (a.run s).1 = true →
    (a.run s).2.rest.length < s.rest.length

-- The same where there is a token.
class TurningHere (S : Simulation) (s₀ s₀' : Cursor) (a b : Action Bool) : Prop where
  shorter : ∀ s s', S.Rel s₀ s₀' → S.Steps s₀ s₀' s s' → s.current? ≠ none → (a.run s).1 = true →
    (a.run s).2.rest.length < s.rest.length

-- In the end a token is taken, or was before.
class TurningSince (S : Simulation) (s₀ s₀' : Cursor) (a b : Action Bool) : Prop where
  shorter : ∀ s s', S.Rel s₀ s₀' → S.Steps s₀ s₀' s s' → s₀.current? ≠ none → (a.run s).1 = true →
    (a.run s).2.rest.length < s₀.rest.length

-- How often two loops may turn: as often as each other, or more often than there are tokens.
class Fuels (S : Simulation) (fuel fuel' : Nat) : Prop where
  enough : fuel = fuel' ∨ ∀ s s', S.Rel s s' → s.rest.length < fuel ∧ s'.rest.length < fuel'

section Running

variable {s t : Cursor} {kind : TokenKind}

theorem current?_ne_none (h : s.kind? = some kind) : s.current? ≠ none := by
  intro hnone
  rw [Cursor.kind?, hnone] at h
  cases h

theorem current?_ne_none_of_isNone (h : s.current?.isNone = false) : s.current? ≠ none := by
  intro hnone
  rw [hnone] at h
  cases h

theorem run_eat (kind : TokenKind) (s : Cursor) :
    (eat kind).run s = if s.kind? = some kind then (true, s.bump) else (false, s) := by
  unfold eat
  rw [run_isAt_bind]
  by_cases h : s.kind? = some kind
  · rw [if_pos h, if_pos (beq_iff_eq.mpr h)]
    rfl
  · rw [if_neg h, if_neg (mt beq_iff_eq.mp h)]
    rfl

theorem eat_shrinks (h : ((eat kind).run s).1 = true) : ((eat kind).run s).2.rest.length < s.rest.length := by
  rw [run_eat] at h ⊢
  split at h
  case isTrue hkind =>
    rw [if_pos hkind]
    exact bump_shrinks (current?_ne_none hkind)
  case isFalse => cases h

-- Who has read nothing is still at the same place.
theorem offset_of_rest_eq (hcurrent : s.current? ≠ none) (h : t.rest = s.rest) : t.offset = s.offset := by
  unfold Cursor.offset
  rw [h]
  cases hnone : s.rest with
  | nil => exact (hcurrent (by simp [Cursor.current?, Cursor.solids, hnone])).elim
  | cons l rest => rfl

end Running

section Taking

variable {S : Simulation} {α β : Type} {a a' : Action α} {f f' : α → Action β} {s₀ s₀' s s' t t' : Cursor}

instance : Taking S s₀ s₀' bump bump := ⟨fun _ _ _ _ => bump_shrinks⟩

instance [ha : PairedFrom S s₀ s₀' a a'] [ht : Taking S s₀ s₀' a a']
    [hf : ∀ x, PairedFrom S s₀ s₀' (f x) (f' x)] : Taking S s₀ s₀' (a >>= f) (a' >>= f') where
  shorter s s' h₀ h hcurrent := by
    obtain ⟨-, hsteps, -⟩ := ha.run s s' h₀ h
    obtain ⟨-, -, halong⟩ := (hf (a.run s).1).run _ _ h₀ hsteps
    exact Nat.lt_of_le_of_lt halong.length_le (ht.shorter s s' h₀ h hcurrent)

instance (kind : NodeKind) (body body' : Action Unit) [hb : ∀ t t', Taking S t t' body body'] :
    Taking S s₀ s₀' (node kind body) (node kind body') where
  shorter s _ _ h hcurrent := by
    have hflush := S.flush (S.rel h)
    have hstart := S.start kind (S.rel hflush)
    have hcurrent' : (s.flush.start kind).current? ≠ none :=
      fun hnone => hcurrent ((current?_flush s).symm.trans hnone)
    exact Nat.lt_of_lt_of_le ((hb _ _).shorter _ _ hstart (S.refl hstart) hcurrent')
      (S.along hflush).length_le

instance (kind : NodeKind) (body body' : Action Unit) [hb : ∀ t t', Taking S t t' body body'] :
    Taking S s₀ s₀' (nodeAt s₀.builder.checkpoint kind body) (nodeAt s₀'.builder.checkpoint kind body') where
  shorter s _ h₀ h hcurrent :=
    have hstart := S.startAt kind h₀ h
    (hb _ _).shorter (s.startAt s₀.builder.checkpoint kind) _ hstart (S.refl hstart) hcurrent

-- A step behind a guard: where nothing was taken so far, it takes something.
theorem guard_shrinks (a a' b b' : Action α) [ha : Paired S a a'] [ht : Taking S s s' a a']
    [hb : Paired S b b'] (h₀ : S.Rel s s') (h : S.Steps s s' t t') (hcurrent : s.current? ≠ none) :
    ((if (t.offset == s.offset) = true then a else b).run t).2.rest.length < s.rest.length := by
  by_cases hrest : t.rest = s.rest
  · rw [if_pos (beq_iff_eq.mpr (offset_of_rest_eq hcurrent hrest)), ← hrest]
    exact ht.shorter t t' h₀ h (current?_of_rest_eq hrest ▸ hcurrent)
  · have halong := S.along h
    have hshorter : t.rest.length < s.rest.length :=
      Nat.lt_of_le_of_ne halong.length_le (mt halong.left.eq_of_length hrest)
    refine Nat.lt_of_le_of_lt ?_ hshorter
    split
    · exact (S.along (ha.run t t' (S.rel h)).2).length_le
    · exact (S.along (hb.run t t' (S.rel h)).2).length_le

end Taking

section Turning

variable {S : Simulation} {α : Type} {a a' : Action α} {f f' : α → Action Bool} {b b' c c' : Action Bool}
  {s₀ s₀' : Cursor}

instance : Turning S s₀ s₀' (pure false) b := ⟨fun _ _ _ _ => nofun⟩

-- What is done first does not go back.
instance [ha : PairedFrom S s₀ s₀' a a'] [hf : ∀ x, Turning S s₀ s₀' (f x) (f' x)] :
    Turning S s₀ s₀' (a >>= f) (a' >>= f') where
  shorter s s' h₀ h hmore := by
    obtain ⟨-, hsteps, halong⟩ := ha.run s s' h₀ h
    exact Nat.lt_of_lt_of_le ((hf (a.run s).1).shorter _ _ h₀ hsteps hmore) halong.length_le

instance {p : Prop} [Decidable p] [Turning S s₀ s₀' c c'] [Turning S s₀ s₀' b b'] :
    Turning S s₀ s₀' (if p then c else b) (if p then c' else b') := by
  split <;> assumption

instance (kind : TokenKind) : Turning S s₀ s₀' (eat kind) (eat kind) := ⟨fun _ _ _ _ => eat_shrinks⟩

-- Taking a token is the turn; what comes behind it may ask for another one or not.
instance (kind : TokenKind) [hc : PairedFrom S s₀ s₀' c c'] [hb : Turning S s₀ s₀' b b'] :
    Turning S s₀ s₀' (eat kind >>= fun x => if x = true then c else b)
      (eat kind >>= fun x => if x = true then c' else b') where
  shorter s s' h₀ h hmore := by
    obtain ⟨-, hsteps, halong⟩ := (inferInstance : PairedFrom S s₀ s₀' (eat kind) (eat kind)).run s s' h₀ h
    rw [run_bind] at hmore ⊢
    cases heaten : ((eat kind).run s).1 with
    | true =>
        obtain ⟨-, -, hrest⟩ := hc.run _ _ h₀ hsteps
        exact Nat.lt_of_le_of_lt hrest.length_le (eat_shrinks heaten)
    | false =>
        rw [heaten] at hmore
        exact Nat.lt_of_lt_of_le (hb.shorter _ _ h₀ hsteps hmore) halong.length_le

-- Where the kind of a token was looked at, there is one.

instance : TurningHere S s₀ s₀' (pure false) b := ⟨fun _ _ _ _ _ => nofun⟩

instance (priority := low) [ht : Taking S s₀ s₀' c c'] : TurningHere S s₀ s₀' c c' :=
  ⟨fun s s' h₀ h hcurrent _ => ht.shorter s s' h₀ h hcurrent⟩

instance {p : Prop} [Decidable p] [TurningHere S s₀ s₀' c c'] [TurningHere S s₀ s₀' b b'] :
    TurningHere S s₀ s₀' (if p then c else b) (if p then c' else b') := by
  split <;> assumption

instance {p p' : Cursor → Prop} [∀ s, Decidable (p s)] [∀ s, Decidable (p' s)]
    [hc : TurningHere S s₀ s₀' c c'] :
    TurningHere S s₀ s₀' (get >>= fun s => if p s then c else pure false)
      (get >>= fun s => if p' s then c' else pure false) where
  shorter s s' h₀ h hcurrent hmore := by
    rw [run_get_bind] at hmore ⊢
    split at hmore
    case isTrue hp =>
      rw [if_pos hp]
      exact hc.shorter s s' h₀ h hcurrent hmore
    case isFalse => cases hmore

theorem Turning.kind_bind {f f' : Option TokenKind → Action Bool} (hnone : f none = pure false)
    (hf : ∀ kind, TurningHere S s₀ s₀' (f (some kind)) (f' (some kind))) :
    Turning S s₀ s₀' (kind? >>= f) (kind? >>= f') where
  shorter s s' h₀ h hmore := by
    rw [run_kind?_bind] at hmore ⊢
    cases hkind : s.kind? with
    | none =>
        rw [hkind, hnone] at hmore
        cases hmore
    | some kind =>
        rw [hkind] at hmore
        exact (hf kind).shorter s s' h₀ h (current?_ne_none hkind) hmore

instance (kinds : List TokenKind) [hc : TurningHere S s₀ s₀' c c'] :
    Turning S s₀ s₀' (isAtAny kinds >>= fun x => if x = true then c else pure false)
      (isAtAny kinds >>= fun x => if x = true then c' else pure false) where
  shorter s s' h₀ h hmore := by
    rw [run_isAtAny_bind] at hmore ⊢
    split at hmore
    case isTrue hat =>
      rw [if_pos hat]
      obtain ⟨kind, hkind, -⟩ := (Option.any_eq_true _ _).mp hat
      exact hc.shorter s s' h₀ h (current?_ne_none hkind) hmore
    case isFalse => cases hmore

instance (kind second : TokenKind) [hc : TurningHere S s₀ s₀' c c'] :
    Turning S s₀ s₀'
      (isAt kind >>= fun x => second? >>= fun y => if (x && y == some second) = true then c else pure false)
      (isAt kind >>= fun x => second? >>= fun y => if (x && y == some second) = true then c'
        else pure false) where
  shorter s s' h₀ h hmore := by
    rw [run_isAt_bind, run_second?_bind] at hmore ⊢
    split at hmore
    case isTrue hat =>
      rw [if_pos hat]
      have hkind := beq_iff_eq.mp (Bool.and_eq_true_iff.mp hat).1
      exact hc.shorter s s' h₀ h (current?_ne_none hkind) hmore
    case isFalse => cases hmore

-- Loops end at the end of the text at the latest.

theorem run_unless {s : Cursor} {ended stop : Bool}
    (h : ((if (ended || stop) = true then pure false else c : Action Bool).run s).1 = true) :
    ended = false ∧ (if (ended || stop) = true then pure false else c : Action Bool) = c := by
  cases ended <;> cases stop <;> simp_all

instance [hc : TurningHere S s₀ s₀' c c'] :
    Turning S s₀ s₀' (isAtEnd >>= fun x => if x = true then pure false else c)
      (isAtEnd >>= fun x => if x = true then pure false else c') where
  shorter s s' h₀ h hmore := by
    rw [run_isAtEnd_bind, ← Bool.or_false s.current?.isNone] at hmore ⊢
    obtain ⟨hended, hrest⟩ := run_unless hmore
    rw [hrest] at hmore ⊢
    exact hc.shorter s s' h₀ h (current?_ne_none_of_isNone hended) hmore

instance (kind : TokenKind) [hc : TurningHere S s₀ s₀' c c'] :
    Turning S s₀ s₀' (isAtEnd >>= fun x => isAt kind >>= fun y => if (x || y) = true then pure false else c)
      (isAtEnd >>= fun x => isAt kind >>= fun y => if (x || y) = true then pure false else c') where
  shorter s s' h₀ h hmore := by
    rw [run_isAtEnd_bind, run_isAt_bind] at hmore ⊢
    obtain ⟨hended, hrest⟩ := run_unless hmore
    rw [hrest] at hmore ⊢
    exact hc.shorter s s' h₀ h (current?_ne_none_of_isNone hended) hmore

instance (kinds : List TokenKind) [hc : TurningHere S s₀ s₀' c c'] :
    Turning S s₀ s₀' (isAtEnd >>= fun x => isAtAny kinds >>=
      fun y => if (x || y) = true then pure false else c)
      (isAtEnd >>= fun x => isAtAny kinds >>= fun y => if (x || y) = true then pure false else c') where
  shorter s s' h₀ h hmore := by
    rw [run_isAtEnd_bind, run_isAtAny_bind] at hmore ⊢
    obtain ⟨hended, hrest⟩ := run_unless hmore
    rw [hrest] at hmore ⊢
    exact hc.shorter s s' h₀ h (current?_ne_none_of_isNone hended) hmore

-- Guards see to it that a turn takes a token.

instance {next next' : Cursor → Action Bool} [hn : ∀ t t', TurningSince S t t' (next t) (next' t')] :
    TurningHere S s₀ s₀' (get >>= next) (get >>= next') :=
  ⟨fun s s' _ h => (hn s s').shorter s s' (S.rel h) (S.refl (S.rel h))⟩

instance [ha : PairedFrom S s₀ s₀' a a'] [hf : ∀ x, TurningSince S s₀ s₀' (f x) (f' x)] :
    TurningSince S s₀ s₀' (a >>= f) (a' >>= f') :=
  ⟨fun s s' h₀ h => (hf (a.run s).1).shorter _ _ h₀ (ha.run s s' h₀ h).2.1⟩

instance {p : Prop} [Decidable p] [TurningSince S s₀ s₀' c c'] [TurningSince S s₀ s₀' b b'] :
    TurningSince S s₀ s₀' (if p then c else b) (if p then c' else b') := by
  split <;> assumption

instance [Paired S c c'] [Taking S s₀ s₀' c c'] [Paired S b b'] :
    TurningSince S s₀ s₀' (get >>= fun s => if (s.offset == s₀.offset) = true then c else b)
      (get >>= fun s => if (s.offset == s₀'.offset) = true then c' else b') :=
  ⟨fun _ _ h₀ h hcurrent _ => guard_shrinks c c' b b' h₀ h hcurrent⟩

instance : TurningSince S s₀ s₀' (get >>= fun s => pure (s.offset != s₀.offset) : Action Bool)
    (get >>= fun s => pure (s.offset != s₀'.offset)) where
  shorter s s' _ h hcurrent hmore := by
    have hne : s.offset ≠ s₀.offset := bne_iff_ne.mp hmore
    have halong := S.along h
    exact Nat.lt_of_le_of_ne halong.length_le
      (mt halong.left.eq_of_length (mt (offset_of_rest_eq hcurrent) hne))

end Turning

section Loops

variable {S : Simulation} {fuel fuel' : Nat} {step step' : Action Bool} {s₀ s₀' : Cursor}

-- Two loops that cannot run dry, or that can as soon as each other, turn equally often.
instance [hfuel : Fuels S fuel fuel'] [hstep : PairedFrom S s₀ s₀' step step']
    [hturn : Turning S s₀ s₀' step step'] :
    PairedFrom S s₀ s₀' (repeatWhile fuel step) (repeatWhile fuel' step') where
  run s s' h₀ h := by
    have henough := hfuel.enough.imp_right fun hlt => hlt s s' (S.rel h)
    clear hfuel
    induction fuel generalizing fuel' s s' with
    | zero =>
        rcases henough with rfl | ⟨hnone, -⟩
        · exact ⟨rfl, h, .refl s s'⟩
        · omega
    | succ fuel ih =>
        obtain ⟨more, rfl⟩ : ∃ more, fuel' = more + 1 := ⟨fuel' - 1, by omega⟩
        obtain ⟨hanswer, hsteps, halong⟩ := hstep.run s s' h₀ h
        rw [repeatWhile, repeatWhile, run_bind, run_bind, ← hanswer]
        cases hmore : (step.run s).1 with
        | false => exact ⟨rfl, hsteps, halong⟩
        | true =>
            have hshorter := hturn.shorter s s' h₀ h hmore
            have hshorter' := halong.shorter hshorter
            have hnext : fuel = more ∨
                (step.run s).2.rest.length < fuel ∧ (step'.run s').2.rest.length < more := by omega
            obtain ⟨hanswer', hsteps', halong'⟩ := ih _ _ hsteps hnext
            exact ⟨hanswer', hsteps', halong.trans halong'⟩

instance [Fuels S fuel fuel'] [Paired S step step'] [∀ t t', Turning S t t' step step'] :
    Paired S (repeatWhile fuel step) (repeatWhile fuel' step') where
  run s s' h := by
    obtain ⟨hanswer, hsteps, -⟩ := (inferInstance : PairedFrom S s s' (repeatWhile fuel step)
      (repeatWhile fuel' step')).run s s' h (S.refl h)
    exact ⟨hanswer, hsteps⟩

end Loops

end SpriteScript.Syntax
