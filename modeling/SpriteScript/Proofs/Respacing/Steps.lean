import SpriteScript.Proofs.Bracketing
import SpriteScript.Proofs.Respacing.Outline

-- Two runs of the parser over rows that differ in their runs of blanks only.
namespace SpriteScript

namespace Tree

-- What is left of a tree without blanks, and without the places of its parts.
def bare : Tree → List Tree
  | token t => if t.kind.isBlank then [] else [token { t with offset := 0 }]
  | node kind _ children => [node kind 0 (bareAll children)]
where
  bareAll : List Tree → List Tree
    | [] => []
    | t :: rest => bare t ++ bareAll rest

theorem bareAll_append (xs ys : List Tree) :
    bare.bareAll (xs ++ ys) = bare.bareAll xs ++ bare.bareAll ys := by
  induction xs with
  | nil => rfl
  | cons t xs ih => simp only [List.cons_append, bare.bareAll, ih, List.append_assoc]

end Tree

namespace Syntax

theorem bare_plain (l : Lexeme) : (Tree.token l.plain.token).bare = (Tree.token l.token).bare := by
  have hl : l.isBlank = l.token.kind.isBlank := rfl
  cases h : l.isBlank with
  | true => rw [Lexeme.plain_of_blank h, Tree.bare, Tree.bare, ← hl, h]; rfl
  | false => rw [Lexeme.plain_of_solid h, Tree.bare, Tree.bare]

-- The trees of the skipped tokens at the front of a row, blanks aside.
def skippedFront (rest : List Lexeme) : List Tree :=
  Tree.bare.bareAll ((rest.takeWhile (·.skipped)).map fun l => .token l.token)

theorem skippedFront_cons_of_skipped {l : Lexeme} (h : l.skipped = true) (rest : List Lexeme) :
    skippedFront (l :: rest) = (Tree.token l.token).bare ++ skippedFront rest := by
  rw [skippedFront, List.takeWhile_cons_of_pos h]
  rfl

theorem skippedFront_squeeze {rest : List Lexeme} (h : BlanksSkipped rest) :
    skippedFront (squeeze rest) = skippedFront rest := by
  refine look_squeeze skippedFront rfl ?_ ?_ h
  · intro l rest hl hskipped
    have hbare : (Tree.token l.token).bare = [] := if_pos hl
    rw [skippedFront_cons_of_skipped hskipped, hbare, List.nil_append]
  · intro l rest hl _ ih
    have hplain : l.plain.skipped = l.skipped := Lexeme.skipped_plain (by simp [hl])
    cases hskipped : l.skipped with
    | true =>
        rw [skippedFront_cons_of_skipped hskipped, skippedFront_cons_of_skipped (hplain.trans hskipped),
          bare_plain, ih]
    | false =>
        rw [hskipped] at hplain
        rw [skippedFront, skippedFront, List.takeWhile_cons_of_neg (by simp [hplain]),
          List.takeWhile_cons_of_neg (by simp [hskipped])]

-- Two rows without skipped tokens at the front: nothing is left of either, or the same token
-- stands in front.
inductive Fronts : List Lexeme → List Lexeme → Prop where
  | nil : Fronts [] []
  | cons {l l' : Lexeme} {rest rest' : List Lexeme} : l.skipped = false → l'.skipped = false →
      l.token.kind = l'.token.kind → l.token.text = l'.token.text → BlanksSkipped rest → BlanksSkipped rest' →
      squeeze rest = squeeze rest' → Fronts (l :: rest) (l' :: rest')

-- The cursors stand alike in rows that differ in their runs of blanks.
structure Cursor.Respaced (s s' : Cursor) : Prop where
  sound : s.Sound
  sound' : s'.Sound
  skipped : BlanksSkipped s.rest
  skipped' : BlanksSkipped s'.rest
  squeezed : squeeze s.rest = squeeze s'.rest
  last : s.last.any TokenKind.isTrivia = s'.last.any TokenKind.isTrivia
  lastSolid : s.lastSolid = s'.lastSolid
  literalAllowed : s.literalAllowed = s'.literalAllowed

theorem look_eq {β : Type} {rest rest' : List Lexeme} (look : List Lexeme → β)
    (hlook : ∀ {rest}, BlanksSkipped rest → look (squeeze rest) = look rest) (h : BlanksSkipped rest)
    (h' : BlanksSkipped rest') (hsqueezed : squeeze rest = squeeze rest') : look rest = look rest' :=
  calc look rest = look (squeeze rest) := (hlook h).symm
    _ = look (squeeze rest') := by rw [hsqueezed]
    _ = look rest' := hlook h'

namespace Fronts

variable {rest rest' : List Lexeme}

theorem isSome (h : Fronts rest rest') :
    (rest.head?.map (·.token)).isSome = (rest'.head?.map (·.token)).isSome := by
  cases h <;> rfl

theorem kind (h : Fronts rest rest') :
    (rest.head?.map (·.token)).map (·.kind) = (rest'.head?.map (·.token)).map (·.kind) := by
  cases h with
  | nil => rfl
  | cons _ _ hkind => exact congrArg some hkind

theorem terminated (h : Fronts rest rest') :
    ((rest.head?.map (·.token)).any fun t => Token.isTerminatedString t.text) =
      (rest'.head?.map (·.token)).any fun t => Token.isTerminatedString t.text := by
  cases h with
  | nil => rfl
  | cons _ _ _ htext => exact congrArg Token.isTerminatedString htext

theorem second (h : Fronts rest rest') :
    ((rest.drop 1).find? (!·.skipped)).map (·.token.kind) =
    ((rest'.drop 1).find? (!·.skipped)).map (·.token.kind) := by
  cases h with
  | nil => rfl
  | cons _ _ _ _ hskipped hskipped' hsqueezed =>
      exact look_eq (fun rest => (rest.find? (!·.skipped)).map (·.token.kind)) find?_squeeze hskipped
        hskipped' hsqueezed

theorem pastSecond (h : Fronts rest rest') :
    Cursor.kindPastParen? 0 ((rest.drop 1).dropWhile (·.skipped)) =
      Cursor.kindPastParen? 0 ((rest'.drop 1).dropWhile (·.skipped)) := by
  cases h with
  | nil => rfl
  | cons _ _ _ _ hskipped hskipped' hsqueezed =>
      refine look_eq (fun rest => Cursor.kindPastParen? 0 (rest.dropWhile (·.skipped)))
        (fun hrest => ?_) hskipped hskipped' hsqueezed
      rw [dropWhile_squeeze hrest, kindPastParen?_squeeze (hrest.of_suffix (List.dropWhile_suffix _))]

theorem isTrivia_second (h : Fronts rest rest') :
    rest.tail.head?.all (·.token.kind.isTrivia) = rest'.tail.head?.all (·.token.kind.isTrivia) := by
  cases h with
  | nil => rfl
  | cons _ _ _ _ hskipped hskipped' hsqueezed =>
      have hall := congrArg (Option.all id) (look_eq (fun rest => rest.head?.map (·.token.kind.isTrivia))
        (fun _ => head?_isTrivia_squeeze _) hskipped hskipped' hsqueezed)
      rwa [Option.all_map, Option.all_map] at hall

end Fronts

theorem run_spaceBefore_eq (s : Cursor) :
    (spaceBefore.run s).1 = (s.current?.isSome &&
      (s.rest.head?.any (·.skipped) || s.last.any TokenKind.isTrivia)) := by
  unfold spaceBefore Cursor.current?
  rw [run_get_bind]
  cases hsolids : s.solids with
  | nil => rfl
  | cons l rest =>
      cases hrest : s.rest with
      | nil => simp [Cursor.solids, hrest] at hsolids
      | cons m more => rfl

theorem run_spaceAfter_eq (s : Cursor) :
    (spaceAfter.run s).1 = (s.current?.isSome && s.solids.tail.head?.all (·.token.kind.isTrivia)) := by
  unfold spaceAfter Cursor.current?
  rw [run_get_bind]
  rcases s.solids with _ | ⟨l, _ | ⟨m, rest⟩⟩ <;> rfl

namespace Cursor.Respaced

variable {s s' : Cursor}

theorem squeezed_solids (h : s.Respaced s') : squeeze s.solids = squeeze s'.solids := by
  rw [solids, solids, ← dropWhile_squeeze h.skipped, ← dropWhile_squeeze h.skipped', h.squeezed]

theorem skipped_solids (h : s.Respaced s') : BlanksSkipped s.solids :=
  h.skipped.of_suffix (List.dropWhile_suffix _)

theorem skipped_solids' (h : s.Respaced s') : BlanksSkipped s'.solids :=
  h.skipped'.of_suffix (List.dropWhile_suffix _)

theorem fronts (h : s.Respaced s') : Fronts s.solids s'.solids := by
  have hsqueezed := h.squeezed_solids
  have hskipped := h.skipped_solids
  have hskipped' := h.skipped_solids'
  cases hsolids : s.solids with
  | nil =>
      cases hsolids' : s'.solids with
      | nil => exact .nil
      | cons l' rest' =>
          rw [hsolids'] at hskipped'
          have hl' := Lexeme.isBlank_of_not_skipped hskipped'.head (skipped_of_solids_eq hsolids')
          rw [hsolids, hsolids', squeeze_cons_of_solid hl'] at hsqueezed
          cases hsqueezed
  | cons l rest =>
      rw [hsolids] at hskipped
      have hl := Lexeme.isBlank_of_not_skipped hskipped.head (skipped_of_solids_eq hsolids)
      cases hsolids' : s'.solids with
      | nil =>
          rw [hsolids, hsolids', squeeze_cons_of_solid hl] at hsqueezed
          cases hsqueezed
      | cons l' rest' =>
          rw [hsolids'] at hskipped'
          have hl' := Lexeme.isBlank_of_not_skipped hskipped'.head (skipped_of_solids_eq hsolids')
          rw [hsolids, hsolids', squeeze_cons_of_solid hl, squeeze_cons_of_solid hl',
            Lexeme.plain_of_solid hl, Lexeme.plain_of_solid hl'] at hsqueezed
          obtain ⟨hplain, hrest⟩ := List.cons.inj hsqueezed
          exact .cons (skipped_of_solids_eq hsolids) (skipped_of_solids_eq hsolids')
            (congrArg (·.token.kind) hplain)
            (congrArg (·.token.text) hplain) hskipped.tail hskipped'.tail hrest

theorem head_skipped (h : s.Respaced s') : s.rest.head?.map (·.skipped) = s'.rest.head?.map (·.skipped) :=
  look_eq (fun rest => rest.head?.map (·.skipped)) head?_skipped_squeeze h.skipped h.skipped' h.squeezed

-- The grammar sees the same.
theorem alike (h : s.Respaced s') : s.Alike s' where
  kind := h.fronts.kind
  second := h.fronts.second
  terminated := h.fronts.terminated
  pastParen :=
    look_eq (kindPastParen? 0) (fun h => kindPastParen?_squeeze h 0) h.skipped_solids h.skipped_solids'
      h.squeezed_solids
  pastSecond := h.fronts.pastSecond
  spaceBefore := by
    have hany := congrArg (Option.any id) h.head_skipped
    rw [Option.any_map, Option.any_map] at hany
    have hsome : s.current?.isSome = s'.current?.isSome := h.fronts.isSome
    rw [run_spaceBefore_eq, run_spaceBefore_eq, hsome, h.last]
    exact congrArg (fun skipped => _ && (skipped || _)) hany
  spaceAfter := by
    have hsome : s.current?.isSome = s'.current?.isSome := h.fronts.isSome
    rw [run_spaceAfter_eq, run_spaceAfter_eq, hsome, h.fronts.isTrivia_second]
  head kind hkind := look_eq (fun rest => (Rules.headTokens 0 rest).contains (kind, true))
    (fun h => headTokens_squeeze h hkind 0) h.skipped h.skipped' h.squeezed
  lastSolid := h.lastSolid
  literalAllowed := h.literalAllowed

end Cursor.Respaced

namespace Cursor

-- What an action has reported, newest first.
def faults (s : Cursor) : List Fault := s.errors.map (·.fault)

theorem last_flushList (rest : List Lexeme) {s : Cursor}
    (h : ∀ l ∈ rest, l.skipped = true → l.token.kind.isTrivia = true) :
    (s.flushList rest).last.any TokenKind.isTrivia =
      (rest.head?.any (·.skipped) || s.last.any TokenKind.isTrivia) ∧
      (s.flushList rest).lastSolid = s.lastSolid := by
  induction rest generalizing s with
  | nil => exact ⟨rfl, rfl⟩
  | cons l rest ih =>
      unfold flushList
      cases hskipped : l.skipped with
      | false => exact ⟨by simp [hskipped], rfl⟩
      | true =>
          have htrivia := h l List.mem_cons_self hskipped
          obtain ⟨hlast, hsolid⟩ := @ih (s.shift l.token rest) fun m hm => h m (List.mem_cons_of_mem l hm)
          rw [if_pos rfl, hlast, hsolid]
          simp [shift, htrivia, hskipped]

theorem last_flush {s : Cursor} (h : s.Sound) :
    s.flush.last.any TokenKind.isTrivia = (s.rest.head?.any (·.skipped) || s.last.any TokenKind.isTrivia) ∧
      s.flush.lastSolid = s.lastSolid :=
  last_flushList s.rest h.skips

theorem solids_eq_rest {s : Cursor} : s.solids = s.rest ↔ s.rest.head?.any (·.skipped) = false := by
  unfold solids
  cases s.rest with
  | nil => simp
  | cons l rest =>
      cases hskipped : l.skipped with
      | false => simp [hskipped]
      | true =>
          have hle := (List.dropWhile_suffix (·.skipped) (l := rest)).length_le
          have hne : rest.dropWhile (·.skipped) ≠ l :: rest := fun heq => by
            rw [heq] at hle
            exact Nat.not_succ_le_self _ hle
          simpa [hskipped] using hne

end Cursor

-- Both runs have added the same trees, blanks aside, and reported the same, and are alike again.
structure Keeps (s s' t t' : Cursor) : Prop where
  trees : ∃ new new', Grows s t new ∧ Grows s' t' new' ∧ Tree.bare.bareAll new = Tree.bare.bareAll new'
  faults : ∃ found, t.faults = found ++ s.faults ∧ t'.faults = found ++ s'.faults
  rel : t.Respaced t'
  along : Along s s' t t'

namespace Keeps

variable {s s' t t' u u' : Cursor}

theorem refl (h : s.Respaced s') : Keeps s s' s s' where
  trees := ⟨[], [], .refl h.sound, .refl h.sound', rfl⟩
  faults := ⟨[], rfl, rfl⟩
  rel := h
  along := .refl s s'

theorem trans (h : Keeps s s' t t') (h' : Keeps t t' u u') : Keeps s s' u u' where
  trees := by
    obtain ⟨new, new', hnew, hnew', hbare⟩ := h.trees
    obtain ⟨more, more', hmore, hmore', hbare'⟩ := h'.trees
    exact ⟨_, _, hnew.trans hmore, hnew'.trans hmore',
      by rw [Tree.bareAll_append, Tree.bareAll_append, hbare, hbare']⟩
  faults := by
    obtain ⟨found, hfound, hfound'⟩ := h.faults
    obtain ⟨later, hlater, hlater'⟩ := h'.faults
    exact ⟨later ++ found, by rw [hlater, hfound, List.append_assoc], by rw [hlater', hfound',
      List.append_assoc]⟩
  rel := h'.rel
  along := h.along.trans h'.along

-- As long as neither has read anything, both stand where they stood.
theorem offset (h : Keeps s s' t t') : t.offset = s.offset ↔ t'.offset = s'.offset := by
  obtain ⟨new, new', hnew, hnew', -⟩ := h.trees
  have hoffset {s t : Cursor} {new : List Tree} (h : Grows s t new) : t.offset = s.offset ↔ t.rest = s.rest :=
    ⟨h.rest_eq, fun hrest => by rw [Cursor.offset, Cursor.offset, hrest, h.textEnd]⟩
  rw [hoffset hnew, hoffset hnew']
  exact h.along.stays

theorem flush (h : s.Respaced s') : Keeps s s' s.flush s'.flush where
  trees := ⟨_, _, grows_flush h.sound, grows_flush h.sound',
    look_eq skippedFront skippedFront_squeeze h.skipped h.skipped' h.squeezed⟩
  faults := ⟨[], congrArg (List.map SyntaxError.fault) (errors_flush s),
    congrArg (List.map SyntaxError.fault) (errors_flush s')⟩
  rel :=
    have hany : s.rest.head?.any (·.skipped) = s'.rest.head?.any (·.skipped) := by
      have hany := congrArg (Option.any id) h.head_skipped
      rwa [Option.any_map, Option.any_map] at hany
    { sound := (grows_flush h.sound).sound
      sound' := (grows_flush h.sound').sound
      skipped := rest_flush s ▸ h.skipped_solids
      skipped' := rest_flush s' ▸ h.skipped_solids'
      squeezed := by rw [rest_flush, rest_flush, h.squeezed_solids]
      last := by rw [(Cursor.last_flush h.sound).1, (Cursor.last_flush h.sound').1, hany, h.last]
      lastSolid := by rw [(Cursor.last_flush h.sound).2, (Cursor.last_flush h.sound').2, h.lastSolid]
      literalAllowed := by
        rw [(grows_flush h.sound).literalAllowed, (grows_flush h.sound').literalAllowed, h.literalAllowed] }
  along := by
    refine ⟨(grows_flush h.sound).suffix, (grows_flush h.sound').suffix, ?_⟩
    have hany := congrArg (Option.any id) h.head_skipped
    rw [Option.any_map, Option.any_map] at hany
    rw [rest_flush, rest_flush, Cursor.solids_eq_rest, Cursor.solids_eq_rest]
    exact iff_of_eq (congrArg (· = false) hany)

-- The same token is taken.
theorem shift (h : s.Respaced s') {l l' : Lexeme} {rest rest' : List Lexeme} (hrest : s.rest = l :: rest)
    (hrest' : s'.rest = l' :: rest') (hfronts : Fronts (l :: rest) (l' :: rest')) :
    Keeps s s' (s.shift l.token rest) (s'.shift l'.token rest') := by
  cases hfronts with
  | cons _ _ hkind htext hskipped hskipped' hsqueezed =>
      have hgrows := grows_shift h.sound hrest
      have hgrows' := grows_shift h.sound' hrest'
      refine ⟨⟨_, _, hgrows, hgrows', ?_⟩, ⟨[], rfl, rfl⟩, ?_, hgrows.suffix, hgrows'.suffix, ?_⟩
      · simp only [Tree.bare.bareAll, Tree.bare, hkind, htext]
      · exact ⟨hgrows.sound, hgrows'.sound, hskipped, hskipped', hsqueezed,
          congrArg (fun kind => TokenKind.isTrivia kind) hkind,
          by simp only [Cursor.shift, hkind, h.lastSolid], h.literalAllowed⟩
      · simp [Cursor.shift, hrest, hrest']

theorem bump (h : s.Respaced s') : Keeps s s' s.bump s'.bump := by
  have hflush := Keeps.flush h
  have hfronts := h.fronts
  cases hsolids : s.solids with
  | nil =>
      cases hsolids' : s'.solids with
      | nil =>
          rw [bump_of_nil hsolids, bump_of_nil hsolids']
          exact hflush
      | cons l' rest' =>
          rw [hsolids, hsolids'] at hfronts
          cases hfronts
  | cons l rest =>
      cases hsolids' : s'.solids with
      | nil =>
          rw [hsolids, hsolids'] at hfronts
          cases hfronts
      | cons l' rest' =>
          rw [hsolids, hsolids'] at hfronts
          rw [bump_of_cons hsolids, bump_of_cons hsolids']
          exact hflush.trans (.shift hflush.rel ((rest_flush s).trans hsolids)
            ((rest_flush s').trans hsolids') hfronts)

theorem report (h : s.Respaced s') (f : Fault) : Keeps s s' (s.report f) (s'.report f) where
  trees := ⟨[], [], grows_report h.sound f, grows_report h.sound' f, rfl⟩
  faults := ⟨[f], rfl, rfl⟩
  rel := { h with sound := (grows_report h.sound f).sound, sound' := (grows_report h.sound' f).sound }
  along := ⟨List.suffix_rfl, List.suffix_rfl, iff_of_true rfl rfl⟩

-- A flag is put back behind what was done with it.
theorem allowed {allowed : Bool} (h : s.Respaced s') (h' : Keeps (s.allow allowed) (s'.allow allowed) t t') :
    Keeps s s' (t.allow s.literalAllowed) (t'.allow s'.literalAllowed) where
  trees := by
    obtain ⟨new, new', hnew, hnew', hbare⟩ := h'.trees
    exact ⟨new, new', grows_allow hnew, grows_allow hnew', hbare⟩
  faults := h'.faults
  rel := { h'.rel with
    sound := sound_allow h'.rel.sound _
    sound' := sound_allow h'.rel.sound' _
    literalAllowed := h.literalAllowed }
  along := ⟨h'.along.left, h'.along.right, h'.along.stays⟩

-- Nodes are started at the same places and hold the same.
theorem finishAt {kind : NodeKind} (h₀ : s.Respaced s') (h : Keeps s s' t t')
    (h' : Keeps (t.startAt s.builder.checkpoint kind) (t'.startAt s'.builder.checkpoint kind) u u') :
    Keeps s s' u.finish u'.finish where
  trees := by
    obtain ⟨new, new', hnew, hnew', hbare⟩ := h.trees
    obtain ⟨more, more', hmore, hmore', hbare'⟩ := h'.trees
    refine ⟨_, _, grows_node h₀.sound hnew hmore, grows_node h₀.sound' hnew' hmore', ?_⟩
    simp only [Tree.bare.bareAll, Tree.bare, Tree.bareAll_append, hbare, hbare']
  faults := by
    obtain ⟨found, hfound, hfound'⟩ := h.faults
    obtain ⟨later, hlater, hlater'⟩ := h'.faults
    refine ⟨later ++ found, ?_, ?_⟩
    · rw [List.append_assoc, ← hfound]
      exact hlater
    · rw [List.append_assoc, ← hfound']
      exact hlater'
  rel := by
    obtain ⟨new, new', hnew, hnew', -⟩ := h.trees
    obtain ⟨more, more', hmore, hmore', -⟩ := h'.trees
    exact { h'.rel with
      sound := (grows_node h₀.sound hnew hmore).sound
      sound' := (grows_node h₀.sound' hnew' hmore').sound }
  along := h.along.trans ⟨h'.along.left, h'.along.right, h'.along.stays⟩

end Keeps

theorem Cursor.Respaced.startAt {s s' t t' : Cursor} (kind : NodeKind) (h : Keeps s s' t t') :
    (t.startAt s.builder.checkpoint kind).Respaced (t'.startAt s'.builder.checkpoint kind) := by
  obtain ⟨new, new', hnew, hnew', -⟩ := h.trees
  exact { h.rel with
    sound := sound_startAt h.rel.sound kind (hnew.checkpoint_eq ▸ Nat.le_add_right _ _)
    sound' := sound_startAt h.rel.sound' kind (hnew'.checkpoint_eq ▸ Nat.le_add_right _ _) }

theorem Cursor.Respaced.start {s s' : Cursor} (kind : NodeKind) (h : s.Respaced s') :
    (s.start kind).Respaced (s'.start kind) := by
  rw [start_eq_startAt h.sound, start_eq_startAt h.sound']
  exact .startAt kind (.refl h)

theorem Keeps.finish {s s' t t' : Cursor} {kind : NodeKind} (h : s.Respaced s')
    (h' : Keeps (s.start kind) (s'.start kind) t t') : Keeps s s' t.finish t'.finish := by
  rw [start_eq_startAt h.sound, start_eq_startAt h.sound'] at h'
  exact .finishAt h (.refl h) h'

-- The runs over two rows that differ in their runs of blanks.
def respaced : Simulation where
  Rel := Cursor.Respaced
  Steps := Keeps
  refl := .refl
  trans := .trans
  rel := Keeps.rel
  along := Keeps.along
  offset := Keeps.offset
  alike := Cursor.Respaced.alike
  flush := .flush
  bump := .bump
  report f h := .report h f
  allow _ h :=
    { h with sound := sound_allow h.sound _, sound' := sound_allow h.sound' _, literalAllowed := rfl }
  allowed := .allowed
  start := .start
  finish := .finish
  startAt kind _ h := .startAt kind h
  finishAt := .finishAt

end Syntax

end SpriteScript
