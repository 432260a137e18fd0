import Mathlib.Data.List.DropRight
import SpriteScript.Proofs.Layout
import SpriteScript.Syntax.Parser.Cursor

-- What the moves of a parser do to the tree that grows.
namespace SpriteScript.Syntax

section Running

variable {α β : Type}

theorem run_bind (a : Action α) (f : α → Action β) (s : Cursor) :
    (a >>= f).run s = (f (a.run s).1).run (a.run s).2 := rfl

theorem run_get_bind (f : Cursor → Action α) (s : Cursor) :
    ((get : Action Cursor) >>= f).run s = (f s).run s := rfl

-- Looking leaves the state alone.

theorem run_kind?_bind (f : Option TokenKind → Action α) (s : Cursor) :
    (kind? >>= f).run s = (f s.kind?).run s := rfl

theorem run_second?_bind (f : Option TokenKind → Action α) (s : Cursor) :
    (second? >>= f).run s = (f s.second?).run s := rfl

theorem run_isAt_bind (kind : TokenKind) (f : Bool → Action α) (s : Cursor) :
    (isAt kind >>= f).run s = (f (s.kind? == some kind)).run s := rfl

theorem run_isAtAny_bind (kinds : List TokenKind) (f : Bool → Action α) (s : Cursor) :
    (isAtAny kinds >>= f).run s = (f (s.kind?.any kinds.contains)).run s := rfl

theorem run_isAtEnd_bind (f : Bool → Action α) (s : Cursor) :
    (isAtEnd >>= f).run s = (f s.current?.isNone).run s := rfl

-- A loop that does not turn.

theorem run_repeatWhile_of_false {step : Action Bool} {s : Cursor} (h : step.run s = (false, s))
    (fuel : Nat) : (repeatWhile fuel step).run s = ((), s) := by
  cases fuel with
  | zero => rfl
  | succ fuel =>
      rw [repeatWhile, run_bind, h]
      rfl

theorem run_eatWhile_of_not {kinds : List TokenKind} {s : Cursor} (h : s.kind?.any kinds.contains = false)
    (fuel : Nat) : (eatWhile fuel kinds).run s = ((), s) := by
  refine run_repeatWhile_of_false ?_ fuel
  rw [run_isAtAny_bind, h]
  rfl

end Running

namespace Cursor

-- The tokens that are still to be read.
def left (s : Cursor) : List Token := s.rest.map (·.token)

-- An error is reported at a token that is still to be read, or behind all of them.
def Marks (s : Cursor) (r : Text.ByteRange) : Prop :=
  r = .empty s.textEnd ∨ ∃ l ∈ s.rest, r = ⟨l.token.offset, l.token.stop⟩

theorem marks_errorRange (s : Cursor) : s.Marks s.errorRange := by
  unfold errorRange current?
  cases hsolids : s.solids with
  | nil => exact .inl rfl
  | cons l rest =>
      have hmem : l ∈ s.solids := hsolids ▸ List.mem_cons_self
      exact .inr ⟨l, List.dropWhile_subset _ hmem, rfl⟩

-- The tokens that are left are a row up to the end of the text, those that are skipped are
-- blanks, and the innermost open node starts in the forest.
structure Sound (s : Cursor) : Prop where
  row : Token.Row s.offset s.left s.textEnd
  skips : ∀ l ∈ s.rest, l.skipped = true → l.token.kind.isTrivia = true
  floor_le : s.builder.floor ≤ s.builder.checkpoint

end Cursor

-- Between two states only the trees `new` were added, made of the tokens that were read, and no
-- call on the builder was out of place. The open nodes are the same, and so is whether a brace
-- may open a literal; errors are only added, each at a token.
structure Grows (s s' : Cursor) (new : List Tree) : Prop where
  sound : s'.Sound
  taken : s.left = Tree.tokens.tokensOfAll new ++ s'.left
  suffix : s'.rest <:+ s.rest
  covers : Tree.CoversAll s.offset new s'.offset
  forest : s'.builder.forest.toList = s.builder.forest.toList ++ new
  opened : s'.builder.opened = s.builder.opened
  lawful : s'.builder.lawful = s.builder.lawful
  textEnd : s'.textEnd = s.textEnd
  literalAllowed : s'.literalAllowed = s.literalAllowed
  errors : s.errors <:+ s'.errors
  marked : ∀ e ∈ s'.errors, e ∈ s.errors ∨ s.Marks e.range

namespace Grows

theorem refl {s : Cursor} (h : s.Sound) : Grows s s [] :=
  ⟨h, rfl, List.suffix_rfl, rfl, by simp, rfl, rfl, rfl, rfl, List.suffix_rfl, fun _ => .inl⟩

-- Whoever has read more marks the same tokens or fewer.
theorem marks {s s' : Cursor} {new : List Tree} (h : Grows s s' new) {r : Text.ByteRange}
    (hr : s'.Marks r) : s.Marks r := by
  rcases hr with hr | ⟨l, hl, hr⟩
  · exact .inl (h.textEnd ▸ hr)
  · exact .inr ⟨l, h.suffix.subset hl, hr⟩

theorem marked_trans {s s' s'' : Cursor} {new more : List Tree} (h : Grows s s' new)
    (h' : Grows s' s'' more) : ∀ e ∈ s''.errors, e ∈ s.errors ∨ s.Marks e.range := by
  intro e he
  rcases h'.marked e he with he | he
  · exact h.marked e he
  · exact .inr (h.marks he)

theorem trans {s s' s'' : Cursor} {new more : List Tree} (h : Grows s s' new)
    (h' : Grows s' s'' more) : Grows s s'' (new ++ more) where
  sound := h'.sound
  taken := by rw [h.taken, h'.taken, Tree.tokensOfAll_append, List.append_assoc]
  suffix := h'.suffix.trans h.suffix
  covers := Tree.coversAll_append.mpr ⟨_, h.covers, h'.covers⟩
  forest := by rw [h'.forest, h.forest, List.append_assoc]
  opened := h'.opened.trans h.opened
  lawful := h'.lawful.trans h.lawful
  textEnd := h'.textEnd.trans h.textEnd
  literalAllowed := h'.literalAllowed.trans h.literalAllowed
  errors := h.errors.trans h'.errors
  marked := h.marked_trans h'

theorem checkpoint_eq {s s' : Cursor} {new : List Tree} (h : Grows s s' new) :
    s'.builder.checkpoint = s.builder.checkpoint + new.length := by
  have := congrArg List.length h.forest
  simpa [Builder.checkpoint] using this

theorem checkpoint_le {s s' : Cursor} {new : List Tree} (h : Grows s s' new) :
    s.builder.checkpoint ≤ s'.builder.checkpoint := by
  rw [h.checkpoint_eq]
  exact Nat.le_add_right _ _

-- The trees that were added are those of the forest behind what was there.
theorem unique {s s' : Cursor} {new new' : List Tree} (h : Grows s s' new) (h' : Grows s s' new') :
    new = new' :=
  List.append_cancel_left (h.forest.symm.trans h'.forest)

theorem floor_eq {s s' : Cursor} {new : List Tree} (h : Grows s s' new) :
    s'.builder.floor = s.builder.floor := by
  rw [Builder.floor, Builder.floor, h.opened]

theorem length_le {s s' : Cursor} {new : List Tree} (h : Grows s s' new) :
    s'.rest.length ≤ s.rest.length :=
  h.suffix.length_le

-- Who is at another offset has read something.
theorem length_lt {s s' : Cursor} {new : List Tree} (h : Grows s s' new)
    (hoffset : s'.offset ≠ s.offset) : s'.rest.length < s.rest.length := by
  refine Nat.lt_of_le_of_ne h.length_le fun hlength => hoffset ?_
  rw [Cursor.offset, Cursor.offset, h.suffix.eq_of_length hlength, h.textEnd]

-- Who is still at the same offset has read nothing.
theorem rest_eq {s s' : Cursor} {new : List Tree} (h : Grows s s' new)
    (hoffset : s'.offset = s.offset) : s'.rest = s.rest := by
  have hnone : Tree.tokens.tokensOfAll new = [] := Token.Row.eq_nil (hoffset ▸ h.covers.row)
  have hleft : s.left = s'.left := by rw [h.taken, hnone, List.nil_append]
  have hlength : s.rest.length = s'.rest.length := by
    simpa [Cursor.left] using congrArg List.length hleft
  exact h.suffix.eq_of_length hlength.symm

end Grows

-- Moving tokens

theorem rest_flushList (rest : List Lexeme) (s : Cursor) :
    (s.flushList rest).rest = rest.dropWhile (·.skipped) := by
  induction rest generalizing s with
  | nil => rfl
  | cons l rest ih =>
      unfold Cursor.flushList
      split
      case isTrue hskip => simpa [hskip] using ih _
      case isFalse hskip => simp [hskip]

theorem rest_flush (s : Cursor) : s.flush.rest = s.solids := rest_flushList s.rest s

theorem skipped_of_solids_eq {s : Cursor} {l : Lexeme} {rest : List Lexeme} (h : s.solids = l :: rest) :
    l.skipped = false := by
  have hfront := List.head?_dropWhile_not (fun l : Lexeme => l.skipped) s.rest
  rw [← Cursor.solids, h] at hfront
  simpa using hfront

theorem current?_of_rest_eq {s s' : Cursor} (h : s'.rest = s.rest) : s'.current? = s.current? := by
  simp only [Cursor.current?, Cursor.solids, h]

theorem solids_flush (s : Cursor) : s.flush.solids = s.solids := by
  simp only [Cursor.solids, rest_flush, List.dropWhile_idempotent]

theorem current?_flush (s : Cursor) : s.flush.current? = s.current? := by
  simp only [Cursor.current?, solids_flush]

theorem bump_of_nil {s : Cursor} (h : s.solids = []) : s.bump = s.flush := by
  have hrest := (rest_flush s).trans h
  unfold Cursor.bump
  simp only [hrest]

theorem bump_of_cons {s : Cursor} {l : Lexeme} {rest : List Lexeme} (h : s.solids = l :: rest) :
    s.bump = s.flush.shift l.token rest := by
  have hrest := (rest_flush s).trans h
  unfold Cursor.bump
  simp only [hrest]

theorem rest_bump (s : Cursor) : s.bump.rest = s.solids.tail := by
  cases hsolids : s.solids with
  | nil => rw [bump_of_nil hsolids, rest_flush, hsolids, List.tail_nil]
  | cons l rest =>
      rw [bump_of_cons hsolids]
      rfl

theorem current?_eq_none {s : Cursor} : s.current? = none ↔ s.solids = [] := by
  simp [Cursor.current?]

-- A token is taken whenever there is one.
theorem bump_shrinks {s : Cursor} (hcurrent : s.current? ≠ none) : s.bump.rest.length < s.rest.length := by
  have hne : s.solids ≠ [] := fun hnil => hcurrent (current?_eq_none.mpr hnil)
  have hpos := List.length_pos_iff.mpr hne
  have hle : s.solids.length ≤ s.rest.length := (List.dropWhile_suffix _).length_le
  rw [rest_bump, List.length_tail]
  omega

theorem sound_shift {s : Cursor} {l : Lexeme} {rest : List Lexeme} (h : s.Sound)
    (hrest : s.rest = l :: rest) : (s.shift l.token rest).Sound := by
  have hrow := h.row
  simp only [Cursor.left, hrest, List.map_cons, Token.Row] at hrow
  refine ⟨?_, ?_, ?_⟩
  · cases rest with
    | nil => simp [Cursor.offset, Cursor.left, Cursor.shift, Token.Row, hrow.2.2.symm]
    | cons l' rest =>
        have htail := hrow.2.2
        simp only [List.map_cons, Token.Row] at htail
        simp [Cursor.offset, Cursor.left, Cursor.shift, Token.Row, htail]
  · intro l' hl'
    exact h.skips l' (hrest ▸ List.mem_cons_of_mem l hl')
  · have := h.floor_le
    simp only [Cursor.shift, Builder.token, Builder.floor, Builder.checkpoint, Array.size_push] at this ⊢
    omega

theorem grows_shift {s : Cursor} {l : Lexeme} {rest : List Lexeme} (h : s.Sound)
    (hrest : s.rest = l :: rest) : Grows s (s.shift l.token rest) [.token l.token] where
  sound := sound_shift h hrest
  taken := by simp [Cursor.left, hrest, Cursor.shift, Tree.tokens.tokensOfAll, Tree.tokens]
  suffix := hrest ▸ List.suffix_cons l rest
  covers := by
    have hrow := h.row
    have hnext := (sound_shift h hrest).row
    simp only [Cursor.left, hrest, List.map_cons, Token.Row] at hrow
    refine ⟨l.token.stop, ⟨hrow.1, hrow.2.1, rfl⟩, ?_⟩
    rw [Tree.CoversAll]
    have hsame : (s.shift l.token rest).left = rest.map (·.token) := rfl
    rw [hsame] at hnext
    have hstop := hnext.stop_eq
    rw [show (s.shift l.token rest).textEnd = s.textEnd from rfl, hrow.2.2.stop_eq] at hstop
    exact Nat.add_right_cancel hstop
  forest := by simp [Cursor.shift, Builder.token]
  opened := rfl
  lawful := rfl
  textEnd := rfl
  literalAllowed := rfl
  errors := List.suffix_rfl
  marked := fun _ => .inl

theorem grows_flushList (rest : List Lexeme) : ∀ {s : Cursor}, s.Sound → s.rest = rest →
    Grows s (s.flushList rest) ((rest.takeWhile (·.skipped)).map fun l => .token l.token) := by
  induction rest with
  | nil =>
      intro s h hrest
      have hsame : s.flushList [] = s := by rw [Cursor.flushList, ← hrest]
      rw [hsame]
      exact .refl h
  | cons l rest ih =>
      intro s h hrest
      cases hskip : l.skipped with
      | true =>
          simp only [Cursor.flushList, hskip, if_true, List.takeWhile_cons, List.map_cons]
          exact (grows_shift h hrest).trans (ih (sound_shift h hrest) rfl)
      | false =>
          have hsame : s.flushList (l :: rest) = s := by simp [Cursor.flushList, hskip, ← hrest]
          rw [hsame]
          simp only [List.takeWhile_cons, hskip]
          exact .refl h

-- Only skipped tokens are flushed.
theorem grows_flush {s : Cursor} (h : s.Sound) :
    Grows s s.flush ((s.rest.takeWhile (·.skipped)).map fun l => .token l.token) :=
  grows_flushList s.rest h rfl

theorem errors_flushList (rest : List Lexeme) (s : Cursor) :
    (s.flushList rest).errors = s.errors := by
  induction rest generalizing s with
  | nil => rfl
  | cons l rest ih =>
      unfold Cursor.flushList
      split
      · exact ih _
      · rfl

theorem errors_flush (s : Cursor) : s.flush.errors = s.errors := errors_flushList s.rest s

theorem errors_bump (s : Cursor) : s.bump.errors = s.errors := by
  unfold Cursor.bump
  dsimp only
  split
  · exact errors_flush s
  · exact errors_flush s

-- One token that is not skipped is taken, and the skipped ones before it.
theorem grows_bump {s : Cursor} (h : s.Sound) :
    Grows s s.bump ((s.rest.takeWhile (·.skipped)).map (fun l => .token l.token) ++
      (s.current?.map Tree.token).toList) ∧ s.bump.rest = s.solids.tail := by
  refine ⟨?_, rest_bump s⟩
  have hflush := grows_flush h
  unfold Cursor.current?
  cases hsolids : s.solids with
  | nil =>
      rw [bump_of_nil hsolids]
      simpa using hflush
  | cons l rest =>
      rw [bump_of_cons hsolids]
      exact hflush.trans (grows_shift hflush.sound ((rest_flush s).trans hsolids))

-- Nodes

theorem sound_startAt {s : Cursor} {place : Nat} (h : s.Sound) (kind : NodeKind)
    (hplace : place ≤ s.builder.checkpoint) : (s.startAt place kind).Sound :=
  ⟨h.row, h.skips,
    by simpa [Cursor.startAt, Builder.startAt, Builder.floor, Builder.checkpoint] using hplace⟩

theorem start_eq_startAt {s : Cursor} (h : s.Sound) (kind : NodeKind) :
    s.start kind = s.startAt s.builder.checkpoint kind := by
  simp [Cursor.start, Cursor.startAt, Builder.start, Builder.startAt, h.floor_le]

theorem sound_start {s : Cursor} (h : s.Sound) (kind : NodeKind) : (s.start kind).Sound :=
  start_eq_startAt h kind ▸ sound_startAt h kind (Nat.le_refl _)

theorem run_node (kind : NodeKind) (body : Action Unit) (s : Cursor) :
    ((node kind body).run s).2 = (body.run (s.flush.start kind)).2.finish := rfl

-- A node starts where its first child does, and an empty one where the next token is.
theorem start_of_coversAll {start stop : Nat} {ts : List Tree} (h : Tree.CoversAll start ts stop) :
    (ts.head?.map Tree.start).getD stop = start := by
  cases ts with
  | nil => simpa using h.symm
  | cons t rest =>
      obtain ⟨mid, ht, -⟩ := h
      simpa using ht.start_eq

-- The trees that were added since a node was opened are its children when it is finished.
theorem builder_finish {s₀ s' : Cursor} {kind : NodeKind} {new : List Tree}
    (hopened : s'.builder.opened = (kind, s₀.builder.checkpoint) :: s₀.builder.opened)
    (hforest : s'.builder.forest.toList = s₀.builder.forest.toList ++ new)
    (hcovers : Tree.CoversAll s₀.offset new s'.offset) :
    s'.finish.builder = { s'.builder with
      opened := s₀.builder.opened
      forest := s₀.builder.forest.push (.node kind s₀.offset new) } := by
  have hsize : s₀.builder.checkpoint = s₀.builder.forest.toList.length := by
    simp [Builder.checkpoint]
  have htake : s'.builder.forest.take s₀.builder.checkpoint = s₀.builder.forest := by
    rw [← Array.toList_inj, Array.take, Array.toList_extract, hforest, hsize]
    simp
  have hdrop : (s'.builder.forest.extract s₀.builder.checkpoint).toList = new := by
    have htotal := congrArg List.length hforest
    simp only [Array.length_toList, List.length_append] at htotal
    rw [Array.toList_extract, List.extract_eq_take_drop, hforest, hsize, List.drop_left]
    apply List.take_of_length_le
    simp only [Array.length_toList]
    omega
  simp only [Cursor.finish, Builder.finish, hopened, htake, hdrop, start_of_coversAll hcovers]

-- A node is started where `s₀` was, around the trees `left` that were added since; `inner` are
-- added to it, and it is finished.
theorem grows_node {s₀ s s' : Cursor} {kind : NodeKind} {left inner : List Tree} (h₀ : s₀.Sound)
    (h : Grows s₀ s left) (h' : Grows (s.startAt s₀.builder.checkpoint kind) s' inner) :
    Grows s₀ s'.finish [.node kind s₀.offset (left ++ inner)] := by
  have hopened : s'.builder.opened = (kind, s₀.builder.checkpoint) :: s₀.builder.opened := by
    rw [h'.opened, ← h.opened]
    rfl
  have hforest : s'.builder.forest.toList = s₀.builder.forest.toList ++ (left ++ inner) := by
    rw [h'.forest, ← List.append_assoc, ← h.forest]
    rfl
  have hcovers : Tree.CoversAll s₀.offset (left ++ inner) s'.offset :=
    Tree.coversAll_append.mpr ⟨_, h.covers, h'.covers⟩
  have hbuilder := builder_finish hopened hforest hcovers
  have hmarked : ∀ e ∈ s'.errors, e ∈ s₀.errors ∨ s₀.Marks e.range := by
    intro e he
    rcases h'.marked e he with he | he
    · exact h.marked e he
    · exact .inr (h.marks he)
  refine ⟨⟨h'.sound.row, h'.sound.skips, ?_⟩, ?_, h'.suffix.trans h.suffix, ⟨s'.offset, ⟨rfl, hcovers⟩, rfl⟩,
    ?_, ?_, ?_, h'.textEnd.trans h.textEnd, h'.literalAllowed.trans h.literalAllowed,
    h.errors.trans h'.errors, hmarked⟩
  · have := h₀.floor_le
    simp only [hbuilder, Builder.floor, Builder.checkpoint, Array.size_push] at this ⊢
    omega
  · rw [show s'.finish.left = s'.left from rfl, h.taken,
      show s.left = (s.startAt s₀.builder.checkpoint kind).left from rfl, h'.taken]
    simp [Tree.tokens.tokensOfAll, Tree.tokens, Tree.tokensOfAll_append]
  · simp [hbuilder]
  · simp [hbuilder]
  · -- the checkpoint lies in the open node, so that starting a node there was allowed
    have hfloor : s.builder.floor ≤ s₀.builder.checkpoint := h.floor_eq ▸ h₀.floor_le
    rw [hbuilder]
    simp only [h'.lawful, Cursor.startAt, Builder.startAt, hfloor, h.checkpoint_le, h.lawful, decide_true,
      Bool.and_true]

end SpriteScript.Syntax
