import SpriteScript.Proofs.Accessors
import SpriteScript.Proofs.RoundTrip.Words

-- What a parser reads when it knows the words that come next.
namespace SpriteScript.Syntax

open RoundTrip Grammar

namespace Cursor

-- The words that are still to be read.
def words (s : Cursor) : List Word := (s.rest.filter (!·.skipped)).map (·.token.word)

theorem words_eq_solids (s : Cursor) :
    s.words = (s.solids.filter (!·.skipped)).map (·.token.word) := by
  unfold words solids
  induction s.rest with
  | nil => rfl
  | cons l rest ih => cases hskip : l.skipped <;> simp [hskip, ih]

theorem skipped_of_solids {s : Cursor} {l : Lexeme} {rest : List Lexeme} (h : s.solids = l :: rest) :
    l.skipped = false := by
  have hdrop : s.rest.dropWhile (·.skipped) = l :: rest := h
  have hne : s.rest.dropWhile (·.skipped) ≠ [] := hdrop ▸ List.cons_ne_nil l rest
  have hhead := List.head_dropWhile_not (fun l : Lexeme => l.skipped) hne
  simpa only [hdrop, List.head_cons] using hhead

-- What stands at the front when there is another word.
theorem exists_solids {s : Cursor} {w : Word} {ws : List Word} (h : s.words = w :: ws) :
    ∃ l rest, s.solids = l :: rest ∧ l.token.word = w ∧
      (rest.filter (!·.skipped)).map (·.token.word) = ws := by
  rw [words_eq_solids] at h
  cases hsolids : s.solids with
  | nil => simp [hsolids] at h
  | cons l rest =>
      simp only [hsolids, List.filter_cons, skipped_of_solids hsolids, Bool.not_false, if_true,
        List.map_cons, List.cons.injEq] at h
      exact ⟨l, rest, rfl, h.1, h.2⟩

theorem current?_of_words {s : Cursor} {w : Word} {ws : List Word} (h : s.words = w :: ws) :
    ∃ t, s.current? = some t ∧ t.word = w := by
  obtain ⟨l, rest, hsolids, hword, -⟩ := exists_solids h
  exact ⟨l.token, by simp [current?, hsolids], hword⟩

theorem kind?_of_words {s : Cursor} {w : Word} {ws : List Word} (h : s.words = w :: ws) :
    s.kind? = some w.kind := by
  obtain ⟨t, ht, rfl⟩ := current?_of_words h
  simp [kind?, ht, Token.word]

theorem current?_of_no_words {s : Cursor} (h : s.words = []) : s.current? = none := by
  rw [words_eq_solids] at h
  cases hsolids : s.solids with
  | nil => simp [current?, hsolids]
  | cons l rest => simp [hsolids, skipped_of_solids hsolids] at h

theorem kind?_eq_words (s : Cursor) : s.kind? = s.words.head?.map (·.kind) := by
  cases h : s.words with
  | nil => simp [kind?, current?_of_no_words h]
  | cons w ws => simp [kind?_of_words h]

theorem second?_of_words {s : Cursor} {w : Word} {ws : List Word} (h : s.words = w :: ws) :
    s.second? = ws.head?.map (·.kind) := by
  obtain ⟨l, rest, hsolids, -, rfl⟩ := exists_solids h
  rw [second?, hsolids, List.drop_one, List.tail_cons, List.head?_map, List.head?_filter]
  simp [Token.word, Function.comp_def]

theorem words_of_solids {s s' : Cursor} (h : s'.rest = s.solids) : s'.words = s.words := by
  rw [words_eq_solids s, words, h]

-- A kind of word that does not come is not found behind a parenthesis.
theorem kindPastParen?_ne {kind : TokenKind} {ls : List Lexeme}
    (h : ∀ l ∈ ls, l.skipped = false → l.token.kind ≠ kind) (depth : Nat) :
    kindPastParen? depth ls ≠ some kind := by
  induction ls generalizing depth with
  | nil => simp [kindPastParen?]
  | cons l rest ih =>
      have hrest := ih fun l' hl' => h l' (List.mem_cons_of_mem l hl')
      unfold kindPastParen?
      split
      · exact hrest _
      · split
        · intro hfound
          obtain ⟨l', hl', hkind⟩ := Option.map_eq_some_iff.mp hfound
          have hskip : l'.skipped = false := by simpa using List.find?_some hl'
          exact h l' (List.mem_cons_of_mem l (List.mem_of_find?_eq_some hl')) hskip hkind
        · exact hrest _
      · simp
      · simp
      · exact hrest _

end Cursor

@[simp] theorem solid_node (kind : NodeKind) (offset : Nat) (children : List Tree) :
    solid [.node kind offset children] = [.node kind offset children] := rfl

theorem solid_token {t : Token} (h : t.kind.isTrivia = false) : solid [.token t] = [.token t] := by
  simp [solid, Tree.isBlank, h]

-- Between two states all words but `rest` were read without an error, and trees were added for
-- which `P` holds.
structure Taken (s s' : Cursor) (rest : List Word) (P : List Tree → Prop) : Prop where
  start : s.Sound
  quiet : s'.errors = s.errors
  words : s'.words = rest
  grown : ∃ new, Grows s s' new ∧ P new

namespace Taken

variable {s s' s'' : Cursor} {ws rest : List Word} {P Q R : List Tree → Prop}

theorem sound (h : Taken s s' rest P) : s'.Sound := by
  obtain ⟨-, -, -, _, hgrows, -⟩ := h
  exact hgrows.sound

theorem refl (h : s.Sound) (hP : P []) : Taken s s s.words P := ⟨h, rfl, rfl, [], .refl h, hP⟩

theorem mono (h : Taken s s' rest P) (himp : ∀ ts, P ts → Q ts) : Taken s s' rest Q :=
  ⟨h.start, h.quiet, h.words, h.grown.imp fun _ hnew => ⟨hnew.1, himp _ hnew.2⟩⟩

theorem append (h : Taken s s' ws P) (h' : Taken s' s'' rest Q)
    (happend : ∀ ts us, P ts → Q us → R (ts ++ us)) : Taken s s'' rest R := by
  obtain ⟨hstart, hquiet, -, new, hgrows, hP⟩ := h
  obtain ⟨-, hquiet', hwords, more, hgrows', hQ⟩ := h'
  exact ⟨hstart, hquiet'.trans hquiet, hwords, new ++ more, hgrows.trans hgrows',
    happend new more hP hQ⟩

-- Trees that count, behind each other.
theorem solids {ts us : List Tree} (h : Taken s s' ws fun new => solid new = ts)
    (h' : Taken s' s'' rest fun new => solid new = us) :
    Taken s s'' rest fun new => solid new = ts ++ us :=
  h.append h' fun xs ys hxs hys => by rw [solid_append, hxs, hys]

end Taken

-- How an action ends.
def Ends {α : Type} (a : Action α) (s : Cursor) (Q : α → Cursor → Prop) : Prop :=
  Q (a.run s).1 (a.run s).2

namespace Ends

variable {α β : Type} {a b : Action α} {f : α → Action β} {s : Cursor}
variable {Q : α → Cursor → Prop} {R : β → Cursor → Prop}

theorem imp {Q' : α → Cursor → Prop} (ha : Ends a s Q) (himp : ∀ x s', Q x s' → Q' x s') :
    Ends a s Q' :=
  himp _ _ ha

theorem bind (ha : Ends a s Q) (hf : ∀ x s', Q x s' → Ends (f x) s' R) : Ends (a >>= f) s R :=
  hf _ _ ha

theorem ite {c : Prop} [Decidable c] (ha : c → Ends a s Q) (hb : ¬c → Ends b s Q) :
    Ends (if c then a else b) s Q := by
  split
  · exact ha ‹_›
  · exact hb ‹_›

-- Looking leaves the state alone.

theorem get_bind {f : Cursor → Action β} : Ends (get >>= f) s R ↔ Ends (f s) s R := .rfl

theorem kind?_bind {f : Option TokenKind → Action β} :
    Ends (kind? >>= f) s R ↔ Ends (f s.kind?) s R := .rfl

theorem second?_bind {f : Option TokenKind → Action β} :
    Ends (second? >>= f) s R ↔ Ends (f s.second?) s R := .rfl

theorem isAt_bind {kind : TokenKind} {f : Bool → Action β} :
    Ends (isAt kind >>= f) s R ↔ Ends (f (s.kind? == some kind)) s R := .rfl

theorem isAtAny_bind {kinds : List TokenKind} {f : Bool → Action β} :
    Ends (isAtAny kinds >>= f) s R ↔ Ends (f (s.kind?.any kinds.contains)) s R := .rfl

theorem isAtEnd_bind {f : Bool → Action β} :
    Ends (isAtEnd >>= f) s R ↔ Ends (f s.current?.isNone) s R := .rfl

end Ends

section Moves

variable {s : Cursor} {w : Word} {ws : List Word}

-- The blanks in front do not count.
theorem taken_flush (h : s.Sound) : Taken s s.flush s.words fun new => solid new = [] := by
  refine ⟨h, errors_flush s, Cursor.words_of_solids (rest_flush _), _, grows_flush h, ?_⟩
  exact List.filter_eq_nil_iff.mpr fun t ht => by simp [(skipped_blank h t ht).2]

theorem words_bump (h : s.Sound) (hwords : s.words = w :: ws) : s.bump.words = ws := by
  obtain ⟨l, rest, hsolids, -, rfl⟩ := Cursor.exists_solids hwords
  rw [Cursor.words, (grows_bump h).2, hsolids, List.tail_cons]

-- The next word is taken.
theorem taken_bump (h : s.Sound) (hwords : s.words = w :: ws) (hsolid : w.kind.isTrivia = false) :
    Taken s s.bump ws fun new => ∃ t : Token, t.word = w ∧ solid new = [.token t] := by
  obtain ⟨t, ht, rfl⟩ := Cursor.current?_of_words hwords
  have hgrows := (grows_bump h).1
  rw [ht] at hgrows
  refine ⟨h, errors_bump s, words_bump h hwords, _, hgrows, t, rfl, ?_⟩
  have hblank : solid ((s.rest.takeWhile (·.skipped)).map fun l => Tree.token l.token) = [] :=
    List.filter_eq_nil_iff.mpr fun t ht => by simp [(skipped_blank h t ht).2]
  rw [solid_append, hblank]
  exact solid_token hsolid

theorem ends_bump (h : s.Sound) (hwords : s.words = w :: ws) (hsolid : w.kind.isTrivia = false) :
    Ends bump s fun _ s' =>
      Taken s s' ws fun new => ∃ t : Token, t.word = w ∧ solid new = [.token t] :=
  taken_bump h hwords hsolid

-- Where no blanks are left the word is the first tree.
theorem taken_bump_here (h : s.Sound) (hblanks : s.rest = s.solids) (hwords : s.words = w :: ws) :
    Taken s s.bump ws fun new => ∃ t : Token, t.word = w ∧ new = [.token t] := by
  obtain ⟨t, ht, rfl⟩ := Cursor.current?_of_words hwords
  have hnone : s.rest.takeWhile (·.skipped) = [] := by
    rw [hblanks]
    exact List.takeWhile_eq_nil_iff.mpr fun hl => List.dropWhile_get_zero_not _ _ hl
  have hgrows := (grows_bump h).1
  rw [ht, hnone] at hgrows
  exact ⟨h, errors_bump s, words_bump h hwords, _, hgrows, t, rfl, rfl⟩

theorem ends_eat (h : s.Sound) (hwords : s.words = w :: ws) (hsolid : w.kind.isTrivia = false) :
    Ends (eat w.kind) s fun taken s' => taken = true ∧
      Taken s s' ws fun new => ∃ t : Token, t.word = w ∧ solid new = [.token t] := by
  refine Ends.isAt_bind.mpr (.ite (fun _ => ?_) fun hnot => ?_)
  · exact ⟨rfl, taken_bump h hwords hsolid⟩
  · exact absurd (beq_iff_eq.mpr (Cursor.kind?_of_words hwords)) hnot

theorem ends_eat_not {kind : TokenKind} (hkind : s.kind? ≠ some kind) :
    Ends (eat kind) s fun taken s' => taken = false ∧ s' = s :=
  Ends.isAt_bind.mpr (.ite (fun hat => absurd (beq_iff_eq.mp hat) hkind) fun _ => ⟨rfl, rfl⟩)

theorem ends_expect (h : s.Sound) (hwords : s.words = w :: ws) (hsolid : w.kind.isTrivia = false)
    (what : String) : Ends (discard (expect w.kind what)) s fun _ s' =>
      Taken s s' ws fun new => ∃ t : Token, t.word = w ∧ solid new = [.token t] := by
  have heat : Ends (expect w.kind what) s fun _ s' =>
      Taken s s' ws fun new => ∃ t : Token, t.word = w ∧ solid new = [.token t] := by
    rw [expect]
    refine .bind (ends_eat h hwords hsolid) fun taken s' hs' => ?_
    obtain ⟨rfl, htaken⟩ := hs'
    exact htaken
  exact heat

end Moves

section Building

variable {s₀ s s' : Cursor} {kind : NodeKind} {body : Action Unit} {ws rest : List Word}
variable {P Q : List Tree → Prop}

-- A finished node is one tree.
theorem taken_finish (h : Taken s₀ s ws P)
    (hbody : Taken (s.startAt s₀.builder.checkpoint kind) s' rest Q) :
    Taken s₀ s'.finish rest fun new => ∃ offset left inner,
      new = [.node kind offset (left ++ inner)] ∧ P left ∧ Q inner := by
  obtain ⟨hstart, hquiet, -, left, hleft, hP⟩ := h
  obtain ⟨-, hquiet', hwords, inner, hinner, hQ⟩ := hbody
  exact ⟨hstart, hquiet'.trans hquiet, hwords, _, grows_node hstart hleft hinner, _, left, inner,
    rfl, hP, hQ⟩

-- A node around the trees behind a checkpoint.
theorem ends_nodeAt (h : Taken s₀ s ws P)
    (hbody : ∀ s₁ : Cursor, s₁.Sound → s₁.words = ws →
      Ends body s₁ fun _ s' => Taken s₁ s' rest Q) :
    Ends (nodeAt s₀.builder.checkpoint kind body) s fun _ s' =>
      Taken s₀ s' rest fun new => ∃ offset left inner,
        new = [.node kind offset (left ++ inner)] ∧ P left ∧ Q inner := by
  obtain ⟨_, hgrows, _⟩ := h.grown
  exact taken_finish h (hbody _ (sound_startAt h.sound kind hgrows.checkpoint_le) h.words)

-- A node around nothing else.
theorem ends_wrap (h : Taken s₀ s ws P) :
    Ends (nodeAt s₀.builder.checkpoint kind (return ())) s fun _ s' =>
      Taken s₀ s' ws fun new => ∃ offset children, new = [.node kind offset children] ∧
        P children := by
  have hnone : ∀ s₁ : Cursor, s₁.Sound → s₁.words = ws →
      Ends (return () : Action Unit) s₁ fun _ s' => Taken s₁ s' ws (· = []) := by
    rintro s₁ hs₁ rfl
    exact .refl hs₁ rfl
  refine (ends_nodeAt h hnone).imp fun _ s' htaken => htaken.mono ?_
  rintro _ ⟨offset, left, _, rfl, hleft, rfl⟩
  exact ⟨offset, left, by rw [List.append_nil], hleft⟩

-- A node starts behind the blanks.
theorem ends_node (h : s.Sound)
    (hbody : ∀ s₁ : Cursor, s₁.Sound → s₁.rest = s₁.solids → s₁.words = s.words →
      Ends body s₁ fun _ s' => Taken s₁ s' rest Q) :
    Ends (node kind body) s fun _ s' => Taken s s' rest fun new =>
      ∃ offset children, solid new = [.node kind offset children] ∧ Q children := by
  have hflush := taken_flush h
  have hrest : (s.flush.start kind).rest = (s.flush.start kind).solids := by
    rw [Cursor.solids, show (s.flush.start kind).rest = s.solids from rest_flush _, Cursor.solids,
      List.dropWhile_idempotent]
  have hrun := hbody (s.flush.start kind) (sound_start hflush.sound kind) hrest hflush.words
  rw [start_eq_startAt hflush.sound kind] at hrun
  unfold Ends
  rw [run_node, start_eq_startAt hflush.sound kind]
  refine hflush.append (taken_finish (.refl (P := (· = [])) hflush.sound rfl) hrun) ?_
  rintro ts _ hts ⟨offset, _, inner, rfl, rfl, hinner⟩
  exact ⟨offset, inner, by simp [hts], hinner⟩

theorem ends_checkpoint {α : Type} {next : Nat → Action α} {R : α → Cursor → Prop} (h : s.Sound)
    (hnext : ∀ s₁ : Cursor, Taken s s₁ s.words (fun new => solid new = []) →
      s₁.rest = s₁.solids → Ends (next s₁.builder.checkpoint) s₁ R) :
    Ends (checkpoint >>= next) s R := by
  refine hnext s.flush (taken_flush h) ?_
  rw [Cursor.solids, rest_flush _, Cursor.solids, List.dropWhile_idempotent]

theorem ends_withLiterals {allowed : Bool} (h : s.Sound)
    (hbody : ∀ s₁ : Cursor, s₁.Sound → s₁.words = s.words →
      Ends body s₁ fun _ s' => Taken s₁ s' rest Q) :
    Ends (withLiterals allowed body) s fun _ s' => Taken s s' rest Q := by
  obtain ⟨-, hquiet, hwords, new, hgrows, hQ⟩ := hbody (s.allow allowed) (sound_allow h allowed) rfl
  exact ⟨h, hquiet, hwords, new, grows_allow hgrows, hQ⟩

end Building

end SpriteScript.Syntax
