import SpriteScript.Proofs.Lossless

-- The places of a text: ranges between its characters, and the trees that lie on them.
namespace SpriteScript

-- Both ends lie in the text, in this order and between two characters.
structure Text.ByteRange.FitsIn (r : Text.ByteRange) (text : String) : Prop where
  ordered : r.start ≤ r.stop
  inside : r.stop ≤ text.utf8ByteSize
  start_valid : String.Pos.Raw.IsValid text ⟨r.start⟩
  stop_valid : String.Pos.Raw.IsValid text ⟨r.stop⟩

theorem Text.ByteRange.fitsIn_iff {r : Text.ByteRange} {text : String} :
    (decide (r.start ≤ r.stop) && decide (r.stop ≤ text.utf8ByteSize) &&
      String.Pos.Raw.isValid text ⟨r.start⟩ && String.Pos.Raw.isValid text ⟨r.stop⟩) = true ↔
      r.FitsIn text := by
  simp only [Bool.and_eq_true, decide_eq_true_eq, String.Pos.Raw.isValid_eq_true_iff]
  constructor
  · rintro ⟨⟨⟨hordered, hinside⟩, hstart⟩, hstop⟩
    exact ⟨hordered, hinside, hstart, hstop⟩
  · intro h
    exact ⟨⟨⟨h.ordered, h.inside⟩, h.start_valid⟩, h.stop_valid⟩

instance (r : Text.ByteRange) (text : String) : Decidable (r.FitsIn text) :=
  decidable_of_iff _ Text.ByteRange.fitsIn_iff

section Includes

variable {outer range inner : Text.ByteRange}

theorem Text.ByteRange.includes_iff :
    outer.includes inner = true ↔ outer.start ≤ inner.start ∧ inner.stop ≤ outer.stop := by
  simp [includes]

theorem Text.ByteRange.includes_self : range.includes range = true :=
  includes_iff.mpr ⟨Nat.le_refl _, Nat.le_refl _⟩

theorem Text.ByteRange.includes_trans (h : outer.includes range = true) (h' : range.includes inner = true) :
    outer.includes inner = true := by
  rw [includes_iff] at h h' ⊢
  omega

-- The ranges lie apart, where they may touch, or one of them lies in the other.
def Text.ByteRange.Laminar (a b : Text.ByteRange) : Prop :=
  a.includes b = true ∨ b.includes a = true ∨ a.stop ≤ b.start ∨ b.stop ≤ a.start

end Includes

-- The end of a first part is a place between characters.
theorem isValid_append (before after : String) :
    String.Pos.Raw.IsValid (before ++ after) ⟨before.utf8ByteSize⟩ :=
  String.Pos.Raw.isValid_rawEndPos.append_right after

-- A part of a text has a range in it.
theorem fitsIn_middle (before middle after : String) :
    Text.ByteRange.FitsIn ⟨before.utf8ByteSize, before.utf8ByteSize + middle.utf8ByteSize⟩
      (before ++ middle ++ after) where
  ordered := Nat.le_add_right _ _
  inside := by
    rw [String.utf8ByteSize_append, String.utf8ByteSize_append]
    exact Nat.le_add_right _ _
  start_valid := by
    rw [String.append_assoc]
    exact isValid_append before _
  stop_valid := by
    rw [← String.utf8ByteSize_append]
    exact isValid_append (before ++ middle) after

theorem fitsIn_start (text : String) : (Text.ByteRange.empty 0).FitsIn text := by
  simpa [Text.ByteRange.empty] using fitsIn_middle "" "" text

theorem fitsIn_end (text : String) : (Text.ByteRange.empty text.utf8ByteSize).FitsIn text := by
  simpa [Text.ByteRange.empty] using fitsIn_middle text "" ""

-- Every token of a row has its range in the text of the row.
theorem Token.Row.fitsIn {stop : Nat} {tokens : List Token} (h : Token.Row 0 tokens stop)
    {t : Token} (ht : t ∈ tokens) :
    Text.ByteRange.FitsIn ⟨t.offset, t.stop⟩ (Token.texts tokens) := by
  obtain ⟨before, after, rfl⟩ := List.append_of_mem ht
  obtain ⟨mid, hbefore, hoffset, -, -⟩ := Token.Row.append_iff.mp h
  have hmid : t.offset = (Token.texts before).utf8ByteSize := by
    rw [hoffset, hbefore.stop_eq, Nat.zero_add]
  have hmiddle := fitsIn_middle (Token.texts before) t.text (Token.texts after)
  rwa [← hmid, String.append_assoc, ← Token.texts_cons, ← Token.texts_append] at hmiddle

namespace Tree

-- The tree is made of a part of the text and knows where that part is.
def LiesIn (text : String) (t : Tree) : Prop :=
  ∃ before after stop, text = before ++ t.text ++ after ∧ t.Covers before.utf8ByteSize stop

theorem LiesIn.fitsIn {text : String} {t : Tree} (h : t.LiesIn text) : t.range.FitsIn text := by
  obtain ⟨before, after, stop, rfl, hcovers⟩ := h
  have hstop : t.stop = before.utf8ByteSize + t.text.utf8ByteSize :=
    hcovers.stop_eq.trans hcovers.row.stop_eq
  rw [range, hcovers.start_eq, hstop]
  exact fitsIn_middle before t.text after

theorem text_node (kind : NodeKind) (offset : Nat) (children : List Tree) :
    (node kind offset children).text = Token.texts (tokens.tokensOfAll children) := rfl

-- With a tree its parts lie in the text.
theorem LiesIn.child {text : String} {t c : Tree} (h : t.LiesIn text) (hc : c ∈ t.children) :
    c.LiesIn text := by
  obtain ⟨before, after, stop, rfl, hcovers⟩ := h
  cases t with
  | token => cases hc
  | node kind offset children =>
      obtain ⟨xs, ys, rfl⟩ : ∃ xs ys, children = xs ++ c :: ys := List.append_of_mem hc
      obtain ⟨mid, hxs, last, hcovers', -⟩ := coversAll_append.mp hcovers.2
      refine ⟨before ++ Token.texts (tokens.tokensOfAll xs),
        Token.texts (tokens.tokensOfAll ys) ++ after, last, ?_, ?_⟩
      · rw [text_node, tokensOfAll_append, Token.texts_append, tokens.tokensOfAll,
          Token.texts_append, show c.text = Token.texts c.tokens from rfl]
        simp only [String.append_assoc]
      · rw [String.utf8ByteSize_append, ← hxs.row.stop_eq]
        exact hcovers'

theorem LiesIn.includes_child {text : String} {t c : Tree} (h : t.LiesIn text) (hc : c ∈ t.children) :
    t.range.includes c.range = true := by
  obtain ⟨before, after, stop, -, hcovers⟩ := h
  obtain ⟨first, last, hfirst, hcovers', hlast⟩ := hcovers.children hc
  rw [Text.ByteRange.includes_iff, range, range, hcovers.start_eq, hcovers.stop_eq, hcovers'.start_eq,
    hcovers'.stop_eq]
  exact ⟨hfirst, hlast⟩

-- Of two parts of a node one ends before the other one starts.
theorem LiesIn.apart {text : String} {t c c' : Tree} (h : t.LiesIn text) (hc : c ∈ t.children)
    (hc' : c' ∈ t.children) (hne : c ≠ c') : c.stop ≤ c'.start ∨ c'.stop ≤ c.start := by
  obtain ⟨before, after, stop, -, hcovers⟩ := h
  cases t with
  | token => cases hc
  | node kind offset children =>
      have : Std.Symm fun c c' : Tree => c.stop ≤ c'.start ∨ c'.stop ≤ c.start := ⟨fun _ _ h => h.symm⟩
      have hordered : children.Pairwise fun c c' => c.stop ≤ c'.start ∨ c'.stop ≤ c.start :=
        List.pairwise_iff_forall_sublist.mpr fun h => .inl (hcovers.2.ordered h)
      exact hordered.forall hc hc' hne

-- A part of the tree, however far down it is.
inductive HasPart : Tree → Tree → Prop
  | self (t : Tree) : HasPart t t
  | inside {t c u : Tree} (hc : c ∈ t.children) (h : HasPart c u) : HasPart t u

namespace HasPart

variable {t u v c : Tree} {text : String}

theorem child (h : t.HasPart u) (hc : c ∈ u.children) : t.HasPart c := by
  induction h with
  | self => exact .inside hc (.self c)
  | inside hc' _ ih => exact .inside hc' (ih hc)

theorem liesIn (h : t.HasPart u) (ht : t.LiesIn text) : u.LiesIn text := by
  induction h with
  | self => exact ht
  | inside hc _ ih => exact ih (ht.child hc)

theorem tokens_subset (h : t.HasPart u) : u.tokens ⊆ t.tokens := by
  induction h with
  | self => exact List.Subset.refl _
  | inside hc _ ih => exact fun s hs => mem_tokens_child hc (ih hs)

theorem nodes_subset (h : t.HasPart u) : u.nodes ⊆ t.nodes := by
  induction h with
  | self => exact List.Subset.refl _
  | inside hc _ ih => exact List.Subset.trans ih (nodes_child hc)

theorem includes (h : t.HasPart u) (ht : t.LiesIn text) : t.range.includes u.range = true := by
  induction h with
  | self => exact Text.ByteRange.includes_self
  | inside hc _ ih => exact Text.ByteRange.includes_trans (ht.includes_child hc) (ih (ht.child hc))

-- Two parts of a tree lie apart, or one of them lies in the other.
theorem laminar (ht : t.HasPart u) (hv : t.HasPart v) (h : t.LiesIn text) : u.range.Laminar v.range := by
  induction ht generalizing v with
  | self => exact .inl (hv.includes h)
  | @inside t c u hc hu ih =>
      cases hv with
      | self =>
          exact .inr (.inl (Text.ByteRange.includes_trans (h.includes_child hc) (hu.includes (h.child hc))))
      | @inside _ c' _ hc' hv =>
          by_cases hsame : c = c'
          · subst hsame
            exact ih hv (h.child hc)
          · obtain ⟨hstart, hstop⟩ := Text.ByteRange.includes_iff.mp (hu.includes (h.child hc))
            obtain ⟨hstart', hstop'⟩ := Text.ByteRange.includes_iff.mp (hv.includes (h.child hc'))
            have hapart := h.apart hc hc' hsame
            simp only [range] at hstart hstop hstart' hstop'
            simp only [Text.ByteRange.Laminar, range]
            omega

end HasPart

end Tree

namespace Syntax

theorem liesIn_parse (text : String) : (parse text).tree.LiesIn text := by
  refine ⟨"", "", text.utf8ByteSize, ?_, parse_covers text⟩
  rw [text_parse, String.empty_append, String.append_empty]

theorem range_parse (text : String) : (parse text).tree.range = ⟨0, text.utf8ByteSize⟩ := by
  have hcovers := parse_covers text
  rw [Tree.range, hcovers.start_eq, hcovers.stop_eq]

-- Every error of a parse lies on a token of the text, or behind its last one.
theorem fitsIn_errors (text : String) : ∀ e ∈ (parse text).errors, e.range.FitsIn text := by
  intro e he
  have hmarked := (grows_parse text).marked e (List.mem_reverse.mp he)
  rcases hmarked with hnone | hend | ⟨l, hl, hrange⟩
  · cases hnone
  · rw [hend]
    exact fitsIn_end text
  · have htoken : l.token ∈ Token.tokenize text := by
      rw [← left_startCursor]
      exact List.mem_map_of_mem hl
    rw [hrange]
    simpa only [Token.texts_tokenize] using (Token.tokenize_row text).fitsIn htoken

end Syntax

end SpriteScript
