import Mathlib.Data.List.Chain
import SpriteScript.Token.Lexer

-- Tokens that stand in a text one behind the other, how the lexer takes them, and which of them may touch.
namespace SpriteScript.Token

-- The tokens fill the bytes from `start` to `stop`, and none of them is empty.
def Row (start : Nat) : List Token → Nat → Prop
  | [], stop => start = stop
  | t :: rest, stop => t.offset = start ∧ start < t.stop ∧ Row t.stop rest stop

def texts (tokens : List Token) : String := String.join (tokens.map (·.text))

@[simp] theorem texts_nil : texts [] = "" := rfl

@[simp] theorem texts_cons (t : Token) (rest : List Token) :
    texts (t :: rest) = t.text ++ texts rest := by
  simp [texts]

@[simp] theorem texts_append (xs ys : List Token) : texts (xs ++ ys) = texts xs ++ texts ys := by
  simp [texts]

namespace Row

theorem append_iff {start stop : Nat} {xs ys : List Token} :
    Row start (xs ++ ys) stop ↔ ∃ mid, Row start xs mid ∧ Row mid ys stop := by
  induction xs generalizing start with
  | nil => simp [Row]
  | cons t xs ih => simp [Row, ih, and_assoc]

-- The end is the start and the lengths of all texts.
theorem stop_eq {start stop : Nat} {tokens : List Token} (h : Row start tokens stop) :
    stop = start + (texts tokens).utf8ByteSize := by
  induction tokens generalizing start with
  | nil => simpa [Row] using h.symm
  | cons t rest ih =>
      obtain ⟨rfl, -, hrest⟩ := h
      rw [ih hrest, texts_cons, String.utf8ByteSize_append, Token.stop, Nat.add_assoc]

theorem le {start stop : Nat} {tokens : List Token} (h : Row start tokens stop) : start ≤ stop := by
  rw [h.stop_eq]
  exact Nat.le_add_right _ _

theorem length_le {start stop : Nat} {tokens : List Token} (h : Row start tokens stop) :
    start + tokens.length ≤ stop := by
  induction tokens generalizing start with
  | nil => exact Nat.le_of_eq h
  | cons t rest ih =>
      have hrest := ih h.2.2
      have hpos := h.2.1
      simp only [List.length_cons]
      omega

-- A row that ends where it starts has no tokens.
theorem eq_nil {start : Nat} {tokens : List Token} (h : Row start tokens start) : tokens = [] := by
  have := h.length_le
  exact List.length_eq_zero_iff.mp (by omega)

end Row

theorem utf8ByteSize_ofList (cs : List Char) :
    (String.ofList cs).utf8ByteSize = Text.byteLength cs := by
  induction cs with
  | nil => simp [Text.byteLength]
  | cons c cs ih =>
      rw [← List.singleton_append, String.ofList_append, String.utf8ByteSize_append, ih,
        ← String.singleton_eq_ofList, String.utf8ByteSize_singleton]
      rfl

theorem byteLength_pos (c : Char) (cs : List Char) : 0 < Text.byteLength (c :: cs) := by
  simp only [Text.byteLength]
  have := c.utf8Size_pos
  omega

-- The lexer cuts the text into a row of tokens; nothing is left out and nothing is added.
theorem lex_row (offset : Nat) (cs : List Char) :
    Row offset (lex offset cs) (offset + Text.byteLength cs) ∧
      texts (lex offset cs) = String.ofList cs := by
  induction offset, cs using lex.induct with
  | case1 offset => simp [lex, Row, Text.byteLength]
  | case2 offset c cs kind more hscan lexeme ih =>
      have hcut : lexeme ++ cs.drop more = c :: cs := by simp [lexeme]
      have hsize : Text.byteLength lexeme + Text.byteLength (cs.drop more) =
          Text.byteLength (c :: cs) := by
        rw [← Text.byteLength_append, hcut]
      have hpos : 0 < Text.byteLength lexeme := byteLength_pos c _
      have hlex : lex offset (c :: cs) = ⟨kind, String.ofList lexeme, offset⟩ ::
          lex (offset + Text.byteLength lexeme) (cs.drop more) := by
        rw [lex, hscan]
      rw [hlex]
      constructor
      · refine ⟨rfl, ?_, ?_⟩
        · simpa [Token.stop, utf8ByteSize_ofList] using hpos
        · simpa [Token.stop, utf8ByteSize_ofList, ← hsize, Nat.add_assoc] using ih.1
      · rw [texts_cons, ih.2, ← String.ofList_append, hcut]

theorem tokenize_row (text : String) : Row 0 (tokenize text) text.utf8ByteSize := by
  have h := (lex_row 0 text.toList).1
  rwa [Nat.zero_add, ← utf8ByteSize_ofList, String.ofList_toList] at h

theorem texts_tokenize (text : String) : texts (tokenize text) = text := by
  rw [tokenize, (lex_row 0 text.toList).2, String.ofList_toList]

-- Ways to take a token

theorem not_of_drop_runLength {p : Char → Bool} {cs rest : List Char} {c : Char}
    (h : cs.drop (runLength p cs) = c :: rest) : p c = false := by
  induction cs with
  | nil => cases h
  | cons d cs ih =>
      unfold runLength at h
      split at h
      case isTrue => exact ih h
      case isFalse hd =>
          obtain ⟨rfl, -⟩ := List.cons.inj h
          exact Bool.eq_false_iff.mpr hd

theorem of_mem_take_runLength {p : Char → Bool} {cs : List Char} {x : Char}
    (h : x ∈ cs.take (runLength p cs)) : p x = true := by
  induction cs with
  | nil => cases h
  | cons c cs ih =>
      unfold runLength at h
      split at h
      case isTrue hc =>
        rcases List.mem_cons.mp h with rfl | h
        · exact hc
        · exact ih h
      case isFalse => cases h

-- The token that starts with a character and goes on with the first characters behind it.
inductive Scanned : Char → List Char → TokenKind → Nat → Prop where
  | blank {c : Char} {cs : List Char} : isSpace c = true → Scanned c cs .whitespace (runLength isSpace cs)
  | feed {cs : List Char} : Scanned '\n' cs .newline 0
  | word {c : Char} {cs : List Char} {k : TokenKind} : Text.isIdentStart c = true → k = .ident ∨
      k.isKeyword = true → Scanned c cs k (runLength Text.isIdentPart cs)
  | number {c : Char} {cs : List Char} {k : TokenKind} {n : Nat} : k = .int ∨ k = .float → Scanned c cs k n
  | quoted {cs : List Char} : Scanned '"' cs .str (stringLength cs)
  | raw {cs : List Char} {n : Nat} : rawStringLength? cs = some n → Scanned '\x60' cs .rawStr n
  | comment {cs : List Char} : Scanned '/' ('/' :: cs) .lineComment (runLength (· != '\n') cs + 1)
  | punct {c : Char} {cs : List Char} {k : TokenKind} {n : Nat} : k.isPunct = true →
      (∀ x ∈ c :: cs.take n, Text.isWordChar x = false) → Scanned c cs k n
  | stray {c : Char} {cs : List Char} {n : Nat} : Scanned c cs .error n

theorem scanNumber_kind (cs : List Char) : (scanNumber cs).1 = .int ∨ (scanNumber cs).1 = .float := by
  unfold scanNumber
  split
  · dsimp only
    split
    · exact .inr rfl
    · split
      · exact .inl rfl
      · exact .inr rfl
  · exact .inl rfl

theorem isKeyword_of_ofKeyword? {word : String} {k : TokenKind} (h : TokenKind.ofKeyword? word = some k) :
    k.isKeyword = true := by
  obtain ⟨entry, hfound, rfl⟩ := Option.map_eq_some_iff.mp h
  exact List.any_eq_true.mpr ⟨entry, List.mem_of_find?_eq_some hfound, beq_self_eq_true _⟩

theorem scanWord_kind (cs : List Char) : (scanWord cs).1 = .ident ∨ (scanWord cs).1.isKeyword = true := by
  unfold scanWord
  dsimp only
  generalize (List.head? _).all _ = isOver
  cases hkeyword : TokenKind.ofKeyword? (String.ofList (cs.take (runLength Text.isIdentPart cs))) with
  | none => exact .inl rfl
  | some k =>
      cases isOver with
      | true => exact .inr (isKeyword_of_ofKeyword? hkeyword)
      | false => exact .inl rfl

theorem scanPunct_cases (cs : List Char) : (scanPunct cs).1 = .error ∨ (scanPunct cs).1.isPunct = true ∧
    0 < (scanPunct cs).2 ∧ (cs.take (scanPunct cs).2).all (fun x => !Text.isWordChar x) = true := by
  unfold scanPunct
  split
  -- a spelling with what stands behind it, or any other text
  all_goals first
    | exact .inl rfl
    | exact .inr ⟨rfl, Nat.succ_pos _, rfl⟩

theorem scanned_punct (c : Char) (cs : List Char) :
    Scanned c cs (scanPunct (c :: cs)).1 ((scanPunct (c :: cs)).2 - 1) := by
  rcases scanPunct_cases (c :: cs) with herror | ⟨hpunct, hpos, hother⟩
  · rw [herror]
    exact .stray
  · refine .punct hpunct fun x hx => ?_
    rw [← List.take_succ_cons, Nat.sub_add_cancel hpos] at hx
    simpa using List.all_eq_true.mp hother x hx

theorem scanned (c : Char) (cs : List Char) : Scanned c cs (scan c cs).1 (scan c cs).2 := by
  unfold scan
  dsimp only
  split
  case isTrue hspace => exact .blank hspace
  case isFalse =>
  split
  case isTrue hfeed =>
    obtain rfl := beq_iff_eq.mp hfeed
    exact .feed
  case isFalse =>
  split
  case isTrue hstart =>
    have hpart : Text.isIdentPart c = true := by simp [Text.isIdentPart, hstart]
    have hlength : (scanWord (c :: cs)).2 - 1 = runLength Text.isIdentPart cs := by
      simp [scanWord, runLength, hpart]
    dsimp only
    rw [hlength]
    exact .word hstart (scanWord_kind (c :: cs))
  case isFalse =>
  split
  case isTrue => exact .number (scanNumber_kind (c :: cs))
  case isFalse =>
  split
  case isTrue hquote =>
    obtain rfl := beq_iff_eq.mp hquote
    exact .quoted
  case isFalse =>
  split
  case isTrue hquote =>
    obtain rfl := beq_iff_eq.mp hquote
    split
    case h_1 n hraw => exact .raw hraw
    case h_2 => exact .stray
  case isFalse =>
  split
  case h_1 => exact .comment
  case h_2 => exact .stray
  case h_3 d rest =>
    split
    case isTrue => exact .number (.inr rfl)
    case isFalse => exact scanned_punct _ _
  case h_4 => exact scanned_punct _ _

-- An identifier starts as identifiers do, and goes on as long as they do.
theorem scan_of_ident {c : Char} {cs : List Char} (h : (scan c cs).1 = .ident) :
    Text.isIdentStart c = true ∧ (scan c cs).2 = runLength Text.isIdentPart cs := by
  have hscanned := scanned c cs
  generalize (scan c cs).2 = n at hscanned ⊢
  rw [h] at hscanned
  cases hscanned with
  | word hstart => exact ⟨hstart, rfl⟩
  | number hkind => exact absurd hkind (by decide)
  | punct hkind => exact absurd hkind (by decide)

theorem scan_of_str {c : Char} {cs : List Char} (h : (scan c cs).1 = .str) :
    c = '"' ∧ (scan c cs).2 = stringLength cs := by
  have hscanned := scanned c cs
  generalize (scan c cs).2 = n at hscanned ⊢
  rw [h] at hscanned
  cases hscanned with
  | word _ hkind => exact absurd hkind (by decide)
  | number hkind => exact absurd hkind (by decide)
  | quoted => exact ⟨rfl, rfl⟩
  | punct hkind => exact absurd hkind (by decide)

-- Neighbours

-- The token that the lexer takes first.
def first (offset : Nat) (c : Char) (cs : List Char) : Token :=
  ⟨(scan c cs).1, String.ofList (c :: cs.take (scan c cs).2), offset⟩

theorem exists_first {offset : Nat} {cs : List Char} {t : Token} (h : t ∈ lex offset cs) :
    ∃ start c ds, t = first start c ds := by
  induction offset, cs using lex.induct with
  | case1 offset =>
      rw [lex] at h
      cases h
  | case2 offset c cs kind more hscan lexeme ih =>
      rw [lex, hscan] at h
      rcases List.mem_cons.mp h with rfl | h
      · exact ⟨offset, c, cs, by rw [first, hscan]⟩
      · exact ih h

-- Tokens next to each other are related if the first ones of two texts are that follow each other.
theorem isChain_lex_of {R : Token → Token → Prop}
    (h : ∀ offset offset' c cs d ds, cs.drop (scan c cs).2 = d :: ds →
      R (first offset c cs) (first offset' d ds))
    (offset : Nat) (cs : List Char) : (lex offset cs).IsChain R := by
  induction offset, cs using lex.induct with
  | case1 offset => simp [lex]
  | case2 offset c cs kind more hscan lexeme ih =>
      rw [lex, hscan]
      refine List.isChain_cons.mpr ⟨fun t ht => ?_, ih⟩
      have hfirst : first offset c cs = ⟨kind, String.ofList (c :: cs.take more), offset⟩ := by
        rw [first, hscan]
      cases hrest : cs.drop more with
      | nil =>
          rw [hrest, lex] at ht
          cases ht
      | cons d ds =>
          rw [hrest, lex] at ht
          obtain rfl := Option.some.inj ht
          dsimp only
          rw [← hfirst]
          exact h _ _ c cs d ds (by rw [hscan, hrest])

-- No word follows another one at once.
theorem isChain_lex (offset : Nat) (cs : List Char) :
    (lex offset cs).IsChain fun s t => ¬(s.kind = .ident ∧ t.kind = .ident) := by
  refine isChain_lex_of (fun _ _ c cs d ds hrest => ?_) offset cs
  rintro ⟨hword, hnext⟩
  rw [(scan_of_ident hword).2] at hrest
  have hpart := not_of_drop_runLength hrest
  simp [Text.isIdentPart, (scan_of_ident hnext).1] at hpart

-- Rows

theorem Row.bounds {start stop : Nat} {tokens : List Token} (h : Row start tokens stop) {s : Token}
    (hs : s ∈ tokens) : start ≤ s.offset ∧ s.offset < s.stop ∧ s.stop ≤ stop := by
  induction tokens generalizing start with
  | nil => cases hs
  | cons t rest ih =>
      obtain ⟨rfl, hpos, hrest⟩ := h
      rcases List.mem_cons.mp hs with rfl | hs
      · exact ⟨Nat.le_refl _, hpos, hrest.le⟩
      · obtain ⟨hstart, hpos', hstop⟩ := ih hrest hs
        exact ⟨by omega, hpos', hstop⟩

theorem Row.apart {start stop : Nat} {tokens : List Token} (h : Row start tokens stop) {s t : Token}
    (hs : s ∈ tokens) (ht : t ∈ tokens) : s = t ∨ s.stop ≤ t.offset ∨ t.stop ≤ s.offset := by
  obtain ⟨before, rest, rfl⟩ := List.append_of_mem hs
  obtain ⟨mid, hbefore, rfl, -, hrest⟩ := Row.append_iff.mp h
  rw [List.mem_append, List.mem_cons] at ht
  rcases ht with ht | rfl | ht
  · exact .inr (.inr (hbefore.bounds ht).2.2)
  · exact .inl rfl
  · exact .inr (.inl (hrest.bounds ht).1)

-- A token that starts where another one ends comes next.
theorem Row.adjacent {start stop : Nat} {tokens : List Token} (h : Row start tokens stop) {s t : Token}
    (hs : s ∈ tokens) (ht : t ∈ tokens) (hnext : s.stop = t.offset) : [s, t] <:+: tokens := by
  obtain ⟨before, rest, rfl⟩ := List.append_of_mem hs
  obtain ⟨mid, hbefore, rfl, hpos, hrest⟩ := Row.append_iff.mp h
  rw [List.mem_append, List.mem_cons] at ht
  rcases ht with ht | rfl | ht
  · have := hbefore.bounds ht
    omega
  · omega
  · cases rest with
    | nil => cases ht
    | cons u after =>
        obtain ⟨huoffset, hupos, hafter⟩ := hrest
        rcases List.mem_cons.mp ht with rfl | ht
        · exact ⟨before, after, by simp⟩
        · have := hafter.bounds ht
          omega

theorem rel_of_stop_eq {R : Token → Token → Prop} {text : String} (h : (tokenize text).IsChain R)
    {s t : Token} (hs : s ∈ tokenize text) (ht : t ∈ tokenize text) (hnext : s.stop = t.offset) :
    R s t := by
  obtain ⟨before, after, heq⟩ := (tokenize_row text).adjacent hs ht hnext
  rw [← heq] at h
  exact List.isChain_pair.mp h.left_of_append.right_of_append

theorem not_idents_of_stop_eq {text : String} {s t : Token} (hs : s ∈ tokenize text) (ht : t ∈ tokenize text)
    (hnext : s.stop = t.offset) : ¬(s.kind = .ident ∧ t.kind = .ident) :=
  rel_of_stop_eq (isChain_lex 0 text.toList) hs ht hnext

-- A token that a position lies in or next to is the only one, or ends there or starts there.
theorem eq_or_adjacent {text : String} {s t : Token} (hs : s ∈ tokenize text) (ht : t ∈ tokenize text)
    {offset : Nat} (hin : s.offset ≤ offset ∧ offset ≤ s.stop)
    (hin' : t.offset ≤ offset ∧ offset ≤ t.stop) :
    s = t ∨ s.stop = offset ∧ t.offset = offset ∨ t.stop = offset ∧ s.offset = offset := by
  rcases (tokenize_row text).apart hs ht with rfl | hle | hle
  · exact .inl rfl
  · exact .inr (.inl (by omega))
  · exact .inr (.inr (by omega))

end SpriteScript.Token
