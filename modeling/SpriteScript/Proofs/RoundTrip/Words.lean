import SpriteScript.Proofs.RoundTrip.Expr
import SpriteScript.Proofs.TokenRow

-- Words that stand in a text with a blank between two are the tokens of the text, apart from
-- the blanks.
namespace SpriteScript.RoundTrip

-- What may stand behind a word: nothing, or a blank.
def Parted : List Char → Prop
  | [] => True
  | c :: _ => c = ' '

-- Where nothing or a blank follows, the word is taken as a whole.
structure Scans (w : Word) (c : Char) (cs : List Char) : Prop where
  text_eq : w.text.toList = c :: cs
  solid : w.kind.isTrivia = false
  noSpace : Token.isSpace c = false
  scan_eq : ∀ rest, Parted rest → Token.scan c (cs ++ rest) = (w.kind, cs.length)

def Scannable (w : Word) : Prop := ∃ c cs, Scans w c cs

theorem runLength_append {p : Char → Bool} {cs rest : List Char} (hcs : ∀ c ∈ cs, p c = true)
    (hrest : Parted rest) (hblank : p ' ' = false) :
    Token.runLength p (cs ++ rest) = cs.length := by
  induction cs with
  | nil =>
      cases rest with
      | nil => rfl
      | cons c rest =>
          obtain rfl : c = ' ' := hrest
          simp [Token.runLength, hblank]
  | cons c cs ih =>
      simp only [List.mem_cons, forall_eq_or_imp] at hcs
      simp [Token.runLength, hcs.1, ih hcs.2]

theorem isIdentPart_blank : Text.isIdentPart ' ' = false := by decide +kernel

-- The characters that are told from letters before a word is looked for.
theorem isSpace_of_isIdentStart {c : Char} (h : Text.isIdentStart c = true) :
    Token.isSpace c = false ∧ (c == '\n') = false := by
  constructor
  · refine Bool.eq_false_iff.mpr fun hspace => ?_
    simp only [Token.isSpace, Bool.or_eq_true, beq_iff_eq] at hspace
    rcases hspace with ((rfl | rfl) | rfl) | rfl <;> exact absurd h (by decide +kernel)
  · refine beq_false_of_ne ?_
    rintro rfl
    exact absurd h (by decide +kernel)

theorem scannable_ident (x : Ident) : Scannable ⟨.ident, x.text⟩ := by
  obtain ⟨hspace, hnewline⟩ := isSpace_of_isIdentStart x.isIdentStart
  refine ⟨x.first, x.others, x.text_eq, rfl, hspace, fun rest hrest => ?_⟩
  have hpart : ∀ c ∈ x.first :: x.others, Text.isIdentPart c = true := by
    simpa [Text.isIdentPart, x.isIdentStart] using x.isIdentPart
  have hlength : Token.runLength Text.isIdentPart (x.first :: (x.others ++ rest)) =
      (x.first :: x.others).length :=
    runLength_append hpart hrest isIdentPart_blank
  have hword : String.ofList (x.first :: x.others) = x.text := by
    rw [← x.text_eq, String.ofList_toList]
  simp [Token.scan, hspace, hnewline, x.isIdentStart, Token.scanWord, hlength, hword,
    x.isNoKeyword]

theorem isDigit_cases {c : Char} (h : c.isDigit = true) : c.toNat ∈ List.range' 48 10 := by
  simp only [Char.isDigit, Bool.and_eq_true, decide_eq_true_eq] at h
  have hlow : 48 ≤ c.toNat := h.1
  have hhigh : c.toNat ≤ 57 := h.2
  simp only [List.mem_range'_1]
  omega

-- A digit is neither blank nor letter, and no number goes on behind a blank.
theorem not_isIdentStart_of_isDigit {c : Char} (h : c.isDigit = true) :
    Token.isSpace c = false ∧ (c == '\n') = false ∧ Text.isIdentStart c = false := by
  obtain ⟨n, hn, rfl⟩ : ∃ n ∈ List.range' 48 10, c = Char.ofNat n :=
    ⟨c.toNat, isDigit_cases h, (Char.ofNat_toNat c).symm⟩
  revert n
  decide +kernel

theorem hexLength_digits {c : Char} {cs rest : List Char}
    (hcs : ∀ d ∈ cs, d.isDigit = true) (hrest : Parted rest) :
    Token.hexLength (c :: (cs ++ rest)) = 0 := by
  unfold Token.hexLength
  split
  case h_1 x more heq =>
    have hx : (x == 'x' || x == 'X') = false := by
      cases cs with
      | nil =>
          simp only [List.nil_append, List.cons.injEq] at heq
          rw [heq.2] at hrest
          obtain rfl : x = ' ' := hrest
          rfl
      | cons d cs =>
          simp only [List.cons_append, List.cons.injEq] at heq
          have hdigit : x.isDigit = true := heq.2.1 ▸ hcs d List.mem_cons_self
          rw [Bool.or_eq_false_iff]
          constructor <;> refine beq_false_of_ne ?_ <;> rintro rfl <;> exact absurd hdigit (by decide)
    simp [hx]
  case h_2 => rfl

theorem scannable_digits (n : Digits) : Scannable ⟨.int, n.text⟩ := by
  obtain ⟨c, cs, htext⟩ := List.exists_cons_of_ne_nil n.ne_nil
  have hdigits : ∀ d ∈ c :: cs, d.isDigit = true := htext ▸ n.isDigit
  have hc : c.isDigit = true := hdigits c List.mem_cons_self
  obtain ⟨hspace, hnewline, hstart⟩ := not_isIdentStart_of_isDigit hc
  refine ⟨c, cs, htext, rfl, hspace, fun rest hrest => ?_⟩
  have hhex := hexLength_digits (c := c) (fun d hd => hdigits d (List.mem_cons_of_mem c hd)) hrest
  have hlength : Token.runLength Char.isDigit (c :: (cs ++ rest)) = (c :: cs).length :=
    runLength_append hdigits hrest (by decide)
  have hdrop : (c :: (cs ++ rest)).drop (c :: cs).length = rest := by
    rw [← List.cons_append, List.drop_left]
  have hnumber : Token.scanNumber (c :: (cs ++ rest)) = (.int, cs.length + 1) := by
    rw [Token.scanNumber, hhex]
    simp only [hlength, hdrop]
    cases rest with
    | nil => rfl
    | cons d rest =>
        obtain rfl : d = ' ' := hrest
        rfl
  simp [Token.scan, hspace, hnewline, hstart, hc, hnumber]

-- A sign behind which nothing or a blank stands.
theorem scannable_sign {w : Word} {c : Char} {cs : List Char} (htext : w.text.toList = c :: cs)
    (hsolid : w.kind.isTrivia = false) (hspace : Token.isSpace c = false)
    (hend : Token.scan c cs = (w.kind, cs.length))
    (hblank : ∀ rest, Token.scan c (cs ++ ' ' :: rest) = (w.kind, cs.length)) : Scannable w := by
  refine ⟨c, cs, htext, hsolid, hspace, fun rest hrest => ?_⟩
  cases rest with
  | nil => rwa [List.append_nil]
  | cons d rest =>
      obtain rfl : d = ' ' := hrest
      exact hblank rest

theorem scannable_unary (op : UnaryOp) : Scannable op.word := by
  cases op <;> exact scannable_sign rfl rfl rfl rfl fun _ => rfl

theorem scannable_binary (op : BinaryOp) : Scannable op.word := by
  cases op <;> exact scannable_sign rfl rfl rfl rfl fun _ => rfl

theorem scannable_lParen : Scannable ⟨.lParen, "("⟩ := scannable_sign rfl rfl rfl rfl fun _ => rfl

theorem scannable_rParen : Scannable ⟨.rParen, ")"⟩ := scannable_sign rfl rfl rfl rfl fun _ => rfl

theorem scannable_lBracket : Scannable ⟨.lBracket, "["⟩ :=
  scannable_sign rfl rfl rfl rfl fun _ => rfl

theorem scannable_rBracket : Scannable ⟨.rBracket, "]"⟩ :=
  scannable_sign rfl rfl rfl rfl fun _ => rfl

theorem scannable_dot : Scannable ⟨.dot, "."⟩ := scannable_sign rfl rfl rfl rfl fun _ => rfl

theorem scannable_comma : Scannable ⟨.comma, ","⟩ := scannable_sign rfl rfl rfl rfl fun _ => rfl

theorem scannable_eq : Scannable ⟨.eq, "="⟩ := scannable_sign rfl rfl rfl rfl fun _ => rfl

-- The characters of words with blanks between them.
def spaced : List Word → List Char
  | [] => []
  | w :: rest => w.text.toList ++ more rest
where
  more : List Word → List Char
    | [] => []
    | w :: rest => ' ' :: (w.text.toList ++ more rest)

theorem parted_more (ws : List Word) : Parted (spaced.more ws) := by
  cases ws with
  | nil => trivial
  | cons => rfl

theorem toList_intercalate (ws : List Word) :
    (" ".intercalate (ws.map (·.text))).toList = spaced ws := by
  cases ws with
  | nil => simp [spaced]
  | cons w ws =>
      induction ws generalizing w with
      | nil => simp [spaced, spaced.more]
      | cons v ws ih =>
          simp only [List.map_cons, spaced, spaced.more] at ih ⊢
          simp [ih]

-- The words of tokens, blanks and comments left out.
def wordsOf (tokens : List Token) : List Word :=
  (tokens.filter (!·.kind.isTrivia)).map Token.word

theorem wordsOf_blank {t : Token} (h : t.kind.isTrivia = true) (rest : List Token) :
    wordsOf (t :: rest) = wordsOf rest := by
  simp [wordsOf, h]

theorem wordsOf_solid {t : Token} (h : t.kind.isTrivia = false) (rest : List Token) :
    wordsOf (t :: rest) = t.word :: wordsOf rest := by
  simp [wordsOf, h]

theorem lex_word {w : Word} {c : Char} {cs rest : List Char} (h : Scans w c cs)
    (hrest : Parted rest) (offset : Nat) :
    Token.lex offset (w.text.toList ++ rest) = ⟨w.kind, w.text, offset⟩ ::
      Token.lex (offset + Text.byteLength w.text.toList) rest := by
  have htext : String.ofList (c :: cs) = w.text := by rw [← h.text_eq, String.ofList_toList]
  rw [h.text_eq, List.cons_append, Token.lex, h.scan_eq rest hrest]
  simp [htext]

theorem lex_blank {w : Word} (h : Scannable w) (offset : Nat) (rest : List Char) :
    Token.lex offset (' ' :: (w.text.toList ++ rest)) = ⟨.whitespace, " ", offset⟩ ::
      Token.lex (offset + 1) (w.text.toList ++ rest) := by
  obtain ⟨c, cs, hscans⟩ := h
  have hscan : Token.scan ' ' (w.text.toList ++ rest) = (.whitespace, 0) := by
    simp [hscans.text_eq, Token.scan, Token.runLength, hscans.noSpace,
      show Token.isSpace ' ' = true from rfl]
  rw [Token.lex, hscan]
  rfl

-- What the lexer makes of words with blanks between them: the words, and no line feed.
theorem lex_spaced {w : Word} {ws : List Word} (hw : Scannable w) (hws : ∀ v ∈ ws, Scannable v)
    (offset : Nat) :
    wordsOf (Token.lex offset (spaced (w :: ws))) = w :: ws ∧
      ∀ t ∈ Token.lex offset (spaced (w :: ws)), t.kind ≠ .newline := by
  obtain ⟨c, cs, hscans⟩ := hw
  have hline : w.kind ≠ .newline := by
    intro hkind
    simpa [hkind, TokenKind.isTrivia] using hscans.solid
  rw [spaced, lex_word hscans (parted_more ws), wordsOf_solid hscans.solid]
  generalize offset + Text.byteLength w.text.toList = next
  cases ws with
  | nil => simp [spaced.more, Token.lex, wordsOf, Token.word, hline]
  | cons v ws =>
      simp only [List.mem_cons, forall_eq_or_imp] at hws
      obtain ⟨hwords, hlines⟩ := lex_spaced hws.1 hws.2 (next + 1)
      rw [spaced] at hwords hlines
      rw [spaced.more, lex_blank hws.1, wordsOf_blank rfl, hwords]
      exact ⟨rfl, by simpa [hline] using hlines⟩

-- Every word of an expression can be read back.
theorem IsPart.scannable {w : Word} (h : IsPart w) : Scannable w := by
  cases h with
  | ident x => exact scannable_ident x
  | digits n => exact scannable_digits n
  | unary op => exact scannable_unary op
  | binary op => exact scannable_binary op
  | lParen => exact scannable_lParen
  | rParen => exact scannable_rParen
  | lBracket => exact scannable_lBracket
  | rBracket => exact scannable_rBracket
  | dot => exact scannable_dot
  | comma => exact scannable_comma

end SpriteScript.RoundTrip
