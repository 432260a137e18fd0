import SpriteScript.Proofs.Text.Literals
import SpriteScript.Proofs.Text.Positions
import SpriteScript.Text.Word

-- The word before a place inside of an identifier. It reaches as far back as word characters do, which are
-- not the characters of identifiers: it is the front of the identifier if all of that is word characters,
-- and if no number and no stray character before it ends in one.
namespace SpriteScript

namespace Token

-- Numbers, and what starts no token.
def isLoose : TokenKind → Bool
  | .int | .float | .error => true
  | _ => false

theorem isWordChar_of_isSpace {c : Char} (h : isSpace c = true) : Text.isWordChar c = false := by
  simp only [isSpace, Bool.or_eq_true, beq_iff_eq] at h
  rcases h with ((rfl | rfl) | rfl) | rfl <;> decide

theorem getLast?_take_rawStringLength {cs : List Char} {n : Nat} (h : rawStringLength? cs = some n) :
    (cs.take n).getLast? = some '\x60' := by
  induction cs using rawStringLength?.induct generalizing n with
  | case1 => cases h
  | case2 rest =>
      obtain rfl := Option.some.inj h
      rfl
  | case3 c rest hquote ih =>
      rw [rawStringLength?, Option.map_eq_some_iff] at h
      · obtain ⟨m, hm, rfl⟩ := h
        rw [List.take_succ_cons, List.getLast?_cons, ih hm]
        rfl
      · exact hquote

-- Of the tokens that an identifier may follow only these end in a word character.
theorem isLoose_of_scanned {c d x : Char} {cs ds : List Char} {k : TokenKind} {n : Nat} (h : Scanned c cs k n)
    (hrest : cs.drop n = d :: ds) (hstart : Text.isIdentStart d = true)
    (hlast : (c :: cs.take n).getLast? = some x) (hword : Text.isWordChar x = true) : isLoose k = true := by
  cases h with
  | blank hspace =>
      have hblank : isSpace x = true := by
        rcases List.mem_cons.mp (List.mem_of_getLast? hlast) with rfl | hmem
        · exact hspace
        · exact of_mem_take_runLength hmem
      exact absurd hword (Bool.eq_false_iff.mp (isWordChar_of_isSpace hblank))
  | feed =>
      rw [List.take_zero, List.getLast?_singleton] at hlast
      obtain rfl := Option.some.inj hlast
      exact absurd hword (by decide)
  | word =>
      have hpart := not_of_drop_runLength hrest
      simp [Text.isIdentPart, hstart] at hpart
  | number hkind => rcases hkind with rfl | rfl <;> rfl
  | quoted =>
      obtain ⟨body, -, htake | ⟨-, hnext⟩⟩ := exists_inside cs
      · rw [htake, ← List.cons_append, List.getLast?_concat] at hlast
        obtain rfl := Option.some.inj hlast
        exact absurd hword (by decide)
      · rw [hrest] at hnext
        rcases hnext d rfl with rfl | rfl <;> exact absurd hstart (by decide)
  | raw hraw =>
      rw [List.getLast?_cons, getLast?_take_rawStringLength hraw] at hlast
      obtain rfl := Option.some.inj hlast
      exact absurd hword (by decide)
  | comment =>
      have hfeed := not_of_drop_runLength hrest
      obtain rfl := bne_eq_false_iff_eq.mp hfeed
      exact absurd hstart (by decide)
  | punct _ hother =>
      exact absurd hword (Bool.eq_false_iff.mp (hother x (List.mem_of_getLast? hlast)))
  | stray => rfl

theorem isChain_lex_isLoose (offset : Nat) (cs : List Char) : (lex offset cs).IsChain fun s t =>
    t.kind = .ident → ∀ x, s.text.toList.getLast? = some x → Text.isWordChar x = true →
    isLoose s.kind = true := by
  refine isChain_lex_of (fun start start' c cs d ds hrest hnext x hlast hword => ?_) offset cs
  rw [first, String.toList_ofList] at hlast
  exact isLoose_of_scanned (scanned c cs) hrest (scan_of_ident hnext).1 hlast hword

theorem Row.eq_of_stop_eq {start stop : Nat} {tokens : List Token} (h : Row start tokens stop) {s t : Token}
    (hs : s ∈ tokens) (ht : t ∈ tokens) (hstop : s.stop = t.stop) : s = t := by
  have hsbounds := h.bounds hs
  have htbounds := h.bounds ht
  rcases h.apart hs ht with heq | hle | hle
  · exact heq
  · omega
  · omega

theorem toList_ne_nil_of_lt {s : Token} (h : s.offset < s.stop) : s.text.toList ≠ [] := by
  intro hnil
  have hsize : s.text.utf8ByteSize = 0 := by rw [Text.LineIndex.length_eq, hnil, Text.byteLength]
  rw [stop, hsize] at h
  omega

-- What stands in a text before a token and behind it. What stands before it ends with the token that ends
-- there.
theorem exists_around {text : String} {t : Token} (ht : t ∈ tokenize text) : ∃ pre suf,
    text.toList = pre ++ (t.text.toList ++ suf) ∧ t.offset = Text.byteLength pre ∧
      ∀ x, pre.getLast? = some x ↔ ∃ s ∈ tokenize text, s.stop = t.offset ∧
      s.text.toList.getLast? = some x := by
  obtain ⟨before, after, htokens⟩ := List.append_of_mem ht
  have hrow := tokenize_row text
  obtain ⟨mid, hbefore, hoffset, -, -⟩ := Row.append_iff.mp (htokens ▸ hrow)
  have htext : text = texts before ++ (t.text ++ texts after) := by
    rw [← texts_cons, ← texts_append, ← htokens, texts_tokenize]
  refine ⟨(texts before).toList, (texts after).toList, ?_, ?_, fun x => ?_⟩
  · rw [← String.toList_append, ← String.toList_append, ← htext]
  · rw [hoffset, hbefore.stop_eq, Nat.zero_add, Text.LineIndex.length_eq]
  rcases List.eq_nil_or_concat' before with rfl | ⟨front, s, rfl⟩
  · refine iff_of_false nofun ?_
    rintro ⟨s, hs, hstop, -⟩
    have hbounds := hrow.bounds hs
    obtain rfl : 0 = mid := hbefore
    omega
  · obtain ⟨_, _, hsoffset, hpos, hsstop⟩ := Row.append_iff.mp hbefore
    have hmem : s ∈ tokenize text := by simp [htokens]
    have hstop : s.stop = t.offset := Eq.trans hsstop hoffset.symm
    have hne := toList_ne_nil_of_lt (hsoffset ▸ hpos)
    have hlast : (texts (front ++ [s])).toList.getLast? = s.text.toList.getLast? := by
      rw [texts_append, texts_cons, texts_nil, String.append_empty, String.toList_append,
        List.getLast?_append_of_ne_nil _ hne]
    rw [hlast]
    constructor
    · intro hx
      exact ⟨s, hmem, hstop, hx⟩
    · rintro ⟨s', hs', hstop', hx⟩
      rwa [hrow.eq_of_stop_eq hmem hs' (hstop.trans hstop'.symm)]

end Token

namespace Text

theorem isWordChar_of_isIdentPart {c : Char} (hascii : isAscii c = true) (h : isIdentPart c = true) :
    isWordChar c = true := by
  simp only [isIdentPart, isIdentStart, isLetter, isNumber, hascii, if_true, Bool.or_eq_true, beq_iff_eq] at h
  simp only [isWordChar, hascii, if_true, Char.isAlphanum, Bool.or_eq_true, beq_iff_eq]
  tauto

theorem splitAtByte_byteLength (pre suf : List Char) :
    splitAtByte (pre ++ suf) (byteLength pre) = (pre, suf) := by
  induction pre with
  | nil =>
      cases suf with
      | nil => rfl
      | cons c cs =>
          rw [List.nil_append, byteLength, splitAtByte, if_neg (Nat.not_le.mpr c.utf8Size_pos)]
  | cons c cs ih =>
      rw [List.cons_append, byteLength, splitAtByte, if_pos (Nat.le_add_right _ _),
        Nat.add_sub_cancel_left, ih]

theorem takeWhile_append_eq_left_iff {p : Char → Bool} {xs ys : List Char} :
    (xs ++ ys).takeWhile p = xs ↔ (∀ c ∈ xs, p c = true) ∧ ∀ c, ys.head? = some c → p c = false := by
  induction xs with
  | nil =>
      cases ys with
      | nil => simp
      | cons c cs => simp [List.takeWhile_cons]
  | cons x xs ih =>
      rw [List.cons_append, List.takeWhile_cons, List.forall_mem_cons]
      cases hx : p x with
      | true => simp [ih]
      | false => simp

section Prefixes

variable {xs ys zs : List Char}

theorem byteLength_mono (h : xs <+: ys) : byteLength xs ≤ byteLength ys := by
  obtain ⟨more, rfl⟩ := h
  rw [byteLength_append]
  exact Nat.le_add_right _ _

theorem eq_of_prefix_of_byteLength_le (h : xs <+: ys) (hle : byteLength ys ≤ byteLength xs) : xs = ys := by
  obtain ⟨more, rfl⟩ := h
  cases more with
  | nil => exact (List.append_nil xs).symm
  | cons c cs =>
      have := Token.byteLength_pos c cs
      rw [byteLength_append] at hle
      omega

-- Of two first parts of one list the one with fewer bytes is the first part of the other.
theorem prefix_of_byteLength_le (hx : xs <+: zs) (hy : ys <+: zs)
    (hle : byteLength xs ≤ byteLength ys) : xs <+: ys := by
  rcases List.prefix_or_prefix_of_prefix hx hy with h | h
  · exact h
  · obtain rfl := eq_of_prefix_of_byteLength_le h hle
    exact List.prefix_rfl

theorem eq_of_prefix_of_byteLength_eq (hx : xs <+: zs) (hy : ys <+: zs)
    (heq : byteLength xs = byteLength ys) : xs = ys :=
  eq_of_prefix_of_byteLength_le (prefix_of_byteLength_le hx hy heq.le) heq.ge

end Prefixes

-- The word that ends with a first part of a text is the second of two parts that this has.
theorem wordRangeBefore_eq_iff (pre front suf : List Char) :
    wordRangeBefore (pre ++ (front ++ suf)) (byteLength (pre ++ front)) =
      ⟨byteLength pre, byteLength (pre ++ front)⟩ ↔
      (∀ c ∈ front, isWordChar c = true) ∧ ∀ c, pre.getLast? = some c → isWordChar c = false := by
  let word := (pre ++ front).reverse.takeWhile isWordChar
  have hword : word <+: (pre ++ front).reverse := List.takeWhile_prefix _
  have hfront : front.reverse <+: (pre ++ front).reverse :=
    List.reverse_prefix.mpr (List.suffix_append pre front)
  have hrange : wordRangeBefore (pre ++ (front ++ suf)) (byteLength (pre ++ front)) =
      ⟨byteLength (pre ++ front) - byteLength word, byteLength (pre ++ front)⟩ := by
    rw [← List.append_assoc, wordRangeBefore, splitAtByte_byteLength]
  have hstart : byteLength (pre ++ front) - byteLength word = byteLength pre ↔ word = front.reverse := by
    have hle := byteLength_mono hword
    have hbytes : byteLength word = byteLength front.reverse ↔ word = front.reverse :=
      ⟨eq_of_prefix_of_byteLength_eq hword hfront, congrArg byteLength⟩
    rw [byteLength_reverse, byteLength_append] at hle
    rw [← hbytes, byteLength_reverse, byteLength_append]
    omega
  rw [hrange, ByteRange.mk.injEq, and_iff_left rfl, hstart]
  change (pre ++ front).reverse.takeWhile isWordChar = front.reverse ↔ _
  rw [List.reverse_append, takeWhile_append_eq_left_iff, List.head?_reverse]
  simp only [List.mem_reverse]

end Text

namespace Token

-- Inside of an identifier the word before a place is the front of the identifier, if that is made of word
-- characters and no number and no stray character that ends in one stands before it.
theorem wordRangeBefore_of_ident {text : String} {t : Token} {o : Nat} (ht : t ∈ tokenize text)
    (hkind : t.kind = .ident) (ho : String.Pos.Raw.IsValid text ⟨o⟩) (hstart : t.offset < o)
    (hstop : o ≤ t.stop) :
    Text.wordRangeBefore text.toList o = ⟨t.offset, o⟩ ↔
      (∀ c ∈ (Text.splitAtByte t.text.toList (o - t.offset)).1, Text.isWordChar c = true) ∧
      ∀ s ∈ tokenize text, s.stop = t.offset → isLoose s.kind = true →
        ∀ c, s.text.toList.getLast? = some c → Text.isWordChar c = false := by
  obtain ⟨pre, suf, htext, hoffset, hbefore⟩ := exists_around ht
  obtain ⟨whole, rest, hwhole, rfl⟩ := Text.LineIndex.isValid_iff.mp ho
  have hend : t.stop = Text.byteLength (pre ++ t.text.toList) := by
    rw [Token.stop, hoffset, Text.LineIndex.length_eq, Text.byteLength_append]
  -- the place is behind what stands before the identifier, and at its end or before it
  have hpre : pre <+: text.toList := ⟨_, htext.symm⟩
  have hupto : whole <+: text.toList := ⟨_, hwhole.symm⟩
  have hname : pre ++ t.text.toList <+: text.toList := ⟨suf, by rw [htext, List.append_assoc]⟩
  obtain ⟨front, rfl⟩ := Text.prefix_of_byteLength_le hpre hupto (hoffset ▸ hstart.le)
  obtain ⟨back, hback⟩ := Text.prefix_of_byteLength_le hupto hname (hend ▸ hstop)
  rw [List.append_assoc, List.append_cancel_left_eq] at hback
  have hfront : (Text.splitAtByte t.text.toList (Text.byteLength (pre ++ front) - t.offset)).1 = front := by
    rw [hoffset, Text.byteLength_append, Nat.add_sub_cancel_left, ← hback, Text.splitAtByte_byteLength]
  rw [hfront, hoffset, hwhole, List.append_assoc, Text.wordRangeBefore_eq_iff]
  refine and_congr_right fun _ => ?_
  constructor
  · intro h s hs hnext _ c hc
    exact h c ((hbefore c).mpr ⟨s, hs, hnext.trans hoffset.symm, hc⟩)
  · intro h c hc
    obtain ⟨s, hs, hnext, hlast⟩ := (hbefore c).mp hc
    by_contra hword
    have hloose :=
      rel_of_stop_eq (isChain_lex_isLoose 0 text.toList) hs ht hnext hkind c hlast (by simpa using hword)
    exact hword (h s hs (hnext.trans hoffset) hloose c hlast)

theorem isIdentPart_of_ident {text : String} {t : Token} (ht : t ∈ tokenize text) (hkind : t.kind = .ident) :
    ∀ c ∈ t.text.toList, Text.isIdentPart c = true := by
  obtain ⟨start, c, cs, rfl⟩ := exists_first ht
  obtain ⟨hstart, hlength⟩ := scan_of_ident hkind
  rw [first, String.toList_ofList, hlength, List.forall_mem_cons]
  exact ⟨by simp [Text.isIdentPart, hstart], fun x => of_mem_take_runLength⟩

-- The digit of `1a` is a number, and part of the word.
example : Text.wordRangeBefore "1a".toList 2 = ⟨0, 2⟩ := by decide

-- For identifiers of ASCII characters only what stands before them matters.
theorem wordRangeBefore_of_ascii {text : String} {t : Token} {o : Nat} (ht : t ∈ tokenize text)
    (hkind : t.kind = .ident) (hascii : ∀ c ∈ t.text.toList, Text.isAscii c = true)
    (hbefore : ∀ s ∈ tokenize text, s.stop = t.offset → isLoose s.kind = false)
    (ho : String.Pos.Raw.IsValid text ⟨o⟩) (hstart : t.offset < o) (hstop : o ≤ t.stop) :
    Text.wordRangeBefore text.toList o = ⟨t.offset, o⟩ := by
  refine (wordRangeBefore_of_ident ht hkind ho hstart hstop).mpr ⟨fun c hc => ?_, fun s hs hnext hloose => ?_⟩
  · have hmem : c ∈ t.text.toList := by
      rw [← Text.splitAtByte_append t.text.toList (o - t.offset)]
      exact List.mem_append_left _ hc
    exact Text.isWordChar_of_isIdentPart (hascii c hmem) (isIdentPart_of_ident ht hkind c hmem)
  · exact absurd hloose (Bool.eq_false_iff.mp (hbefore s hs hnext))

end Token

end SpriteScript
