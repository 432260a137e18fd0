import SpriteScript.Proofs.TokenRow
import SpriteScript.Syntax.StringLiteral

-- String literals: which texts are one string with both its quotes, and what they stand for.
namespace SpriteScript

namespace Token

-- The character means itself between quotes.
def IsPlain (c : Char) : Prop := c ≠ '"' ∧ c ≠ '\\' ∧ c ≠ '\n'

-- What may stand between the quotes of a string: characters that mean themselves, and characters
-- behind a backslash. A line feed is neither.
inductive Inside : List Char → Prop where
  | nil : Inside []
  | plain {c : Char} {cs : List Char} : IsPlain c → Inside cs → Inside (c :: cs)
  | escaped {c : Char} {cs : List Char} : c ≠ '\n' → Inside cs → Inside ('\\' :: c :: cs)

variable {c : Char} {cs : List Char}

theorem inside_of_plain (h : ∀ c ∈ cs, IsPlain c) : Inside cs := by
  induction cs with
  | nil => exact .nil
  | cons c cs ih =>
      obtain ⟨hplain, hrest⟩ := List.forall_mem_cons.mp h
      exact .plain hplain (ih hrest)

theorem stringLength_quote (cs : List Char) : stringLength ('"' :: cs) = 1 := rfl

theorem stringLength_feed (cs : List Char) : stringLength ('\n' :: cs) = 0 := rfl

theorem stringLength_slash : stringLength ['\\'] = 0 := rfl

theorem stringLength_slashFeed (cs : List Char) : stringLength ('\\' :: '\n' :: cs) = 0 := rfl

theorem stringLength_cons (h : IsPlain c) : stringLength (c :: cs) = stringLength cs + 1 := by
  obtain ⟨hquote, hslash, hfeed⟩ := h
  rw [stringLength] <;> simp_all

theorem stringLength_escape (hfeed : c ≠ '\n') : stringLength ('\\' :: c :: cs) = stringLength cs + 2 := by
  rw [stringLength]
  simpa using hfeed

-- A string is over, or it goes on with a character that means itself or with one behind a backslash.
theorem string_induction {P : List Char → Prop} (quote : ∀ cs, P ('"' :: cs)) (feed : ∀ cs, P ('\n' :: cs))
    (slash : P ['\\']) (slashFeed : ∀ cs, P ('\\' :: '\n' :: cs)) (nil : P [])
    (escaped : ∀ c cs, c ≠ '\n' → P cs → P ('\\' :: c :: cs)) (plain : ∀ c cs, IsPlain c → P cs → P (c :: cs))
    (cs : List Char) : P cs := by
  induction cs using stringLength.induct with
  | case1 rest => exact quote rest
  | case2 rest => exact feed rest
  | case3 => exact slash
  | case4 rest => exact slashFeed rest
  | case5 c rest hfeed ih => exact escaped c rest hfeed ih
  | case6 c rest hquote hfeed hlast _ hpair ih =>
      have hslash : c ≠ '\\' := by
        intro hc
        cases rest with
        | nil => exact hlast hc rfl
        | cons head tail => exact hpair head tail hc rfl
      exact plain c rest ⟨hquote, hslash, hfeed⟩ ih
  | case7 => exact nil

-- How many backslashes stand at the end.
def backslashesAtEnd (cs : List Char) : Nat := (cs.reverse.takeWhile (· == '\\')).length

theorem backslashesAtEnd_le (cs : List Char) : backslashesAtEnd cs ≤ cs.length := by
  rw [← List.length_reverse]
  exact (List.takeWhile_sublist _).length_le

theorem backslashesAtEnd_cons (c : Char) (cs : List Char) : backslashesAtEnd (c :: cs) =
    if c = '\\' ∧ backslashesAtEnd cs = cs.length then cs.length + 1 else backslashesAtEnd cs := by
  unfold backslashesAtEnd
  rw [List.reverse_cons, List.takeWhile_append, List.length_reverse]
  by_cases hall : (cs.reverse.takeWhile (· == '\\')).length = cs.length
  · by_cases hc : c = '\\'
    · simp [hall, hc]
    · simp [hall, hc]
  · simp [hall]

-- A backslash and the character behind it leave the number even or odd.
theorem backslashesAtEnd_escape (c : Char) (cs : List Char) :
    backslashesAtEnd ('\\' :: c :: cs) % 2 = backslashesAtEnd cs % 2 := by
  have hle := backslashesAtEnd_le cs
  have hnext := backslashesAtEnd_cons c cs
  rw [backslashesAtEnd_cons, List.length_cons]
  by_cases hall : c = '\\' ∧ backslashesAtEnd cs = cs.length
  · rw [if_pos hall] at hnext
    rw [if_pos ⟨rfl, hnext⟩, hall.2]
    omega
  · rw [if_neg hall] at hnext
    rw [if_neg fun h => by omega, hnext]

-- Quotes around the characters make one string of them, which ends with the second quote, if they may
-- stand inside of it.
theorem inside_iff :
    Inside cs ↔ stringLength (cs ++ ['"']) = cs.length + 1 ∧ backslashesAtEnd cs % 2 = 0 := by
  constructor
  · intro h
    induction h with
    | nil => exact ⟨rfl, rfl⟩
    | plain hplain _ ih =>
        rw [List.cons_append, stringLength_cons hplain, ih.1, backslashesAtEnd_cons,
          if_neg fun h => hplain.2.1 h.1]
        exact ⟨rfl, ih.2⟩
    | escaped hfeed _ ih =>
        rw [List.cons_append, List.cons_append, stringLength_escape hfeed, ih.1, backslashesAtEnd_escape]
        exact ⟨rfl, ih.2⟩
  · rintro ⟨hlength, heven⟩
    -- along the lexer, which stops too early in all cases but the ones that `Inside` has
    induction cs using string_induction with
    | quote rest =>
        rw [List.cons_append, stringLength_quote] at hlength
        cases hlength
    | feed rest =>
        rw [List.cons_append, stringLength_feed] at hlength
        cases hlength
    | slash => cases heven
    | slashFeed rest =>
        rw [List.cons_append, List.cons_append, stringLength_slashFeed] at hlength
        cases hlength
    | nil => exact .nil
    | escaped c rest hfeed ih =>
        rw [List.cons_append, List.cons_append, stringLength_escape hfeed] at hlength
        rw [backslashesAtEnd_escape] at heven
        exact .escaped hfeed (ih (by simpa using hlength) heven)
    | plain c rest hplain ih =>
        rw [List.cons_append, stringLength_cons hplain] at hlength
        rw [backslashesAtEnd_cons, if_neg fun h => hplain.2.1 h.1] at heven
        exact .plain hplain (ih (by simpa using hlength) heven)

theorem isTerminatedString_quoted (cs : List Char) :
    isTerminatedString (String.ofList ('"' :: cs ++ ['"'])) = true ↔ backslashesAtEnd cs % 2 = 0 := by
  have hfirst : backslashesAtEnd ('"' :: cs) = backslashesAtEnd cs := by
    rw [backslashesAtEnd_cons, if_neg fun h => by cases h.1]
  have hends :
      isTerminatedString (String.ofList ('"' :: cs ++ ['"'])) = (backslashesAtEnd ('"' :: cs) % 2 == 0) := by
    unfold isTerminatedString backslashesAtEnd
    rw [String.toList_ofList, List.reverse_concat, List.reverse_cons]
    cases cs.reverse with
    | nil => rfl
    | cons last before => rfl
  rw [hends, hfirst, beq_iff_eq]

theorem scan_quote (cs : List Char) : scan '"' cs = (.str, stringLength cs) := rfl

theorem lex_eq_nil_iff {offset : Nat} : lex offset cs = [] ↔ cs = [] := by
  cases cs with
  | nil => simp [lex]
  | cons c cs => simp [lex]

-- A text that starts with a quote is one token if the string in it goes on to its end.
theorem tokenize_quote_iff {t : Token} : tokenize (String.ofList ('"' :: cs)) = [t] ↔
    cs.length ≤ stringLength cs ∧ t = ⟨.str, String.ofList ('"' :: cs), 0⟩ := by
  unfold tokenize
  rw [String.toList_ofList, lex, scan_quote]
  dsimp only
  rw [List.cons_eq_cons, lex_eq_nil_iff, List.drop_eq_nil_iff]
  constructor
  · rintro ⟨rfl, hlength⟩
    exact ⟨hlength, by rw [List.take_of_length_le hlength]⟩
  · rintro ⟨hlength, rfl⟩
    exact ⟨by rw [List.take_of_length_le hlength], hlength⟩

theorem stringLength_le (cs : List Char) : stringLength cs ≤ cs.length := by
  induction cs using string_induction with
  | quote rest => exact Nat.succ_le_succ (Nat.zero_le _)
  | escaped c rest hfeed ih =>
      rw [stringLength_escape hfeed]
      exact Nat.add_le_add_right ih 2
  | plain c rest hplain ih =>
      rw [stringLength_cons hplain]
      exact Nat.add_le_add_right ih 1
  | feed | slash | slashFeed | nil => exact Nat.zero_le _

-- What the lexer takes of a string may stand inside of it, up to the closing quote. Without one the line is
-- over, but for a last backslash.
theorem exists_inside (cs : List Char) : ∃ body, Inside body ∧ (cs.take (stringLength cs) = body ++ ['"'] ∨
    cs.take (stringLength cs) = body ∧ ∀ d ∈ (cs.drop (stringLength cs)).head?, d = '\n' ∨ d = '\\') := by
  induction cs using string_induction with
  | quote rest => exact ⟨[], .nil, .inl rfl⟩
  | feed rest => exact ⟨[], .nil, .inr ⟨rfl, by simp [stringLength_feed]⟩⟩
  | slash => exact ⟨[], .nil, .inr ⟨rfl, by simp [stringLength_slash]⟩⟩
  | slashFeed rest => exact ⟨[], .nil, .inr ⟨rfl, by simp [stringLength_slashFeed]⟩⟩
  | nil => exact ⟨[], .nil, .inr ⟨rfl, by simp⟩⟩
  | escaped c rest hfeed ih =>
      obtain ⟨body, hbody, hends⟩ := ih
      refine ⟨'\\' :: c :: body, .escaped hfeed hbody, ?_⟩
      rw [stringLength_escape hfeed, List.take_succ_cons, List.take_succ_cons, List.drop_succ_cons,
        List.drop_succ_cons, List.cons_append, List.cons_append, List.cons_inj_right,
        List.cons_inj_right, List.cons_inj_right, List.cons_inj_right]
      exact hends
  | plain c rest hplain ih =>
      obtain ⟨body, hbody, hends⟩ := ih
      refine ⟨c :: body, .plain hplain hbody, ?_⟩
      rw [stringLength_cons hplain, List.take_succ_cons, List.drop_succ_cons, List.cons_append,
        List.cons_inj_right, List.cons_inj_right]
      exact hends

-- A quote that may stand inside of a string has an odd number of backslashes before it.
theorem Inside.odd_backslashes (h : Inside (cs ++ ['"'])) : backslashesAtEnd cs % 2 = 1 := by
  generalize hwhole : cs ++ ['"'] = whole at h
  induction h generalizing cs with
  | nil => exact absurd hwhole (List.append_ne_nil_of_right_ne_nil cs (List.cons_ne_nil _ _))
  | @plain c rest hplain _ ih =>
      cases cs with
      | nil => exact absurd (List.cons.inj hwhole).1.symm hplain.1
      | cons d cs =>
          obtain ⟨rfl, hrest⟩ := List.cons.inj hwhole
          rw [backslashesAtEnd_cons, if_neg fun h => hplain.2.1 h.1]
          exact ih hrest
  | @escaped c rest _ _ ih =>
      cases cs with
      | nil => cases hwhole
      | cons d cs =>
          obtain ⟨rfl, hrest⟩ := List.cons.inj hwhole
          cases cs with
          | nil => rfl
          | cons e cs =>
              obtain ⟨rfl, rfl⟩ := List.cons.inj hrest
              rw [backslashesAtEnd_escape]
              exact ih rfl

theorem exists_of_isTerminatedString {body : List Char}
    (h : isTerminatedString (String.ofList ('"' :: body)) = true) : ∃ front, body = front ++ ['"'] := by
  unfold isTerminatedString at h
  rw [String.toList_ofList, List.reverse_cons] at h
  rcases List.eq_nil_or_concat' body with rfl | ⟨front, last, rfl⟩
  · cases h
  · rw [List.reverse_concat] at h
    split at h
    case h_1 heq => exact ⟨front, by rw [(List.cons.inj heq).1]⟩
    case h_2 => cases h

theorem text_of_str {text : String} {t : Token} (ht : t ∈ tokenize text) (hkind : t.kind = .str) :
    ∃ cs : List Char, t.text = String.ofList ('"' :: cs.take (stringLength cs)) := by
  obtain ⟨start, c, cs, rfl⟩ := exists_first ht
  obtain ⟨rfl, hlength⟩ := scan_of_str hkind
  exact ⟨cs, by rw [first, hlength]⟩

-- Whether a string has its closing quote is told by the backslashes at its end.
theorem isTerminatedString_iff {text : String} {t : Token} (ht : t ∈ tokenize text) (hkind : t.kind = .str) :
    isTerminatedString t.text = true ↔ ∃ cs, Inside cs ∧ t.text = String.ofList ('"' :: cs ++ ['"']) := by
  constructor
  · intro hends
    obtain ⟨cs, htext⟩ := text_of_str ht hkind
    rw [htext] at hends ⊢
    obtain ⟨body, hbody, htake | ⟨htake, -⟩⟩ := exists_inside cs
    · exact ⟨body, hbody, by rw [htake, List.cons_append]⟩
    · rw [htake] at hends
      obtain ⟨front, rfl⟩ := exists_of_isTerminatedString hends
      have heven := (isTerminatedString_quoted front).mp hends
      have hodd := hbody.odd_backslashes
      omega
  · rintro ⟨cs, hinside, htext⟩
    rw [htext, isTerminatedString_quoted]
    exact (inside_iff.mp hinside).2

end Token

namespace Syntax

variable {cs : List Char} {name value : String}

-- The text is one string with both its quotes, and stands for the value.
def IsLiteralOf (text value : String) : Prop :=
  ∃ t, Token.tokenize text = [t] ∧ t.kind = .str ∧ Token.isTerminatedString t.text = true ∧
    unquote? t.text = some value

theorem length_unescape_escape (c : Char) (cs : List Char) :
    (unescape ('\\' :: c :: cs)).length = (unescape cs).length + 1 := rfl

theorem unescape_cons {c : Char} (hslash : c ≠ '\\') : unescape (c :: cs) = c :: unescape cs := by
  rw [unescape] <;> simp_all

theorem length_unescape_le (cs : List Char) : (unescape cs).length ≤ cs.length := by
  induction cs using unescape.induct with
  | case1 => exact Nat.le_refl 0
  | case2 => exact Nat.le_refl 1
  | case3 c rest ih =>
      rw [length_unescape_escape]
      exact Nat.succ_le_succ (Nat.le_succ_of_le ih)
  | case4 c rest hlast hpair ih =>
      rw [unescape] <;> simp_all

-- A text is left as it is if every character in it means itself.
theorem unescape_eq_self_iff (h : Token.Inside cs) :
    unescape cs = cs ↔ ∀ c ∈ cs, Token.IsPlain c := by
  induction h with
  | nil => exact iff_of_true rfl (List.forall_mem_nil _)
  | plain hplain _ ih =>
      rw [unescape_cons hplain.2.1, List.cons_inj_right, ih, List.forall_mem_cons]
      exact (and_iff_right hplain).symm
  | @escaped c rest _ _ _ =>
      constructor
      · intro h
        have hlength := congrArg List.length h
        have hle := length_unescape_le rest
        rw [length_unescape_escape, List.length_cons, List.length_cons] at hlength
        omega
      · intro h
        exact absurd rfl (h '\\' List.mem_cons_self).2.1

theorem quoted_eq (name : String) : "\"" ++ name ++ "\"" = String.ofList ('"' :: name.toList ++ ['"']) := by
  apply String.toList_injective
  simp

theorem unquote?_quoted (h : Token.backslashesAtEnd cs % 2 = 0) :
    unquote? (String.ofList ('"' :: cs ++ ['"'])) = some (String.ofList (unescape cs)) := by
  have hopen (body : List Char) : unquote? (String.ofList ('"' :: body)) = some (String.ofList (unescape
      (if Token.isTerminatedString (String.ofList ('"' :: body)) then body.dropLast else body))) := by
    unfold unquote?
    rw [String.toList_ofList]
    rfl
  rw [List.cons_append, hopen, ← List.cons_append, if_pos ((Token.isTerminatedString_quoted cs).mpr h),
    List.dropLast_concat]

-- Quotes around a name make a string of it that stands for what is left of the name without its
-- escapes.
theorem isLiteralOf_quoted_iff : IsLiteralOf ("\"" ++ name ++ "\"") value ↔
    Token.Inside name.toList ∧ String.ofList (unescape name.toList) = value := by
  rw [quoted_eq, Token.inside_iff]
  constructor
  · rintro ⟨t, htokens, -, hends, hvalue⟩
    obtain ⟨hlength, rfl⟩ := Token.tokenize_quote_iff.mp htokens
    have heven := (Token.isTerminatedString_quoted _).mp hends
    have hle := Token.stringLength_le (name.toList ++ ['"'])
    have hlength := Nat.le_antisymm hle hlength
    rw [List.length_append] at hlength
    exact ⟨⟨hlength, heven⟩, Option.some.inj ((unquote?_quoted heven).symm.trans hvalue)⟩
  · rintro ⟨⟨hlength, heven⟩, rfl⟩
    have hcovers : (name.toList ++ ['"']).length ≤ Token.stringLength (name.toList ++ ['"']) := by
      rw [hlength, List.length_append]
      exact Nat.le_refl _
    exact ⟨_, Token.tokenize_quote_iff.mpr ⟨hcovers, rfl⟩, rfl, (Token.isTerminatedString_quoted _).mpr heven,
      unquote?_quoted heven⟩

-- They make a string that stands for the name itself if nothing in it has a meaning of its own there.
theorem isLiteralOf_quoted_self_iff (name : String) :
    IsLiteralOf ("\"" ++ name ++ "\"") name ↔ ∀ c ∈ name.toList, Token.IsPlain c := by
  rw [isLiteralOf_quoted_iff]
  constructor
  · rintro ⟨hinside, hself⟩
    refine (unescape_eq_self_iff hinside).mp (String.ofList_injective ?_)
    rw [hself, String.ofList_toList]
  · intro h
    have hinside := Token.inside_of_plain h
    exact ⟨hinside, by rw [(unescape_eq_self_iff hinside).mpr h, String.ofList_toList]⟩

-- What is written for a character inside of a string.
def escapeChar (c : Char) : List Char :=
  if c = '"' then ['\\', '"']
  else if c = '\\' then ['\\', '\\']
  else if c = '\n' then ['\\', 'n']
  else if c = '\t' then ['\\', 't']
  else if c = '\r' then ['\\', 'r']
  else if c = '\x00' then ['\\', '0']
  else [c]

def escape (cs : List Char) : List Char := cs.flatMap escapeChar

def quote (s : String) : String := String.ofList ('"' :: escape s.toList ++ ['"'])

-- It is a character that means itself, or one behind a backslash that stands for it.
theorem escapeChar_cases (c : Char) : escapeChar c = [c] ∧ Token.IsPlain c ∨
    ∃ e, escapeChar c = ['\\', e] ∧ e ≠ '\n' ∧ ∀ rest, unescape ('\\' :: e :: rest) = c :: unescape rest := by
  unfold escapeChar
  split_ifs with hquote hslash hfeed htab hreturn hzero
  · exact .inr ⟨_, rfl, by decide, fun rest => by rw [hquote]; rfl⟩
  · exact .inr ⟨_, rfl, by decide, fun rest => by rw [hslash]; rfl⟩
  · exact .inr ⟨_, rfl, by decide, fun rest => by rw [hfeed]; rfl⟩
  · exact .inr ⟨_, rfl, by decide, fun rest => by rw [htab]; rfl⟩
  · exact .inr ⟨_, rfl, by decide, fun rest => by rw [hreturn]; rfl⟩
  · exact .inr ⟨_, rfl, by decide, fun rest => by rw [hzero]; rfl⟩
  · exact .inl ⟨rfl, hquote, hslash, hfeed⟩

theorem escape_cons (c : Char) (cs : List Char) : escape (c :: cs) = escapeChar c ++ escape cs :=
  List.flatMap_cons

-- A text may stand inside of a string as it is written there, and is read back from it.
theorem inside_escape (cs : List Char) : Token.Inside (escape cs) ∧ unescape (escape cs) = cs := by
  induction cs with
  | nil => exact ⟨.nil, rfl⟩
  | cons c cs ih =>
      obtain ⟨hinside, hback⟩ := ih
      rw [escape_cons]
      rcases escapeChar_cases c with ⟨hself, hplain⟩ | ⟨e, hwritten, hfeed, hmeant⟩
      · rw [hself, List.singleton_append, unescape_cons hplain.2.1, hback]
        exact ⟨.plain hplain hinside, rfl⟩
      · rw [hwritten, List.cons_append, List.singleton_append, hmeant, hback]
        exact ⟨.escaped hfeed hinside, rfl⟩

theorem isLiteralOf_quote (s : String) : IsLiteralOf (quote s) s := by
  obtain ⟨hinside, hback⟩ := inside_escape s.toList
  have hquote : quote s = "\"" ++ String.ofList (escape s.toList) ++ "\"" := by
    rw [quoted_eq, String.toList_ofList, quote]
  rw [hquote, isLiteralOf_quoted_iff, String.toList_ofList, hback, String.ofList_toList]
  exact ⟨hinside, rfl⟩

-- Lexer, check and reader agree on strings. A string of any text has its closing quote, as the check tells
-- it, if what is between its quotes may stand there; and what is written for any text is one string with
-- both its quotes, from which the text is read back.
theorem strings_consistent :
    (∀ text : String, ∀ t ∈ Token.tokenize text, t.kind = .str →
      (Token.isTerminatedString t.text = true ↔ ∃ cs, Token.Inside cs ∧
        t.text = String.ofList ('"' :: cs ++ ['"']))) ∧
    ∀ s : String, Token.tokenize (quote s) = [⟨.str, quote s, 0⟩] ∧
      Token.isTerminatedString (quote s) = true ∧ unquote? (quote s) = some s := by
  refine ⟨fun text t => Token.isTerminatedString_iff, fun s => ?_⟩
  obtain ⟨t, htokens, -, hends, hvalue⟩ := isLiteralOf_quote s
  obtain ⟨-, rfl⟩ := Token.tokenize_quote_iff.mp htokens
  exact ⟨htokens, hends, hvalue⟩

-- A string of one escaped backslash, which has its closing quote.
theorem strings_consistent_backslash :
    (∃ t ∈ Token.tokenize "\"\\\\\"", t.kind = .str ∧ (Token.isTerminatedString t.text = true ↔
      ∃ cs, Token.Inside cs ∧ t.text = String.ofList ('"' :: cs ++ ['"']))) ∧
    Token.isTerminatedString "\"\\\\\"" = true ∧ quote "\\" = "\"\\\\\"" ∧
    Token.tokenize (quote "\\") = [⟨.str, quote "\\", 0⟩] := by
  have htokens : Token.tokenize "\"\\\\\"" = [⟨.str, "\"\\\\\"", 0⟩] :=
    (strings_consistent.2 "\\").1
  have hmem : (⟨.str, "\"\\\\\"", 0⟩ : Token) ∈ Token.tokenize "\"\\\\\"" := by
    rw [htokens]
    exact List.mem_singleton_self _
  exact ⟨⟨_, hmem, rfl, strings_consistent.1 _ _ hmem rfl⟩, by decide, by decide,
    (strings_consistent.2 "\\").1⟩

end Syntax

end SpriteScript
