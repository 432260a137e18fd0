import SpriteScript.Proofs.Simulation.Moves

-- Rows in which a run of blanks counts as one blank. The grammar sees no more of a row than that.
namespace SpriteScript

-- White space and comments, but no line feeds.
def TokenKind.isBlank : TokenKind → Bool
  | .whitespace | .lineComment => true
  | _ => false

theorem TokenKind.isBlank_iff {kind : TokenKind} :
    kind.isBlank = true ↔ kind = .whitespace ∨ kind = .lineComment := by
  cases kind <;> decide

theorem TokenKind.isTrivia_of_isBlank {kind : TokenKind} (h : kind.isBlank = true) :
    kind.isTrivia = true := by
  rcases isBlank_iff.mp h with rfl | rfl <;> rfl

namespace Syntax

def Lexeme.isBlank (l : Lexeme) : Bool := l.token.kind.isBlank

-- A lexeme without its place; all blanks look alike.
def Lexeme.plain (l : Lexeme) : Lexeme :=
  if l.isBlank then ⟨⟨.whitespace, "", 0⟩, true⟩ else { l with token := { l.token with offset := 0 } }

-- Puts one blank in the place of a run of them.
def squeeze : List Lexeme → List Lexeme
  | [] => []
  | l :: rest => if l.isBlank && rest.head?.any Lexeme.isBlank then squeeze rest else l.plain :: squeeze rest

-- Blanks are skipped.
def BlanksSkipped (rest : List Lexeme) : Prop := ∀ l ∈ rest, l.isBlank = true → l.skipped = true

section Plain

variable {l : Lexeme}

theorem Lexeme.plain_of_blank (h : l.isBlank = true) : l.plain = ⟨⟨.whitespace, "", 0⟩, true⟩ := if_pos h

theorem Lexeme.plain_of_solid (h : l.isBlank = false) :
    l.plain = { l with token := { l.token with offset := 0 } } :=
  if_neg (by simp [h])

@[simp] theorem Lexeme.isBlank_plain (l : Lexeme) : l.plain.isBlank = l.isBlank := by
  cases h : l.isBlank with
  | true => rw [plain_of_blank h]; rfl
  | false => rw [plain_of_solid h]; exact h

theorem Lexeme.skipped_plain (h : l.isBlank = true → l.skipped = true) : l.plain.skipped = l.skipped := by
  cases hblank : l.isBlank with
  | true => rw [plain_of_blank hblank, h hblank]
  | false => rw [plain_of_solid hblank]

theorem Lexeme.kind_plain (h : l.isBlank = false) : l.plain.token.kind = l.token.kind := by
  rw [plain_of_solid h]

theorem Lexeme.isTrivia_plain (l : Lexeme) : l.plain.token.kind.isTrivia = l.token.kind.isTrivia := by
  cases h : l.isBlank with
  | true => rw [plain_of_blank h, TokenKind.isTrivia_of_isBlank h]; rfl
  | false => rw [kind_plain h]

theorem Lexeme.isBlank_of_not_skipped (h : l.isBlank = true → l.skipped = true)
    (hskipped : l.skipped = false) : l.isBlank = false :=
  Bool.eq_false_iff.mpr fun hblank => by simp [h hblank] at hskipped

end Plain

section Squeeze

variable {l : Lexeme} {rest rest' : List Lexeme} {β : Type}

theorem BlanksSkipped.head (h : BlanksSkipped (l :: rest)) : l.isBlank = true → l.skipped = true :=
  h l List.mem_cons_self

theorem BlanksSkipped.tail (h : BlanksSkipped (l :: rest)) : BlanksSkipped rest :=
  fun m hm => h m (List.mem_cons_of_mem l hm)

theorem BlanksSkipped.of_suffix (h : BlanksSkipped rest) (hsuffix : rest' <:+ rest) : BlanksSkipped rest' :=
  fun l hl => h l (hsuffix.subset hl)

theorem squeeze_cons_of_solid (h : l.isBlank = false) : squeeze (l :: rest) = l.plain :: squeeze rest := by
  rw [squeeze, h]
  rfl

theorem squeeze_cons_of_blank (h : l.isBlank = true) :
    squeeze (l :: rest) = if rest.head?.any Lexeme.isBlank then squeeze rest
    else l.plain :: squeeze rest := by
  rw [squeeze, h, Bool.true_and]

theorem head?_squeeze (rest : List Lexeme) : (squeeze rest).head? = rest.head?.map Lexeme.plain := by
  induction rest with
  | nil => rfl
  | cons l rest ih =>
      unfold squeeze
      split
      case isFalse => rfl
      case isTrue h =>
        obtain ⟨hblank, hnext⟩ := Bool.and_eq_true_iff.mp h
        obtain ⟨m, hm, hblank'⟩ := (Option.any_eq_true _ _).mp hnext
        rw [ih, hm, Option.map_some, Lexeme.plain_of_blank hblank', List.head?_cons, Option.map_some,
          Lexeme.plain_of_blank hblank]

theorem head?_skipped_squeeze (h : BlanksSkipped rest) :
    (squeeze rest).head?.map (·.skipped) = rest.head?.map (·.skipped) := by
  rw [head?_squeeze]
  cases rest with
  | nil => rfl
  | cons l rest => exact congrArg some (Lexeme.skipped_plain h.head)

theorem head?_isTrivia_squeeze (rest : List Lexeme) :
    (squeeze rest).head?.map (·.token.kind.isTrivia) = rest.head?.map (·.token.kind.isTrivia) := by
  rw [head?_squeeze]
  cases rest with
  | nil => rfl
  | cons l rest => exact congrArg some l.isTrivia_plain

-- What does not depend on blanks is the same for the squeezed row.
theorem look_squeeze (look : List Lexeme → β) (hnil : look (squeeze []) = look [])
    (hblank : ∀ l rest, l.isBlank = true → l.skipped = true → look (l :: rest) = look rest)
    (hsolid : ∀ l rest, l.isBlank = false → BlanksSkipped rest → look (squeeze rest) = look rest →
      look (l.plain :: squeeze rest) = look (l :: rest))
    (h : BlanksSkipped rest) : look (squeeze rest) = look rest := by
  induction rest with
  | nil => exact hnil
  | cons l rest ih =>
      have ih := ih h.tail
      cases hl : l.isBlank with
      | false =>
          rw [squeeze_cons_of_solid hl]
          exact hsolid l rest hl h.tail ih
      | true =>
          rw [hblank l rest hl (h.head hl), ← ih, squeeze_cons_of_blank hl]
          split
          · rfl
          · exact hblank _ _ (by rw [Lexeme.isBlank_plain, hl]) (by rw [Lexeme.plain_of_blank hl])

theorem dropWhile_squeeze (h : BlanksSkipped rest) :
    (squeeze rest).dropWhile (·.skipped) = squeeze (rest.dropWhile (·.skipped)) := by
  induction rest with
  | nil => rfl
  | cons l rest ih =>
      have ih := ih h.tail
      cases hskipped : l.skipped with
      | false =>
          have hl := Lexeme.isBlank_of_not_skipped h.head hskipped
          rw [List.dropWhile_cons_of_neg (by simp [hskipped]), squeeze_cons_of_solid hl,
            List.dropWhile_cons_of_neg (by simp [Lexeme.skipped_plain h.head, hskipped])]
      | true =>
          have hplain : l.plain.skipped = true := (Lexeme.skipped_plain h.head).trans hskipped
          rw [List.dropWhile_cons_of_pos (by simp [hskipped]), ← ih, squeeze]
          split
          · rfl
          · rw [List.dropWhile_cons_of_pos (by simp [hplain])]

theorem find?_squeeze (h : BlanksSkipped rest) :
    ((squeeze rest).find? (!·.skipped)).map (·.token.kind) =
    (rest.find? (!·.skipped)).map (·.token.kind) := by
  refine look_squeeze (fun rest => (rest.find? (!·.skipped)).map (·.token.kind)) rfl ?_ ?_ h
  · intro l rest _ hskipped
    simp [hskipped]
  · intro l rest hl _ ih
    have hplain : l.plain.skipped = l.skipped := Lexeme.skipped_plain (by simp [hl])
    cases hskipped : l.skipped with
    | true => simpa [hplain, hskipped] using ih
    | false => simp [hplain, hskipped, Lexeme.kind_plain hl]

theorem kindPastParen?_squeeze (h : BlanksSkipped rest) (depth : Nat) :
    Cursor.kindPastParen? depth (squeeze rest) = Cursor.kindPastParen? depth rest := by
  refine congrFun (look_squeeze (fun rest depth => Cursor.kindPastParen? depth rest) rfl ?_ ?_ h) depth
  · intro l rest hl _
    funext depth
    rw [Cursor.kindPastParen?]
    rcases TokenKind.isBlank_iff.mp hl with hkind | hkind <;> rw [hkind]
  · intro l rest hl hrest ih
    funext depth
    have ih depth := congrFun ih depth
    rw [Cursor.kindPastParen?, Cursor.kindPastParen?, Lexeme.kind_plain hl]
    split
    · exact ih _
    · rw [find?_squeeze hrest]
      split
      · rfl
      · exact ih _
    · rfl
    · rfl
    · exact ih _

theorem headTokens_squeeze (h : BlanksSkipped rest) {kind : TokenKind} (hkind : kind.isTrivia = false)
    (depth : Int) :
    (Rules.headTokens depth (squeeze rest)).contains (kind, true) =
      (Rules.headTokens depth rest).contains (kind, true) := by
  refine congrFun (look_squeeze (fun rest depth => (Rules.headTokens depth rest).contains (kind, true))
    rfl ?_ ?_ h) depth
  · intro l rest hl _
    funext depth
    have hne : kind ≠ l.token.kind := fun heq => by
      rw [heq, TokenKind.isTrivia_of_isBlank hl] at hkind
      cases hkind
    have hcons :
        Rules.headTokens depth (l :: rest) =
        (l.token.kind, decide (depth ≤ 0)) :: Rules.headTokens depth rest := by
      rw [Rules.headTokens]
      rcases TokenKind.isBlank_iff.mp hl with hkind | hkind <;> rw [hkind]
    rw [hcons, List.contains_cons]
    simp [hne]
  · intro l rest hl hrest ih
    funext depth
    have ih depth := congrFun ih depth
    have hskipped : l.plain.skipped = l.skipped := Lexeme.skipped_plain (by simp [hl])
    rw [Rules.headTokens, Rules.headTokens, Lexeme.kind_plain hl, hskipped]
    split
    case h_6 | h_7 => split <;> simp only [List.contains_cons, ih]
    all_goals simp only [List.contains_cons, ih]

end Squeeze

end Syntax

end SpriteScript
