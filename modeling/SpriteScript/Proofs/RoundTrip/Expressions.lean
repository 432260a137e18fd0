import SpriteScript.Proofs.Loops
import SpriteScript.Proofs.RoundTrip.Moves
import SpriteScript.Proofs.RoundTrip.Reading
import SpriteScript.Syntax.Parser

-- The grammar of expressions reads the words of an expression as that expression, when it has
-- all the parentheses it needs.
namespace SpriteScript.Syntax.Rules

open RoundTrip Grammar

-- Words among which are neither line feeds nor the arrows of lambdas.
def Plain (ws : List Word) : Prop := ∀ w ∈ ws, w.kind ≠ .newline ∧ w.kind ≠ .fatArrow

theorem plain_cons {w : Word} {ws : List Word} :
    Plain (w :: ws) ↔ (w.kind ≠ .newline ∧ w.kind ≠ .fatArrow) ∧ Plain ws :=
  List.forall_mem_cons

theorem plain_append {ws rest : List Word} : Plain (ws ++ rest) ↔ Plain ws ∧ Plain rest :=
  List.forall_mem_append

theorem plain_words (e : Expr) : Plain e.words := by
  intro w hw
  cases e.isPart_words w hw with
  | unary op => cases op <;> decide
  | binary op => cases op <;> decide
  | _ => exact ⟨TokenKind.noConfusion, TokenKind.noConfusion⟩

-- What may stand behind an operand and the operators that bind tighter than `power`.
structure Behind (power : Nat) (rest : List Word) : Prop where
  plain : Plain rest
  noPostfix : ∀ w ∈ rest.head?, w.kind ∉ [.dot, .lParen, .lBracket, .lBrace, .ellipsis]
  loose : ∀ w ∈ rest.head?, ∀ own, binaryPower? w.kind = some own → own ≤ power

namespace Behind

variable {power : Nat} {rest : List Word}

theorem mono {least : Nat} (h : Behind least rest) (hle : least ≤ power) : Behind power rest :=
  ⟨h.plain, h.noPostfix, fun w hw own hown => (h.loose w hw own hown).trans hle⟩

theorem five (h : Behind power rest) : Behind 5 rest := by
  refine ⟨h.plain, h.noPostfix, fun w _ own hown => ?_⟩
  unfold binaryPower? at hown
  split at hown <;> simp_all <;> omega

theorem nil : Behind power [] := ⟨List.forall_mem_nil _, by simp, by simp⟩

-- Signs that end an expression.
theorem sign {w : Word} (hkind : w.kind ∈ [.rParen, .rBracket, .comma, .eq]) (h : Plain rest) :
    Behind power (w :: rest) := by
  simp only [List.mem_cons, List.not_mem_nil, or_false] at hkind
  refine ⟨plain_cons.mpr ⟨?_, h⟩, ?_, ?_⟩
  · rcases hkind with hkind | hkind | hkind | hkind <;> simp [hkind]
  · rcases hkind with hkind | hkind | hkind | hkind <;> simp [hkind]
  · rcases hkind with hkind | hkind | hkind | hkind <;> simp [hkind, binaryPower?]

end Behind

theorem binaryPower?_word (op : BinaryOp) : binaryPower? op.word.kind = some op.precedence := by
  cases op <;> rfl

-- An operator of the same precedence or a looser one ends an operand.
theorem Behind.operator {power : Nat} {op : BinaryOp} {rest : List Word} (hop : op.precedence ≤ power)
    (h : Plain rest) : Behind power (op.word :: rest) := by
  refine ⟨plain_cons.mpr ⟨by cases op <;> decide, h⟩, ?_, ?_⟩
  · intro w hw
    obtain rfl : op.word = w := by simpa using hw
    cases op <;> decide
  · intro w hw own hown
    obtain rfl : op.word = w := by simpa using hw
    rw [binaryPower?_word, Option.some.injEq] at hown
    exact hown ▸ hop

-- Among trees that were added, one counts, and it is the expression.
def Gives (e : Expr) (new : List Tree) : Prop := ∃ t, solid new = [t] ∧ Reads t e

-- The action reads the expression in front of `rest`.
def Parses (a : Action Unit) (e : Expr) (rest : List Word) : Prop :=
  ∀ s : Cursor, s.Sound → s.words = e.words ++ rest → Ends a s fun _ s' => Taken s s' rest (Gives e)

-- How many selectors, calls and index expressions are chained to an operand.
def links : Expr → Nat
  | .selector b _ => links b + 1
  | .call f _ => links f + 1
  | .index b _ => links b + 1
  | _ => 0

-- How many operators follow the first operand of an expression.
def turns : Expr → Nat
  | .binary _ l _ => turns l + 1
  | _ => 0

theorem links_le (e : Expr) : links e ≤ e.words.length := by
  fun_induction links e <;> simp [Expr.words] <;> omega

theorem turns_le (e : Expr) : turns e ≤ e.words.length := by
  fun_induction turns e <;> simp [Expr.words]
  omega

-- The kinds of the words that operands without a sign start with.
def operandStart : List TokenKind := [.ident, .int, .lParen]

theorem exists_head : (e : Expr) → ∃ w ws, e.words = w :: ws ∧ w.kind ∈ operandStart ++ unaryOps
  | .name _ | .number _ | .paren _ => ⟨_, _, rfl, by simp [operandStart]⟩
  | .unary op _ => ⟨_, _, rfl, by cases op <;> decide⟩
  | .binary _ e _ | .selector e _ | .call e _ | .index e _ => by
      obtain ⟨w, ws, he, hkind⟩ := exists_head e
      exact ⟨w, _, by rw [Expr.words, he]; rfl, hkind⟩

theorem exists_head_tight : (e : Expr) → 7 ≤ e.level → e.isGrouped = true →
    ∃ w ws, e.words = w :: ws ∧ w.kind ∈ operandStart
  | .name _, _, _ | .number _, _, _ | .paren _, _, _ => ⟨_, _, rfl, by simp [operandStart]⟩
  | .unary .., h, _ => absurd h (by simp [Expr.level])
  | .binary op .., h, _ => absurd (Nat.le_trans h op.precedence_le) (by decide)
  | .selector e _, _, h => by
      simp only [Expr.isGrouped, Bool.and_eq_true, decide_eq_true_eq] at h
      obtain ⟨w, ws, he, hkind⟩ := exists_head_tight e h.1 h.2
      exact ⟨w, _, by rw [Expr.words, he]; rfl, hkind⟩
  | .call e _, _, h => by
      simp only [Expr.isGrouped, Bool.and_eq_true, decide_eq_true_eq] at h
      obtain ⟨w, ws, he, hkind⟩ := exists_head_tight e h.1.1 h.1.2
      exact ⟨w, _, by rw [Expr.words, he]; rfl, hkind⟩
  | .index e _, _, h => by
      simp only [Expr.isGrouped, Bool.and_eq_true, decide_eq_true_eq] at h
      obtain ⟨w, ws, he, hkind⟩ := exists_head_tight e h.1.1 h.1.2
      exact ⟨w, _, by rw [Expr.words, he]; rfl, hkind⟩

section Operands

variable {β : Type} {g : Rules} {s : Cursor} {rest : List Word}

theorem run_newlines (h : Plain s.words) : g.newlines.run s = ((), s) := by
  refine run_eatWhile_of_not ?_ g.fuel
  rw [Cursor.kind?_eq_words]
  cases hwords : s.words with
  | nil => rfl
  | cons w ws =>
      rw [hwords, plain_cons] at h
      simpa using h.1.1

theorem newlines_bind {f : Unit → Action β} {Q : β → Cursor → Prop} (h : Plain s.words) :
    Ends (g.newlines >>= f) s Q ↔ Ends (f ()) s Q := by
  rw [Ends, run_bind, run_newlines h, Ends]

-- A node that is the expression when its body adds the right trees.
theorem gives_node {kind : NodeKind} {body : Action Unit} {e : Expr} {Q : List Tree → Prop}
    (h : s.Sound)
    (hbody : ∀ s₁ : Cursor, s₁.Sound → s₁.rest = s₁.solids → s₁.words = s.words →
      Ends body s₁ fun _ s' => Taken s₁ s' rest Q)
    (hreads : ∀ offset children, Q children → Reads (.node kind offset children) e) :
    Ends (node kind body) s fun _ s' => Taken s s' rest (Gives e) :=
  (ends_node h hbody).imp fun _ _ htaken => htaken.mono fun _ ⟨offset, children, hnew, hQ⟩ =>
    ⟨_, hnew, hreads offset children hQ⟩

theorem parses_name {x : Ident} (hrest : Plain rest) : Parses g.primary (.name x) rest := by
  intro s hs hwords
  have hsecond : s.second? ≠ some .fatArrow := by
    rw [Cursor.second?_of_words hwords]
    cases rest with
    | nil => simp
    | cons w ws => simpa using (plain_cons.mp hrest).1.2
  refine Ends.kind?_bind.mpr (Ends.second?_bind.mpr ?_)
  rw [Cursor.kind?_of_words hwords]
  split
  case h_2 =>
    refine gives_node hs (fun s₁ hs₁ _ hsame => ends_bump hs₁ (hsame.trans hwords) rfl) ?_
    rintro offset children ⟨t, ht, hchildren⟩
    exact reads_name ht hchildren
  all_goals simp_all

theorem parses_number {n : Digits} : Parses g.primary (.number n) rest := by
  intro s hs hwords
  refine Ends.kind?_bind.mpr (Ends.second?_bind.mpr ?_)
  rw [Cursor.kind?_of_words hwords]
  exact gives_node hs (fun s₁ hs₁ _ hsame => ends_bump hs₁ (hsame.trans hwords) rfl)
    fun offset children ⟨t, ht, hchildren⟩ => reads_number ht hchildren

theorem kindPastParen?_plain (h : Plain s.words) (depth : Nat) :
    Cursor.kindPastParen? depth s.solids ≠ some .fatArrow := by
  refine Cursor.kindPastParen?_ne (fun l hl hskip => ?_) depth
  rw [Cursor.words_eq_solids] at h
  refine (h l.token.word (List.mem_map_of_mem (List.mem_filter.mpr ⟨hl, ?_⟩))).2
  simp [hskip]

theorem Parses.withLiterals {a : Action Unit} {e : Expr} (h : Parses a e rest) (allowed : Bool) :
    Parses (withLiterals allowed a) e rest :=
  fun _ hs hwords => ends_withLiterals hs fun s₁ hs₁ hsame => h s₁ hs₁ (hsame.trans hwords)

-- Line feeds around the expression are skipped, but there are none.
theorem Parses.newlines {a : Action Unit} {e : Expr} (h : Parses a e rest) (hrest : Plain rest) :
    Parses (do g.newlines; a; g.newlines) e rest := by
  intro s hs hwords
  refine (newlines_bind (hwords ▸ plain_append.mpr ⟨plain_words e, hrest⟩)).mpr ?_
  refine .bind (h s hs hwords) fun _ s₁ h₁ => ?_
  rw [Ends, run_newlines (h₁.words ▸ hrest)]
  exact h₁

theorem parses_paren {e : Expr} (hrest : Plain rest)
    (he : ∀ rest, Behind 0 rest → Parses g.expr e rest) : Parses g.primary (.paren e) rest := by
  intro s hs hwords
  have hplain : Plain s.words := hwords ▸ plain_append.mpr ⟨plain_words _, hrest⟩
  have hclose : Plain (⟨.rParen, ")"⟩ :: rest) := plain_cons.mpr ⟨by decide, hrest⟩
  have hinner := ((he _ (.sign (by decide) hrest)).newlines (g := g) hclose).withLiterals true
  refine Ends.kind?_bind.mpr (Ends.second?_bind.mpr ?_)
  rw [Cursor.kind?_of_words hwords]
  refine Ends.get_bind.mpr (.ite (fun hlambda => ?_) fun _ => ?_)
  · exact absurd (beq_iff_eq.mp hlambda) (kindPastParen?_plain hplain 0)
  refine gives_node (Q := fun new => ∃ (t t' : Token) (u : Tree),
    solid new = [.token t, u, .token t'] ∧ Reads u e) hs (fun s₁ hs₁ _ hsame => ?_) ?_
  · have hwords₁ : s₁.words = ⟨.lParen, "("⟩ :: (e.words ++ ⟨.rParen, ")"⟩ :: rest) := by
      simp [hsame, hwords, Expr.words]
    refine .bind (ends_bump hs₁ hwords₁ rfl) fun _ s₂ h₂ => ?_
    refine .bind (hinner s₂ h₂.sound h₂.words) fun _ s₃ h₃ => ?_
    refine (ends_expect h₃.sound h₃.words rfl _).imp fun _ s₄ h₄ => ?_
    refine h₂.append (h₃.append (R := fun new => ∃ (u : Tree) (t' : Token),
      solid new = [u, .token t'] ∧ Reads u e) h₄ ?_) ?_
    · rintro ts us ⟨u, hts, hu⟩ ⟨t', -, hus⟩
      exact ⟨u, t', by simp [hts, hus], hu⟩
    · rintro ts us ⟨t, -, hts⟩ ⟨u, t', hus, hu⟩
      exact ⟨t, t', u, by simp [hts, hus], hu⟩
  · rintro offset children ⟨t, t', u, hchildren, hu⟩
    exact reads_paren hu hchildren

end Operands

-- A loop that stops at once does nothing.
theorem ends_repeatWhile_stop {step : Action Bool} {n : Nat} {s : Cursor}
    {Q : Unit → Cursor → Prop} (hstep : Ends step s fun again s' => again = false ∧ s' = s)
    (hQ : Q () s) : Ends (repeatWhile n step) s Q := by
  cases n with
  | zero => exact hQ
  | succ n =>
      refine .bind hstep ?_
      rintro _ _ ⟨rfl, rfl⟩
      exact hQ

section Arguments

variable {g : Rules} {rest : List Word} {element : Action Unit}

theorem commaStep_bind {s : Cursor} {Q : Bool → Cursor → Prop} {w : Word} {ws : List Word}
    (hwords : s.words = w :: ws) (hkind : w.kind ≠ .rParen)
    (h : Ends (do
      element
      g.newlines
      if ← eat .comma then
        g.newlines
        return true
      else
        return false) s Q) : Ends (g.commaStep .rParen element) s Q := by
  obtain ⟨t, ht, -⟩ := Cursor.current?_of_words hwords
  refine Ends.isAtEnd_bind.mpr (Ends.isAt_bind.mpr ?_)
  rw [Cursor.kind?_of_words hwords, ht]
  simpa [hkind] using h

theorem ends_lastArg {e : Expr} (helement : Parses element e (⟨.rParen, ")"⟩ :: rest))
    (hrest : Plain rest) {s : Cursor} (hs : s.Sound)
    (hwords : s.words = e.words ++ ⟨.rParen, ")"⟩ :: rest) :
    Ends (g.commaStep .rParen element) s fun again s' =>
      again = false ∧ Taken s s' (⟨.rParen, ")"⟩ :: rest) (Lists · [e]) := by
  obtain ⟨w, ws, he, hkind⟩ := exists_head e
  refine commaStep_bind (by rw [hwords, he]; rfl) ?_ ?_
  · rintro hclose
    rw [hclose] at hkind
    exact absurd hkind (by decide)
  refine .bind (helement s hs hwords) fun _ s₁ h₁ => ?_
  refine (newlines_bind (h₁.words ▸ plain_cons.mpr ⟨by decide, hrest⟩)).mpr ?_
  refine .bind (ends_eat_not (by simp [Cursor.kind?_of_words h₁.words])) ?_
  rintro _ _ ⟨rfl, rfl⟩
  exact ⟨rfl, h₁.mono fun ts ⟨t, hts, ht⟩ => .one ht hts⟩

theorem ends_nextArg {e : Expr} (helement : Parses element e (⟨.comma, ","⟩ :: rest))
    (hrest : Plain rest) {s : Cursor} (hs : s.Sound)
    (hwords : s.words = e.words ++ ⟨.comma, ","⟩ :: rest) :
    Ends (g.commaStep .rParen element) s fun again s' => again = true ∧ Taken s s' rest (Lists · [e]) := by
  obtain ⟨w, ws, he, hkind⟩ := exists_head e
  refine commaStep_bind (by rw [hwords, he]; rfl) ?_ ?_
  · rintro hclose
    rw [hclose] at hkind
    exact absurd hkind (by decide)
  refine .bind (helement s hs hwords) fun _ s₁ h₁ => ?_
  refine (newlines_bind (h₁.words ▸ plain_cons.mpr ⟨by decide, hrest⟩)).mpr ?_
  refine .bind (ends_eat h₁.sound h₁.words rfl) ?_
  rintro _ s₂ ⟨rfl, h₂⟩
  refine (newlines_bind (h₂.words ▸ hrest)).mpr ⟨rfl, h₁.append h₂ ?_⟩
  rintro ts us ⟨t, hts, ht⟩ ⟨comma, hcomma, hus⟩
  have hkind : comma.kind ≠ .ellipsis := by simp [show comma.kind = .comma from congrArg Word.kind hcomma]
  exact (Lists.one ht hts).append (.token hkind hus)

theorem plain_moreWords : (args : List Expr) → Plain (Expr.words.moreWords args)
  | [] => List.forall_mem_nil _
  | e :: args => plain_cons.mpr ⟨by decide, plain_append.mpr ⟨plain_words e, plain_moreWords args⟩⟩

-- The turns for a list of arguments, of which there is one at least.
theorem ends_args (hrest : Plain rest) : (e : Expr) → (args : List Expr) → (n : Nat) →
    args.length < n →
    (∀ a ∈ e :: args, ∀ rest, Behind 0 rest → Parses element a rest) →
    (s : Cursor) → s.Sound →
    s.words = e.words ++ (Expr.words.moreWords args ++ ⟨.rParen, ")"⟩ :: rest) →
    Ends (repeatWhile n (g.commaStep .rParen element)) s fun _ s' =>
      Taken s s' (⟨.rParen, ")"⟩ :: rest) (Lists · (e :: args))
  | e, [], n + 1, _, hargs, s, hs, hwords => by
      have hclose : Behind 0 (⟨.rParen, ")"⟩ :: rest) := .sign (by decide) hrest
      have he := hargs e List.mem_cons_self _ hclose
      refine .bind (ends_lastArg he hrest hs hwords) ?_
      rintro _ s₁ ⟨rfl, h₁⟩
      exact h₁
  | e, a :: args, n + 1, hn, hargs, s, hs, hwords => by
      have hplain : Plain (a.words ++ (Expr.words.moreWords args ++ ⟨.rParen, ")"⟩ :: rest)) :=
        plain_append.mpr ⟨plain_words a, plain_append.mpr
          ⟨plain_moreWords args, plain_cons.mpr ⟨by decide, hrest⟩⟩⟩
      have hcomma : Behind 0 (⟨.comma, ","⟩ :: _) := .sign (by decide) hplain
      have he := hargs e List.mem_cons_self _ hcomma
      refine .bind (ends_nextArg he hplain hs (by simpa [Expr.words.moreWords] using hwords)) ?_
      rintro _ s₁ ⟨rfl, h₁⟩
      have hmore := ends_args hrest a args n (Nat.lt_of_succ_lt_succ hn)
        (fun b hb => hargs b (List.mem_cons_of_mem e hb)) s₁ h₁.sound h₁.words
      exact hmore.imp fun _ s₂ h₂ => h₁.append h₂ fun ts us hts hus => hts.append hus

theorem length_moreWords (args : List Expr) : args.length ≤ (Expr.words.moreWords args).length := by
  induction args with
  | nil => exact Nat.zero_le _
  | cons e args ih =>
      simp only [Expr.words.moreWords, List.length_cons, List.length_append]
      omega

theorem plain_listWords (args : List Expr) : Plain (Expr.words.listWords args) := by
  cases args with
  | nil => exact List.forall_mem_nil _
  | cons e args => exact plain_append.mpr ⟨plain_words e, plain_moreWords args⟩

theorem Parses.noSpread {a : Action Unit} {e : Expr} {power : Nat} (h : Parses a e rest)
    (hrest : Behind power rest) : Parses (do a; discard <| eat .ellipsis) e rest := by
  intro s hs hwords
  refine .bind (h s hs hwords) fun _ s₁ h₁ => ?_
  have hkind : s₁.kind? ≠ some .ellipsis := by
    rw [Cursor.kind?_eq_words, h₁.words]
    cases hhead : rest.head? with
    | none => simp
    | some w =>
        have hw := hrest.noPostfix w hhead
        intro hkind
        simp only [Option.map_some, Option.some.injEq] at hkind
        simp [hkind] at hw
  have heat : Ends (eat .ellipsis) s₁ fun _ s' => s' = s₁ :=
    (ends_eat_not hkind).imp fun _ _ hs' => hs'.2
  exact (heat.imp fun _ s' hs' => hs' ▸ h₁ : Ends (eat .ellipsis) s₁ fun _ s' => Taken s s' rest (Gives e))

theorem ends_commaList {args : List Expr} (hrest : Plain rest) (hfuel : args.length ≤ g.fuel)
    (hargs : ∀ a ∈ args, ∀ rest, Behind 0 rest → Parses element a rest) {s : Cursor} (hs : s.Sound)
    (hwords : s.words = Expr.words.listWords args ++ ⟨.rParen, ")"⟩ :: rest) :
    Ends (g.commaList .rParen element) s fun _ s' =>
      Taken s s' (⟨.rParen, ")"⟩ :: rest) (Lists · args) := by
  rw [commaList_eq]
  refine (newlines_bind ?_).mpr ?_
  · rw [hwords, plain_append]
    exact ⟨plain_listWords args, plain_cons.mpr ⟨by decide, hrest⟩⟩
  cases args with
  | nil =>
      have hnone : Ends (g.commaStep .rParen element) s fun again s' => again = false ∧ s' = s := by
        refine Ends.isAtEnd_bind.mpr (Ends.isAt_bind.mpr ?_)
        rw [Cursor.kind?_of_words hwords]
        exact .ite (fun _ => ⟨rfl, rfl⟩) fun hnot => absurd hnot (by simp)
      have htaken : Taken s s s.words (Lists · []) := .refl hs (.nil rfl)
      rw [hwords] at htaken
      exact ends_repeatWhile_stop hnone htaken
  | cons e args =>
      exact ends_args hrest e args g.fuel hfuel hargs s hs
        (by rw [hwords, Expr.words.listWords, List.append_assoc])

theorem ends_callArgs {args : List Expr} (hrest : Plain rest) (hfuel : args.length ≤ g.fuel)
    (hargs : ∀ a ∈ args, ∀ rest, Behind 0 rest → Parses g.expr a rest) {s : Cursor} (hs : s.Sound)
    (hwords : s.words = ⟨.lParen, "("⟩ :: (Expr.words.listWords args ++ ⟨.rParen, ")"⟩ :: rest)) :
    Ends g.callArgs s fun _ s' => Taken s s' rest fun new =>
      ∃ offset inner, solid new = [.node .argList offset inner] ∧ Lists inner args := by
  refine ends_node hs fun s₁ hs₁ _ hsame => ?_
  refine .bind (ends_bump hs₁ (hsame.trans hwords) rfl) fun _ s₂ h₂ => ?_
  have hlist : Ends (withLiterals true <| g.commaList .rParen do
      g.expr
      discard <| eat .ellipsis) s₂ fun _ s' =>
        Taken s₂ s' (⟨.rParen, ")"⟩ :: rest) (Lists · args) :=
    ends_withLiterals h₂.sound fun s₃ hs₃ hsame₃ => ends_commaList hrest hfuel
      (fun a ha rest hrest => (hargs a ha rest hrest).noSpread hrest) hs₃ (hsame₃.trans h₂.words)
  refine .bind hlist fun _ s₃ h₃ => ?_
  refine (ends_expect h₃.sound h₃.words rfl _).imp fun _ s₄ h₄ => ?_
  refine h₂.append (h₃.append (R := (Lists · args)) h₄ ?_) ?_
  · rintro ts us hts ⟨t, ht, hus⟩
    have hkind : t.kind ≠ .ellipsis := by simp [show t.kind = .rParen from congrArg Word.kind ht]
    simpa using hts.append (.token hkind hus)
  · rintro ts us ⟨t, ht, hts⟩ hus
    have hkind : t.kind ≠ .ellipsis := by simp [show t.kind = .lParen from congrArg Word.kind ht]
    exact (Lists.token hkind hts).append hus

end Arguments

section Postfix

variable {g : Rules} {s₀ s : Cursor} {b : Expr} {rest : List Word}

-- A node around an operand that is there already, as one turn of a loop.
theorem gives_nodeAt {kind : NodeKind} {body : Action Unit} {e : Expr} {ws : List Word}
    {Q : List Tree → Prop} (h : Taken s₀ s ws (Gives b))
    (hbody : ∀ s₁ : Cursor, s₁.Sound → s₁.words = ws →
      Ends body s₁ fun _ s' => Taken s₁ s' rest Q)
    (hreads : ∀ u offset children inner, solid children = u :: solid inner → Reads u b → Q inner →
      Reads (.node kind offset children) e) :
    Ends (do nodeAt s₀.builder.checkpoint kind body; return true) s fun again s' =>
      again = true ∧ Taken s₀ s' rest (Gives e) := by
  refine .bind (ends_nodeAt h hbody) fun _ s' htaken => ⟨rfl, htaken.mono ?_⟩
  rintro _ ⟨offset, left, inner, rfl, ⟨u, hleft, hu⟩, hinner⟩
  exact ⟨_, solid_node .., hreads u offset _ inner (by simp [hleft]) hu hinner⟩

theorem ends_selectorStep {x : Ident}
    (h : Taken s₀ s (⟨.dot, "."⟩ :: ⟨.ident, x.text⟩ :: rest) (Gives b)) :
    Ends (g.postfixStep s₀.builder.checkpoint) s fun again s' =>
      again = true ∧ Taken s₀ s' rest (Gives (.selector b x)) := by
  refine Ends.kind?_bind.mpr ?_
  rw [Cursor.kind?_of_words h.words]
  refine gives_nodeAt (Q := fun new => ∃ t t' : Token, t.kind = .dot ∧
    t'.word = ⟨.ident, x.text⟩ ∧ solid new = [.token t, .token t']) h (fun s₁ hs₁ hwords₁ => ?_) ?_
  · refine .bind (ends_bump hs₁ hwords₁ rfl) fun _ s₂ h₂ => ?_
    refine Ends.isAt_bind.mpr (.ite (fun _ => ?_) fun hnot => ?_)
    · refine (ends_bump h₂.sound h₂.words rfl).imp fun _ s₃ h₃ => h₂.append h₃ ?_
      rintro ts us ⟨t, ht, hts⟩ ⟨t', ht', hus⟩
      exact ⟨t, t', congrArg Word.kind ht, ht', by simp [hts, hus]⟩
    · exact absurd (beq_iff_eq.mpr (Cursor.kind?_of_words h₂.words)) hnot
  · rintro u offset children inner hchildren hu ⟨t, t', hdot, ht', hinner⟩
    exact reads_selector hdot ht' hu (by rw [hchildren, hinner])

theorem ends_callStep {args : List Expr} (hrest : Plain rest) (hfuel : args.length ≤ g.fuel)
    (hargs : ∀ a ∈ args, ∀ rest, Behind 0 rest → Parses g.expr a rest)
    (h : Taken s₀ s (⟨.lParen, "("⟩ :: (Expr.words.listWords args ++ ⟨.rParen, ")"⟩ :: rest))
      (Gives b)) :
    Ends (g.postfixStep s₀.builder.checkpoint) s fun again s' =>
      again = true ∧ Taken s₀ s' rest (Gives (.call b args)) := by
  refine Ends.kind?_bind.mpr ?_
  rw [Cursor.kind?_of_words h.words]
  refine gives_nodeAt h (fun s₁ hs₁ hwords₁ => ends_callArgs hrest hfuel hargs hs₁ hwords₁) ?_
  rintro u offset children inner hchildren hu ⟨place, list, hinner, hlist⟩
  exact reads_call hu (by rw [hchildren, hinner]) hlist

theorem ends_indexStep {k : Expr} (hrest : Plain rest)
    (hkey : ∀ rest, Behind 0 rest → Parses g.expr k rest)
    (h : Taken s₀ s (⟨.lBracket, "["⟩ :: (k.words ++ ⟨.rBracket, "]"⟩ :: rest)) (Gives b)) :
    Ends (g.postfixStep s₀.builder.checkpoint) s fun again s' =>
      again = true ∧ Taken s₀ s' rest (Gives (.index b k)) := by
  refine Ends.kind?_bind.mpr ?_
  rw [Cursor.kind?_of_words h.words]
  refine gives_nodeAt (Q := fun new => ∃ (t t' : Token) (v : Tree),
    solid new = [.token t, v, .token t'] ∧ Reads v k) h (fun s₁ hs₁ hwords₁ => ?_) ?_
  · have hinner := (hkey (⟨.rBracket, "]"⟩ :: rest) (.sign (by decide) hrest)).withLiterals true
    refine .bind (ends_bump hs₁ hwords₁ rfl) fun _ s₂ h₂ => ?_
    refine .bind (hinner s₂ h₂.sound h₂.words) fun _ s₃ h₃ => ?_
    refine (ends_expect h₃.sound h₃.words rfl _).imp fun _ s₄ h₄ => ?_
    refine h₂.append (h₃.append (R := fun new => ∃ (v : Tree) (t' : Token),
      solid new = [v, .token t'] ∧ Reads v k) h₄ ?_) ?_
    · rintro ts us ⟨v, hts, hv⟩ ⟨t', -, hus⟩
      exact ⟨v, t', by simp [hts, hus], hv⟩
    · rintro ts us ⟨t, -, hts⟩ ⟨v, t', hus, hv⟩
      exact ⟨t, t', v, by simp [hts, hus], hv⟩
  · rintro u offset children inner hchildren hu ⟨t, t', v, hinner, hv⟩
    exact reads_index hu hv (by rw [hchildren, hinner])

-- Nothing follows an operand that could belong to it.
theorem ends_postfixStep_stop {power first : Nat} (hrest : Behind power s.words) :
    Ends (g.postfixStep first) s fun again s' => again = false ∧ s' = s := by
  have hkind : ∀ kind ∈ s.kind?, kind ∉ [.dot, .lParen, .lBracket, .lBrace, .ellipsis] := by
    intro kind hkind
    rw [Cursor.kind?_eq_words] at hkind
    obtain ⟨w, hw, rfl⟩ := Option.map_eq_some_iff.mp hkind
    exact hrest.noPostfix w hw
  refine Ends.kind?_bind.mpr ?_
  split
  case h_5 => exact ⟨rfl, rfl⟩
  all_goals simp_all

end Postfix

theorem length_listWords (args : List Expr) : args.length ≤ (Expr.words.listWords args).length := by
  cases args with
  | nil => exact Nat.zero_le _
  | cons e args =>
      have he := List.length_pos_iff.mpr e.words_ne_nil
      have hargs := length_moreWords args
      simp only [Expr.words.listWords, List.length_cons, List.length_append]
      omega

theorem length_words_of_mem {a : Expr} {args : List Expr} (h : a ∈ args) :
    a.words.length ≤ (Expr.words.listWords args).length := by
  have hmore : ∀ more : List Expr, a ∈ more →
      a.words.length ≤ (Expr.words.moreWords more).length := by
    intro more
    induction more with
    | nil => simp
    | cons e more ih =>
        rintro (_ | ⟨_, hmem⟩) <;> simp only [Expr.words.moreWords, List.length_cons, List.length_append]
        · omega
        · have := ih hmem
          omega
  cases args with
  | nil => simp at h
  | cons e args =>
      rcases List.mem_cons.mp h with rfl | hmem <;>
        simp only [Expr.words.listWords, List.length_append]
      · omega
      · have := hmore args hmem
        omega

theorem isGrouped_of_mem {a : Expr} {args : List Expr} (h : Expr.isGrouped.areGrouped args = true)
    (ha : a ∈ args) : a.isGrouped = true := by
  induction args with
  | nil => simp at ha
  | cons e args ih =>
      simp only [Expr.isGrouped.areGrouped, Bool.and_eq_true] at h
      rcases List.mem_cons.mp ha with rfl | hmem
      · exact h.1
      · exact ih h.2 hmem

theorem gives_behindBlanks {s s₁ s' : Cursor} {ws rest : List Word} {e : Expr}
    (h : Taken s s₁ ws fun new => solid new = []) (h' : Taken s₁ s' rest (Gives e)) :
    Taken s s' rest (Gives e) :=
  h.append h' fun ts us hts ⟨u, hus, hu⟩ => ⟨u, by simp [hts, hus], hu⟩

section Rules

variable {g : Rules} {k : Nat} {rest : List Word}

-- Expressions that are short enough are read.
variable (hexpr : ∀ e : Expr, e.isGrouped = true → 2 * e.words.length ≤ k → ∀ rest, Behind 0 rest →
  Parses g.expr e rest)

include hexpr in
-- The turns for what is chained to an operand; `m` turns are left then.
theorem ends_chain (hfuel : k ≤ g.fuel) : (e : Expr) → 7 ≤ e.level → e.isGrouped = true →
    2 * e.words.length ≤ k + 2 → (m : Nat) → (rest : List Word) → Plain rest →
    (s₀ : Cursor) → s₀.Sound → s₀.words = e.words ++ rest → (Q : Unit → Cursor → Prop) →
    (∀ s, Taken s₀ s rest (Gives e) →
      Ends (repeatWhile m (g.postfixStep s₀.builder.checkpoint)) s Q) →
    Ends (do g.primary; repeatWhile (m + links e) (g.postfixStep s₀.builder.checkpoint)) s₀ Q
  | .name x, _, _, _, _, rest, hrest, s₀, hs₀, hwords, _, hQ =>
      .bind (parses_name hrest s₀ hs₀ hwords) fun _ => hQ
  | .number n, _, _, _, _, rest, _, s₀, hs₀, hwords, _, hQ =>
      .bind (parses_number s₀ hs₀ hwords) fun _ => hQ
  | .paren e, _, hgrouped, hlength, _, rest, hrest, s₀, hs₀, hwords, _, hQ => by
      have he := hexpr e hgrouped (by simp [Expr.words] at hlength; omega)
      exact .bind (parses_paren hrest he s₀ hs₀ hwords) fun _ => hQ
  | .unary .., h, _, _, _, _, _, _, _, _, _, _ => absurd h (by simp [Expr.level])
  | .binary op .., h, _, _, _, _, _, _, _, _, _, _ =>
      absurd (Nat.le_trans h op.precedence_le) (by decide)
  | .selector b x, _, hgrouped, hlength, m, rest, hrest, s₀, hs₀, hwords, Q, hQ => by
      simp only [Expr.isGrouped, Bool.and_eq_true, decide_eq_true_eq] at hgrouped
      have hplain : Plain (⟨.dot, "."⟩ :: ⟨.ident, x.text⟩ :: rest) := by
        simpa [plain_cons] using hrest
      rw [links, Nat.add_comm (links b), ← Nat.add_assoc]
      refine ends_chain hfuel b hgrouped.1 hgrouped.2 (by simp [Expr.words] at hlength; omega) (m + 1)
        _ hplain s₀ hs₀ (by simp [hwords, Expr.words]) Q fun s hs => ?_
      refine .bind (ends_selectorStep hs) ?_
      rintro _ s' ⟨rfl, hs'⟩
      exact hQ s' hs'
  | .call f args, _, hgrouped, hlength, m, rest, hrest, s₀, hs₀, hwords, Q, hQ => by
      simp only [Expr.isGrouped, Bool.and_eq_true, decide_eq_true_eq] at hgrouped
      have hplain : Plain (⟨.lParen, "("⟩ :: (Expr.words.listWords args ++ ⟨.rParen, ")"⟩ :: rest)) := by
        simpa [plain_cons, plain_append] using ⟨plain_listWords args, hrest⟩
      simp only [Expr.words, List.length_append, List.length_cons, List.length_nil] at hlength
      have hcount := length_listWords args
      have hargs : ∀ a ∈ args, ∀ rest, Behind 0 rest → Parses g.expr a rest := by
        intro a ha
        have hshort := length_words_of_mem ha
        exact hexpr a (isGrouped_of_mem hgrouped.2 ha) (by omega)
      rw [links, Nat.add_comm (links f), ← Nat.add_assoc]
      refine ends_chain hfuel f hgrouped.1.1 hgrouped.1.2 (by omega) (m + 1)
        _ hplain s₀ hs₀ (by simp [hwords, Expr.words]) Q fun s hs => ?_
      refine .bind (ends_callStep hrest (by omega) hargs hs) ?_
      rintro _ s' ⟨rfl, hs'⟩
      exact hQ s' hs'
  | .index b key, _, hgrouped, hlength, m, rest, hrest, s₀, hs₀, hwords, Q, hQ => by
      simp only [Expr.isGrouped, Bool.and_eq_true, decide_eq_true_eq] at hgrouped
      have hplain : Plain (⟨.lBracket, "["⟩ :: (key.words ++ ⟨.rBracket, "]"⟩ :: rest)) := by
        simpa [plain_cons, plain_append] using ⟨plain_words key, hrest⟩
      simp only [Expr.words, List.length_append, List.length_cons, List.length_nil] at hlength
      have hkey := hexpr key hgrouped.2 (by omega)
      rw [links, Nat.add_comm (links b), ← Nat.add_assoc]
      refine ends_chain hfuel b hgrouped.1.1 hgrouped.1.2 (by omega) (m + 1)
        _ hplain s₀ hs₀ (by simp [hwords, Expr.words]) Q fun s hs => ?_
      refine .bind (ends_indexStep hrest hkey hs) ?_
      rintro _ s' ⟨rfl, hs'⟩
      exact hQ s' hs'

include hexpr in
-- An operand without a sign, and all that is chained to it.
theorem parses_operand (hfuel : k < g.fuel) {e : Expr} (hlevel : 7 ≤ e.level)
    (hgrouped : e.isGrouped = true) (hlength : 2 * e.words.length ≤ k + 2) (hrest : Behind 5 rest) :
    Parses (do
      let first ← checkpoint
      g.primary
      g.postfixed first) e rest := by
  intro s hs hwords
  refine ends_checkpoint hs fun s₀ h₀ _ => ?_
  have hlinks := links_le e
  have hturns : g.fuel = (g.fuel - links e) + links e := by omega
  have hchain : Ends (do g.primary; g.postfixed s₀.builder.checkpoint) s₀ fun _ s' =>
      Taken s₀ s' rest (Gives e) := by
    rw [postfixed, hturns]
    refine ends_chain hexpr hfuel.le e hlevel hgrouped hlength _ rest hrest.plain s₀ h₀.sound
      (h₀.words.trans hwords) _ fun s₁ h₁ => ?_
    have hstop : Behind 5 s₁.words := h₁.words ▸ hrest
    exact ends_repeatWhile_stop (ends_postfixStep_stop hstop) h₁
  exact hchain.imp fun _ _ => gives_behindBlanks h₀

end Rules

-- A run of the rules reads every expression that is short enough: a prefix operator costs one
-- rule, and an operand in parentheses two.
structure Handles (run : Rule → Action Unit) (k : Nat) : Prop where
  unary : ∀ e : Expr, e.isGrouped = true → 6 ≤ e.level → 2 * e.words.length ≤ k + 1 →
    ∀ rest, Behind 5 rest → Parses (run .unary) e rest
  expr : ∀ (power : Nat) (e : Expr), e.isGrouped = true → power < e.level →
    2 * e.words.length ≤ k → ∀ rest, Behind power rest → Parses (run (.expr power)) e rest

section Handling

variable {g : Rules} {k : Nat} {rest : List Word}

theorem handles_unary (hg : Handles g.run k) (hfuel : k < g.fuel) {e : Expr}
    (hgrouped : e.isGrouped = true) (hlevel : 6 ≤ e.level) (hlength : 2 * e.words.length ≤ k + 2)
    (hrest : Behind 5 rest) : Parses g.unaryRule e rest := by
  intro s hs hwords
  by_cases htight : 7 ≤ e.level
  · obtain ⟨w, ws, he, hkind⟩ := exists_head_tight e htight hgrouped
    have hnot : s.kind?.any unaryOps.contains = false := by
      have hfirst : s.words = w :: (ws ++ rest) := by rw [hwords, he]; rfl
      rw [Cursor.kind?_of_words hfirst]
      simp only [operandStart, List.mem_cons, List.not_mem_nil, or_false] at hkind
      rcases hkind with hkind | hkind | hkind <;> rw [hkind] <;> rfl
    refine Ends.isAtAny_bind.mpr ?_
    rw [hnot]
    refine parses_operand (fun a ha hshort rest hrest => ?_) hfuel htight hgrouped hlength hrest s hs
      hwords
    exact hg.expr 0 a ha a.level_pos hshort rest hrest
  · cases e with
    | unary op e =>
        simp only [Expr.isGrouped, Bool.and_eq_true, decide_eq_true_eq] at hgrouped
        simp only [Expr.words, List.length_cons] at hlength
        have hoperand := hg.unary e hgrouped.2 hgrouped.1 (by omega) rest hrest
        have hat : s.kind?.any unaryOps.contains = true := by
          rw [Cursor.kind?_of_words hwords]
          cases op <;> rfl
        refine Ends.isAtAny_bind.mpr ?_
        rw [hat]
        refine gives_node (Q := fun new => ∃ (t : Token) (inner : List Tree) (u : Tree),
          new = .token t :: inner ∧ t.word = op.word ∧ solid inner = [u] ∧ Reads u e) hs
          (fun s₁ hs₁ hblanks hsame => ?_) ?_
        · have hbump := taken_bump_here hs₁ hblanks (hsame.trans hwords)
          refine (hoperand s₁.bump hbump.sound hbump.words).imp fun _ s₂ h₂ => hbump.append h₂ ?_
          rintro ts us ⟨t, ht, rfl⟩ ⟨u, hus, hu⟩
          exact ⟨t, us, u, rfl, ht, hus, hu⟩
        · rintro offset children ⟨t, inner, u, hchildren, ht, hinner, hu⟩
          exact reads_unary ht hu hchildren hinner
    | binary op =>
        have hop := op.precedence_le
        simp only [Expr.level] at hlevel
        omega
    | _ => exact absurd htight (by simp [Expr.level])

theorem ends_binaryStep {s₀ s : Cursor} {op : BinaryOp} {l r : Expr} {power : Nat}
    (hpower : power < op.precedence) (hr : Parses (g.run (.expr op.precedence)) r rest)
    (h : Taken s₀ s (op.word :: (r.words ++ rest)) (Gives l)) :
    Ends (g.binaryStep power s₀.builder.checkpoint) s fun again s' =>
      again = true ∧ Taken s₀ s' rest (Gives (.binary op l r)) := by
  refine Ends.kind?_bind.mpr ?_
  rw [Cursor.kind?_of_words h.words, Option.bind_some, binaryPower?_word]
  refine .ite (fun _ => ?_) fun hnot => absurd hpower hnot
  refine gives_nodeAt (Q := fun new => ∃ (t : Token) (v : Tree), t.word = op.word ∧
    solid new = [.token t, v] ∧ Reads v r) h (fun s₁ hs₁ hwords₁ => ?_) ?_
  · refine .bind (ends_bump hs₁ hwords₁ (by cases op <;> rfl)) fun _ s₂ h₂ => ?_
    refine (hr s₂ h₂.sound h₂.words).imp fun _ s₃ h₃ => h₂.append h₃ ?_
    rintro ts us ⟨t, ht, hts⟩ ⟨v, hus, hv⟩
    exact ⟨t, v, ht, by simp [hts, hus], hv⟩
  · rintro u offset children inner hchildren hu ⟨t, v, ht, hinner, hv⟩
    exact reads_binary ht hu hv (by rw [hchildren, hinner])

theorem ends_binaryStep_stop {s : Cursor} {power first : Nat} (hrest : Behind power s.words) :
    Ends (g.binaryStep power first) s fun again s' => again = false ∧ s' = s := by
  refine Ends.kind?_bind.mpr ?_
  split
  case h_1 own hown =>
    obtain ⟨kind, hkind, hown⟩ := Option.bind_eq_some_iff.mp hown
    rw [Cursor.kind?_eq_words] at hkind
    obtain ⟨w, hw, rfl⟩ := Option.map_eq_some_iff.mp hkind
    have hle := hrest.loose w hw own hown
    exact .ite (fun hlt => absurd hlt (Nat.not_lt.mpr hle)) fun _ => ⟨rfl, rfl⟩
  case h_2 => exact ⟨rfl, rfl⟩

-- The turns for the operators behind the first operand; `m` turns are left then. All of them
-- bind at least as tight as the last, which is tighter than `power`.
theorem ends_climb (hg : Handles g.run k) {power : Nat} : (e : Expr) → power < e.level →
    e.isGrouped = true → 2 * e.words.length ≤ k + 1 → (m : Nat) → (rest : List Word) →
    Behind e.level rest → (s₀ : Cursor) → s₀.Sound → s₀.words = e.words ++ rest →
    (Q : Unit → Cursor → Prop) →
    (∀ s, Taken s₀ s rest (Gives e) →
      Ends (repeatWhile m (g.binaryStep power s₀.builder.checkpoint)) s Q) →
    Ends (do g.run .unary; repeatWhile (m + turns e) (g.binaryStep power s₀.builder.checkpoint)) s₀ Q
  | .binary op l r, hpower, hgrouped, hlength, m, rest, hrest, s₀, hs₀, hwords, Q, hQ => by
      simp only [Expr.isGrouped, Bool.and_eq_true, decide_eq_true_eq] at hgrouped
      simp only [Expr.words, List.length_append, List.length_cons] at hlength
      have hl := List.length_pos_iff.mpr l.words_ne_nil
      have hr := hg.expr op.precedence r hgrouped.2 hgrouped.1.1.2 (by omega) rest hrest
      have hop : Behind l.level (op.word :: (r.words ++ rest)) :=
        .operator hgrouped.1.1.1 (plain_append.mpr ⟨plain_words r, hrest.plain⟩)
      rw [turns, Nat.add_comm (turns l), ← Nat.add_assoc]
      refine ends_climb hg l (Nat.lt_of_lt_of_le hpower hgrouped.1.1.1) hgrouped.1.2 (by omega)
        (m + 1) _ hop s₀ hs₀ (by simp [hwords, Expr.words]) Q fun s hs => ?_
      refine .bind (ends_binaryStep hpower hr hs) ?_
      rintro _ s' ⟨rfl, hs'⟩
      exact hQ s' hs'
  | .name _, _, hgrouped, hlength, _, rest, hrest, s₀, hs₀, hwords, _, hQ
  | .number _, _, hgrouped, hlength, _, rest, hrest, s₀, hs₀, hwords, _, hQ
  | .paren _, _, hgrouped, hlength, _, rest, hrest, s₀, hs₀, hwords, _, hQ
  | .unary .., _, hgrouped, hlength, _, rest, hrest, s₀, hs₀, hwords, _, hQ
  | .selector .., _, hgrouped, hlength, _, rest, hrest, s₀, hs₀, hwords, _, hQ
  | .call .., _, hgrouped, hlength, _, rest, hrest, s₀, hs₀, hwords, _, hQ
  | .index .., _, hgrouped, hlength, _, rest, hrest, s₀, hs₀, hwords, _, hQ =>
      .bind (hg.unary _ hgrouped (by simp [Expr.level]) hlength rest hrest.five s₀ hs₀ hwords)
        fun _ => hQ

theorem handles_expr (hg : Handles g.run k) (hfuel : k < g.fuel) {power : Nat} {e : Expr}
    (hgrouped : e.isGrouped = true) (hlevel : power < e.level) (hlength : 2 * e.words.length ≤ k + 1)
    (hrest : Behind power rest) : Parses (g.exprRule power) e rest := by
  intro s hs hwords
  refine ends_checkpoint hs fun s₀ h₀ _ => ?_
  have hcount := turns_le e
  have hturns : g.fuel = (g.fuel - turns e) + turns e := by omega
  have hclimb : Ends (do g.run .unary; g.climb power s₀.builder.checkpoint) s₀ fun _ s' =>
      Taken s₀ s' rest (Gives e) := by
    rw [climb, hturns]
    refine ends_climb hg e hlevel hgrouped hlength _ rest (hrest.mono hlevel.le) s₀ h₀.sound
      (h₀.words.trans hwords) _ fun s₁ h₁ => ?_
    refine ends_repeatWhile_stop (ends_binaryStep_stop ?_) h₁
    rw [h₁.words]
    exact hrest
  exact hclimb.imp fun _ _ => gives_behindBlanks h₀

-- With enough fuel all expressions are read.
theorem handles_runRule : (k : Nat) → Handles (runRule k) k
  | 0 => by
      have hne (e : Expr) := List.length_pos_iff.mpr e.words_ne_nil
      refine ⟨fun e _ _ hlength => ?_, fun _ e _ _ hlength => ?_⟩
      · have := hne e
        omega
      · have := hne e
        omega
  | k + 1 => by
      have hg : Handles (Rules.mk (k + 1) (runRule k)).run k := handles_runRule k
      exact ⟨fun e hgrouped hlevel hlength rest => handles_unary hg k.lt_succ_self hgrouped hlevel hlength,
        fun power e hgrouped hlevel hlength rest =>
          handles_expr hg k.lt_succ_self hgrouped hlevel hlength⟩

end Handling

end SpriteScript.Syntax.Rules
