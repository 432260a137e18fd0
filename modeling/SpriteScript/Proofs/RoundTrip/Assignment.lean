import SpriteScript.Proofs.Lossless
import SpriteScript.Proofs.RoundTrip.Expressions

-- An expression that is printed and assigned to a name is read back.
namespace SpriteScript

open Syntax RoundTrip Grammar

namespace RoundTrip

-- The statement assigns the one value to the one name.
structure Assigns (t : Tree) (x : Ident) (value : Tree) : Prop where
  kind?_eq : t.kind? = some .assignStmt
  assignOp?_eq : t.assignOp?.map (·.kind) = some .eq
  target : ∃ target, t.listed 0 = [target] ∧ Reads target (.name x)
  value_eq : t.listed 1 = [value]

theorem assigns_node {x : Ident} {s : Token} {u v : Tree} {cs left right : List Tree}
    {offset place place' : Nat} (hs : s.kind = .eq)
    (hcs : solid cs = [.node .exprList place left, .token s, .node .exprList place' right])
    (hleft : solid left = [u]) (hu : Reads u (.name x)) (hright : solid right = [v])
    (hv : v.isExpr = true) : Assigns (.node .assignStmt offset cs) x v := by
  have hlists : (Tree.node .assignStmt offset cs).childrenOf .exprList =
      [.node .exprList place left, .node .exprList place' right] := by
    rw [Tree.childrenOf_eq_solid, Tree.children_node, hcs]
    rfl
  refine ⟨rfl, ?_, ⟨u, ?_, hu⟩, ?_⟩
  · have hblank : ∀ s : Token, [TokenKind.eq, .plusEq, .minusEq, .starEq, .slashEq, .percentEq].contains
        s.kind = true → s.kind.isTrivia = false := by
      intro s hs
      cases hkind : s.kind <;> simp_all [TokenKind.isTrivia]
    rw [Tree.assignOp?, find?_childTokens hblank, hcs]
    simp [hs]
  · simp [Tree.listed, hlists, exprs_node, hleft, hu.isExpr]
  · simp [Tree.listed, hlists, exprs_node, hright, hv]

end RoundTrip

namespace Syntax.Rules

variable {g : Rules} {x : Ident} {e : Expr} {rest : List Word}

-- Among trees that were added, one counts, and it is a list of the expression alone.
def GivesList (e : Expr) (new : List Tree) : Prop :=
  ∃ offset children, solid new = [.node .exprList offset children] ∧ Gives e children

-- Among trees that were added, one counts, and it assigns the expression to the name.
def GivesAssign (x : Ident) (e : Expr) (new : List Tree) : Prop :=
  ∃ t value, solid new = [t] ∧ Assigns t x value ∧ Reads value e

-- Without a comma the list of expressions ends.
theorem ends_moreExprs_stop {acrossLines : Bool} {s : Cursor} {Q : Unit → Cursor → Prop}
    (hkind : s.kind? ≠ some .comma) (hQ : Q () s) : Ends (g.moreExprs acrossLines) s Q := by
  refine ends_repeatWhile_stop ?_ hQ
  refine .bind (ends_eat_not hkind) ?_
  rintro _ _ ⟨rfl, rfl⟩
  exact ⟨rfl, rfl⟩

theorem ends_exprList (he : Parses g.expr e []) {s : Cursor} (hs : s.Sound) (hwords : s.words = e.words) :
    Ends g.exprList s fun _ s' => Taken s s' [] (GivesList e) := by
  refine ends_node hs fun s₁ hs₁ _ hsame => ?_
  refine .bind (he s₁ hs₁ (by rw [hsame, hwords, List.append_nil])) fun _ s₂ h₂ => ?_
  exact ends_moreExprs_stop (by simp [Cursor.kind?_eq_words, h₂.words]) h₂

-- A name that an equals sign follows is an expression and no command.
theorem ends_commandOrExpr (hrest : Plain rest) {s : Cursor} (hs : s.Sound)
    (hwords : s.words = ⟨.ident, x.text⟩ :: ⟨.eq, "="⟩ :: rest) :
    Ends g.commandOrExpr s fun command s' =>
      command = false ∧ Taken s s' (⟨.eq, "="⟩ :: rest) (Gives (.name x)) := by
  refine ends_checkpoint hs fun s₀ h₀ _ => ?_
  have hbehind : Behind 0 (⟨.eq, "="⟩ :: rest) := .sign (by decide) hrest
  have hhead : Ends (g.commandHead s₀.builder.checkpoint) s₀ fun _ s' =>
      Taken s₀ s' (⟨.eq, "="⟩ :: rest) (Gives (.name x)) := by
    refine .bind (gives_node h₀.sound (fun s₁ hs₁ _ hsame =>
      ends_bump hs₁ (hsame.trans (h₀.words.trans hwords)) rfl)
      fun offset children ⟨t, ht, hchildren⟩ => reads_name ht hchildren) fun _ s₁ h₁ => ?_
    refine ends_repeatWhile_stop ?_ h₁
    refine Ends.isAt_bind.mpr (Ends.second?_bind.mpr ?_)
    rw [Cursor.kind?_of_words h₁.words]
    exact ⟨rfl, rfl⟩
  refine .bind hhead fun _ s₁ h₁ => ?_
  have hkind := Cursor.kind?_of_words h₁.words
  have harg : Ends atCommandArg s₁ fun answer s' => answer = false ∧ s₁ = s' := by
    refine Ends.kind?_bind.mpr ?_
    rw [hkind]
    exact ⟨rfl, rfl⟩
  refine .bind harg ?_
  rintro _ _ ⟨rfl, rfl⟩
  rw [← h₁.words] at hbehind
  refine .bind (ends_repeatWhile_stop (ends_postfixStep_stop hbehind) (Q := fun _ s' => s₁ = s') rfl) ?_
  rintro _ _ rfl
  refine .bind (ends_repeatWhile_stop (ends_binaryStep_stop hbehind) (Q := fun _ s' => s₁ = s') rfl) ?_
  rintro _ _ rfl
  exact ⟨rfl, gives_behindBlanks h₀ h₁⟩

-- Behind a name and an equals sign the expression is what is assigned.
theorem ends_simpleRest (he : Parses g.expr e []) {s₀ s : Cursor}
    (h : Taken s₀ s (⟨.eq, "="⟩ :: e.words) (Gives (.name x))) :
    Ends (g.simpleRest s₀.builder.checkpoint) s fun _ s' => Taken s₀ s' [] (GivesAssign x e) := by
  have hkind := Cursor.kind?_of_words h.words
  refine Ends.kind?_bind.mpr ?_
  rw [hkind]
  refine .ite (fun _ => ?_) fun hnot => absurd hnot (by decide)
  refine .bind (ends_moreExprs_stop (by simp [hkind]) (Q := fun _ s' => s = s') rfl) ?_
  rintro _ _ rfl
  refine .bind (ends_wrap h) fun _ s₁ h₁ => ?_
  refine Ends.isAt_bind.mpr ?_
  rw [Cursor.kind?_of_words h₁.words]
  refine (ends_nodeAt (Q := fun new => ∃ (t : Token) (offset : Nat) (children : List Tree),
    t.kind = .eq ∧ solid new = [.token t, .node .exprList offset children] ∧ Gives e children)
    h₁ fun s₂ hs₂ hwords₂ => ?_).imp fun _ s' htaken => htaken.mono ?_
  · refine Ends.isAtAny_bind.mpr ?_
    rw [Cursor.kind?_of_words hwords₂]
    refine .ite (fun _ => ?_) fun hnot => absurd hnot (by decide)
    refine .bind (ends_bump hs₂ hwords₂ rfl) fun _ s₃ h₃ => ?_
    have hrange : s₃.kind? ≠ some .rangeKw := by
      obtain ⟨w, ws, hw, hkind⟩ := exists_head e
      rw [Cursor.kind?_of_words (h₃.words.trans hw)]
      intro heq
      rw [Option.some.inj heq] at hkind
      exact absurd hkind (by decide)
    refine Ends.isAt_bind.mpr (.ite (fun hat => absurd (beq_iff_eq.mp hat) hrange) fun _ => ?_)
    refine (ends_exprList he h₃.sound h₃.words).imp fun _ s₄ h₄ => h₃.append h₄ ?_
    rintro ts us ⟨t, ht, hts⟩ ⟨offset, children, hus, hchildren⟩
    exact ⟨t, offset, children, congrArg Word.kind ht, by simp [hts, hus], hchildren⟩
  · rintro _ ⟨offset, _, inner, rfl, ⟨place, left, rfl, u, hleft, hu⟩, t, place', right, ht, hinner,
      v, hright, hv⟩
    have hcs : solid ([.node .exprList place left] ++ inner) =
        [.node .exprList place left, .token t, .node .exprList place' right] := by
      rw [solid_append, solid_node, hinner]
      rfl
    exact ⟨_, v, solid_node .., assigns_node ht hcs hleft hu hright hv.isExpr, hv⟩

theorem ends_statement (he : Parses g.expr e []) {s : Cursor} (hs : s.Sound)
    (hwords : s.words = ⟨.ident, x.text⟩ :: ⟨.eq, "="⟩ :: e.words) :
    Ends g.statementRule s fun _ s' => Taken s s' [] (GivesAssign x e) := by
  have hsimple : Ends (g.simpleStmt true) s fun _ s' => Taken s s' [] (GivesAssign x e) := by
    refine ends_checkpoint hs fun s₀ h₀ _ => ?_
    have hwords₀ := h₀.words.trans hwords
    refine Ends.isAt_bind.mpr ?_
    rw [Cursor.kind?_of_words hwords₀]
    refine .bind (ends_commandOrExpr (plain_words e) h₀.sound hwords₀) ?_
    rintro _ s₁ ⟨rfl, h₁⟩
    refine (ends_simpleRest he h₁).imp fun _ s₂ h₂ => h₀.append h₂ ?_
    rintro ts us hts ⟨t, value, hus, ht⟩
    exact ⟨t, value, by simp [hts, hus], ht⟩
  refine Ends.kind?_bind.mpr ?_
  rw [Cursor.kind?_of_words hwords]
  exact hsimple

-- Signs between statements are skipped, but there are none.
theorem separators_bind {β : Type} {f : Unit → Action β} {s : Cursor} {Q : β → Cursor → Prop}
    (hkind : s.kind?.any [TokenKind.newline, .semicolon].contains = false) (h : Ends (f ()) s Q) :
    Ends (g.separators >>= f) s Q := by
  rwa [Ends, run_bind, separators, run_eatWhile_of_not hkind]

-- A file of one assignment.
theorem ends_fileContents (hfuel : 1 < g.fuel)
    (hstatement : ∀ s : Cursor, s.Sound → s.words = ⟨.ident, x.text⟩ :: ⟨.eq, "="⟩ :: e.words →
      Ends g.statement s fun _ s' => Taken s s' [] (GivesAssign x e))
    {s : Cursor} (hs : s.Sound) (hwords : s.words = ⟨.ident, x.text⟩ :: ⟨.eq, "="⟩ :: e.words) :
    Ends g.fileContents s fun _ s' => Taken s s' [] (GivesAssign x e) := by
  have hkind := Cursor.kind?_of_words hwords
  obtain ⟨t, ht, -⟩ := Cursor.current?_of_words hwords
  have hitems : Ends g.items s fun _ s' => Taken s s' [] (GivesAssign x e) := by
    obtain ⟨n, hn⟩ := Nat.exists_eq_add_of_lt hfuel
    rw [items, hn]
    have hitem : Ends g.item s fun _ s' => Taken s s' [] (GivesAssign x e) := by
      refine Ends.kind?_bind.mpr ?_
      rw [hkind]
      exact hstatement s hs hwords
    refine .bind (Q := fun again s' => again = true ∧ Taken s s' [] (GivesAssign x e)) ?_ ?_
    · refine separators_bind (by rw [hkind]; rfl) (Ends.isAtEnd_bind.mpr ?_)
      rw [ht]
      refine Ends.get_bind.mpr (.bind hitem fun _ s₁ h₁ => ?_)
      have hend := Cursor.current?_of_no_words h₁.words
      have hkind₁ : s₁.kind? = none := by simp [Cursor.kind?, hend]
      have hstop : Ends g.statementEnd s₁ fun _ s' => s₁ = s' := by
        refine Ends.isAtEnd_bind.mpr (Ends.isAt_bind.mpr ?_)
        rw [hend]
        exact rfl
      refine .bind hstop ?_
      rintro _ _ rfl
      refine .bind (Q := fun _ s' => s₁ = s') ?_ ?_
      · refine Ends.kind?_bind.mpr ?_
        rw [hkind₁]
        exact rfl
      · rintro _ _ rfl
        exact ⟨rfl, h₁⟩
    · rintro _ s₁ ⟨rfl, h₁⟩
      refine ends_repeatWhile_stop (separators_bind ?_ (Ends.isAtEnd_bind.mpr ?_)) h₁
      · rw [Cursor.kind?_eq_words, h₁.words]
        rfl
      · rw [Cursor.current?_of_no_words h₁.words]
        exact ⟨rfl, rfl⟩
  refine separators_bind (by rw [hkind]; rfl) (.bind (Q := fun _ s' => s = s') ?_ ?_)
  · refine Ends.isAt_bind.mpr ?_
    rw [hkind]
    exact rfl
  · rintro _ _ rfl
    refine .bind hitems fun _ s₁ h₁ => ?_
    have hflush := taken_flush h₁.sound
    rw [h₁.words] at hflush
    refine h₁.append hflush ?_
    rintro ts us ⟨t, value, hts, ht⟩ hus
    exact ⟨t, value, by simp [hts, hus], ht⟩

end Syntax.Rules

theorem words_markLineEnds {tokens : List Token} (h : ∀ t ∈ tokens, t.kind ≠ .newline)
    (canEnd : Bool) : ((markLineEnds canEnd tokens).filter (!·.skipped)).map (·.token.word) =
      wordsOf tokens := by
  induction tokens generalizing canEnd with
  | nil => rfl
  | cons t rest ih =>
      simp only [List.mem_cons, forall_eq_or_imp] at h
      rw [markLineEnds, if_neg h.1]
      split
      case isTrue hblank => rw [wordsOf_blank hblank, ← ih h.2 canEnd]; rfl
      case isFalse hsolid =>
        rw [wordsOf_solid (by simpa using hsolid), ← ih h.2 t.kind.endsStatement]
        rfl

-- The words of the text are those of the assignment.
theorem words_startCursor (x : Ident) (e : Expr) :
    (startCursor (x.text ++ " = " ++ e.print)).words =
      ⟨.ident, x.text⟩ :: ⟨.eq, "="⟩ :: e.grouped.words := by
  have hscan : ∀ w ∈ (⟨.eq, "="⟩ : Word) :: e.grouped.words, Scannable w :=
    List.forall_mem_cons.mpr ⟨scannable_eq, fun w hw => (e.grouped.isPart_words w hw).scannable⟩
  obtain ⟨hwords, hlines⟩ := lex_spaced (scannable_ident x) hscan 0
  have htext : (x.text ++ " = " ++ e.print).toList =
      spaced (⟨.ident, x.text⟩ :: ⟨.eq, "="⟩ :: e.grouped.words) := by
    obtain ⟨w, ws, hw⟩ := List.exists_cons_of_ne_nil e.grouped.words_ne_nil
    rw [String.toList_append, String.toList_append, Expr.print, toList_intercalate, hw]
    simp [spaced, spaced.more]
  rw [Cursor.words, startCursor, Token.tokenize, htext, words_markLineEnds hlines, hwords]

-- Texts of an assignment parse without an error to the one statement.
theorem parse_assign (x : Ident) (e : Expr) :
    (parse (x.text ++ " = " ++ e.print)).errors = [] ∧
      ∃ offset children, (parse (x.text ++ " = " ++ e.print)).tree =
        .node .sourceFile offset children ∧ Rules.GivesAssign x e.grouped children := by
  have hwords := words_startCursor x e
  set text := x.text ++ " = " ++ e.print
  have hsound := sound_startCursor text
  have hlength : e.grouped.words.length + 2 ≤ (Token.tokenize text).length := by
    have hle := List.length_filter_le (!·.skipped) (startCursor text).rest
    have hcount := congrArg List.length hwords
    have hleft := congrArg List.length (left_startCursor text)
    simp only [Cursor.words, Cursor.left, List.length_map, List.length_cons] at hcount hleft
    omega
  obtain ⟨k, hk⟩ : ∃ k, enoughFuel (Token.tokenize text) = k + 1 := ⟨_, rfl⟩
  have hfuel : 1 < k + 1 ∧ 2 * e.grouped.words.length ≤ k := by
    unfold enoughFuel at hk
    omega
  have he : Rules.Parses (Rules.mk (k + 1) (runRule k)).expr e.grouped [] :=
    (Rules.handles_runRule k).expr 0 e.grouped e.isGrouped_grouped e.grouped.level_pos hfuel.2 [] .nil
  have hcontents := Rules.ends_fileContents (g := ⟨k + 1, runRule (k + 1)⟩) hfuel.1
    (fun s hs hwords => Rules.ends_statement he hs hwords)
    (sound_start hsound .sourceFile) hwords
  have hrun : endCursor text = ((Rules.mk (k + 1) (runRule (k + 1))).fileContents.run
      ((startCursor text).start .sourceFile)).2.finish := by
    rw [← hk]
    rfl
  rw [start_eq_startAt hsound] at hcontents hrun
  have htaken := taken_finish (.refl (P := (· = [])) hsound rfl) hcontents
  rw [← hrun] at htaken
  obtain ⟨-, hquiet, -, _, hgrows, offset, _, inner, rfl, rfl, hinner⟩ := htaken
  refine ⟨by rw [parse, hquiet]; rfl, offset, inner, ?_, hinner⟩
  have hforest : #[(parse text).tree].toList = [] ++ [.node .sourceFile offset ([] ++ inner)] :=
    forest_endCursor text ▸ hgrows.forest
  simpa using hforest

-- The printed text of an expression has the parentheses that it needs besides those it has.
-- Assigned to a name it parses without an error, and what is assigned is read as the expression
-- with these parentheses, in no other way. An expression that has all of them is read as it is.
theorem parse_print (x : Ident) (e : Expr) :
    (parse (x.text ++ " = " ++ e.print)).errors = [] ∧
      e.grouped.bare = e.bare ∧ (e.isGrouped = true → e.grouped = e) ∧
      ∃ statement value, (parse (x.text ++ " = " ++ e.print)).tree.items = [statement] ∧
        Assigns statement x value ∧ Reads value e.grouped ∧
        ∀ e', Reads value e' → e' = e.grouped := by
  obtain ⟨herrors, offset, children, htree, t, value, hchildren, ht, hvalue⟩ := parse_assign x e
  refine ⟨herrors, e.bare_grouped, e.grouped_eq, t, value, ?_, ht, hvalue,
    fun e' he' => he'.unique hvalue⟩
  rw [htree, Tree.items, Tree.childrenWith_eq_solid, Tree.children_node, hchildren]
  simp [ht.kind?_eq, NodeKind.isItem, NodeKind.isStatement]

end SpriteScript
