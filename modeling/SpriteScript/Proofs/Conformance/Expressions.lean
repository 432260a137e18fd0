import SpriteScript.Proofs.Conformance.Types

-- The grammar of expressions, and of the blocks in them.
namespace SpriteScript.Syntax

open Grammar

-- The instances for the parts of a long rule are found in one search.
set_option synthInstance.maxSize 1000

namespace Rules

section Expressions

variable {g : Rules} {n : Nat} [∀ rule, Bracketed (g.run rule)] {s₀ s : Cursor}
variable {slots : List Slot} {p q : Tree → Bool}

-- A list of expressions may start with one.
theorem exprRow {ts : List Tree} (h : Fills [exprSlot] ts) :
    ListRow [exprSlot] (fun t => t.isExpr || t.isTokIn [.comma]) Tree.isElement ts :=
  ⟨h.empty_list, apart_of_one h isElement_token⟩

-- Expressions with commas before them.
theorem quiet_moreExprs (hg : g.Fit n) (hn : 4 * s.rest.length + 2 < n) (acrossLines : Bool)
    (h : Grown s₀ s (ListRow slots (fun t => t.isExpr || t.isTokIn [.comma]) Tree.isElement)) :
    Quiet (g.moreExprs acrossLines) s fun _ s' =>
      Grown s₀ s' (ListRow slots (fun t => t.isExpr || t.isTokIn [.comma]) Tree.isElement) := by
  set p : Tree → Bool := fun t => t.isExpr || t.isTokIn [.comma]
  unfold moreExprs
  refine quiet_repeatWhile (I := fun s₁ => Grown s₀ s₁ (ListRow slots p Tree.isElement) ∧
    s₁.rest.length ≤ s.rest.length) (J := fun s₁ => Grown s₀ s₁ (ListRow slots p Tree.isElement))
    (fun _ hI => hI.1.mono fun _ _ => trivial) (fun _ hI => hI.1) ?_ g.fuel s ⟨h, Nat.le_refl _⟩
  rintro s₁ ⟨hI, hle⟩
  refine .bind hI (quiet_eat hI.sound rfl) fun taken s₂ hs₂ => ?_
  rcases hs₂ with ⟨rfl, hcomma, hless⟩ | ⟨rfl, rfl⟩
  · simp only [if_true]
    have hopen : Grown s₀ s₂ (OpenRow slots p Tree.isElement) :=
      hI.append hcomma fun ts us hts hus => hts.separator hus
        (fun t ht => by simp [p, isTokIn_of_isTok ht]) isElement_token
    have hexpr : ∀ s₃, Grown s₀ s₃ (OpenRow slots p Tree.isElement) →
        s₃.rest.length ≤ s₂.rest.length → Quiet (do g.expr; return true) s₃ fun more s' =>
          if more then Grown s₀ s' (ListRow slots p Tree.isElement) ∧
            s'.rest.length ≤ s.rest.length
          else Grown s₀ s' (ListRow slots p Tree.isElement) := by
      intro s₃ h₃ hle₃
      refine .bind h₃ (makes_expr hg h₃.sound (by omega)) fun _ s₄ h₄ => .pure ⟨?_, ?_⟩
      · exact h₃.append h₄ fun ts us hts hus => hts.member
          (.one hus (fun t ht => by simp [p, ht]) isElement_token)
      · exact Nat.le_trans h₄.length_le (by omega)
    refine .ite (fun _ => ?_) fun _ => hexpr s₂ hopen (Nat.le_refl _)
    refine .bind hopen (makes_newlines hopen.sound) fun _ s₃ h₃ => ?_
    exact hexpr s₃ (hopen.append h₃ fun _ _ hts hus => hts.blanks hus isElement_token) h₃.length_le
  · exact .pure hI

theorem makes_exprList (hg : g.Fit n) (h : s.Sound) (hn : 4 * s.rest.length + 2 < n) :
    Makes g.exprList s [nodeOf .exprList] := by
  unfold exprList
  refine makes_node h fun s₁ h₁ _ hle => ?_
  refine .bind (.here h₁) (makes_expr hg h₁ (by omega)) fun _ s₂ h₂ => ?_
  have hle₂ := h₂.length_le
  refine (quiet_moreExprs hg (by omega) true (h₂.mono fun _ => exprRow)).imp fun _ s₃ h₃ => ?_
  exact ready_of_row (.head _) h₃

-- Statements stand apart: a turn of the loop ends behind a token, or where the list stops.
theorem adds_statementList (hg : g.Fit n) (h : s.Sound) (hn : 4 * s.rest.length + 3 < n)
    {stops : List TokenKind} (hbrace : stops.contains .rBrace = true)
    (hstops : ∀ kind ∈ stops, [TokenKind.newline, .semicolon].contains kind = false) :
    Adds (g.statementList stops) s
      (ListRow [] (fun t => t.isStatement || t.isTokIn [.semicolon]) Tree.isItem) := by
  set p : Tree → Bool := fun t => t.isStatement || t.isTokIn [.semicolon] with hp
  have hsep : ∀ t : Tree, t.isTokIn [.semicolon] = true → p t = true := fun t ht => by simp [p, ht]
  unfold statementList
  dsimp only
  have hgrown : ∀ s', Between stops p s s' → Grown s s' fun _ => True := fun s' hI =>
    hI.row.mono fun _ _ => trivial
  refine quiet_repeatWhile hgrown (fun _ => Between.row) ?_ g.fuel s
    (.inl ((Filled.refl h).mono fun _ hts => .nil hts isItem_token))
  intro s₁ hI
  refine .bind (hgrown s₁ hI) (quiet_separators hsep hstops hI) fun _ s₂ ⟨hI₂, _⟩ => ?_
  refine Quiet.isAtEnd_bind.mpr (Quiet.isAtAny_bind.mpr
    (.ite (fun _ => .pure hI₂.row) fun hgo => Quiet.get_bind.mpr ?_))
  have hopen₂ : Grown s s₂ (OpenRow [] p Tree.isItem) := hI₂.resolve_right fun hstopped =>
    hgo (by simpa [Stopped] using hstopped.2)
  have hle₂ := hopen₂.length_le
  refine .bind hopen₂ (makes_statement hg hopen₂.sound (by omega)) fun _ s₃ h₃ => ?_
  have h₃ : Grown s s₃ (ListRow [] p Tree.isItem) := hopen₂.append h₃ fun ts us hts hus =>
    hts.member (.one hus (fun t ht => by simp [p, ht]) isItem_token)
  refine Quiet.isAtAny_bind.mpr (.ite (fun _ => ?_) fun hat => ?_)
  · refine (quiet_nextStatement stops _ hsep hbrace h₃).imp ?_
    rintro _ s₄ ⟨rfl, hnext⟩
    exact hnext.1
  · refine .bind h₃ (quiet_unlessMoved h₃.sound _) ?_
    rintro _ _ rfl
    exact .pure (.inr ⟨h₃, .inr (by simpa using hat)⟩)

theorem makes_block (hg : g.Fit n) (h : s.Sound) (hn : 4 * s.rest.length ≤ n) :
    Makes g.block s [nodeOf .block] := by
  unfold block
  refine makes_node h fun s₁ h₁ _ hle => ?_
  refine .bind (.here h₁) (quiet_require h₁ rfl _) fun _ s₂ ⟨h₂, hless⟩ => ?_
  have hlist : Adds (withLiterals true (g.statementList [.rBrace])) s₂
      (ListRow [] (fun t => t.isStatement || t.isTokIn [.semicolon]) Tree.isItem) :=
    adds_withLiterals h₂.sound fun s₃ h₃ hrest =>
      adds_statementList hg h₃ (by rw [hrest]; omega) rfl (by simp)
  refine .bind h₂ hlist fun _ s₃ h₃ => ?_
  refine (makes_expect h₃.sound rfl _).imp fun _ _ h₄ => ?_
  exact ready_of_between (.head _) isItem_token h₂ h₃ h₄

-- What stands behind the arrow of a lambda.
theorem makes_lambdaBody (hg : g.Fit n) (h : s.Sound) (hn : 4 * s.rest.length ≤ n) :
    Makes g.lambdaBody s [tok .fatArrow, .one fun t => t.isA .block || t.isExpr] := by
  unfold lambdaBody
  refine .bind (.here h) (quiet_require h rfl _) fun _ s₁ ⟨h₁, hless⟩ => ?_
  refine (adds_withLiterals h₁.sound fun s₂ h₂ hrest => ?_).imp fun _ _ => h₁.trans
  have hle : s₂.rest.length = s₁.rest.length := congrArg List.length hrest
  refine Quiet.isAt_bind.mpr (.ite (fun _ => ?_) fun _ => ?_)
  · exact Adds.mono (makes_block hg h₂ (by omega)) fun _ hts => hts.one fun t ht => by simp [ht]
  · exact Adds.mono (makes_expr hg h₂ (by omega)) fun _ hts => hts.one fun t ht => by simp [ht]

theorem makes_element (hg : g.Fit n) (h : s.Sound) (hn : 4 * s.rest.length + 2 < n) :
    Makes g.element s [.one Tree.isElement] := by
  unfold element
  refine quiet_checkpoint h fun s₁ h₁ _ => ?_
  have hle₁ := h₁.length_le
  refine .step (.refl h₁.sound) (makes_expr hg h₁.sound (by omega)) fun _ s₂ h₂ hle₂ => ?_
  refine .bind h₂ (quiet_eat h₂.sound rfl) fun colon s₃ hs₃ => ?_
  rcases hs₃ with ⟨rfl, h₃, hless⟩ | ⟨rfl, rfl⟩
  · have h₃ := h₂.trans h₃
    refine .step h₃ (makes_newlines h₃.sound) fun _ s₄ h₄ hle₄ => ?_
    refine Quiet.isAt_bind.mpr (Quiet.isAt_bind.mpr (.ite (fun _ => ?_) fun _ => ?_))
    · exact .fault_bind h₄
    · refine .step h₄ (makes_expr hg h₄.sound (by omega)) fun _ s₅ h₅ _ => ?_
      refine (makes_wrap h₅ rfl (.head _)).imp fun _ _ h₆ => ?_
      exact h₁.trans (h₆.mono fun _ hts => hts.one fun t ht => by simp [Tree.isElement, ht])
  · exact .pure (h₁.trans (h₂.mono fun _ hts => hts.one fun t ht => by simp [Tree.isElement, ht]))

theorem makes_literalBody (hg : g.Fit n) (h : s.Sound) (hkind : s.kind? = some .lBrace)
    (hn : 4 * s.rest.length ≤ n) : Makes g.literalBody s [nodeOf .litBody] := by
  unfold literalBody
  refine makes_brackets h hkind rfl rfl (fun t ht => ?_) isElement_token (.head _) ?_
  · simp [isTokIn_of_isTok ht]
  · intro s₁ h₁ hless
    exact (makes_element hg h₁ (by omega)).imp fun _ _ h₂ => h₂.mono fun _ hts =>
      .one hts (fun t ht => by simp [ht]) isElement_token

theorem makes_typedLiteral (hg : g.Fit n) (h : s.Sound) (hn : 4 * s.rest.length < n) :
    Makes g.typedLiteral s [nodeOf .compositeLit] := by
  unfold typedLiteral
  refine makes_node h fun s₁ h₁ _ hle => ?_
  refine .step (.refl h₁) (makes_type hg h₁ (by omega)) fun _ s₂ h₂ hle₂ => ?_
  refine Quiet.isAt_bind.mpr (.ite (fun hat => ?_) fun _ => .fault)
  refine (makes_literalBody hg h₂.sound (beq_iff_eq.mp hat) (by omega)).imp fun _ _ h₃ => ?_
  have h₂ : Filled s₁ s₂ [.one fun t => t.isType || t.isExpr] :=
    h₂.mono fun _ hts => hts.one fun t ht => by simp [ht]
  exact ready_of_filled rfl (.head _) (h₂.trans h₃)

theorem makes_parenthesized (hg : g.Fit n) (h : s.Sound) (hkind : s.kind? = some .lParen)
    (hn : 4 * s.rest.length ≤ n) : Makes g.parenthesized s [exprSlot] := by
  unfold parenthesized
  refine Quiet.get_bind.mpr (.ite (fun _ => ?_) fun _ => ?_)
  · refine Adds.ofExpr .lambdaExpr rfl ?_
    refine makes_node h fun s₁ h₁ hsolids hle => ?_
    refine .step (.refl h₁) (makes_lambdaParams h₁ (kind?_of_solids hsolids hkind)) ?_
    intro _ s₂ h₂ hle₂
    refine (makes_lambdaBody hg h₂.sound (by omega)).imp fun _ _ h₃ => ?_
    have h₂ : Filled s₁ s₂ [optNode .lambdaParams] := h₂.mono fun _ => Fills.opt
    exact ready_of_filled rfl (.head _) (h₂.trans h₃)
  · refine Adds.ofExpr .parenExpr rfl ?_
    refine makes_node_bump h hkind rfl rfl fun s₁ s₂ h₂ hless => ?_
    have hinner : Makes (withLiterals true do g.newlines; g.expr; g.newlines) s₂ [exprSlot] := by
      refine adds_withLiterals h₂.sound fun s₃ h₃ hrest => ?_
      have hle₃ : s₃.rest.length = s₂.rest.length := congrArg List.length hrest
      refine .step (.refl h₃) (makes_newlines h₃) fun _ s₄ h₄ hle₄ => ?_
      refine .step h₄ (makes_expr hg h₄.sound (by omega)) fun _ s₅ h₅ _ => ?_
      exact (makes_newlines h₅.sound).imp fun _ _ h₆ => h₅.trans h₆
    refine .step h₂ hinner fun _ s₃ h₃ _ => ?_
    exact (makes_expect h₃.sound rfl _).imp fun _ _ h₄ => ⟨_, .head _, h₃.trans h₄⟩

theorem makes_primary (hg : g.Fit n) (h : s.Sound) (hn : 4 * s.rest.length < n) :
    Makes g.primary s [exprSlot] := by
  have hnumber {kind : TokenKind} (hkind : s.kind? = some kind) (hplain : plain kind = true)
      (hmem : kind ∈ [TokenKind.int, .float, .str, .rawStr]) :
      Makes (node .literal bump) s [exprSlot] :=
    makes_literal h hmem fun s₁ h₁ hsolids =>
      (quiet_bump h₁ (kind?_of_solids hsolids hkind) hplain).imp fun _ _ h₂ => h₂.1
  unfold primary
  refine Quiet.kind?_bind.mpr (Quiet.second?_bind.mpr ?_)
  split
  · refine Adds.ofExpr .lambdaExpr rfl (makes_node h fun s₁ h₁ _ hle => ?_)
    have hparams : Makes (node .lambdaParams (name "parameter")) s₁ [optNode .lambdaParams] := by
      refine Adds.mono (makes_node h₁ fun s₂ h₂ _ _ => ?_) fun _ => Fills.opt
      exact (makes_name h₂ _).imp fun _ _ => ready_of_filled rfl (.head _)
    refine .step (.refl h₁) hparams fun _ s₂ h₂ hle₂ => ?_
    refine (makes_lambdaBody hg h₂.sound (by omega)).imp fun _ _ h₃ => ?_
    exact ready_of_filled rfl (.head _) (h₂.trans h₃)
  · rename_i hkind _
    refine Adds.ofExpr .nameRef rfl (makes_node h fun s₁ h₁ hsolids _ => ?_)
    refine (quiet_bump h₁ (kind?_of_solids hsolids hkind) rfl).imp fun _ _ h₂ => ?_
    exact ready_of_filled rfl (.head _) h₂.1
  · rename_i hkind
    exact hnumber hkind rfl (by simp)
  · rename_i hkind
    exact hnumber hkind rfl (by simp)
  · rename_i hkind
    exact hnumber hkind rfl (by simp)
  · rename_i hkind
    exact makes_literal h (by simp) fun s₁ h₁ hsolids =>
      makes_stringToken h₁ (kind?_of_solids hsolids hkind)
  · rename_i hkind
    exact makes_parenthesized hg h hkind (by omega)
  · refine Adds.ofExpr .lambdaExpr rfl (makes_node h fun s₁ h₁ _ hle => ?_)
    refine (makes_lambdaBody hg h₁ (by omega)).imp fun _ _ h₂ => ?_
    have hnone : Filled s₁ s₁ [optNode .lambdaParams] := (Filled.refl h₁).optional _
    exact ready_of_filled rfl (.head _) (hnone.trans h₂)
  · rename_i hkind
    refine Adds.ofExpr .funcLit rfl ?_
    refine makes_node_bump h hkind rfl rfl fun s₁ s₂ h₂ hless => ?_
    refine .step h₂ (makes_signature hg h₂.sound (by omega)) fun _ s₃ h₃ hle₃ => ?_
    refine Quiet.isAt_bind.mpr (.ite (fun _ => ?_) fun _ => .fault)
    exact (makes_block hg h₃.sound (by omega)).imp fun _ _ h₄ => ⟨_, .head _, h₃.trans h₄⟩
  · exact Adds.ofExpr .compositeLit rfl (makes_typedLiteral hg h hn)
  · exact Adds.ofExpr .compositeLit rfl (makes_typedLiteral hg h hn)
  · rename_i hkind _
    refine Adds.ofExpr .listLit rfl ?_
    refine makes_brackets h hkind rfl rfl (fun t ht => ?_) isElement_token (.head _) ?_
    · simp [isTokIn_of_isTok ht]
    · intro s₁ h₁ hless
      exact (makes_expr hg h₁ (by omega)).imp fun _ _ h₂ => h₂.mono fun _ hts =>
        .one hts (fun t ht => by simp [ht]) isElement_token
  · rename_i hkind
    refine Adds.ofExpr .mapLit rfl (makes_node h fun s₁ h₁ hsolids hle => ?_)
    refine (makes_literalBody hg h₁ (kind?_of_solids hsolids hkind) (by omega)).imp ?_
    exact fun _ _ => ready_of_filled rfl (.head _)
  · exact .fault

theorem makes_callArgs (hg : g.Fit n) (h : s.Sound) (hkind : s.kind? = some .lParen)
    (hn : 4 * s.rest.length ≤ n) : Makes g.callArgs s [nodeOf .argList] := by
  unfold callArgs
  refine makes_brackets h hkind rfl rfl (fun t ht => ?_) isElement_token (.head _) ?_
  · simp [isTokIn_of_isTok ht]
  · intro s₁ h₁ hless
    refine .bind (.here h₁) (makes_expr hg h₁ (by omega)) fun _ s₂ h₂ => ?_
    refine (makes_eat h₂.sound rfl).imp fun _ _ h₃ => h₂.append h₃ fun ts us hts hus => ?_
    refine (ListRow.one hts (fun t ht => by simp [ht]) isElement_token).tokens ?_ ?_
    · exact hus.many_opt fun t ht => by simp [isTokIn_of_isTok ht]
    · exact fun t ht => isElement_token t (hus.optTok_tokens t ht)

-- What may follow an operand makes one expression of it and the operand.
theorem quiet_postfixStep {s₀ : Cursor} (hg : g.Fit n) (h : Filled s₀ s [exprSlot])
    (hn : 4 * s₀.rest.length ≤ n) : Quiet (g.postfixStep s₀.builder.checkpoint) s fun _ s' =>
      Filled s₀ s' [exprSlot] := by
  have hle := h.length_le
  unfold postfixStep
  refine Quiet.kind?_bind.mpr ?_
  split
  · rename_i hkind
    refine .bind h (makes_nodeAt h rfl fun s₁ h₁ hrest => ?_) fun _ s₂ h₂ => .pure ?_
    · have hkind₁ : s₁.kind? = some .dot := kind?_of_rest hrest hkind
      refine .bind (.here h₁) (quiet_bump h₁ hkind₁ rfl) ?_
      rintro _ s₃ ⟨h₃, -⟩
      refine Quiet.isAt_bind.mpr (.ite (fun hat => ?_) fun _ => .fault)
      refine (quiet_bump h₃.sound (beq_iff_eq.mp hat) rfl).imp fun _ _ h₄ => ?_
      exact ⟨_, h₃.trans h₄.1, .head _⟩
    · exact h₂.mono fun _ hts => hts.one (isExpr_of_isA .selectorExpr rfl)
  · rename_i hkind
    refine .bind h (makes_nodeAt h rfl fun s₁ h₁ hrest => ?_) fun _ s₂ h₂ => .pure ?_
    · have hlength : s₁.rest.length = s.rest.length := congrArg List.length hrest
      refine (makes_callArgs hg h₁ (kind?_of_rest hrest hkind) (by omega)).imp fun _ _ h₂ => ?_
      exact ⟨_, h₂, .head _⟩
    · exact h₂.mono fun _ hts => hts.one (isExpr_of_isA .callExpr rfl)
  · rename_i hkind
    refine .bind h (makes_nodeAt h rfl fun s₁ h₁ hrest => ?_) fun _ s₂ h₂ => .pure ?_
    · have hlength : s₁.rest.length = s.rest.length := congrArg List.length hrest
      refine .bind (.here h₁) (quiet_bump h₁ (kind?_of_rest hrest hkind) rfl) ?_
      rintro _ s₃ ⟨h₃, hless⟩
      have hindex : Makes (withLiterals true g.expr) s₃ [exprSlot] :=
        adds_withLiterals h₃.sound fun s₄ h₄ hrest₄ =>
          makes_expr hg h₄ (by rw [hrest₄]; omega)
      refine .step h₃ hindex fun _ s₄ h₄ _ => ?_
      exact (makes_expect h₄.sound rfl _).imp fun _ _ h₅ => ⟨_, h₄.trans h₅, .head _⟩
    · exact h₂.mono fun _ hts => hts.one (isExpr_of_isA .indexExpr rfl)
  · rename_i hkind
    refine Quiet.get_bind.mpr (.ite (fun _ => ?_) fun _ => .pure h)
    have h' : Filled s₀ s [.one fun t => t.isType || t.isExpr] :=
      h.mono fun _ hts => hts.one fun t ht => by simp [ht]
    refine .bind h (makes_nodeAt h' rfl fun s₁ h₁ hrest => ?_) fun _ s₂ h₂ => .pure ?_
    · have hlength : s₁.rest.length = s.rest.length := congrArg List.length hrest
      refine (makes_literalBody hg h₁ (kind?_of_rest hrest hkind) (by omega)).imp fun _ _ h₂ => ?_
      exact ⟨_, h₂, .head _⟩
    · exact h₂.mono fun _ hts => hts.one (isExpr_of_isA .compositeLit rfl)
  · exact .pure h

theorem quiet_postfixed {s₀ : Cursor} (hg : g.Fit n) (h : Filled s₀ s [exprSlot])
    (hn : 4 * s₀.rest.length ≤ n) : Quiet (g.postfixed s₀.builder.checkpoint) s fun _ s' =>
      Filled s₀ s' [exprSlot] := by
  unfold postfixed
  exact quiet_repeat (I := fun s' => Filled s₀ s' [exprSlot])
    (fun _ hI => hI.mono fun _ _ => trivial) (fun _ hI => quiet_postfixStep hg hI hn) g.fuel s h

theorem makes_unaryRule (hg : g.Fit n) (h : s.Sound) (hn : 4 * s.rest.length + 1 < n + 1) :
    Makes g.unaryRule s [exprSlot] := by
  unfold unaryRule
  refine Quiet.isAtAny_bind.mpr (.ite (fun hat => ?_) fun _ => ?_)
  · refine Adds.ofExpr .unaryExpr rfl ?_
    refine makes_prefix h hat rfl (fun _ => rfl) (.head _) fun s₁ h₁ hless => ?_
    exact hg .unary s₁ h₁ (by simp only [Rule.rank]; omega) trivial
  · refine quiet_checkpoint h fun s₁ h₁ _ => ?_
    have hle₁ := h₁.length_le
    refine .bind (.here h₁.sound) (makes_primary hg h₁.sound (by omega)) fun _ s₂ h₂ => ?_
    exact (quiet_postfixed hg h₂ (by omega)).imp fun _ _ => h₁.trans

theorem quiet_climb {s₀ : Cursor} (hg : g.Fit n) (h : Filled s₀ s [exprSlot])
    (hn : 4 * s₀.rest.length ≤ n + 1) (power : Nat) :
    Quiet (g.climb power s₀.builder.checkpoint) s fun _ s' => Filled s₀ s' [exprSlot] := by
  unfold climb
  refine quiet_repeat (I := fun s' => Filled s₀ s' [exprSlot])
    (fun _ hI => hI.mono fun _ _ => trivial) ?_ g.fuel s h
  intro s₁ hI
  unfold binaryStep
  refine Quiet.kind?_bind.mpr ?_
  split
  · rename_i own hown
    refine .ite (fun _ => ?_) fun _ => .pure hI
    refine .bind hI (makes_nodeAt hI rfl fun s₂ h₂ hrest => ?_) fun _ s₂ h₂ => .pure ?_
    · have hle := hI.length_le
      have hlength : s₂.rest.length = s₁.rest.length := congrArg List.length hrest
      obtain ⟨kind, hkind, hpower⟩ : ∃ kind, s₁.kind? = some kind ∧ binaryPower? kind = some own :=
        Option.bind_eq_some_iff.mp hown
      have hplain : plain kind = true := by cases kind <;> simp_all [binaryPower?] <;> rfl
      refine .bind (.here h₂) (quiet_bump h₂ (kind?_of_rest hrest hkind) hplain) ?_
      rintro _ s₃ ⟨h₃, hless⟩
      have h₃ : Filled s₂ s₃ [.one fun t => t.token?.any fun s => (binaryPower? s.kind).isSome] :=
        h₃.mono fun _ hts => hts.one fun t ht => by
          cases t <;> simp_all [Tree.isTok, Tree.token?]
      have hoperand : Makes (g.run (.expr own)) s₃ [exprSlot] :=
        hg (.expr own) s₃ h₃.sound (by simp only [Rule.rank]; omega) trivial
      exact hoperand.imp fun _ _ h₄ => ⟨_, h₃.trans h₄, .head _⟩
    · exact h₂.mono fun _ hts => hts.one (isExpr_of_isA .binaryExpr rfl)
  · exact .pure hI

theorem makes_exprRule (hg : g.Fit n) (h : s.Sound) (hn : 4 * s.rest.length + 2 < n + 1)
    (power : Nat) : Makes (g.exprRule power) s [exprSlot] := by
  unfold exprRule
  refine quiet_checkpoint h fun s₁ h₁ _ => ?_
  have hle₁ := h₁.length_le
  have hfirst : Makes (g.run .unary) s₁ [exprSlot] :=
    hg .unary s₁ h₁.sound (by simp only [Rule.rank]; omega) trivial
  refine .bind (.here h₁.sound) hfirst fun _ s₂ h₂ => ?_
  exact (quiet_climb hg h₂ (by omega) power).imp fun _ _ => h₁.trans

end Expressions

end Rules

end SpriteScript.Syntax
