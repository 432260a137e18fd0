import SpriteScript.Proofs.Conformance.Statements

-- The grammar of whole files, and of every text without syntax errors.
namespace SpriteScript.Syntax

open Grammar

-- The instances for the parts of a long rule are found in one search.
set_option synthInstance.maxSize 1000

-- The instances for the parts of a long rule are found in one search.
set_option synthInstance.maxSize 1000

namespace Rules

section Files

variable {g : Rules} {n : Nat} [∀ rule, Bracketed (g.run rule)] {s : Cursor}

omit [∀ rule, Bracketed (g.run rule)] in
theorem makes_importSpec (h : s.Sound) : Makes importSpec s [nodeOf .importSpec] := by
  unfold importSpec
  refine makes_node h fun s₁ h₁ _ _ => Quiet.isAt_bind.mpr ?_
  refine .optional (.refl h₁) (fun _ => makes_name h₁ _) fun s₂ h₂ _ => ?_
  refine Quiet.isAt_bind.mpr (.ite (fun hat => ?_) fun _ => .fault)
  refine (makes_stringToken h₂.sound (beq_iff_eq.mp hat)).imp fun _ s₃ h₃ => ?_
  exact ready_of_filled rfl (.head _) (h₂.trans h₃)

omit [∀ rule, Bracketed (g.run rule)] in
theorem makes_importDecl (h : s.Sound) (hkind : s.kind? = some .importKw) :
    Makes g.importDecl s [nodeOf .importDecl] := by
  unfold importDecl
  refine makes_group h hkind rfl rfl rfl (fun s₁ h₁ _ => makes_importSpec h₁) ?_
  intro s₁ h₁ _
  have hsep : ∀ t : Tree, t.isTokIn [.semicolon] = true →
      (t.isA .importSpec || t.isTokIn [.semicolon]) = true := fun t ht => by simp [ht]
  refine .bind (.here h₁) (makes_importSpec h₁) fun _ s₂ h₂ => ?_
  have h₂ := h₂.mono fun _ hts => hts.many_one fun t ht => (by simp [ht] :
    (t.isA .importSpec || t.isTokIn [.semicolon]) = true)
  refine (makes_separators h₂.sound hsep).imp fun _ s₃ h₃ => ?_
  exact h₂.append h₃ fun _ _ => Fills.many_append_many

theorem makes_typeDecl (hg : g.Fit n) (h : s.Sound) (hkind : s.kind? = some .typeKw)
    (hn : 4 * s.rest.length ≤ n) : Makes g.typeDecl s [nodeOf .typeDecl] := by
  unfold typeDecl
  refine makes_node_bump h hkind rfl rfl fun s₁ s₂ h₂ hless => ?_
  refine .step h₂ (makes_name h₂.sound _) fun _ s₃ h₃ hle₃ => ?_
  refine .step h₃ (makes_eat h₃.sound rfl) fun _ s₄ h₄ hle₄ => ?_
  refine Quiet.isAtAny_bind.mpr (.ite (fun _ => ?_) fun _ => .fault)
  exact (makes_type hg h₄.sound (by omega)).imp fun _ _ h₅ => ⟨_, .head _, h₄.trans h₅⟩

theorem makes_receiver (hg : g.Fit n) (h : s.Sound) (hkind : s.kind? = some .lParen)
    (hn : 4 * s.rest.length ≤ n) : Makes (node .receiver do
      bump
      g.param
      discard <| expect .rParen "')'") s [nodeOf .receiver] := by
  refine makes_node_bump h hkind rfl rfl fun s₁ s₂ h₂ hless => ?_
  refine .step h₂ (makes_param hg h₂.sound (by omega)) fun _ s₃ h₃ _ => ?_
  exact (makes_expect h₃.sound rfl _).imp fun _ _ h₄ => ⟨_, .head _, h₃.trans h₄⟩

theorem makes_funcDecl (hg : g.Fit n) (h : s.Sound) (hkind : s.kind? = some .funcKw)
    (hn : 4 * s.rest.length ≤ n + 1) : Makes g.funcDecl s [nodeOf .funcDecl] := by
  unfold funcDecl
  dsimp only
  refine makes_node_bump h hkind rfl rfl fun s₁ s₂ h₂ hless => Quiet.isAt_bind.mpr ?_
  have hreceiver (hat : (s₂.kind? == some .lParen) = true) := makes_receiver hg h₂.sound
    (beq_iff_eq.mp hat) (by omega)
  refine .optional h₂ hreceiver fun s₃ h₃ hle₃ => ?_
  refine .step h₃ (makes_name h₃.sound _) fun _ s₄ h₄ hle₄ => ?_
  refine .step h₄ (makes_signature hg h₄.sound (by omega)) fun _ s₅ h₅ hle₅ => ?_
  refine Quiet.isAt_bind.mpr (.ite (fun _ => ?_) fun _ => .pure ?_)
  · refine (makes_block hg h₅.sound (by omega)).imp fun _ _ h₆ => ⟨_, .head _, ?_⟩
    exact h₅.trans (h₆.mono fun _ => Fills.opt)
  · exact ⟨_, .head _, h₅.optional _⟩

theorem quiet_atFuncDecl (s : Cursor) : Quiet atFuncDecl s fun _ s' => s' = s := by
  unfold atFuncDecl
  refine Quiet.second?_bind.mpr ?_
  split
  · exact .pure rfl
  · exact fun _ => rfl
  · exact .pure rfl

theorem Adds.ofItem {a : Action Unit} (kind : NodeKind) (hkind : kind.isItem = true)
    (ha : Makes a s [nodeOf kind]) : Makes a s [.one Tree.isItem] :=
  Adds.mono ha fun _ hts => hts.one fun t ht => by simp [Tree.isItem, kind?_of_isA ht, hkind]

theorem isItem_of_isStatement (t : Tree) (h : t.isStatement = true) : t.isItem = true := by
  obtain ⟨kind, hkind, hstatement⟩ := (Option.any_eq_true _ _).mp h
  simp [Tree.isItem, hkind, NodeKind.isItem, hstatement]

theorem makes_item (hg : g.Fit n) (h : s.Sound) (hn : 4 * s.rest.length + 3 < n) :
    Makes g.item s [.one Tree.isItem] := by
  have hstatement : Makes g.statement s [.one Tree.isItem] :=
    Adds.mono (makes_statement hg h hn) fun _ hts => hts.one isItem_of_isStatement
  unfold item
  refine Quiet.kind?_bind.mpr ?_
  split
  · rename_i hkind
    exact Adds.ofItem .importDecl rfl (makes_importDecl h hkind)
  · rename_i hkind
    exact Adds.ofItem .typeDecl rfl (makes_typeDecl hg h hkind (by omega))
  · rename_i hkind
    refine .bind (.here h) (quiet_atFuncDecl s) fun _ s₁ hs₁ => ?_
    subst hs₁
    refine .ite (fun _ => ?_) fun _ => hstatement
    exact Adds.ofItem .funcDecl rfl (makes_funcDecl hg h hkind (by omega))
  · exact quiet_skipTo h g.fuel _ _
  · exact quiet_skipTo h g.fuel _ _
  · exact hstatement

omit [∀ rule, Bracketed (g.run rule)] in
theorem makes_packageClause (h : s.Sound) : Makes g.packageClause s
    [list (·.isA .packageClause) [.semicolon]] := by
  have hsep : ∀ t : Tree, t.isTokIn [.semicolon] = true →
      (t.isA .packageClause || t.isTokIn [.semicolon]) = true := fun t ht => by simp [ht]
  unfold packageClause
  refine Quiet.isAt_bind.mpr (.ite (fun hat => ?_) fun _ => .pure ?_)
  · have hclause : Makes (node .packageClause do
        bump
        name "package name") s [nodeOf .packageClause] :=
      makes_node_bump h (beq_iff_eq.mp hat) rfl rfl fun _ s₂ h₂ _ =>
        (makes_name h₂.sound _).imp fun _ _ h₃ => ⟨_, .head _, h₂.trans h₃⟩
    refine .bind (.here h) hclause fun _ s₁ h₁ => ?_
    have h₁ := h₁.mono fun _ hts => hts.many_one fun t ht => (by simp [ht] :
      (t.isA .packageClause || t.isTokIn [.semicolon]) = true)
    refine (makes_statementEnd h₁.sound hsep).imp fun _ _ h₂ => ?_
    exact h₁.append h₂ fun _ _ => Fills.many_append_many
  · exact (Filled.refl h).mono fun _ => .many_nil

-- Items stand apart, as statements in a block do, but a closing brace is an error here.
theorem quiet_items {s₀ : Cursor} {p : Tree → Bool} (hg : g.Fit n)
    (hn : 4 * s.rest.length + 3 < n) (hsep : ∀ t : Tree, t.isTokIn [.semicolon] = true → p t = true)
    (hitem : ∀ t : Tree, t.isItem = true → p t = true) (h : Between [.rBrace] p s₀ s) :
    Quiet g.items s fun _ s' => Grown s₀ s' (ListRow [] p Tree.isItem) := by
  unfold items
  let I : Cursor → Prop := fun s' => Between [.rBrace] p s₀ s' ∧ s'.rest.length ≤ s.rest.length
  refine quiet_repeatWhile (I := I) (fun _ hI => hI.1.row.mono fun _ _ => trivial)
    (fun _ hI => hI.1.row) ?_ g.fuel s ⟨h, Nat.le_refl _⟩
  rintro s₁ ⟨hI, hle⟩
  refine .bind hI.row (quiet_separators hsep (by simp) hI) fun _ s₂ ⟨hI₂, hle₂⟩ => ?_
  refine Quiet.isAtEnd_bind.mpr (.ite (fun _ => .pure hI₂.row) fun hgo => Quiet.get_bind.mpr ?_)
  rcases hI₂ with hopen | ⟨hrow, hend | hbrace⟩
  · refine .bind hopen (makes_item hg hopen.sound (by omega)) fun _ s₃ h₃ => ?_
    have hle₃ := h₃.length_le
    have hrow : Grown s₀ s₃ (ListRow [] p Tree.isItem) := hopen.append h₃ fun ts us hts hus =>
      hts.member (.one hus hitem isItem_token)
    refine (quiet_nextStatement [.rBrace] _ hsep rfl hrow).imp ?_
    rintro _ s₄ ⟨rfl, hnext, hle₄⟩
    exact ⟨hnext, by omega⟩
  · exact absurd (Option.isNone_iff_eq_none.mpr hend) hgo
  · obtain ⟨kind, hkind, hmem⟩ := (Option.any_eq_true _ _).mp hbrace
    obtain rfl : kind = .rBrace := by simpa using hmem
    refine .bind hrow (Q := fun _ _ => False) ?_ fun _ _ => False.elim
    unfold item
    refine Quiet.kind?_bind.mpr ?_
    rw [hkind]
    exact quiet_skipTo hrow.sound g.fuel _ _

theorem quiet_fileContents (hg : g.Fit n) (h : s.Sound) (hn : 4 * s.rest.length + 3 < n) :
    Quiet g.fileContents s fun _ s' => Ready .sourceFile s s' := by
  let clauses : Tree → Bool := fun t => t.isA .packageClause || t.isTokIn [.semicolon]
  have hclauses : ∀ t : Tree, t.isTokIn [.semicolon] = true → clauses t = true :=
    fun t ht => by simp [clauses, ht]
  let parts : Tree → Bool :=
    fun t => (t.isA .packageClause || t.isItem) || t.isTokIn [.semicolon]
  have hparts : ∀ t : Tree, t.isTokIn [.semicolon] = true → parts t = true :=
    fun t ht => by simp [parts, ht]
  unfold fileContents
  refine .bind (.here h) (makes_separators h hclauses) fun _ s₁ h₁ => ?_
  have hle₁ := h₁.length_le
  refine .bind h₁ (makes_packageClause h₁.sound) fun _ s₂ h₂ => ?_
  have hle₂ := h₂.length_le
  have h₂ : Filled s s₂ [.many clauses] := h₁.append h₂ fun _ _ => Fills.many_append_many
  have hopen : Grown s s₂ (OpenRow [] parts Tree.isItem) := h₂.mono fun ts hts => by
    have hnone : ∀ t ∈ ts, t.isItem = false := fun t ht => by
      cases hblank : t.isBlank with
      | true => exact isItem_token t (isNode_of_isBlank hblank)
      | false =>
          have hmem : t ∈ solid ts := List.mem_filter.mpr ⟨ht, by simp [hblank]⟩
          have hclause : clauses t = true := Fills.many_iff.mp hts t hmem
          exact (Bool.or_eq_true _ _ ▸ hclause).elim (fun hkind => by
            rw [Tree.isItem, kind?_of_isA hkind]; rfl) fun htok => isItem_token t (isNode_of_isTokIn htok)
    refine ⟨⟨Fills.many_iff.mpr fun t ht => ?_, apart_of_none hnone⟩,
      fun t ht => hnone t (List.mem_of_getLast? ht)⟩
    have hclause : clauses t = true := Fills.many_iff.mp hts t ht
    simp only [clauses, Bool.or_eq_true] at hclause
    rcases hclause with hclause | hclause <;> simp [parts, hclause]
  refine .bind hopen (quiet_items hg (by omega) hparts (fun t ht => by simp [parts, ht])
    (.inl hopen)) fun _ s₃ h₃ => ?_
  intro _
  exact ready_of_row (.head _) (h₃.append (filled_flush h₃.sound) fun _ _ hts hus =>
    hts.blanks hus isItem_token)

end Files

-- With fuel for four rules for each token that is left, the rules follow the grammar.
theorem fit_runRule (fuel n : Nat) : (Rules.mk fuel (runRule n)).Fit n := by
  induction n generalizing fuel with
  | zero => exact fun _ _ _ hn => absurd hn (Nat.not_lt_zero _)
  | succ n ih =>
      intro rule s h hn hstart
      let g : Rules := ⟨n + 1, runRule n⟩
      have hg : g.Fit n := ih (n + 1)
      have (rule : Rule) : Bracketed (g.run rule) := inferInstanceAs (Bracketed (runRule n rule))
      cases rule with
      | type => exact makes_typeRule hg h hn
      | expr power => exact makes_exprRule hg h hn power
      | unary => exact makes_unaryRule hg h hn
      | statement => exact makes_statementRule hg h hn
      | ifStmt => exact makes_ifRule hg h hstart hn

end Rules

-- The tree of a text without syntax errors follows the grammar.
theorem parse_conforms {text : String} (hok : (parse text).ok = true) :
    (parse text).tree.conforms = true := by
  have hsound := sound_startCursor text
  set fuel := enoughFuel (Token.tokenize text) with hfuel
  let g : Rules := ⟨fuel, runRule fuel⟩
  have (rule : Rule) : Bracketed (g.run rule) := inferInstanceAs (Bracketed (runRule fuel rule))
  have hquiet : (endCursor text).errors = (startCursor text).errors := by
    simpa [Parse.ok, parse, startCursor] using hok
  have hlength : 4 * (startCursor text).rest.length + 3 < fuel := by
    have hleft := congrArg List.length (left_startCursor text)
    simp only [Cursor.left, List.length_map] at hleft
    simp only [hleft, hfuel, enoughFuel]
    omega
  have hready : Ready .sourceFile ((startCursor text).start .sourceFile)
      (g.fileContents.run ((startCursor text).start .sourceFile)).2 :=
    Rules.quiet_fileContents (Rules.fit_runRule fuel fuel) (sound_start hsound .sourceFile) hlength
      hquiet
  rw [start_eq_startAt hsound] at hready
  have hfile : Filled (startCursor text) (endCursor text) [nodeOf .sourceFile] :=
    filled_finish (Grown.refl (P := (· = [])) hsound rfl)
      (hready.mono fun ts hts us hus => by rwa [hus])
  obtain ⟨-, new, hnew, hconforms, -⟩ := hfile
  obtain ⟨_, -, htree⟩ := tree_parse text
  obtain rfl := hnew.unique htree
  exact hconforms _ (List.mem_singleton_self _)

end SpriteScript.Syntax
