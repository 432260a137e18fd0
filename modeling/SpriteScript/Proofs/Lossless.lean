import SpriteScript.Proofs.Bracketing

-- The tree of a text holds all of it.
namespace SpriteScript.Syntax

-- The instances for the parts of a long rule are found in one search.
set_option synthInstance.maxSize 1000

theorem sound_run {α : Type} (a : Action α) [ha : Bracketed a] {s : Cursor} (h : s.Sound) :
    (a.run s).2.Sound := by
  obtain ⟨_, hnew⟩ := ha.grows s h
  exact hnew.sound

theorem length_run_le {α : Type} (a : Action α) [ha : Bracketed a] {s : Cursor} (h : s.Sound) :
    (a.run s).2.rest.length ≤ s.rest.length := by
  obtain ⟨_, hnew⟩ := ha.grows s h
  exact hnew.length_le

theorem node_bump_shrinks {s : Cursor} (h : s.Sound) (hcurrent : s.current? ≠ none)
    (kind : NodeKind) : ((node kind bump).run s).2.rest.length < s.rest.length := by
  have hflush := grows_flush h
  have hcurrent' : (s.flush.start kind).current? ≠ none :=
    fun hnone => hcurrent ((current?_flush _).symm.trans hnone)
  exact Nat.lt_of_lt_of_le (bump_shrinks hcurrent') hflush.length_le

theorem takeSome_shrinks {s : Cursor} (h : s.Sound) (hcurrent : s.current? ≠ none) (fuel : Nat)
    (stops : List TokenKind) : ((takeSome fuel stops).run s).2.rest.length < s.rest.length := by
  obtain ⟨_, hloop⟩ := (inferInstance : Bracketed (takeUntil fuel stops)).grows s h
  unfold takeSome
  rw [run_get_bind, run_bind, run_get_bind]
  by_cases hsame : ((takeUntil fuel stops).run s).2.offset = s.offset
  · have hrest := hloop.rest_eq hsame
    rw [if_pos (beq_iff_eq.mpr hsame), ← hrest]
    exact bump_shrinks (current?_of_rest_eq hrest ▸ hcurrent)
  · rw [if_neg (mt beq_iff_eq.mp hsame)]
    exact hloop.length_lt hsame

-- Skipping takes at least one token.
theorem skipTo_shrinks {s : Cursor} (h : s.Sound) (hcurrent : s.current? ≠ none) (fuel : Nat)
    (f : Fault) (stops : List TokenKind) :
    ((skipTo fuel f stops).run s).2.rest.length < s.rest.length := by
  have hreport : (s.report f).Sound := (grows_report h f).sound
  have hflush := grows_flush hreport
  have hstart := sound_start hflush.sound .error
  have hlength : (s.report f).flush.rest.length ≤ s.rest.length := hflush.length_le
  have hcurrent' : ((s.report f).flush.start .error).current? ≠ none :=
    fun hnone => hcurrent ((current?_flush (s.report f)).symm.trans hnone)
  have htaken := takeSome_shrinks hstart hcurrent' fuel stops
  exact Nat.lt_of_lt_of_le htaken hlength

-- Behind the last token of the grammar no action finds another one.
theorem ended_run {α : Type} (a : Action α) [ha : Bracketed a] {s : Cursor} (h : s.Sound)
    (hend : s.current? = none) : (a.run s).2.current? = none := by
  obtain ⟨_, hnew⟩ := ha.grows s h
  have hskipped : ∀ l ∈ s.rest, l.skipped = true := by
    simpa [Cursor.solids] using current?_eq_none.mp hend
  have hrest : ∀ l ∈ (a.run s).2.rest, l.skipped = true :=
    fun l hl => hskipped l (hnew.suffix.subset hl)
  exact current?_eq_none.mpr (by simpa [Cursor.solids] using hrest)

-- A loop gets to the end of the text, if each turn takes a token and only the end stops it.
theorem repeatWhile_ends {step : Action Bool} [Bracketed step]
    (hmore : ∀ s : Cursor, s.Sound → (step.run s).1 = true →
      (step.run s).2.rest.length < s.rest.length ∨ (step.run s).2.current? = none)
    (hstop : ∀ s : Cursor, s.Sound → (step.run s).1 = false → (step.run s).2.current? = none)
    (fuel : Nat) : ∀ {s : Cursor}, s.Sound → s.rest.length < fuel →
      ((repeatWhile fuel step).run s).2.current? = none := by
  induction fuel with
  | zero => intro s _ hlength; omega
  | succ fuel ih =>
      intro s h hlength
      rw [repeatWhile, run_bind]
      have hsound := sound_run step h
      cases hturn : (step.run s).1 with
      | false => exact hstop s h hturn
      | true =>
          cases hmore s h hturn with
          | inl hless => exact ih hsound (by omega)
          | inr hend => exact ended_run (repeatWhile fuel step) hsound hend

-- With nothing to stop at all of the text is taken.
theorem takeUntil_ends {s : Cursor} (h : s.Sound) {fuel : Nat} (hfuel : s.rest.length < fuel) :
    ((takeUntil fuel []).run s).2.current? = none := by
  unfold takeUntil
  refine repeatWhile_ends ?_ ?_ fuel h hfuel
  · intro s _ hturn
    rw [run_isAtEnd_bind, run_isAtAny_bind] at hturn ⊢
    split at hturn
    · cases hturn
    case isFalse hmore =>
        rw [if_neg hmore]
        exact .inl (bump_shrinks fun hnone => hmore (by simp [hnone]))
  · intro s _ hturn
    rw [run_isAtEnd_bind, run_isAtAny_bind] at hturn ⊢
    split at hturn
    case isTrue hend =>
        rw [if_pos hend]
        have hnone : s.kind?.any [].contains = false := by cases s.kind? <;> rfl
        have hcurrent : s.current? = none := by simpa [hnone] using hend
        exact hcurrent
    · cases hturn

namespace Rules

variable (g : Rules)

-- After a guarded step something was taken or nothing is left.
theorem unlessMoved_shrinks {s₀ s : Cursor} {new : List Tree} (h : Grows s₀ s new) :
    ((g.unlessMoved s₀.offset).run s).2.rest.length < s₀.rest.length ∨
      ((g.unlessMoved s₀.offset).run s).2.current? = none := by
  unfold unlessMoved
  rw [run_kind?_bind]
  cases hkind : s.kind? with
  | none =>
      exact .inr (by simpa [Cursor.kind?] using hkind : s.current? = none)
  | some kind =>
      refine .inl ?_
      have hcurrent : s.current? ≠ none := fun hnone => by simp [Cursor.kind?, hnone] at hkind
      dsimp only
      rw [run_get_bind]
      by_cases hsame : s.offset = s₀.offset
      · rw [if_pos (beq_iff_eq.mpr hsame), ← h.rest_eq hsame]
        exact skipTo_shrinks h.sound hcurrent g.fuel _ _
      · rw [if_neg (mt beq_iff_eq.mp hsame)]
        exact h.length_lt hsame

variable [∀ rule, Bracketed (g.run rule)]

-- The items of a file reach the end of its text.
theorem items_ends {s : Cursor} (h : s.Sound) (hlength : s.rest.length < g.fuel) :
    (g.items.run s).2.current? = none := by
  unfold items
  refine repeatWhile_ends ?_ ?_ g.fuel h hlength
  · intro s h hturn
    have hsound := sound_run g.separators h
    have hle := length_run_le g.separators h
    rw [run_bind, run_isAtEnd_bind] at hturn ⊢
    generalize (g.separators.run s).2 = s₁ at hsound hle hturn ⊢
    cases hend : s₁.current?.isNone with
    | true => simp [hend] at hturn
    | false =>
        simp only [Bool.false_eq_true, if_false]
        rw [run_get_bind]
        have hitem := (inferInstance : Bracketed (g.item >>= fun _ => g.statementEnd)).grows s₁ hsound
        obtain ⟨_, hitem⟩ := hitem
        cases g.unlessMoved_shrinks hitem with
        | inl hless => exact .inl (Nat.lt_of_lt_of_le hless hle)
        | inr hnone => exact .inr hnone
  · intro s h hturn
    rw [run_bind, run_isAtEnd_bind] at hturn ⊢
    generalize (g.separators.run s).2 = s₁ at hturn ⊢
    cases hend : s₁.current?.isNone with
    | true => exact (by simpa using hend : s₁.current? = none)
    | false => simp [hend] at hturn

-- The contents of a file are all of its text.
theorem fileContents_ends {s : Cursor} (h : s.Sound) (hlength : s.rest.length < g.fuel) :
    (g.fileContents.run s).2.rest = [] := by
  unfold fileContents
  rw [run_bind, run_bind, run_bind]
  have hsound := sound_run g.separators h
  have hle := length_run_le g.separators h
  generalize (g.separators.run s).2 = s₁ at hsound hle ⊢
  have hsound' := sound_run g.packageClause hsound
  have hle' := length_run_le g.packageClause hsound
  generalize (g.packageClause.run s₁).2 = s₂ at hsound' hle' ⊢
  have hend := g.items_ends hsound' (by omega)
  exact (rest_flush _).trans (current?_eq_none.mp hend)

end Rules

theorem map_token_markLineEnds (canEnd : Bool) (tokens : List Token) :
    (markLineEnds canEnd tokens).map (·.token) = tokens := by
  induction tokens generalizing canEnd with
  | nil => rfl
  | cons t rest ih =>
      unfold markLineEnds
      split
      · simp [ih]
      · split <;> simp [ih]

theorem skips_markLineEnds (canEnd : Bool) (tokens : List Token) :
    ∀ l ∈ markLineEnds canEnd tokens, l.skipped = true → l.token.kind.isTrivia = true := by
  induction tokens generalizing canEnd with
  | nil => simp [markLineEnds]
  | cons t rest ih =>
      unfold markLineEnds
      split
      · rename_i hkind
        simp only [List.mem_cons, forall_eq_or_imp]
        exact ⟨fun _ => by rw [hkind]; rfl, ih false⟩
      · split
        · rename_i htrivia
          simp only [List.mem_cons, forall_eq_or_imp]
          exact ⟨fun _ => htrivia, ih canEnd⟩
        · simp only [List.mem_cons, forall_eq_or_imp]
          exact ⟨fun hskip => absurd hskip (by simp), ih _⟩

theorem left_startCursor (text : String) : (startCursor text).left = Token.tokenize text :=
  map_token_markLineEnds false _

-- A parse can start at any row of tokens.

theorem offset_of_row {tokens : List Token} {textEnd : Nat} (h : Token.Row 0 tokens textEnd) :
    ({ rest := markLineEnds false tokens, textEnd } : Cursor).offset = 0 := by
  have htokens := map_token_markLineEnds false tokens
  unfold Cursor.offset
  cases hrest : markLineEnds false tokens with
  | nil =>
      rw [hrest] at htokens
      subst htokens
      exact Eq.symm h
  | cons l rest =>
      rw [hrest] at htokens
      subst htokens
      exact h.1

theorem sound_of_row {tokens : List Token} {textEnd : Nat} (h : Token.Row 0 tokens textEnd) :
    ({ rest := markLineEnds false tokens, textEnd } : Cursor).Sound where
  row := by
    rw [offset_of_row h, Cursor.left, map_token_markLineEnds]
    exact h
  skips := skips_markLineEnds false tokens
  floor_le := Nat.zero_le _

theorem offset_startCursor (text : String) : (startCursor text).offset = 0 :=
  offset_of_row (Token.tokenize_row text)

theorem sound_startCursor (text : String) : (startCursor text).Sound := sound_of_row (Token.tokenize_row text)

theorem length_startCursor (text : String) :
    (startCursor text).rest.length = (Token.tokenize text).length := by
  simpa [Cursor.left] using congrArg List.length (left_startCursor text)

theorem run_sourceFile (g : Rules) (s : Cursor) :
    (g.sourceFile.run s).2 = (g.fileContents.run (s.start .sourceFile)).2.finish := rfl

-- A file holds what its contents are made of.
theorem Grows.sourceFile {g : Rules} {s : Cursor} {children : List Tree} (h : s.Sound)
    (hchildren : Grows (s.start .sourceFile) (g.fileContents.run (s.start .sourceFile)).2 children) :
    Grows s (g.sourceFile.run s).2 [.node .sourceFile s.offset children] := by
  have hstart := start_eq_startAt h .sourceFile
  rw [hstart] at hchildren
  rw [run_sourceFile, hstart]
  exact grows_node h (.refl h) hchildren

-- A parse makes one tree, that of the file.
theorem grows_sourceFile {P : Tree → Prop} [hP : Tree.Inherits P .sourceFile] (g : Rules)
    [hg : Yields P g.fileContents] {s : Cursor} (h : s.Sound) : ∃ children,
      Grows s (g.sourceFile.run s).2 [.node .sourceFile s.offset children] ∧
      P (.node .sourceFile s.offset children) := by
  obtain ⟨children, hchildren, hall⟩ := hg.yields _ (sound_start h .sourceFile)
  exact ⟨children, hchildren.sourceFile h, hP.node _ _ hall⟩

theorem holds_root {P : Tree → Prop} [Tree.Inherits P .sourceFile] (g : Rules) [Yields P g.fileContents]
    {s : Cursor} (h : s.Sound) (hempty : s.builder.forest = #[]) :
    P (g.sourceFile.run s).2.builder.root := by
  obtain ⟨children, hgrows, htree⟩ := grows_sourceFile (P := P) g h
  have hforest : (g.sourceFile.run s).2.builder.forest = #[.node .sourceFile s.offset children] :=
    Array.toList_inj.mp (by simpa [hempty] using hgrows.forest)
  simpa [Builder.root, hforest] using htree

theorem root_parse (text : String) : (parse text).tree = (endCursor text).builder.root := by rw [parse]

theorem endCursor_eq (text : String) : endCursor text = ((Rules.mk (enoughFuel (Token.tokenize text))
    (runRule (enoughFuel (Token.tokenize text)))).sourceFile.run (startCursor text)).2 := by
  rw [endCursor]

-- What all rules yield, the tree of a text is.
theorem holds_parse {P : Tree → Prop} [Tree.Hereditary P] [Tree.Inherits P .unaryExpr]
    [Tree.Inherits P .binaryExpr] (text : String) : P (parse text).tree := by
  rw [root_parse, endCursor_eq]
  generalize enoughFuel (Token.tokenize text) = fuel
  have (rule : Rule) : Yields P ((Rules.mk fuel (runRule fuel)).run rule) :=
    inferInstanceAs (Yields P (runRule fuel rule))
  exact holds_root _ (sound_startCursor text) rfl

-- From its start to its end a parse reads all of the text.
theorem grows_endCursor (text : String) : ∃ children,
    Grows (startCursor text) (endCursor text) [.node .sourceFile 0 children] ∧
      (endCursor text).rest = [] := by
  have hsound := sound_startCursor text
  have hlength : (startCursor text).rest.length < enoughFuel (Token.tokenize text) := by
    rw [length_startCursor, enoughFuel]
    omega
  rw [endCursor_eq]
  generalize enoughFuel (Token.tokenize text) = fuel at hlength
  have (rule : Rule) : Bracketed ((Rules.mk fuel (runRule fuel)).run rule) :=
    inferInstanceAs (Bracketed (runRule fuel rule))
  obtain ⟨children, hgrows, -⟩ := grows_sourceFile (P := Tree.Any) (Rules.mk fuel (runRule fuel)) hsound
  rw [offset_startCursor] at hgrows
  refine ⟨children, hgrows, ?_⟩
  rw [run_sourceFile]
  exact Rules.fileContents_ends _ (sound_start hsound .sourceFile) hlength

-- What is left on the builder is the tree of the parse.
theorem forest_endCursor (text : String) :
    (endCursor text).builder.forest = #[(parse text).tree] := by
  obtain ⟨children, h, -⟩ := grows_endCursor text
  have hforest : (endCursor text).builder.forest = #[.node .sourceFile 0 children] :=
    Array.toList_inj.mp (by simpa [startCursor] using h.forest)
  simp [parse, Builder.root, hforest]

theorem tree_parse (text : String) : ∃ children,
    (parse text).tree = .node .sourceFile 0 children ∧
      Grows (startCursor text) (endCursor text) [(parse text).tree] := by
  obtain ⟨children, h, -⟩ := grows_endCursor text
  have hforest : #[(parse text).tree].toList = [] ++ [.node .sourceFile 0 children] :=
    forest_endCursor text ▸ h.forest
  have htree : (parse text).tree = .node .sourceFile 0 children := by simpa using hforest
  exact ⟨children, htree, htree ▸ h⟩

theorem grows_parse (text : String) : Grows (startCursor text) (endCursor text) [(parse text).tree] := by
  obtain ⟨_, -, h⟩ := tree_parse text
  exact h

theorem rest_endCursor (text : String) : (endCursor text).rest = [] := by
  obtain ⟨_, -, hend⟩ := grows_endCursor text
  exact hend

theorem offset_endCursor (text : String) : (endCursor text).offset = text.utf8ByteSize := by
  simp [Cursor.offset, rest_endCursor, (grows_parse text).textEnd, startCursor]

theorem kind?_parse (text : String) : (parse text).tree.kind? = some .sourceFile := by
  obtain ⟨_, htree, -⟩ := tree_parse text
  rw [htree, Tree.kind?]

theorem tokens_parse (text : String) : (parse text).tree.tokens = Token.tokenize text := by
  have htaken := (grows_parse text).taken
  have hleft : (endCursor text).left = [] := by rw [Cursor.left, rest_endCursor, List.map_nil]
  rw [left_startCursor, hleft] at htaken
  simpa [Tree.tokens.tokensOfAll] using htaken.symm

theorem text_parse (text : String) : (parse text).tree.text = text := by
  calc (parse text).tree.text = Token.texts (parse text).tree.tokens := rfl
    _ = Token.texts (Token.tokenize text) := by rw [tokens_parse]
    _ = text := Token.texts_tokenize text

theorem parse_covers (text : String) : (parse text).tree.Covers 0 text.utf8ByteSize := by
  have hcovers := Tree.coversAll_singleton.mp (grows_parse text).covers
  rwa [offset_startCursor, offset_endCursor] at hcovers

-- For every text the calls on the builder are well bracketed and leave one tree, that of the
-- file. Its tokens are those of the text, with nothing added, left out or moved.
theorem parse_lossless (text : String) :
    (endCursor text).builder.lawful = true ∧ (endCursor text).builder.opened = [] ∧
      (endCursor text).builder.forest = #[(parse text).tree] ∧
      (parse text).tree.kind? = some .sourceFile ∧
      (parse text).tree.tokens = Token.tokenize text ∧
      (parse text).tree.text = text ∧
      ∀ before t after, (parse text).tree.tokens = before ++ t :: after →
        t.offset = (Token.texts before).utf8ByteSize := by
  have h := grows_parse text
  refine ⟨h.lawful, h.opened, forest_endCursor text, kind?_parse text, tokens_parse text, text_parse text, ?_⟩
  intro before t after hsplit
  have hrow := (parse_covers text).row
  rw [hsplit, Token.Row.append_iff] at hrow
  obtain ⟨mid, hbefore, hmid, -⟩ := hrow
  rw [hmid, hbefore.stop_eq, Nat.zero_add]

end SpriteScript.Syntax
