import SpriteScript.Proofs.Conformance.Expressions

-- The grammar of statements.
namespace SpriteScript.Syntax

open Grammar

-- The instances for the parts of a long rule are found in one search.
set_option synthInstance.maxSize 2000

namespace Rules

section Commands

variable {g : Rules} {s s₀ : Cursor}

-- Looking around does not move.
theorem quiet_atCommandArg (s : Cursor) : Quiet atCommandArg s fun _ s' => s' = s := by
  have hbefore : (spaceBefore.run s).2 = s := by
    unfold spaceBefore
    rw [run_get_bind]
    split <;> rfl
  have hafter : (spaceAfter.run s).2 = s := by
    unfold spaceAfter
    rw [run_get_bind]
    split <;> rfl
  intro _
  unfold atCommandArg
  rw [run_kind?_bind]
  split
  all_goals try rfl
  · exact hbefore
  all_goals
    rw [run_bind, run_bind, hbefore]
    exact hafter

-- A name, or selectors on a name.
theorem quiet_commandHead (h : s₀.Sound) (hkind : s₀.kind? = some .ident) :
    Quiet (g.commandHead s₀.builder.checkpoint) s₀ fun _ s' =>
      Filled s₀ s' [.one fun t => t.isA .nameRef || t.isA .selectorExpr] ∧
        s'.rest.length < s₀.rest.length := by
  let I : Cursor → Prop := fun s' =>
    Filled s₀ s' [.one fun t => t.isA .nameRef || t.isA .selectorExpr] ∧
      s'.rest.length < s₀.rest.length
  unfold commandHead
  have hname : Quiet (node .nameRef bump) s₀ fun _ s' => I s' := by
    intro hquiet
    have hmakes : Makes (node .nameRef bump) s₀ [nodeOf .nameRef] :=
      makes_node h fun s₁ h₁ hsolids _ =>
        (quiet_bump h₁ (kind?_of_solids hsolids hkind) rfl).imp fun _ _ h₂ =>
          ready_of_filled rfl (.head _) h₂.1
    obtain ⟨t, hcurrent, -⟩ := current?_of_kind? hkind
    exact ⟨(hmakes hquiet).mono fun _ hts => hts.one fun t ht => by simp [ht],
      node_bump_shrinks h (by simp [hcurrent]) .nameRef⟩
  refine .bind (.here h) hname fun _ s₁ hI => ?_
  refine quiet_repeat (I := I) (fun _ hI => hI.1.mono fun _ _ => trivial) ?_ g.fuel s₁ hI
  rintro s₂ ⟨hI, hless⟩
  refine Quiet.isAt_bind.mpr (Quiet.second?_bind.mpr (.ite (fun hdot => ?_)
    fun _ => .pure ⟨hI, hless⟩))
  obtain ⟨hdot, hsecond⟩ : s₂.kind? = some .dot ∧ s₂.second? = some .ident := by
    simpa using hdot
  have hbase : Filled s₀ s₂ [exprSlot] := hI.mono fun _ hts => hts.one fun t ht =>
    (Bool.or_eq_true _ _ ▸ ht).elim (isExpr_of_isA .nameRef rfl t) (isExpr_of_isA .selectorExpr rfl t)
  have hselector : Quiet (nodeAt s₀.builder.checkpoint .selectorExpr do bump; bump) s₂ fun _ s' =>
      Filled s₀ s' [nodeOf .selectorExpr] ∧ s'.rest.length ≤ s₂.rest.length :=
    quiet_nodeAt hbase rfl fun s₃ h₃ hrest =>
      (makes_bump_bump h₃ (kind?_of_rest hrest hdot) (second?_of_rest hrest hsecond) rfl rfl).imp
        fun _ _ h₄ => ⟨_, h₄, .head _⟩
  refine .bind hI hselector fun _ s₃ ⟨h₃, hle⟩ => .pure ⟨?_, by omega⟩
  exact h₃.mono fun _ hts => hts.one fun t ht => by simp [ht]

end Commands

section Statements

variable {g : Rules} {n : Nat} [∀ rule, Bracketed (g.run rule)] {s s₀ : Cursor}

theorem makes_valueSpec (hg : g.Fit n) (h : s.Sound) (hn : 4 * s.rest.length + 2 < n)
    {kind : NodeKind} (hkind : productions kind = valueSpecProductions)
    (hloose : loose kind = true) : Makes (g.valueSpec kind) s [nodeOf kind] := by
  unfold valueSpec
  refine makes_node h fun s₁ h₁ _ hle => ?_
  refine .step (.refl h₁) (makes_name h₁ _) fun _ s₂ h₂ hle₂ => ?_
  refine .step h₂ (makes_moreNames h₂.sound _) fun _ s₃ h₃ hle₃ => ?_
  have hvalues : ∀ s₄, Filled s₁ s₄ [nodeOf .name, list (·.isA .name) [.comma], .opt Tree.isType] →
      s₄.rest.length ≤ s₃.rest.length →
      Quiet (do if ← eat .eq then g.exprList) s₄ fun _ s' => Ready kind s₁ s' := by
    intro s₄ h₄ hle₄
    refine .bind h₄ (quiet_eat h₄.sound rfl) fun taken s₅ hs₅ => ?_
    rcases hs₅ with ⟨rfl, h₅, hless⟩ | ⟨rfl, rfl⟩
    · have h₅ := h₄.trans h₅
      refine (makes_exprList hg h₅.sound (by omega)).imp fun _ _ h₆ => ?_
      exact ready_of_filled hloose (hkind ▸ .tail _ (.head _)) (h₅.trans h₆)
    · exact .pure (ready_of_filled hloose (hkind ▸ .head _) h₄)
  refine Quiet.isAtAny_bind.mpr (.ite (fun _ => ?_) fun _ => ?_)
  · refine .bind h₃ (makes_type hg h₃.sound (by omega)) fun _ s₄ h₄ => ?_
    have hle₄ := h₄.length_le
    have h₄ : Filled s₃ s₄ [.opt Tree.isType] := h₄.mono fun _ => Fills.opt
    exact hvalues s₄ (h₃.trans h₄) hle₄
  · exact hvalues s₃ (h₃.optional _) (Nat.le_refl _)

theorem makes_specGroup (hg : g.Fit n) (h : s.Sound) (hn : 4 * s.rest.length ≤ n + 1)
    {decl spec : NodeKind} {keyword : TokenKind} (hkind : s.kind? = some keyword)
    (hplain : plain keyword = true) (hdecl : productions decl = declProductions keyword spec)
    (hdecl' : loose decl = true) (hspec : productions spec = valueSpecProductions)
    (hspec' : loose spec = true) : Makes (g.specGroup decl spec) s [nodeOf decl] := by
  unfold specGroup
  refine makes_group h hkind hplain hdecl hdecl' (fun s₁ h₁ hless => ?_) fun s₁ h₁ hless => ?_
  · exact makes_valueSpec hg h₁ (by omega) hspec hspec'
  · have hsep : ∀ t : Tree, t.isTokIn [.semicolon] = true →
        (t.isA spec || t.isTokIn [.semicolon]) = true := fun t ht => by simp [ht]
    refine .bind (.here h₁) (makes_valueSpec hg h₁ (by omega) hspec hspec') fun _ s₂ h₂ => ?_
    have h₂ := h₂.mono fun _ hts => hts.many_one fun t ht => (by simp [ht] :
      (t.isA spec || t.isTokIn [.semicolon]) = true)
    refine Quiet.isAt_bind.mpr (.ite (fun _ => ?_) fun _ => ?_)
    · refine .bind h₂ (makes_statementEnd h₂.sound hsep) fun _ s₃ h₃ => ?_
      have h₃ := h₂.append h₃ fun _ _ => Fills.many_append_many
      refine (makes_separators h₃.sound hsep).imp fun _ s₄ h₄ => ?_
      exact h₃.append h₄ fun _ _ => Fills.many_append_many
    · refine (makes_separators h₂.sound hsep).imp fun _ s₃ h₃ => ?_
      exact h₂.append h₃ fun _ _ => Fills.many_append_many

theorem makes_commandArgs (hg : g.Fit n) (h : s.Sound) (hn : 4 * s.rest.length + 2 < n) :
    Makes g.commandArgs s [nodeOf .argList] := by
  unfold commandArgs
  refine makes_node h fun s₁ h₁ _ hle => ?_
  refine .bind (.here h₁) (makes_expr hg h₁ (by omega)) fun _ s₂ h₂ => ?_
  have hle₂ := h₂.length_le
  refine (quiet_moreExprs hg (by omega) true (h₂.mono fun _ => exprRow)).imp fun _ s₃ h₃ => ?_
  exact ready_of_row (.tail _ (.head _)) h₃

theorem quiet_commandOrExpr (hg : g.Fit n) (h : s.Sound) (hkind : s.kind? = some .ident)
    (hn : 4 * s.rest.length + 3 < n + 1) : Makes g.commandOrExpr s [exprSlot] := by
  unfold commandOrExpr
  refine quiet_checkpoint h fun s₁ h₁ hsolids => ?_
  have hle₁ := h₁.length_le
  refine .bind (.here h₁.sound) (quiet_commandHead h₁.sound (kind?_of_solids hsolids hkind)) ?_
  rintro _ s₂ ⟨h₂, hless⟩
  refine .bind h₂ (quiet_atCommandArg s₂) ?_
  rintro isArg _ rfl
  refine .ite (fun _ => ?_) fun _ => ?_
  · refine .bind h₂ (makes_nodeAt h₂ rfl fun s₃ h₃ hrest => ?_) fun _ s₄ h₄ => .pure ?_
    · have hlength : s₃.rest.length = _ := congrArg List.length hrest
      exact (makes_commandArgs hg h₃ (by omega)).imp fun _ _ h₄ => ⟨_, h₄, .head _⟩
    · exact h₁.trans (h₄.mono fun _ hts => hts.one (isExpr_of_isA .commandCall rfl))
  · have h₂ : Filled s₁ _ [exprSlot] := h₂.mono fun _ hts => hts.one fun t ht =>
      (Bool.or_eq_true _ _ ▸ ht).elim (isExpr_of_isA .nameRef rfl t)
        (isExpr_of_isA .selectorExpr rfl t)
    refine .bind h₂ (quiet_postfixed hg h₂ (by omega)) fun _ s₃ h₃ => ?_
    refine .bind h₃ (quiet_climb hg h₃ (by omega) 0) fun _ s₄ h₄ => .pure ?_
    exact h₁.trans h₄

-- The sign of an assignment and what is assigned.
theorem quiet_assigned (hg : g.Fit n) (h : s.Sound) (hn : 4 * s.rest.length < n + 2)
    {p : Tree → Bool} (hbump : Quiet bump s fun _ s' =>
      Filled s s' [.one p] ∧ s'.rest.length < s.rest.length) :
    Makes (do
      bump
      if ← isAt .rangeKw then
        fault .unexpectedRange
      g.exprList) s [.one p, nodeOf .exprList] := by
  refine .bind (.here h) hbump fun _ s₁ ⟨h₁, hless⟩ => ?_
  refine Quiet.isAt_bind.mpr (.ite (fun _ => .fault_bind h₁) fun _ => ?_)
  exact (makes_exprList hg h₁.sound (by omega)).imp fun _ _ => h₁.trans

theorem quiet_simpleRest (hg : g.Fit n) (h : Filled s₀ s [exprSlot])
    (hn : 4 * s₀.rest.length + 2 < n) : Quiet (g.simpleRest s₀.builder.checkpoint) s fun _ s' =>
      Filled s₀ s' [.one Tree.isSimpleStatement] := by
  have hsimple {s' : Cursor} (kind : NodeKind) (hkind : kind.isSimpleStatement = true)
      (h' : Filled s₀ s' [nodeOf kind]) : Filled s₀ s' [.one Tree.isSimpleStatement] :=
    h'.mono fun _ hts => hts.one (isSimpleStatement_of_isA kind hkind)
  have hle := h.length_le
  unfold simpleRest
  refine Quiet.kind?_bind.mpr (.ite (fun _ => ?_) fun _ => .ite (fun hat => ?_) fun _ =>
    .ite (fun hat => ?_) fun _ => ?_)
  · refine .bind h (quiet_moreExprs hg (by omega) false (h.mono fun _ => exprRow)) fun _ s₁ h₁ => ?_
    refine .bind h₁ (makes_wrap_row h₁ (.head _)) fun _ s₂ h₂ => ?_
    have hle₂ := h₂.length_le
    refine Quiet.isAt_bind.mpr ?_
    cases hdefines : s₂.kind? == some .colonEq with
    | true =>
        refine (makes_nodeAt h₂ rfl fun s₃ h₃ hrest => ?_).imp
          fun _ _ => hsimple .defineStmt rfl
        have hlength : s₃.rest.length = s₂.rest.length := congrArg List.length hrest
        have hkind : s₃.kind? = some .colonEq := kind?_of_rest hrest (beq_iff_eq.mp hdefines)
        refine Quiet.isAtAny_bind.mpr (.ite (fun _ => ?_) fun hnot => absurd rfl hnot)
        exact (quiet_assigned hg h₃ (by omega) (quiet_bump h₃ hkind rfl)).imp
          fun _ _ h₄ => ⟨_, h₄, .head _⟩
    | false =>
        refine (makes_nodeAt h₂ rfl fun s₃ h₃ hrest => ?_).imp
          fun _ _ => hsimple .assignStmt rfl
        have hlength : s₃.rest.length = s₂.rest.length := congrArg List.length hrest
        refine Quiet.isAtAny_bind.mpr (.ite (fun hat => ?_) fun _ => .fault)
        exact (quiet_assigned hg h₃ (by omega) (quiet_bump_in h₃ hat rfl)).imp
          fun _ _ h₄ => ⟨_, h₄, .head _⟩
  · refine (makes_nodeAt h rfl fun s₁ h₁ hrest => ?_).imp
      fun _ _ => hsimple .incDecStmt rfl
    have hat₁ : s₁.kind?.any [.plusPlus, .minusMinus].contains = true := by
      rw [kind?_of_rest hrest rfl]
      rcases (Bool.or_eq_true _ _ ▸ hat) with hat | hat <;> simp [beq_iff_eq.mp hat]
    exact (quiet_bump_in h₁ hat₁ rfl).imp fun _ _ h₂ => ⟨_, h₂.1, .head _⟩
  · refine (makes_nodeAt h rfl fun s₁ h₁ hrest => ?_).imp
      fun _ _ => hsimple .sendStmt rfl
    have hlength : s₁.rest.length = s.rest.length := congrArg List.length hrest
    refine .bind (.here h₁) (quiet_bump h₁ (kind?_of_rest hrest (beq_iff_eq.mp hat)) rfl) ?_
    rintro _ s₂ ⟨h₂, hless⟩
    exact (makes_expr hg h₂.sound (by omega)).imp fun _ _ h₃ => ⟨_, h₂.trans h₃, .head _⟩
  · exact (makes_wrap h rfl (.head _)).imp fun _ _ => hsimple .exprStmt rfl

theorem makes_simpleStmt (hg : g.Fit n) (h : s.Sound) (hn : 4 * s.rest.length + 2 < n)
    (commandAllowed : Bool) : Makes (g.simpleStmt commandAllowed) s [.one Tree.isSimpleStatement] := by
  unfold simpleStmt
  refine quiet_checkpoint h fun s₁ h₁ _ => ?_
  have hle₁ := h₁.length_le
  refine Quiet.isAt_bind.mpr (.ite (fun hat => ?_) fun _ => ?_)
  · have hkind : s₁.kind? = some .ident := beq_iff_eq.mp (Bool.and_eq_true _ _ ▸ hat).2
    refine .bind (.here h₁.sound) (quiet_commandOrExpr hg h₁.sound hkind (by omega)) ?_
    intro isCommand s₂ h₂
    refine .ite (fun _ => ?_) fun _ => ?_
    · refine (makes_wrap h₂ rfl (.head _)).imp fun _ _ h₃ => h₁.trans (h₃.mono ?_)
      exact fun _ hts => hts.one (isSimpleStatement_of_isA .exprStmt rfl)
    · exact (quiet_simpleRest hg h₂ (by omega)).imp fun _ _ => h₁.trans
  · refine .bind (.here h₁.sound) (makes_expr hg h₁.sound (by omega)) fun _ s₂ h₂ => ?_
    exact (quiet_simpleRest hg h₂ (by omega)).imp fun _ _ => h₁.trans

theorem makes_returnStmt (hg : g.Fit n) (h : s.Sound) (hkind : s.kind? = some .returnKw)
    (hn : 4 * s.rest.length < n + 2) : Makes g.returnStmt s [nodeOf .returnStmt] := by
  unfold returnStmt
  refine makes_node_bump h hkind rfl rfl fun s₁ s₂ h₂ hless => ?_
  have hend : Quiet atStatementEnd s₂ fun _ s' => s' = s₂ := fun _ => rfl
  refine .bind h₂ hend ?_
  rintro ended _ rfl
  refine Quiet.isAtAny_bind.mpr (.ite (fun _ => ?_) fun _ => .pure ?_)
  · refine (makes_exprList hg h₂.sound (by omega)).imp fun _ _ h₃ => ⟨_, .head _, h₂.trans ?_⟩
    exact h₃.mono fun _ => Fills.opt
  · exact ⟨_, .head _, h₂.optional _⟩

-- The statement in the head of another one, and the semicolon behind it.
theorem makes_initStmt (hg : g.Fit n) (h : s.Sound) (hn : 4 * s.rest.length + 2 < n) :
    Adds g.initStmt s fun ts => ∃ head ∈ headProductions, Fills head ts := by
  unfold initStmt
  have hhas : Quiet (headHas .semicolon) s fun _ s' => s' = s := fun _ => rfl
  refine .bind (.here h) hhas ?_
  rintro has s rfl
  refine .ite (fun _ => Quiet.isAt_bind.mpr (.ite (fun _ => ?_) fun _ => ?_)) fun _ => ?_
  · refine .bind (.here h) (makes_simpleStmt hg h hn false) fun _ s₁ h₁ => ?_
    have h₁ : Filled s s₁ [.opt Tree.isSimpleStatement] := h₁.mono fun _ => Fills.opt
    refine (makes_expect h₁.sound rfl _).imp fun _ _ h₂ => (h₁.trans h₂).mono fun _ hts => ?_
    exact ⟨_, .tail _ (.head _), hts⟩
  · have h₁ : Filled s s [.opt Tree.isSimpleStatement] := (Filled.refl h).optional _
    refine (makes_expect h₁.sound rfl _).imp fun _ _ h₂ => (h₁.trans h₂).mono fun _ hts => ?_
    exact ⟨_, .tail _ (.head _), hts⟩
  · exact .pure (.refl h ⟨_, .head _, .nil⟩)

theorem makes_ifRule (hg : g.Fit n) (h : s.Sound) (hkind : s.kind? = some .ifKw)
    (hn : 4 * s.rest.length + 2 < n + 1) : Makes g.ifRule s [nodeOf .ifStmt] := by
  unfold ifRule
  refine makes_node_bump h hkind rfl rfl fun s₁ s₂ h₂ hless => ?_
  have hhead : Adds (withLiterals false do
      g.initStmt
      if ← isAt .lBrace then
        fault .missingCondition
      else
        g.expr) s₂ fun ts => ∃ head ∈ headProductions, Fills (head ++ [exprSlot]) ts := by
    refine adds_withLiterals h₂.sound fun s₃ h₃ hrest => ?_
    have hlength : s₃.rest.length = s₂.rest.length := congrArg List.length hrest
    refine .bind (.here h₃) (makes_initStmt hg h₃ (by omega)) fun _ s₄ h₄ => ?_
    obtain ⟨head, hmem, h₄⟩ := h₄.choose
    have hle₄ := h₄.length_le
    refine Quiet.isAt_bind.mpr (.ite (fun _ => .fault) fun _ => ?_)
    refine (makes_expr hg h₄.sound (by omega)).imp fun _ _ h₅ => ?_
    exact (Filled.trans h₄ h₅).mono fun _ hts => ⟨head, hmem, hts⟩
  refine .bind h₂ hhead fun _ s₃ h₃ => ?_
  obtain ⟨head, hmem, h₃⟩ := h₃.choose
  have hle₃ := h₃.length_le
  have h₃ := h₂.trans h₃
  refine .step h₃ (makes_block hg h₃.sound (by omega)) fun _ s₄ h₄ hle₄ => ?_
  refine .bind h₄ (quiet_eat h₄.sound rfl) fun taken s₅ hs₅ => ?_
  rcases hs₅ with ⟨rfl, h₅, hless₅⟩ | ⟨rfl, rfl⟩
  · have h₅ := h₄.trans h₅
    have hlast {s₆ : Cursor} (h₆ : Filled s₅ s₆ [.one fun t => t.isA .ifStmt || t.isA .block]) :
        ∃ slots ∈ productions .ifStmt, Filled s₁ s₆ slots :=
      ⟨_, List.mem_flatMap.mpr ⟨head, hmem, .tail _ (.head _)⟩, by simpa using h₅.trans h₆⟩
    refine Quiet.isAt_bind.mpr (.ite (fun hat => ?_) fun _ => ?_)
    · have hnested : Makes (g.run .ifStmt) s₅ [nodeOf .ifStmt] :=
        hg .ifStmt s₅ h₅.sound (by simp only [Rule.rank]; omega) (beq_iff_eq.mp hat)
      exact hnested.imp fun _ _ h₆ => hlast (h₆.mono fun _ hts => hts.one fun t ht => by simp [ht])
    · refine (makes_block hg h₅.sound (by omega)).imp fun _ _ h₆ => ?_
      exact hlast (h₆.mono fun _ hts => hts.one fun t ht => by simp [ht])
  · exact .pure ⟨_, List.mem_flatMap.mpr ⟨head, hmem, .head _⟩, by simpa using h₄⟩

theorem makes_rangeTargets (hg : g.Fit n) (h : s.Sound) (hn : 4 * s.rest.length + 2 < n) :
    Makes g.rangeTargets s [nodeOf .exprList, tokIn [.colonEq, .eq]] := by
  unfold rangeTargets
  refine quiet_checkpoint h fun s₁ h₁ _ => ?_
  have hle₁ := h₁.length_le
  refine .bind (.here h₁.sound) (makes_expr hg h₁.sound (by omega)) fun _ s₂ h₂ => ?_
  have hle₂ := h₂.length_le
  refine .bind h₂ (quiet_moreExprs hg (by omega) false (h₂.mono fun _ => exprRow)) fun _ s₃ h₃ => ?_
  refine .bind h₃ (makes_wrap_row h₃ (.head _)) fun _ s₄ h₄ => ?_
  refine Quiet.isAt_bind.mpr (Quiet.isAt_bind.mpr (.ite (fun hat => ?_) fun _ => .fault))
  have hat₄ : s₄.kind?.any [.colonEq, .eq].contains = true := by
    rcases (Bool.or_eq_true _ _ ▸ hat) with hat | hat <;> simp [beq_iff_eq.mp hat]
  exact (quiet_bump_in h₄.sound hat₄ rfl).imp fun _ _ h₅ => h₁.trans (h₄.trans h₅.1)

theorem makes_rangeClause (hg : g.Fit n) (h : s.Sound) (hn : 4 * s.rest.length + 2 < n) :
    Makes g.rangeClause s [nodeOf .rangeClause] := by
  unfold rangeClause
  dsimp only
  refine makes_node h fun s₁ h₁ _ hle => ?_
  have hsubject {s₂ : Cursor} {acc : List Slot} (h₂ : Filled s₁ s₂ acc)
      (hacc : acc ++ [tok .rangeKw] ++ [exprSlot] ∈ productions .rangeClause) :
      Quiet (do
        discard <| expect .rangeKw "range"
        g.expr) s₂ fun _ s' => Ready .rangeClause s₁ s' := by
    have hle₂ := h₂.length_le
    refine .step h₂ (makes_expect h₂.sound rfl _) fun _ s₃ h₃ hle₃ => ?_
    refine (makes_expr hg h₃.sound (by omega)).imp fun _ _ h₄ => ?_
    exact ready_of_filled rfl hacc (h₃.trans h₄)
  refine Quiet.isAt_bind.mpr (.ite (fun _ => ?_) fun _ => ?_)
  · refine .step (.refl h₁) (makes_rangeTargets hg h₁ (by omega)) fun _ s₂ h₂ _ => ?_
    exact hsubject h₂ (.tail _ (.head _))
  · exact hsubject (.refl h₁) (.head _)

theorem makes_forClause (hg : g.Fit n) (h : s.Sound) (hn : 4 * s.rest.length + 2 < n) :
    Makes g.forClause s [nodeOf .forClause] := by
  unfold forClause
  dsimp only
  refine makes_node h fun s₁ h₁ _ hle => Quiet.isAt_bind.mpr ?_
  refine .optional (.refl h₁) (fun _ => makes_simpleStmt hg h₁ (by omega) false) ?_
  intro s₂ h₂ hle₂
  refine .step h₂ (makes_expect h₂.sound rfl _) fun _ s₃ h₃ hle₃ => Quiet.isAt_bind.mpr ?_
  refine .optional h₃ (fun _ => makes_expr hg h₃.sound (by omega)) fun s₄ h₄ hle₄ => ?_
  refine .step h₄ (makes_expect h₄.sound rfl _) fun _ s₅ h₅ hle₅ => Quiet.isAt_bind.mpr ?_
  refine .ite (fun _ => ?_) fun _ => .pure ?_
  · refine (makes_simpleStmt hg h₅.sound (by omega) false).imp fun _ _ h₆ => ?_
    exact ready_of_filled rfl (.head _) (h₅.trans (h₆.mono fun _ => Fills.opt))
  · exact ready_of_filled rfl (.head _) (h₅.optional _)

theorem makes_forStmt (hg : g.Fit n) (h : s.Sound) (hkind : s.kind? = some .forKw)
    (hn : 4 * s.rest.length ≤ n + 1) : Makes g.forStmt s [nodeOf .forStmt] := by
  unfold forStmt
  refine makes_node_bump h hkind rfl rfl fun s₁ s₂ h₂ hless => ?_
  have hhead : Makes (withLiterals false do
      if !(← isAt .lBrace) then
        if ← headHas .rangeKw then
          g.rangeClause
        else if ← headHas .semicolon then
          g.forClause
        else
          g.expr) s₂ [.opt fun t => t.isA .rangeClause || t.isA .forClause || t.isExpr] := by
    refine adds_withLiterals h₂.sound fun s₃ h₃ hrest => ?_
    have hlength : s₃.rest.length = s₂.rest.length := congrArg List.length hrest
    have hhas (kind : TokenKind) : Quiet (headHas kind) s₃ fun _ s' => s' = s₃ := fun _ => rfl
    refine Quiet.isAt_bind.mpr (.ite (fun _ => ?_) fun _ => .pure ((Filled.refl h₃).optional _))
    refine .bind (.here h₃) (hhas .rangeKw) fun _ s₄ hs₄ => ?_
    subst hs₄
    refine .ite (fun _ => ?_) fun _ => ?_
    · exact Adds.mono (makes_rangeClause hg h₃ (by omega)) fun _ hts =>
        (hts.one fun t ht => by simp [ht]).opt
    refine .bind (.here h₃) (hhas .semicolon) fun _ s₅ hs₅ => ?_
    subst hs₅
    refine .ite (fun _ => ?_) fun _ => ?_
    · exact Adds.mono (makes_forClause hg h₃ (by omega)) fun _ hts =>
        (hts.one fun t ht => by simp [ht]).opt
    · exact Adds.mono (makes_expr hg h₃ (by omega)) fun _ hts =>
        (hts.one fun t ht => by simp [ht]).opt
  refine .step h₂ hhead fun _ s₃ h₃ hle₃ => ?_
  exact (makes_block hg h₃.sound (by omega)).imp fun _ _ h₄ => ⟨_, .head _, h₃.trans h₄⟩

-- What stands behind the head of a clause.
theorem quiet_clauseBody (hg : g.Fit n) {kind : NodeKind} {slots : List Slot} {s₁ : Cursor}
    (h : Grown s₁ s fun ts => Fills slots ts ∧ apart Tree.isItem ts = true)
    (hn : 4 * s.rest.length ≤ n) (hslots : slots ++ [tok .colon] ++ [statements] ∈ productions kind)
    (hmembers : memberOf kind = Tree.isItem) : Quiet (do
      discard <| expect .colon "':'"
      g.statementList [.caseKw, .defaultKw, .rBrace]) s fun _ s' => Ready kind s₁ s' := by
  refine .bind h (quiet_require h.sound rfl _) fun _ s₂ ⟨h₂, hless⟩ => ?_
  have hcolon : Grown s₁ s₂ fun ts => Fills (slots ++ [tok .colon]) ts ∧
      apart Tree.isItem ts = true ∧ Open Tree.isItem ts := h.append h₂ fun ts us hts hus => by
    have hnone : ∀ t ∈ us, t.isItem = false := fun t ht => isItem_token t (hus.tok_tokens t ht)
    exact ⟨hts.1.append hus, apart_append_none hts.2 hnone, open_append_of_ne_nil hus.ne_nil hnone⟩
  refine (adds_statementList hg h₂.sound (by omega) rfl (by simp)).imp fun _ s₃ h₃ => ?_
  refine ready_of_row hslots ?_
  rw [hmembers]
  exact hcolon.append h₃ fun _ _ ⟨hfills, hapart, hopen⟩ hus => .after hfills hapart hopen hus

-- The clauses of `switch` and `select` differ in what stands behind `case`.
theorem makes_clause (hg : g.Fit n) (h : s.Sound) {kind : NodeKind} {p : Tree → Bool}
    (hat : s.kind? = some .caseKw ∨ s.kind? = some .defaultKw) (hn : 4 * s.rest.length ≤ n)
    (hkind : productions kind = clauseProductions (.one p))
    (hmembers : memberOf kind = Tree.isItem)
    (hhead : ∀ s₁ : Cursor, s₁.Sound → s₁.rest.length < s.rest.length →
      Makes (if kind == .commClause then g.simpleStmt false else g.exprList) s₁ [.one p]) :
    Makes (g.clause kind) s [nodeOf kind] := by
  unfold clause
  dsimp only
  refine makes_node h fun s₁ h₁ hsolids hle => ?_
  rcases hat with hat | hat
  · refine .bind (.here h₁) (quiet_eat_at h₁ (kind?_of_solids hsolids hat) rfl) ?_
    rintro _ s₂ ⟨rfl, h₂, hless⟩
    have hbody {s₃ : Cursor} (h₃ : Filled s₂ s₃ [.one p]) : Quiet (do
        discard <| expect .colon "':'"
        g.statementList [.caseKw, .defaultKw, .rBrace]) s₃ fun _ s' => Ready kind s₁ s' := by
      have hle₃ := h₃.length_le
      have hrow : Grown s₁ s₃ fun ts => Fills ([tok .caseKw] ++ [.one p]) ts ∧
          apart Tree.isItem ts = true := h₂.append h₃ fun ts us hts hus => by
        have hnone : ∀ t ∈ ts, t.isItem = false := fun t ht => isItem_token t (hts.tok_tokens t ht)
        exact ⟨hts.append hus, apart_append (apart_of_none hnone)
          (fun t ht => hnone t (List.mem_of_getLast? ht)) (apart_of_one hus isItem_token)⟩
      exact quiet_clauseBody hg hrow (by omega) (by rw [hkind]; exact .head _) hmembers
    have hhead := hhead s₂ h₂.sound (by omega)
    simp only [if_true]
    cases hcomm : kind == .commClause with
    | true =>
        simp only [hcomm, if_true] at hhead ⊢
        exact .bind h₂ hhead fun _ _ => hbody
    | false =>
        simp only [hcomm, Bool.false_eq_true, if_false] at hhead ⊢
        exact .bind h₂ hhead fun _ _ => hbody
  · have hdefault := kind?_of_solids hsolids hat
    refine .bind (.here h₁) (quiet_eat_not (by simp [hdefault])) ?_
    rintro _ _ ⟨rfl, rfl⟩
    refine .bind (.here h₁) (quiet_bump h₁ hdefault rfl) fun _ s₂ ⟨h₂, hless⟩ => ?_
    have hrow : Grown _ s₂ fun ts => Fills [tok .defaultKw] ts ∧ apart Tree.isItem ts = true :=
      h₂.mono fun ts hts => ⟨hts, apart_of_none fun t ht => isItem_token t (hts.tok_tokens t ht)⟩
    exact quiet_clauseBody hg hrow (by omega) (by rw [hkind]; exact .tail _ (.head _)) hmembers

-- The clauses between the braces of `switch` and `select`.
theorem makes_clauses (hg : g.Fit n) (h : s.Sound) {kind : NodeKind} {p : Tree → Bool}
    (hn : 4 * s.rest.length ≤ n + 1)
    (hkind : productions kind = clauseProductions (.one p))
    (hmembers : memberOf kind = Tree.isItem)
    (hhead : ∀ s₁ : Cursor, s₁.Sound → s₁.rest.length < s.rest.length →
      Makes (if kind == .commClause then g.simpleStmt false else g.exprList) s₁ [.one p]) :
    Makes (g.clauses kind) s [tok .lBrace, list (·.isA kind) [.semicolon], tok .rBrace] := by
  unfold clauses
  refine .bind (.here h) (quiet_expect h rfl _) ?_
  rintro _ s₁ ⟨rfl, h₁, hless⟩
  have hsep : ∀ t : Tree, t.isTokIn [.semicolon] = true →
      (t.isA kind || t.isTokIn [.semicolon]) = true := fun t ht => by simp [ht]
  refine .step h₁ (makes_separators h₁.sound hsep) fun _ s₂ h₂ hle₂ => ?_
  refine .bind h₂ (Q := fun _ s' => Filled s s' ([tok .lBrace] ++
    [list (·.isA kind) [.semicolon]])) ?_ fun _ s₃ h₃ => ?_
  · refine quiet_repeatWhile (I := fun s' => Filled s s' ([tok .lBrace] ++
      [list (·.isA kind) [.semicolon]]) ∧ s'.rest.length < s.rest.length)
      (fun _ hI => hI.1.mono fun _ _ => trivial) (fun _ hI => hI.1) ?_ g.fuel s₂ ⟨h₂, by omega⟩
    rintro s₄ ⟨hI, hless₄⟩
    refine Quiet.isAtEnd_bind.mpr (Quiet.isAt_bind.mpr (.ite (fun _ => .pure hI) fun _ => ?_))
    refine Quiet.get_bind.mpr (Quiet.isAt_bind.mpr (Quiet.isAt_bind.mpr
      (.ite (fun hat => ?_) fun _ => ?_)))
    · have hat : s₄.kind? = some .caseKw ∨ s₄.kind? = some .defaultKw := by simpa using hat
      refine .bind hI (makes_clause hg hI.sound hat (by omega) hkind hmembers fun s₅ h₅ hless₅ =>
        hhead s₅ h₅ (by omega)) fun _ s₅ h₅ => ?_
      have hle₅ := h₅.length_le
      have h₅ := hI.extend (h₅.mono fun _ hts => hts.many_one fun t ht => (by simp [ht] :
        (t.isA kind || t.isTokIn [.semicolon]) = true))
      refine .bind h₅ (makes_separators h₅.sound hsep) fun _ s₆ h₆ => Quiet.get_bind.mpr (.pure ?_)
      have hle₆ := h₆.length_le
      have h₆ := h₅.extend h₆
      split
      · exact ⟨h₆, by omega⟩
      · exact h₆
    · exact .bind hI (Q := fun _ _ => False) (quiet_skipTo hI.sound g.fuel _ _)
        fun _ _ => False.elim
  · exact (makes_expect h₃.sound rfl _).imp fun _ _ h₄ => h₃.trans h₄

theorem makes_switchStmt (hg : g.Fit n) (h : s.Sound) (hkind : s.kind? = some .switchKw)
    (hn : 4 * s.rest.length ≤ n + 1) : Makes g.switchStmt s [nodeOf .switchStmt] := by
  unfold switchStmt
  refine makes_node_bump h hkind rfl rfl fun s₁ s₂ h₂ hless => ?_
  have hhead : Adds (withLiterals false do
      g.initStmt
      if !(← isAt .lBrace) then
        g.expr) s₂ fun ts => ∃ head ∈ headProductions, Fills (head ++ [.opt Tree.isExpr]) ts := by
    refine adds_withLiterals h₂.sound fun s₃ h₃ hrest => ?_
    have hlength : s₃.rest.length = s₂.rest.length := congrArg List.length hrest
    refine .bind (.here h₃) (makes_initStmt hg h₃ (by omega)) fun _ s₄ h₄ => ?_
    obtain ⟨head, hmem, h₄⟩ := h₄.choose
    have hle₄ := h₄.length_le
    refine Quiet.isAt_bind.mpr (.ite (fun _ => ?_) fun _ => .pure ?_)
    · refine (makes_expr hg h₄.sound (by omega)).imp fun _ _ h₅ => ?_
      have h₅ := Filled.trans h₄ (h₅.mono fun _ => Fills.opt)
      exact h₅.mono fun _ hts => ⟨head, hmem, hts⟩
    · exact (Filled.optional h₄ Tree.isExpr).mono fun _ hts => ⟨head, hmem, hts⟩
  refine .bind h₂ hhead fun _ s₃ h₃ => ?_
  obtain ⟨head, hmem, h₃⟩ := h₃.choose
  have hle₃ := h₃.length_le
  have h₃ := h₂.trans h₃
  refine (makes_clauses hg h₃.sound (by omega) rfl rfl fun s₄ h₄ hless₄ => ?_).imp ?_
  · exact makes_exprList hg h₄ (by omega)
  · exact fun _ _ h₄ => ⟨_, List.mem_map.mpr ⟨head, hmem, rfl⟩, by simpa using h₃.trans h₄⟩

theorem makes_selectStmt (hg : g.Fit n) (h : s.Sound) (hkind : s.kind? = some .selectKw)
    (hn : 4 * s.rest.length ≤ n + 1) : Makes g.selectStmt s [nodeOf .selectStmt] := by
  unfold selectStmt
  refine makes_node_bump h hkind rfl rfl fun s₁ s₂ h₂ hless => ?_
  refine (makes_clauses hg h₂.sound (by omega) rfl rfl fun s₃ h₃ hless₃ => ?_).imp ?_
  · exact makes_simpleStmt hg h₃ (by omega) false
  · exact fun _ _ h₃ => ⟨_, .head _, h₂.trans h₃⟩

theorem makes_branchStmt (h : s.Sound) {keyword : TokenKind} (hkind : s.kind? = some keyword)
    (hplain : plain keyword = true) (hmem : keyword ∈ [TokenKind.breakKw, .continueKw]) :
    Makes (node .branchStmt bump) s [nodeOf .branchStmt] :=
  makes_node h fun _ h₁ hsolids _ =>
    (quiet_bump h₁ (kind?_of_solids hsolids hkind) hplain).imp fun _ _ h₂ =>
      ready_of_filled rfl (.head _)
        (h₂.1.mono fun _ hts => hts.one fun _ ht => isTokIn_of_isTok ht hmem)

theorem makes_statementRule (hg : g.Fit n) (h : s.Sound) (hn : 4 * s.rest.length + 3 < n + 1) :
    Makes g.statementRule s [.one Tree.isStatement] := by
  unfold statementRule
  refine Quiet.kind?_bind.mpr ?_
  split
  · rename_i hkind
    exact Adds.ofStatement .varDecl rfl
      (makes_specGroup hg h (by omega) hkind rfl rfl rfl rfl rfl)
  · rename_i hkind
    exact Adds.ofStatement .constDecl rfl
      (makes_specGroup hg h (by omega) hkind rfl rfl rfl rfl rfl)
  · rename_i hkind
    exact Adds.ofStatement .returnStmt rfl (makes_returnStmt hg h hkind (by omega))
  · rename_i hkind
    exact Adds.ofStatement .ifStmt rfl
      (hg .ifStmt s h (by simp only [Rule.rank]; omega) hkind)
  · rename_i hkind
    exact Adds.ofStatement .forStmt rfl (makes_forStmt hg h hkind (by omega))
  · rename_i hkind
    exact Adds.ofStatement .switchStmt rfl (makes_switchStmt hg h hkind (by omega))
  · rename_i hkind
    exact Adds.ofStatement .selectStmt rfl (makes_selectStmt hg h hkind (by omega))
  · rename_i hkind
    exact Adds.ofStatement .branchStmt rfl (makes_branchStmt h hkind rfl (by simp))
  · rename_i hkind
    exact Adds.ofStatement .branchStmt rfl (makes_branchStmt h hkind rfl (by simp))
  · exact Adds.ofStatement .block rfl (makes_block hg h (by omega))
  all_goals try exact quiet_skipTo h g.fuel _ _
  exact Adds.mono (makes_simpleStmt hg h (by omega) true) fun _ hts => hts.one isStatement_of_simple

end Statements

end Rules

end SpriteScript.Syntax
