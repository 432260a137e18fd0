import SpriteScript.Proofs.Quiet

-- A text without syntax errors has a tree that follows the grammar: names, separators and lists.
namespace SpriteScript.Syntax

open Grammar

-- The instances for the parts of a long rule are found in one search.
set_option synthInstance.maxSize 1000

section Moves

variable {s : Cursor}

theorem conforms_newline_semicolon {t : Token} (h : t.kind = .newline ∨ t.kind = .semicolon) :
    (Tree.token t).conforms = true := by
  rcases h with h | h <;> simp [Tree.conforms, h]

-- Line feeds and semicolons are taken, and nothing else.
theorem adds_eatWhile (h : s.Sound) (fuel : Nat) {kinds : List TokenKind}
    (hkinds : ∀ kind ∈ kinds, kind = .newline ∨ kind = .semicolon) :
    Adds (eatWhile fuel kinds) s fun ts => ∀ t ∈ ts, t.isBlank = true ∨ t.isTokIn kinds = true := by
  let P : List Tree → Prop := fun ts => ∀ t ∈ ts, t.isBlank = true ∨ t.isTokIn kinds = true
  unfold eatWhile
  refine quiet_repeatWhile (I := fun s' => Grown s s' P) (fun _ hI => hI.mono fun _ _ => trivial)
    (fun _ hI => hI) ?_ fuel s (.refl h (by simp [P]))
  intro s₁ hI
  rw [Quiet.isAtAny_bind]
  refine .ite (fun hat => ?_) fun _ => .pure hI
  obtain ⟨t, hcurrent, hmem⟩ : ∃ t, s₁.current? = some t ∧ t.kind ∈ kinds := by
    obtain ⟨kind, hkind, hmem⟩ := (Option.any_eq_true _ _).mp hat
    obtain ⟨t, hcurrent, rfl⟩ := current?_of_kind? hkind
    exact ⟨t, hcurrent, by simpa using hmem⟩
  have hbump := grown_bump hI.sound hcurrent (conforms_newline_semicolon (hkinds _ hmem))
  refine .bind (.here hI.sound) (Q := fun _ s' => Grown s s' P) (fun _ => ?_) fun _ _ hs' => .pure hs'
  refine hI.append hbump ?_
  rintro ts _ hts ⟨us, rfl, hus⟩ u hu
  simp only [List.mem_append, List.mem_singleton] at hu
  rcases hu with hu | hu | rfl
  · exact hts u hu
  · exact .inl (hus u hu)
  · exact .inr (by simpa [Tree.isTokIn, Tree.token?] using hmem)

theorem makes_newlines {g : Rules} (h : s.Sound) : Makes g.newlines s [] :=
  (adds_eatWhile h g.fuel (by simp)).imp fun _ _ hs' => hs'.mono fun ts hts => .blank fun t ht =>
    (hts t ht).elim id fun hnewline => by
      cases t with
      | token t => simp_all [Tree.isTokIn, Tree.token?, Tree.isBlank, TokenKind.isTrivia]
      | node => simp [Tree.isTokIn, Tree.token?] at hnewline

theorem adds_separators {g : Rules} (h : s.Sound) : Adds g.separators s fun ts =>
    ∀ t ∈ ts, t.isBlank = true ∨ t.isTokIn [.semicolon] = true :=
  (adds_eatWhile h g.fuel (by simp)).imp fun _ _ hs' => hs'.mono fun ts hts t ht =>
    (hts t ht).elim .inl fun hkind => by
      cases t with
      | token t =>
          have hor : t.kind = .newline ∨ t.kind = .semicolon := by
            simpa [Tree.isTokIn, Tree.token?] using hkind
          rcases hor with hor | hor <;>
            simp [Tree.isTokIn, Tree.token?, Tree.isBlank, TokenKind.isTrivia, hor]
      | node => simp [Tree.isTokIn, Tree.token?] at hkind

theorem makes_name (h : s.Sound) (what : String) : Makes (name what) s [nodeOf .name] := by
  unfold name
  refine Quiet.isAt_bind.mpr (.ite (fun hat => ?_) fun _ => .fault)
  refine makes_node h fun s₁ h₁ hsolids _ => ?_
  have hkind : s₁.kind? = some .ident := by
    simpa [Cursor.kind?, Cursor.current?, hsolids] using hat
  exact (quiet_bump h₁ hkind rfl).imp fun _ _ hs' =>
    ready_of_filled rfl (.head _) hs'.1

-- A string literal is terminated, if nothing is reported.
theorem makes_stringToken (h : s.Sound) (hkind : s.kind? = some .str) :
    Makes Rules.stringToken s [tok .str] := by
  obtain ⟨t, hcurrent, hstr⟩ := current?_of_kind? hkind
  unfold Rules.stringToken
  refine Quiet.get_bind.mpr ?_
  rw [hcurrent, Option.any_some]
  cases hend : Token.isTerminatedString t.text with
  | false => exact Quiet.fault_bind (.here h)
  | true =>
      have hconforms : (Tree.token t).conforms = true := by simp [Tree.conforms, hstr, hend]
      have hbump := filled_bump h hcurrent (p := (·.isTok .str)) hconforms
        (by simp [Tree.isBlank, Tree.token?, hstr, TokenKind.isTrivia])
        (by simp [Tree.isTok, Tree.token?, hstr])
      exact fun _ => hbump.1

end Moves

-- What a rule makes, and how many rules lead to each other before a token is taken.
namespace Rule

def slot : Rule → Slot
  | .type => typeSlot
  | .expr _ => exprSlot
  | .unary => exprSlot
  | .statement => .one Tree.isStatement
  | .ifStmt => nodeOf .ifStmt

def rank : Rule → Nat
  | .type => 0
  | .unary => 1
  | .expr _ => 2
  | .ifStmt => 2
  | .statement => 3

def startsAt (s : Cursor) : Rule → Prop
  | .ifStmt => s.kind? = some .ifKw
  | _ => True

end Rule

namespace Rules

-- Every rule makes its tree where `n` is above four times the number of tokens that are left.
def Fit (g : Rules) (n : Nat) : Prop := ∀ rule s, s.Sound → 4 * s.rest.length + rule.rank < n →
  rule.startsAt s → Makes (g.run rule) s [rule.slot]

theorem makes_type {g : Rules} {n : Nat} {s : Cursor} (hg : g.Fit n) (h : s.Sound)
    (hn : 4 * s.rest.length < n) : Makes g.type s [typeSlot] :=
  hg .type s h hn trivial

theorem makes_expr {g : Rules} {n : Nat} {s : Cursor} (hg : g.Fit n) (h : s.Sound)
    (hn : 4 * s.rest.length + 2 < n) : Makes g.expr s [exprSlot] :=
  hg (.expr 0) s h hn trivial

theorem makes_statement {g : Rules} {n : Nat} {s : Cursor} (hg : g.Fit n) (h : s.Sound)
    (hn : 4 * s.rest.length + 3 < n) : Makes g.statement s [.one Tree.isStatement] :=
  hg .statement s h hn trivial

section Lists

variable {g : Rules} {s : Cursor} {p q : Tree → Bool}

-- A list in brackets: its members are apart.
theorem adds_commaList (h : s.Sound) {close : TokenKind} {element : Action Unit}
    [Bracketed element] (hp : ∀ t, t.isTok .comma = true → p t = true)
    (hq : ∀ t, t.isNode = false → q t = false)
    (helement : ∀ s₁ : Cursor, s₁.Sound → s₁.rest.length ≤ s.rest.length →
      Adds element s₁ (ListRow [] p q)) : Adds (g.commaList close element) s (ListRow [] p q) := by
  unfold commaList
  refine .bind (.here h) (makes_newlines h) fun _ s₁ h₁ => ?_
  refine quiet_repeatWhile (I := fun s' => Grown s s' (OpenRow [] p q))
    (J := fun s' => Grown s s' (ListRow [] p q)) (fun _ hI => hI.mono fun _ _ => trivial)
    (fun _ hI => hI.mono fun _ hts => hts.1) ?_ g.fuel s₁ (h₁.mono fun _ hts => .nil hts hq)
  intro s₂ hI
  refine Quiet.isAtEnd_bind.mpr (Quiet.isAt_bind.mpr (.ite (fun _ => .pure ?_) fun _ => ?_))
  · exact hI.mono fun _ hts => hts.1
  refine .bind hI (helement s₂ hI.sound hI.length_le) fun _ s₃ h₃ => ?_
  have hmember : Grown s s₃ (ListRow [] p q) := hI.append h₃ fun _ _ hts hus => hts.member hus
  refine .bind hmember (makes_newlines hmember.sound) fun _ s₄ h₄ => ?_
  have hblanks := hmember.append h₄ fun _ _ hts hus => hts.blanks hus hq
  refine .bind hblanks (quiet_eat hblanks.sound rfl) fun taken s₅ hs₅ => ?_
  rcases hs₅ with ⟨rfl, hcomma, -⟩ | ⟨rfl, rfl⟩
  · have hopen := hblanks.append hcomma fun _ _ hts hus => hts.separator hus hp hq
    refine .bind hopen (makes_newlines hopen.sound) fun _ s₆ h₆ => .pure ?_
    exact hopen.append h₆ fun _ _ hts hus => hts.blanks hus hq
  · exact .pure hblanks

theorem makes_commaList (h : s.Sound) {close : TokenKind} {element : Action Unit}
    [Bracketed element] (helement : ∀ s₁ : Cursor, s₁.Sound → s₁.rest.length ≤ s.rest.length →
      Makes element s₁ [.one p]) : Makes (g.commaList close element) s [list p [.comma]] := by
  have hrow : Adds (g.commaList close element) s
      (ListRow [] (fun t => p t || t.isTokIn [.comma]) fun _ => false) := by
    refine adds_commaList h (fun t ht => by simp [isTokIn_of_isTok ht]) (fun _ _ => rfl) ?_
    intro s₁ h₁ hle
    exact (helement s₁ h₁ hle).imp fun _ _ h₂ => h₂.mono fun ts hts =>
      .one hts (fun t ht => by simp [ht]) fun _ _ => rfl
  exact hrow.imp fun _ _ h₁ => h₁.mono fun _ hts => hts.1

-- The members of a declaration or a type.
theorem makes_members (h : s.Sound) {close : TokenKind} {f : Fault} {stops : List TokenKind}
    {member : Action Unit} [Bracketed member]
    (hmember : ∀ s₁ : Cursor, s₁.Sound → s₁.rest.length ≤ s.rest.length →
      Makes member s₁ [.many p]) : Makes (g.members close f stops member) s [.many p] := by
  unfold members
  refine quiet_repeatWhile (I := fun s' => Filled s s' [.many p])
    (fun _ hI => hI.mono fun _ _ => trivial) (fun _ hI => hI) ?_ g.fuel s
    ((Filled.refl h).mono fun _ => .many_nil)
  intro s₁ hI
  refine Quiet.isAtEnd_bind.mpr (Quiet.isAt_bind.mpr (.ite (fun _ => .pure hI) fun _ => ?_))
  refine Quiet.get_bind.mpr (.bind hI (hmember s₁ hI.sound hI.length_le) fun _ s₂ h₂ => ?_)
  have hmore : Filled s s₂ [.many p] := hI.append h₂ fun _ _ => Fills.many_append_many
  refine Quiet.get_bind.mpr (.ite (fun _ => ?_) fun _ => .pure hmore)
  exact .bind hmore (Q := fun _ _ => False) (quiet_skipTo hmore.sound g.fuel f stops)
    fun _ _ => False.elim

-- Names with commas before them.
theorem makes_moreNames (h : s.Sound) (what : String) :
    Makes (g.moreNames what) s [list (·.isA .name) [.comma]] := by
  unfold moreNames
  refine quiet_repeatWhile (I := fun s' => Filled s s' [list (·.isA .name) [.comma]])
    (fun _ hI => hI.mono fun _ _ => trivial) (fun _ hI => hI) ?_ g.fuel s
    ((Filled.refl h).mono fun _ => .many_nil)
  intro s₁ hI
  refine .bind hI (quiet_eat hI.sound rfl) fun taken s₂ hs₂ => ?_
  rcases hs₂ with ⟨rfl, h₂, -⟩ | ⟨rfl, rfl⟩
  · refine .bind h₂ (makes_name h₂.sound what) fun _ s₃ h₃ => .pure ?_
    have hcomma : Filled s s₂ [list (·.isA .name) [.comma]] := hI.append h₂ fun _ _ hts hus =>
      hts.many_append_many (hus.many_one fun t ht => by simp [isTokIn_of_isTok ht])
    exact hcomma.append h₃ fun _ _ hts hus =>
      hts.many_append_many (hus.many_one fun t ht => by simp [ht])
  · exact .pure hI

theorem fills_separators {ts : List Tree} (hp : ∀ t, t.isTokIn [.semicolon] = true → p t = true)
    (hts : ∀ t ∈ ts, t.isBlank = true ∨ t.isTokIn [.semicolon] = true) : Fills [.many p] ts := by
  refine Fills.many_iff.mpr fun t ht => ?_
  obtain ⟨hmem, hsolid⟩ := List.mem_filter.mp ht
  exact (hts t hmem).elim (fun hblank => by simp [hblank] at hsolid) (hp t)

theorem makes_separators (h : s.Sound) (hp : ∀ t, t.isTokIn [.semicolon] = true → p t = true) :
    Makes g.separators s [.many p] :=
  (adds_separators h).imp fun _ _ h₁ => h₁.mono fun _ => fills_separators hp

-- What ends a statement is taken, or it ends the block or the text.
theorem quiet_statementEnd (h : s.Sound) : Quiet g.statementEnd s fun _ s' =>
    (s' = s ∧ (s.current? = none ∨ s.kind? = some .rBrace)) ∨
      Grown s s' fun ts => ts ≠ [] ∧
        ∀ t ∈ ts, t.isBlank = true ∨ t.isTokIn [.semicolon] = true := by
  unfold statementEnd
  refine Quiet.isAtEnd_bind.mpr (Quiet.isAt_bind.mpr (.ite (fun hend => .pure (.inl ⟨rfl, ?_⟩)) ?_))
  · simpa using hend
  intro _
  refine Quiet.isAt_bind.mpr (Quiet.isAt_bind.mpr (.ite (fun hat => ?_) fun _ => ?_))
  · obtain ⟨t, hcurrent, hkind⟩ :
        ∃ t, s.current? = some t ∧ (t.kind = .newline ∨ t.kind = .semicolon) := by
      have hor : s.kind? = some .newline ∨ s.kind? = some .semicolon := by simpa using hat
      rcases hor with hor | hor
      · obtain ⟨t, hcurrent, hkind⟩ := current?_of_kind? hor
        exact ⟨t, hcurrent, .inl hkind⟩
      · obtain ⟨t, hcurrent, hkind⟩ := current?_of_kind? hor
        exact ⟨t, hcurrent, .inr hkind⟩
    have hbump := grown_bump h hcurrent (conforms_newline_semicolon hkind)
    refine fun _ => .inr (hbump.mono ?_)
    rintro _ ⟨us, rfl, hus⟩
    refine ⟨by simp, fun u hu => ?_⟩
    rcases List.mem_append.mp hu with hu | hu
    · exact .inl (hus u hu)
    · rw [List.mem_singleton.mp hu]
      rcases hkind with hkind | hkind <;>
        simp [Tree.isTokIn, Tree.token?, Tree.isBlank, TokenKind.isTrivia, hkind]
  · exact quiet_skipTo h g.fuel _ _

theorem makes_statementEnd (h : s.Sound) (hp : ∀ t, t.isTokIn [.semicolon] = true → p t = true) :
    Makes g.statementEnd s [.many p] := by
  refine (quiet_statementEnd h).imp ?_
  rintro _ s₁ (⟨rfl, -⟩ | h₁)
  · exact (Filled.refl h).mono fun _ => .many_nil
  · exact h₁.mono fun _ hts => fills_separators hp hts.2

theorem makes_lambdaParams (h : s.Sound) (hkind : s.kind? = some .lParen) :
    Makes g.lambdaParams s [nodeOf .lambdaParams] := by
  unfold lambdaParams
  refine makes_node_bump h hkind rfl rfl fun s₁ s₂ h₂ _ => ?_
  have hlist : Makes (repeatWhile g.fuel do
      if ← isAt .ident then
        name "parameter"
        eat .comma
      else
        return false) s₂ [list (·.isA .name) [.comma]] := by
    refine quiet_repeatWhile (I := fun s' => Filled s₂ s' [list (·.isA .name) [.comma]])
      (fun _ hI => hI.mono fun _ _ => trivial) (fun _ hI => hI) ?_ g.fuel s₂
      ((Filled.refl h₂.sound).mono fun _ => .many_nil)
    intro s₃ hI
    refine Quiet.isAt_bind.mpr (.ite (fun _ => ?_) fun _ => .pure hI)
    refine .bind hI (makes_name hI.sound _) fun _ s₄ h₄ => ?_
    have h₄ := hI.append h₄ fun _ _ hts hus =>
      hts.many_append_many (hus.many_one fun t ht => (by simp [ht] :
        (t.isA .name || t.isTokIn [.comma]) = true))
    refine (quiet_eat h₄.sound rfl).imp fun taken s₅ hs₅ => ?_
    rcases hs₅ with ⟨rfl, h₅, -⟩ | ⟨rfl, rfl⟩
    · exact h₄.append h₅ fun _ _ hts hus =>
        hts.many_append_many (hus.many_one fun t ht => by simp [isTokIn_of_isTok ht])
    · exact h₄
  refine .step h₂ hlist fun _ s₃ h₃ _ => ?_
  exact (makes_expect h₃.sound rfl _).imp fun _ _ h₄ => ⟨_, .tail _ (.head _), h₃.trans h₄⟩

-- A guarded step that reports nothing did nothing.
theorem quiet_unlessMoved (h : s.Sound) (before : Nat) :
    Quiet (g.unlessMoved before) s fun _ s' => s' = s := by
  unfold unlessMoved
  refine Quiet.kind?_bind.mpr ?_
  split
  · refine Quiet.get_bind.mpr (.ite (fun _ => ?_) fun _ => .pure rfl)
    exact quiet_skipTo h g.fuel _ _
  · exact .pure rfl

-- One declaration behind a keyword, or several in parentheses.
theorem makes_group (h : s.Sound) {decl spec : NodeKind} {keyword : TokenKind}
    {single member : Action Unit} {f : Fault} {stops : List TokenKind} {what : String}
    [Bracketed single] [Bracketed member] (hkind : s.kind? = some keyword)
    (hplain : plain keyword = true) (hdecl : productions decl = declProductions keyword spec)
    (hloose : loose decl = true)
    (hsingle : ∀ s₁ : Cursor, s₁.Sound → s₁.rest.length < s.rest.length →
      Makes single s₁ [nodeOf spec])
    (hmember : ∀ s₁ : Cursor, s₁.Sound → s₁.rest.length < s.rest.length →
      Makes member s₁ [list (·.isA spec) [.semicolon]]) :
    Makes (node decl do
      bump
      if ← eat .lParen then
        g.separators
        g.members .rParen f stops member
        discard <| expect .rParen what
      else
        single) s [nodeOf decl] := by
  refine makes_node_bump h hkind hplain hloose fun s₁ s₂ h₂ hless => ?_
  rw [hdecl]
  refine .bind h₂ (quiet_eat h₂.sound rfl) fun taken s₃ hs₃ => ?_
  rcases hs₃ with ⟨rfl, h₃, hless₃⟩ | ⟨rfl, rfl⟩
  · have hsep : ∀ t : Tree, t.isTokIn [.semicolon] = true →
        (t.isA spec || t.isTokIn [.semicolon]) = true := fun t ht => by simp [ht]
    refine .step (h₂.trans h₃) (makes_separators (g := g) h₃.sound hsep) fun _ s₄ h₄ hle₄ => ?_
    have hlist : Makes (g.members .rParen f stops member) s₄ [list (·.isA spec) [.semicolon]] :=
      makes_members h₄.sound fun s₅ h₅ hle₅ => hmember s₅ h₅ (by omega)
    refine .bind h₄ hlist fun _ s₅ h₅ => ?_
    have h₅ := h₄.extend h₅
    exact (makes_expect h₅.sound rfl _).imp fun _ _ h₆ => ⟨_, .tail _ (.head _), h₅.trans h₆⟩
  · exact (hsingle s₃ h₂.sound hless).imp fun _ _ h₃ => ⟨_, .head _, h₂.trans h₃⟩

-- The members of a struct or an interface.
theorem makes_typeBody (h : s.Sound) {keyword : TokenKind} {member : Action Unit}
    {kind : NodeKind} [Bracketed member] (hkind : s.kind? = some keyword)
    (hplain : plain keyword = true) (what : String)
    (hmember : ∀ s₁ : Cursor, s₁.Sound → s₁.rest.length < s.rest.length →
      Makes member s₁ [nodeOf kind]) :
    Makes (g.typeBody what member) s
      [tok keyword, tok .lBrace, list (·.isA kind) [.semicolon], tok .rBrace] := by
  unfold typeBody
  refine .bind (.here h) (quiet_bump h hkind hplain) ?_
  rintro _ s₁ ⟨h₁, hless⟩
  refine .bind h₁ (quiet_expect h₁.sound rfl _) ?_
  rintro _ s₂ ⟨rfl, h₂, hless₂⟩
  have hsep : ∀ t : Tree, t.isTokIn [.semicolon] = true →
      (t.isA kind || t.isTokIn [.semicolon]) = true := fun t ht => by simp [ht]
  refine .step (h₁.trans h₂) (makes_separators (g := g) h₂.sound hsep) fun _ s₃ h₃ hle₃ => ?_
  have hmembers : Makes (g.members .rBrace (.expected what) [.rBrace] do
      member
      g.statementEnd
      g.separators) s₃ [list (·.isA kind) [.semicolon]] := by
    refine makes_members h₃.sound fun s₄ h₄ hle₄ => ?_
    refine .bind (.here h₄) (hmember s₄ h₄ (by omega)) fun _ s₅ h₅ => ?_
    have h₅ := h₅.mono fun _ hts => hts.many_one fun t ht => (by simp [ht] :
      (t.isA kind || t.isTokIn [.semicolon]) = true)
    refine .bind h₅ (makes_statementEnd h₅.sound hsep) fun _ s₆ h₆ => ?_
    have h₆ := h₅.append h₆ fun _ _ => Fills.many_append_many
    refine (makes_separators h₆.sound hsep).imp fun _ s₇ h₇ => ?_
    exact h₆.append h₇ fun _ _ => Fills.many_append_many
  refine .bind h₃ hmembers fun _ s₄ h₄ => ?_
  have hlist := h₃.extend h₄
  exact (makes_expect hlist.sound rfl _).imp fun _ _ h₅ => hlist.trans h₅

-- Where a list of statements stops.
def Stopped (stops : List TokenKind) (s : Cursor) : Prop :=
  s.current? = none ∨ s.kind?.any stops.contains = true

theorem Stopped.separator {stops : List TokenKind} (h : Stopped stops s)
    (hstops : ∀ kind ∈ stops, [TokenKind.newline, .semicolon].contains kind = false) :
    s.kind?.any [.newline, .semicolon].contains = false := by
  rcases h with hnone | hat
  · simp [Cursor.kind?, hnone]
  · obtain ⟨kind, hkind, hmem⟩ := (Option.any_eq_true _ _).mp hat
    rw [hkind, Option.any_some]
    exact hstops kind (by simpa using hmem)

-- Behind the end of a statement another one may follow, or nothing does.
-- Statements that may be followed by another one, or the list of them stops.
def Between (stops : List TokenKind) (p : Tree → Bool) (s₀ s : Cursor) : Prop :=
  Grown s₀ s (OpenRow [] p Tree.isItem) ∨
    Grown s₀ s (ListRow [] p Tree.isItem) ∧ Stopped stops s

theorem Between.row {stops : List TokenKind} {p : Tree → Bool} {s₀ : Cursor}
    (h : Between stops p s₀ s) : Grown s₀ s (ListRow [] p Tree.isItem) := by
  rcases h with h | ⟨h, -⟩
  · exact h.mono fun _ hts => hts.1
  · exact h

-- Where the list stops there are no separators.
theorem quiet_separators {stops : List TokenKind} {p : Tree → Bool} {s₀ : Cursor}
    (hsep : ∀ t : Tree, t.isTokIn [.semicolon] = true → p t = true)
    (hstops : ∀ kind ∈ stops, [TokenKind.newline, .semicolon].contains kind = false)
    (h : Between stops p s₀ s) : Quiet g.separators s fun _ s' =>
      Between stops p s₀ s' ∧ s'.rest.length ≤ s.rest.length := by
  rcases h with h | ⟨h, hstopped⟩
  · refine (adds_separators h.sound).imp fun _ s₁ h₁ => ⟨.inl ?_, h₁.length_le⟩
    exact h.append h₁ fun ts us hts hus => hts.tokens (fills_separators hsep hus) fun t ht =>
      isItem_token t ((hus t ht).elim isNode_of_isBlank isNode_of_isTokIn)
  · intro _
    have hrun : g.separators.run s = ((), s) := run_eatWhile_of_not (hstopped.separator hstops) g.fuel
    rw [hrun]
    exact ⟨.inr ⟨h, hstopped⟩, Nat.le_refl _⟩

-- What ends a statement lets another one follow, or the list stops.
theorem quiet_nextStatement (stops : List TokenKind) {p : Tree → Bool} {s₀ : Cursor} (before : Nat)
    (hsep : ∀ t : Tree, t.isTokIn [.semicolon] = true → p t = true)
    (hbrace : stops.contains .rBrace = true) (h : Grown s₀ s (ListRow [] p Tree.isItem)) :
    Quiet (do g.statementEnd; g.unlessMoved before; return true) s fun more s' =>
      more = true ∧ Between stops p s₀ s' ∧ s'.rest.length ≤ s.rest.length := by
  refine .bind (.here h.sound) (quiet_statementEnd h.sound) fun _ s₁ hs₁ => ?_
  have hsound : s₁.Sound := by
    rcases hs₁ with ⟨rfl, -⟩ | hs₁
    · exact h.sound
    · exact hs₁.sound
  refine .bind (.here hsound) (quiet_unlessMoved hsound before) ?_
  rintro _ _ rfl
  refine .pure ⟨rfl, ?_⟩
  rcases hs₁ with ⟨rfl, hend⟩ | hs₁
  · refine ⟨.inr ⟨h, hend.imp_right fun hkind => ?_⟩, Nat.le_refl _⟩
    rw [hkind]
    exact hbrace
  · refine ⟨.inl (h.append hs₁ fun ts us hts hus => ?_), hs₁.length_le⟩
    have hnone : ∀ t ∈ us, t.isItem = false := fun t ht => isItem_token t ((hus.2 t ht).elim
      isNode_of_isBlank isNode_of_isTokIn)
    exact ⟨⟨hts.1.many_append (fills_separators hsep hus.2), apart_append_none hts.2 hnone⟩,
      open_append_of_ne_nil hus.1 hnone⟩

-- A list in brackets that may hold literals.
theorem makes_brackets {kind : NodeKind} {opening closing : TokenKind} {element : Action Unit}
    {what : String} {p : Tree → Bool} [Bracketed element] (h : s.Sound)
    (hkind : s.kind? = some opening) (hopening : plain opening = true)
    (hclosing : plain closing = true) (hp : ∀ t, t.isTok .comma = true → p t = true)
    (hmembers : ∀ t, t.isNode = false → memberOf kind t = false)
    (hslots : [tok opening, .many p, tok closing] ∈ productions kind)
    (helement : ∀ s₁ : Cursor, s₁.Sound → s₁.rest.length < s.rest.length →
      Adds element s₁ (ListRow [] p (memberOf kind))) :
    Makes (node kind do
      bump
      withLiterals true (g.commaList closing element)
      discard <| expect closing what) s [nodeOf kind] := by
  refine makes_node h fun s₁ h₁ hsolids hle => ?_
  refine .bind (.here h₁) (quiet_bump h₁ (kind?_of_solids hsolids hkind) hopening) ?_
  rintro _ s₂ ⟨h₂, hless⟩
  have hlist : Adds (withLiterals true (g.commaList closing element)) s₂
      (ListRow [] p (memberOf kind)) := by
    refine adds_withLiterals h₂.sound fun s₃ h₃ hrest => ?_
    have hle₃ : s₃.rest.length = s₂.rest.length := congrArg List.length hrest
    exact adds_commaList h₃ hp hmembers fun s₄ h₄ hle₄ => helement s₄ h₄ (by omega)
  refine .bind h₂ hlist fun _ s₃ h₃ => ?_
  refine (makes_expect h₃.sound hclosing _).imp fun _ _ h₄ => ?_
  exact ready_of_between hslots hmembers h₂ h₃ h₄

theorem makes_literal (h : s.Sound) {kind : TokenKind} {body : Action Unit} [Bracketed body]
    (hmem : kind ∈ [TokenKind.int, .float, .str, .rawStr])
    (hbody : ∀ s₁ : Cursor, s₁.Sound → s₁.solids = s.solids → Makes body s₁ [tok kind]) :
    Makes (node .literal body) s [exprSlot] := by
  refine Adds.ofExpr .literal rfl (makes_node h fun s₁ h₁ hsolids _ => ?_)
  refine (hbody s₁ h₁ hsolids).imp fun _ _ h₂ => ?_
  exact ready_of_filled rfl (.head _)
    (h₂.mono fun _ hts => hts.one fun _ ht => isTokIn_of_isTok ht hmem)

end Lists

end Rules

end SpriteScript.Syntax
