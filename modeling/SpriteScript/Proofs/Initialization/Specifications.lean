import SpriteScript.Proofs.Initialization.Exploration

-- A specification is looked into with everything that it needs: every name in a plain value is
-- looked at, whatever operators stand around it.
namespace SpriteScript

theorem Tree.height_lt_of_listed {t v : Tree} {index : Nat} (h : v ∈ t.listed index) :
    v.height < t.height := by
  obtain ⟨l, hl, hv, -⟩ := exists_list h
  exact (height_lt_of_mem_children hv).trans (height_lt_of_mem_children hl)

namespace Check

variable {w : Outlook} {path : List Nat} {n : Nat} {ground : Ground} {file : FileId} {r r' : Rules}

section Values

variable {budget : Nat} {t u v : Tree} {expected? : Option Ty} {a b : CheckM Operand} {op : TokenKind}

section Nodes

variable [ReadsRules r]

-- What is found out about an operand is noted.
theorem Explores.record (h : Explores w path budget ground file [t] t.Mentions a b)
    (hlearns : Learns ground file [t] a fun ground o => Told ground file t o.value) :
      Explores w path budget ground file [t]
      t.Mentions (a >>= recordOperand t expected?) (b >>= recordOperand t expected?) :=
  h.before_learns hlearns (fun _ => inferInstance) fun _ others _ ho =>
    have := ho.learn others
    inferInstance

theorem Explores.record_of_kind (h : Explores w path budget ground file [t] t.Mentions a b)
    (hreads : Reads ground file [t] a) (hkind : t.kind? ≠ some .nameRef) :
    Explores w path budget ground file [t] t.Mentions
      (a >>= recordOperand t expected?) (b >>= recordOperand t expected?) :=
  h.record (.of_reads hreads fun _ => .of_kind hkind)

theorem explores_unary
    (hu : Explores w path budget ground file [u] u.Mentions (r.expr u none) (r'.expr u none))
    (hkind : t.kind? = some .unaryExpr) (hop : t.unaryOp? = some op) (hoperand : t.expr? = some u) :
    Explores w path budget ground file [t] t.Mentions (checkUnary r t) (checkUnary r' t) := by
  rw [checkUnary_eq hop hoperand, checkUnary_eq hop hoperand]
  refine ((hu.expr_before (fun _ => inferInstance) fun _ _ _ => inferInstance).below
    (Tree.below_of_child? hoperand)).mono ?_
  exact fun ident => (Tree.mentions_inner_iff (.inr hkind) hoperand).mp

theorem explores_binary
    (hu : Explores w path budget ground file [u] u.Mentions (r.expr u none) (r'.expr u none))
    (hv : ∀ ground, Explores w path budget ground file [v] v.Mentions (r.expr v none) (r'.expr v none))
    (hkind : t.kind? = some .binaryExpr) (hop : t.binaryOp? = some op) (hlhs : t.expr? = some u)
    (hrhs : t.secondExpr? = some v) :
    Explores w path budget ground file [t] t.Mentions (checkBinary r t) (checkBinary r' t) := by
  rw [checkBinary_eq hlhs hrhs hop, checkBinary_eq hlhs hrhs hop]
  have hbelow : Tree.Below ([u] ++ [v]) [t] := by
    have hpair := t.below_pair
    rwa [hlhs, hrhs] at hpair
  refine .mono (.below ?_ hbelow) fun ident => (Tree.mentions_binary_iff hkind hlhs hrhs).mp
  refine hu.bind_learns (ReadsRules.expr ground file u none) fun facts left hleft => ?_
  refine (hv (ground.learn facts)).before_learns (ReadsRules.expr _ file v none) (fun _ => inferInstance)
    fun more others right hright => ?_
  have := (hleft.learn more).learn others
  have := hright.learn others
  infer_instance

end Nodes

-- A step of the rules explores what is one deeper.
theorem explores_exprStep [ReadsRules r] (hexplored : w.Explored n r r') (hentered : w.Entered n r r')
    (ht : t.Plain) (hheight : t.height + budget ≤ n + 1)
    (hpath : ∀ b ∈ path.head?, ∀ ident, t.Mentions ident → w.Mentions b (file, rangeOf ident)) :
    Explores w path budget ground file [t] t.Mentions (exprStep r t expected?) (exprStep r' t expected?) := by
  have hinner {u : Tree} (expected? : Option Ty) (ground : Ground) (hu : u.Plain) (hlt : u.height < t.height)
      (hmentions : ∀ ident, u.Mentions ident → t.Mentions ident) :
      Explores w path budget ground file [u] u.Mentions (r.expr u expected?) (r'.expr u expected?) :=
    hexplored ground file path budget u expected? hu (by omega) fun b hb ident hident =>
      hpath b hb ident (hmentions ident hident)
  have hpos := ht.height_pos
  cases ht with
  | literal hkind =>
      rw [exprStep_literal hkind, exprStep_literal hkind]
      have hreads (ground : Ground) : Reads ground file [t] (checkLiteral t) := .of_runs inferInstance
      refine Explores.record_of_kind (.mono (.of_calm fun facts => hreads _) fun ident hident => ?_)
        (hreads ground) (by simp [hkind])
      exact absurd hident (Tree.not_mentions_literal hkind)
  | name hkind hident =>
      rw [exprStep_name hkind, exprStep_name hkind]
      have hentered : w.Entered budget r r' := fun ground file missing rest path s index hs howed =>
        hentered ground file missing rest path s index hs (by omega)
      exact (explores_checkName hentered hkind hident fun b hb =>
        hpath b hb _ (.name hkind hident)).record (learns_checkName t)
  | @paren _ u hkind hu hplain =>
      rw [exprStep_paren hkind hu, exprStep_paren hkind hu]
      have hbelow := Tree.below_of_child? hu
      have hmentions (ident : Token) : t.Mentions ident ↔ u.Mentions ident :=
        Tree.mentions_inner_iff (.inl hkind) hu
      have hvalue :=
        hinner expected? ground hplain (Tree.height_lt_of_expr? hu) fun ident => (hmentions ident).mpr
      exact ((hvalue.below hbelow).mono fun ident => (hmentions ident).mp).record_of_kind
        ((reads_expr u expected?).below hbelow) (by simp [hkind])
  | unary hkind hop hu hplain =>
      rw [exprStep_unary hkind, exprStep_unary hkind]
      have hvalue := hinner none ground hplain (Tree.height_lt_of_expr? hu) fun ident =>
        (Tree.mentions_inner_iff (.inr hkind) hu).mpr
      exact (explores_unary hvalue hkind hop hu).record_of_kind (reads_checkUnary t) (by simp [hkind])
  | @binary _ u v _ hkind hu hop hv hplain hplain' =>
      rw [exprStep_binary hkind, exprStep_binary hkind]
      have hmentions (ident : Token) : t.Mentions ident ↔ u.Mentions ident ∨ v.Mentions ident :=
        Tree.mentions_binary_iff hkind hu hv
      have hleft := hinner none ground hplain (Tree.height_lt_of_expr? hu) fun ident hident =>
        (hmentions ident).mpr (.inl hident)
      have hright (ground : Ground) := hinner none ground hplain' (Tree.height_lt_of_secondExpr? hv)
        fun ident hident =>
        (hmentions ident).mpr (.inr hident)
      exact (explores_binary hleft hright hkind hop hu hv).record_of_kind (reads_checkBinary t)
        (by simp [hkind])

end Values

variable {index : Nat} {missing rest : List Part} {s : State} {p : PendingSpec}
variable {key : FileId × Text.ByteRange}

section Looking

theorem run_resolveSpec (r : Rules) (hp : s.specs[index]? = some p) : (resolveSpec r index).run s =
    match p.progress with
    | .finished => (⟨⟩, s)
    | .running => (reportCycle p).run s
    | .untouched => (lookIntoSpec r index p).run s := by
  rw [resolveSpec_eq, run_get_bind, hp]
  dsimp only
  cases p.progress <;> rfl

theorem run_lookIntoValues (r : Rules) (p : PendingSpec) (s : State) : (lookIntoValues r p).run s =
    (settleAll p ((specValues r p.spec p.symbols.length p.isConst).run { s with context := p.context }).1).run
      { ((specValues r p.spec p.symbols.length p.isConst).run { s with context := p.context }).2 with
        context := s.context } :=
  rfl

theorem settling_settleAll (values : List (Ty × Option Constant)) :
    Runs (Settling p.symbols) (settleAll p values) :=
  .forM fun entry hentry => settling_settle (List.of_mem_zip hentry).1 _ entry.2.1 entry.2.2

theorem Initializing.getElem?_parts (h : Initializing w ground file missing rest path s)
    (hp : s.specs[index]? = some p) : w.parts[index]? = some p.part := by
  rw [← h.parts, getElem?_specParts, hp]
  rfl

-- What is known of the names in a specification says what the specification needs.
theorem Outlook.serves_of_answers {l : List Nat} (hindex : w.parts[index]? = some p.part)
    (hanswers : ∀ ident, (∃ v ∈ p.spec.listed 0, v.Mentions ident) →
      w.Answers s missing (p.context.file, rangeOf ident))
    (hnone : ¬ s.ReportsInitCycle) (hl : ∀ b, b ∈ l ↔ s.IsAt .finished b) :
    w.Serves s.info missing index l := by
  rintro key ⟨q, hq, v, hv, ident, hident, rfl⟩
  obtain rfl := Option.some.inj (hindex.symm.trans hq)
  rcases hanswers ident ⟨v, hv, hident⟩ with hmissing | ⟨x, hx, hdone⟩
  · exact .inl hmissing
  · exact .inr ⟨x, hx, fun b hb => (hl b).mpr ((hdone b hb).resolve_left hnone)⟩

-- A specification that was not touched is looked into, and so is everything that it needs.
theorem entered_untouched [ReadsRules r] [RunsRules Progressing r] (hexplored : w.Explored n r r')
    (hs : Initializing w ground file missing rest path s) (howed : s.owed ≤ n) (hp : s.specs[index]? = some p)
    (huntouched : p.progress = .untouched) (hlead : ∀ b ∈ path.head?, w.Needs s.info b index) :
    (lookIntoSpec r' index p).run s = (lookIntoSpec r index p).run s ∧ ∃ missing',
      Reached w ground file (missing' ++ missing) rest path (fun _ => False) s
      ((lookIntoSpec r index p).run s).2 := by
  have hindex := hs.getElem?_parts hp
  have hpart : p.part ∈ w.parts := List.mem_of_getElem? hindex
  have hopened := (hs.enter hp huntouched hlead).inContext p.context
  obtain ⟨started, hstarted⟩ : ∃ started, started = ((setProgress index .running).run s).2 := ⟨_, rfl⟩
  have hbudget : p.spec.height + started.owed = s.owed := hstarted ▸ owed_setProgress hp huntouched
  have hparts : p.parts = partsIn p.context.file (p.spec.type?.toList ++ p.spec.listed 0) := by
    rw [PendingSpec.parts, huntouched]
  have hvalues (v : Tree) (hv : v ∈ p.spec.listed 0) (expected? : Option Ty) :=
    hexplored (ground.learn [.started index { p with progress := .running }]) p.context.file
      (index :: path) started.owed v expected?
      (w.plain _ hpart v hv) (by have := Tree.height_lt_of_listed hv; omega) fun b hb ident hident =>
        Option.some.inj hb ▸ ⟨p.part, hindex, v, hv, ident, hident, rfl⟩
  rw [← hstarted, hparts] at hopened
  obtain ⟨hrun, missing', hreached⟩ :=
    explores_specValues p.symbols.length p.isConst hvalues missing rest { started with context :=
      p.context } hopened le_rfl
  have hend := hreached.initializing.inContext s.context
  rw [hs.ahead.context] at hend
  have hfirst (q : PendingSpec) (hq : Fact.started index q ∈ ground.facts) : False := by
    obtain ⟨hq, hrunning⟩ := hs.ahead.valued.facts _ hq
    obtain rfl := Option.some.inj (hp.symm.trans hq)
    cases huntouched.symm.trans hrunning
  have hsettled :=
    settling_settleAll (p := p)
    ((specValues r p.spec p.symbols.length p.isConst).run { started with context := p.context }).1
  refine ⟨?_, missing', ?_, progressing_lookIntoSpec hp huntouched, ?_, nofun⟩
  · rw [run_lookIntoSpec, run_lookIntoSpec, ← hstarted, run_lookIntoValues, run_lookIntoValues, hrun]
  · rw [run_lookIntoSpec, ← hstarted, run_lookIntoValues]
    have hcontext : started.context = s.context := by rw [hstarted]; rfl
    rw [hcontext]
    exact hend.leave hfirst (hsettled.run _) fun hnone l hl =>
      w.serves_of_answers hindex hreached.answers hnone hl
  · have hinfo : started.info = s.info := by rw [hstarted]; rfl
    have hkeeps := hreached.keeps
    rw [run_lookIntoSpec, ← hstarted, run_lookIntoValues, ← hinfo]
    have hstate :=
      (hsettled.run { ((specValues r p.spec p.symbols.length p.isConst).run { started with context :=
        p.context }).2 with
      context := started.context }).state
    change started.info.Keeps (State.info _)
    rw [hstate]
    exact hkeeps

-- Whatever is explored can be entered.
theorem entered_of_explored [ReadsRules r] [RunsRules Progressing r] (hexplored : w.Explored n r r') :
    w.Entered n r r' := by
  intro ground file missing rest path s index hs howed hindex hlead
  obtain ⟨p, hp⟩ : ∃ p, s.specs[index]? = some p := by
    rw [← hs.parts, length_specParts] at hindex
    exact ⟨_, Array.getElem?_eq_getElem hindex⟩
  rw [run_resolveSpec r hp, run_resolveSpec r' hp]
  cases hprogress : p.progress with
  | finished => exact ⟨rfl, .inr ⟨p, hp, hprogress⟩, [], hs, refl_of Progressing s, .refl _, nofun⟩
  | running =>
      obtain ⟨hreports, hend⟩ := hs.report hp hprogress hlead
      exact ⟨rfl, .inl hreports, [], hend, progressing_of_specs rfl rfl (List.suffix_cons _ _),
        .refl _, nofun⟩
  | untouched =>
      obtain ⟨hrun, hreached⟩ := entered_untouched hexplored hs howed hp hprogress hlead
      exact ⟨hrun, .inr (finished_lookIntoSpec hp), hreached⟩

-- Rules that lead deep enough explore every value, and all of them in the same way.
theorem explored_rules {fuel fuel' : Nat} (hfuel : n ≤ fuel) (hfuel' : n ≤ fuel') :
    w.Explored n (rules fuel) (rules fuel') := by
  induction n generalizing fuel fuel' with
  | zero =>
      intro ground file path budget t expected? ht hheight
      have := ht.height_pos
      omega
  | succ n ih =>
      obtain ⟨m, rfl⟩ : ∃ m, fuel = m + 1 := ⟨fuel - 1, by omega⟩
      obtain ⟨m', rfl⟩ : ∃ m', fuel' = m' + 1 := ⟨fuel' - 1, by omega⟩
      intro ground file path budget t expected? ht hheight hpath
      have hbelow : w.Explored n (rules m) (rules m') :=
        ih (Nat.le_of_succ_le_succ hfuel) (Nat.le_of_succ_le_succ hfuel')
      exact explores_exprStep hbelow (entered_of_explored hbelow) ht hheight hpath

end Looking

end Check

end SpriteScript
