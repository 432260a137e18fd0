import SpriteScript.Proofs.Lossless
import SpriteScript.Proofs.Termination.Depth

-- The recursion of the grammar is well-founded: what bounds its depth bounds nothing.
namespace SpriteScript.Syntax

-- Where a rule stands in the grammar: it leads to rules that stand lower, unless it takes a token
-- first. `if` takes one as long as there is one.
def Rule.level (s : Cursor) : Rule → Nat
  | .type => 0
  | .unary => 1
  | .expr _ => 2
  | .statement => 3
  | .ifStmt => if s.rest = [] then 3 else 0

theorem Rule.level_lt (rule : Rule) (s : Cursor) : rule.level s < 4 := by
  cases rule <;> simp only [level] <;> first | omega | (split <;> omega)

theorem Rule.level_ifStmt {s : Cursor} (h : s.rest ≠ []) : Rule.level s .ifStmt = 0 := if_neg h

-- How deep a rule may lead from here.
def depth (rule : Rule) (s : Cursor) : Nat := 4 * s.rest.length + rule.level s

section Depth

variable {rule rule' : Rule} {s s' : Cursor}

theorem depth_lt_of_length_lt (h : s'.rest.length < s.rest.length) : depth rule' s' < depth rule s := by
  have := rule'.level_lt s'
  unfold depth
  omega

theorem depth_lt_of_level_lt (h : s'.rest.length ≤ s.rest.length) (hlevel : rule'.level s' < rule.level s) :
    depth rule' s' < depth rule s := by
  unfold depth
  omega

theorem length_le_depth (rule : Rule) (s : Cursor) : s.rest.length ≤ depth rule s := by
  unfold depth
  omega

theorem depth_lt (rule : Rule) (s : Cursor) : depth rule s < 4 * (s.rest.length + 1) := by
  have := rule.level_lt s
  unfold depth
  omega

end Depth

-- A rule only depends on what the rules do at less depth.
theorem agree_body {g g' : Rules} {rule : Rule} {s : Cursor}
    (hfuel : g.fuel = g'.fuel ∨ s.rest.length < g.fuel ∧ s.rest.length < g'.fuel)
    (h : ∀ rule' s', s'.rest <:+ s.rest → depth rule' s' < depth rule s →
      Agree (g.run rule') (g'.run rule') s') : Agree (g.body rule) (g'.body rule) s := by
  have hs : Within s.rest (s.rest.length + 1) s := ⟨List.suffix_rfl, Nat.lt_succ_self _⟩
  have hfuels : Fuels (same s.rest (s.rest.length + 1)) g.fuel g'.fuel := by
    refine ⟨hfuel.imp_right fun ⟨hlt, hlt'⟩ t _ ht => ?_⟩
    obtain ⟨rfl, ht⟩ := ht
    have := ht.2
    omega
  have hrules : PairedRules (same s.rest s.rest.length) g g' := {
    fuels := ⟨hfuels.enough.imp_right fun hlt t t' ht => hlt t t' ⟨ht.1, ht.2.1, Nat.lt_succ_of_lt ht.2.2⟩⟩
    run := fun rule' => paired_same.mpr fun t ht => h rule' t ht.1 (depth_lt_of_length_lt ht.2) }
  have hlower (rule' : Rule) (hlevel : ∀ t, rule'.level t < rule.level s) :
      Paired (same s.rest (s.rest.length + 1)) (g.run rule') (g'.run rule') :=
    paired_same.mpr fun t ht => h rule' t ht.1 (depth_lt_of_level_lt (Nat.le_of_lt_succ ht.2) (hlevel t))
  cases rule with
  | type => exact paired_same.mp (inferInstance : Paired (same _ _) g.typeRule g'.typeRule) s hs
  | unary =>
      have : Paired (same s.rest (s.rest.length + 1)) g.type g'.type :=
        hlower .type fun _ => by simp [Rule.level]
      exact paired_same.mp (inferInstance : Paired (same _ _) g.unaryRule g'.unaryRule) s hs
  | expr power =>
      have := hlower .unary fun _ => by simp [Rule.level]
      exact paired_same.mp (inferInstance : Paired (same _ _) (g.exprRule power) (g'.exprRule power)) s hs
  | statement =>
      have : Paired (same s.rest (s.rest.length + 1)) g.expr g'.expr :=
        hlower (.expr 0) fun _ => by simp [Rule.level]
      refine paired_same.mp (Rules.paired_statementRule g g' fun kind => ⟨fun t ht hkind => ?_⟩) s hs
      have hrest : t.rest ≠ [] := fun hnil => by simp [Rules.kind?_of_nil hnil] at hkind
      refine h .ifStmt t ht.1 (depth_lt_of_level_lt (Nat.le_of_lt_succ ht.2) ?_)
      rw [Rule.level_ifStmt hrest]
      exact Nat.zero_lt_succ 2
  | ifStmt =>
      by_cases hrest : s.rest = []
      · have : Paired (same [] (0 + 1)) g.expr g'.expr := paired_same.mpr fun t ht => by
          have hnil := ht.rest_eq_nil
          refine h (.expr 0) t (hnil ▸ List.nil_suffix) (depth_lt_of_level_lt (by rw [hnil, hrest]) ?_)
          simp [Rule.level, hrest]
        exact paired_same.mp (inferInstance : Paired (same [] (0 + 1)) g.ifRule g'.ifRule) s
          ⟨hrest ▸ List.suffix_rfl, by simp [hrest]⟩
      · exact Rules.agree_ifRule g g' hs hrest

-- Fuel for all of the depth is enough.
theorem agree_runRule {fuel fuel' : Nat} {rule : Rule} {s : Cursor} (h : depth rule s < fuel)
    (h' : depth rule s < fuel') : Agree (runRule fuel rule) (runRule fuel' rule) s := by
  induction fuel generalizing fuel' rule s with
  | zero => exact absurd h (Nat.not_lt_zero _)
  | succ fuel ih =>
      obtain ⟨fuel', rfl⟩ := Nat.exists_eq_add_one_of_ne_zero (Nat.ne_zero_of_lt h')
      rw [runRule_succ, runRule_succ]
      have hlength := length_le_depth rule s
      refine agree_body (.inr ⟨Nat.lt_of_le_of_lt hlength h, Nat.lt_of_le_of_lt hlength h'⟩)
        fun rule' t _ ht => ?_
      exact ih (Nat.lt_of_lt_of_le ht (Nat.le_of_lt_succ h)) (Nat.lt_of_lt_of_le ht (Nat.le_of_lt_succ h'))

-- What a rule does with as much fuel as it takes.
def Rule.run (rule : Rule) : Action Unit := fun s => runRule (depth rule s + 1) rule s

theorem agree_run {fuel : Nat} {rule : Rule} {s : Cursor} (h : depth rule s < fuel) :
    Agree (runRule fuel rule) rule.run s :=
  agree_runRule h (Nat.lt_succ_self _)

theorem run_suffix (rule : Rule) (s : Cursor) : (rule.run.run s).2.rest <:+ s.rest := by
  obtain ⟨hrun, hsuffix⟩ := agree_run (Nat.lt_succ_self (depth rule s))
  rwa [hrun] at hsuffix

-- Rules that run as the grammar says, without a bound on how deep they lead into each other. `fuel`
-- bounds only how often loops turn, and there are fewer tokens than that.
def Recursive (run : Rule → Action Unit) : Prop :=
  ∀ rule s fuel, s.rest.length < fuel → (run rule).run s = ((Rules.mk fuel run).body rule).run s

theorem recursive_run : Recursive Rule.run := by
  intro rule s fuel hfuel
  have hlength := Nat.lt_succ_of_le (length_le_depth rule s)
  change (runRule (depth rule s + 1) rule).run s = _
  rw [runRule_succ]
  exact (agree_body (.inr ⟨hlength, hfuel⟩) fun rule' t _ ht => agree_run ht).1

theorem Recursive.eq_run {run : Rule → Action Unit} (h : Recursive run) : run = Rule.run := by
  refine funext fun rule => StateT.ext fun s => ?_
  -- what is left below the depth of the rule is known by induction, and a body needs no more
  induction hdepth : depth rule s using Nat.strong_induction_on generalizing rule s with
  | _ n ih =>
      subst hdepth
      obtain ⟨fuel, hfuel⟩ : ∃ fuel, s.rest.length < fuel := ⟨_, Nat.lt_succ_self _⟩
      have hbelow rule' t (ht : depth rule' t < depth rule s) : Agree (run rule') rule'.run t := by
        have hrun := ih _ ht rule' t rfl
        rw [Agree, hrun]
        exact ⟨rfl, run_suffix rule' t⟩
      have hbody : Agree ((Rules.mk fuel run).body rule) ((Rules.mk fuel Rule.run).body rule) s :=
        agree_body (.inl rfl) fun rule' t _ ht => hbelow rule' t ht
      rw [h rule s fuel hfuel, recursive_run rule s fuel hfuel]
      exact hbody.1

-- What a rule does if all rules do it that it leads to, it does.
theorem Rule.run_induction {P : Rule → Cursor → Cursor → Prop} (hsome : ∀ rule s, ∃ s', P rule s s')
    (hbody : ∀ g : Rules, (∀ rule s, P rule s ((g.run rule).run s).2) → ∀ rule s, s.rest.length < g.fuel →
      P rule s ((g.body rule).run s).2) (rule : Rule) (s : Cursor) : P rule s (rule.run.run s).2 := by
  classical
  -- the rules of the grammar as far as they are known to do it, and others that do it by choice
  choose other hother using hsome
  let run (rule : Rule) : Action Unit :=
    fun s => if P rule s (rule.run.run s).2 then rule.run.run s else ((), other rule s)
  have hrun rule s : P rule s ((run rule).run s).2 := by
    change P rule s (if P rule s (rule.run.run s).2 then rule.run.run s else ((), other rule s)).2
    split
    case isTrue h => exact h
    case isFalse => exact hother rule s
  induction hdepth : depth rule s using Nat.strong_induction_on generalizing rule s with
  | _ n ih =>
      subst hdepth
      obtain ⟨fuel, hfuel⟩ : ∃ fuel, s.rest.length < fuel := ⟨_, Nat.lt_succ_self _⟩
      have hbelow rule' t (ht : depth rule' t < depth rule s) : Agree rule'.run (run rule') t :=
        ⟨(if_pos (ih _ ht rule' t rfl)).symm, run_suffix rule' t⟩
      have hsame : Agree ((Rules.mk fuel Rule.run).body rule) ((Rules.mk fuel run).body rule) s :=
        agree_body (.inl rfl) fun rule' t _ ht => hbelow rule' t ht
      rw [recursive_run rule s fuel hfuel, hsame.1]
      exact hbody _ hrun rule s hfuel

-- A parse of tokens

def parseWith (g : Rules) (tokens : List Token) (textEnd : Nat) : Parse :=
  let s := (g.sourceFile.run { rest := markLineEnds false tokens, textEnd }).2
  ⟨s.builder.root, s.errors.reverse⟩

def parseTokens (tokens : List Token) (textEnd : Nat) : Parse :=
  parseWith ⟨enoughFuel tokens, runRule (enoughFuel tokens)⟩ tokens textEnd

theorem parse_eq_parseTokens (text : String) :
    parse text = parseTokens (Token.tokenize text) text.utf8ByteSize := by
  simp only [parse, endCursor, startCursor, parseTokens, parseWith]

theorem length_markLineEnds (canEnd : Bool) (tokens : List Token) :
    (markLineEnds canEnd tokens).length = tokens.length := by
  rw [← List.length_map, map_token_markLineEnds]

-- Two parses are the same where the rules agree on all that is left at any time.
theorem parseWith_congr {g g' : Rules} {tokens : List Token} (textEnd : Nat)
    (hfuel : tokens.length < g.fuel) (hfuel' : tokens.length < g'.fuel)
    (h : ∀ rule s, s.rest.length ≤ tokens.length → Agree (g.run rule) (g'.run rule) s) :
    parseWith g tokens textEnd = parseWith g' tokens textEnd := by
  let all := markLineEnds false tokens
  have hall : all.length = tokens.length := length_markLineEnds false tokens
  have hrules : PairedRules (same all (all.length + 1)) g g' := {
    fuels := ⟨.inr fun s s' hs => by
      obtain ⟨rfl, -, hlength⟩ := hs
      omega⟩
    run := fun rule => paired_same.mpr fun s hs => h rule s (hall ▸ Nat.le_of_lt_succ hs.2) }
  have hrun := (paired_same.mp (inferInstance : Paired (same all (all.length + 1)) g.sourceFile g'.sourceFile)
    { rest := all, textEnd } ⟨List.suffix_rfl, Nat.lt_succ_self _⟩).1
  simp only [parseWith]
  rw [hrun]

-- With more fuel than tokens for the loops, and rules that run as deep as they lead, a parse is the same.
theorem parseWith_run {tokens : List Token} (textEnd : Nat) {fuel : Nat} (hfuel : tokens.length < fuel) :
    parseWith ⟨fuel, Rule.run⟩ tokens textEnd = parseTokens tokens textEnd := by
  have henough : tokens.length < enoughFuel tokens := by
    unfold enoughFuel
    omega
  refine (parseWith_congr textEnd henough hfuel fun rule s hs => agree_run ?_).symm
  have := depth_lt rule s
  unfold enoughFuel
  omega

-- What the rules yield, run without a bound, the tree of a text is.
theorem holds_parse_of_run {P : Tree → Prop} [Tree.Inherits P .sourceFile] (text : String) {fuel : Nat}
    (hfuel : (Token.tokenize text).length < fuel) [Yields P (Rules.mk fuel Rule.run).fileContents] :
    P (parse text).tree := by
  rw [parse_eq_parseTokens, ← parseWith_run text.utf8ByteSize hfuel]
  exact holds_root (Rules.mk fuel Rule.run) (sound_startCursor text) rfl

end SpriteScript.Syntax
