import SpriteScript.Proofs.Termination.Recursion

-- The parser ends for every row of tokens: no function goes back, every turn of a loop that asks for
-- another one has taken a token, and so has every way from a rule back to itself.
namespace SpriteScript.Syntax

-- An action that does not go back.
def Forward {α : Type} (a : Action α) : Prop := ∀ s, (a.run s).2.rest <:+ s.rest

def Rules.Forward (g : Rules) : Prop := ∀ rule, Syntax.Forward (g.run rule)

-- What the loops of the grammar do in one turn, with elements and members that do not go back.
inductive Loop (g : Rules) : Action Bool → Prop where
  | eatWhile (kinds : List TokenKind) : Loop g (eatStep kinds)
  | takeUntil (stops : List TokenKind) : Loop g (takeStep stops)
  | commaList (close : TokenKind) {element : Action Unit} : Forward element →
      Loop g (g.commaStep close element)
  | members (close : TokenKind) (f : Fault) (stops : List TokenKind) {member : Action Unit} :
      Forward member → Loop g (g.memberStep close f stops member)
  | moreExprs (acrossLines : Bool) : Loop g (g.moreExprStep acrossLines)
  | moreNames (what : String) : Loop g (Rules.moreNameStep what)
  | statementList (stops : List TokenKind) : Loop g (g.statementStep stops)
  | lambdaParams : Loop g Rules.lambdaParamStep
  | postfixed (first : Nat) : Loop g (g.postfixStep first)
  | climb (power first : Nat) : Loop g (g.binaryStep power first)
  | commandHead (first : Nat) : Loop g (Rules.selectorStep first)
  | clauses (kind : NodeKind) : Loop g (g.clauseStep kind)
  | items : Loop g g.itemStep

-- A rule at a cursor leads to another one at its own: what it does depends on what that one does.
-- No action takes back what another one has reported, so that no call goes unnoticed.
def Leads (x y : Rule × Cursor) : Prop :=
  ∃ g g' : Rules, g.Forward ∧ g'.Forward ∧ g.fuel = g'.fuel ∧
    (∀ rule s, (rule, s) ≠ y → (g.run rule).run s = (g'.run rule).run s) ∧
    (g.body x.1).run x.2 ≠ (g'.body x.1).run x.2

-- The function that a rule is, whatever its argument.
def Rule.function : Rule → Rule
  | .expr _ => .expr 0
  | rule => rule

section Forward

variable {α : Type} {a : Action α} {g : Rules}

theorem paired_same_self (all : List Lexeme) (n : Nat) (h : Forward a) : Paired (same all n) a a :=
  paired_same.mpr fun s _ => ⟨rfl, h s⟩

theorem forward_of_paired (h : ∀ all n, Paired (same all n) a a) : Forward a := fun s =>
  (paired_same.mp (h s.rest (s.rest.length + 1)) s ⟨List.suffix_rfl, Nat.lt_succ_self _⟩).2

theorem Rules.Forward.paired (h : g.Forward) (all : List Lexeme) (n : Nat) :
    PairedRules (same all n) g g where
  fuels := ⟨.inl rfl⟩
  run rule := paired_same_self all n (h rule)

theorem Rules.Forward.body (h : g.Forward) (rule : Rule) : Syntax.Forward (g.body rule) :=
  forward_of_paired fun all n =>
    have := h.paired all n
    inferInstance

theorem Rules.Forward.sourceFile (h : g.Forward) : Syntax.Forward g.sourceFile :=
  forward_of_paired fun all n =>
    have := h.paired all n
    inferInstance

theorem forward_runRule (fuel loops : Nat) : (Rules.mk loops (runRule fuel)).Forward := by
  induction fuel generalizing loops with
  | zero => exact fun _ _ => List.suffix_rfl
  | succ fuel ih =>
      intro rule
      change Forward (runRule (fuel + 1) rule)
      rw [runRule_succ]
      exact (ih (fuel + 1)).body rule

end Forward

-- Loops

theorem Loop.turning {g : Rules} {step : Action Bool} (h : Loop g step) (hg : g.Forward)
    (all : List Lexeme) (n : Nat) :
    Paired (same all n) step step ∧ ∀ t t', Turning (same all n) t t' step step := by
  have := hg.paired all n
  cases h with
  | commaList close helement =>
      have := paired_same_self all n helement
      exact ⟨inferInstance, fun _ _ => inferInstance⟩
  | members close f stops hmember =>
      have := paired_same_self all n hmember
      exact ⟨inferInstance, fun _ _ => inferInstance⟩
  | postfixed first =>
      exact ⟨paired_place (fun _ _ => inferInstance) first, turning_place (fun _ _ => inferInstance) first⟩
  | climb power first =>
      exact ⟨paired_place (fun _ _ => inferInstance) first, turning_place (fun _ _ => inferInstance) first⟩
  | commandHead first =>
      exact ⟨paired_place (fun _ _ => inferInstance) first, turning_place (fun _ _ => inferInstance) first⟩
  | _ => exact ⟨inferInstance, fun _ _ => inferInstance⟩

theorem Loop.forward {g : Rules} {step : Action Bool} (h : Loop g step) (hg : g.Forward) : Forward step :=
  forward_of_paired fun all n => (h.turning hg all n).1

theorem Loop.shorter {g : Rules} {step : Action Bool} (h : Loop g step) (hg : g.Forward) (s : Cursor)
    (hmore : (step.run s).1 = true) : (step.run s).2.rest.length < s.rest.length := by
  have hs : Within s.rest (s.rest.length + 1) s := ⟨List.suffix_rfl, Nat.lt_succ_self _⟩
  exact ((h.turning hg _ _).2 s s).shorter s s ⟨rfl, hs⟩ ⟨rfl, rfl, List.suffix_rfl, hs⟩ hmore

-- A loop that may turn more often than there are tokens ends by itself.
theorem Loop.repeatWhile_eq {g : Rules} {step : Action Bool} (h : Loop g step) (hg : g.Forward) {s : Cursor}
    {fuel fuel' : Nat} (hfuel : s.rest.length < fuel) (hfuel' : s.rest.length < fuel') :
    (repeatWhile fuel step).run s = (repeatWhile fuel' step).run s := by
  have hs : Within s.rest (s.rest.length + 1) s := ⟨List.suffix_rfl, Nat.lt_succ_self _⟩
  have : Fuels (same s.rest (s.rest.length + 1)) fuel fuel' := by
    refine ⟨.inr fun t t' ht => ?_⟩
    obtain ⟨rfl, -, hlength⟩ := ht
    omega
  obtain ⟨hpaired, hturning⟩ := h.turning hg s.rest (s.rest.length + 1)
  exact (paired_same.mp (inferInstance : Paired (same s.rest (s.rest.length + 1)) (repeatWhile fuel step)
    (repeatWhile fuel' step)) s hs).1

-- Recursion

theorem Leads.forward {x y : Rule × Cursor} (h : Leads x y) :
    y.2.rest <:+ x.2.rest ∧ depth y.1 y.2 < depth x.1 x.2 := by
  obtain ⟨g, g', hg, -, hfuel, hsame, hbody⟩ := h
  by_contra hnot
  refine hbody (agree_body (.inl hfuel) fun rule s hsuffix hdepth => ⟨hsame rule s ?_, hg rule s⟩).1
  rintro rfl
  exact hnot ⟨hsuffix, hdepth⟩

theorem transGen_forward {x y : Rule × Cursor} (h : Relation.TransGen Leads x y) :
    y.2.rest <:+ x.2.rest ∧ depth y.1 y.2 < depth x.1 x.2 := by
  induction h with
  | single h => exact h.forward
  | tail _ h ih => exact ⟨h.forward.1.trans ih.1, h.forward.2.trans ih.2⟩

theorem Rule.level_function (s : Cursor) (rule : Rule) : rule.function.level s = rule.level s := by
  cases rule <;> rfl

-- Where as much is left, a rule stands as high as before.
theorem Rule.level_congr {s s' : Cursor} (h : s'.rest = s.rest) (rule : Rule) :
    rule.level s' = rule.level s := by
  cases rule <;> simp only [level, h]

theorem shorter_of_function_eq {x y : Rule × Cursor} (h : Relation.TransGen Leads x y)
    (hfunction : x.1.function = y.1.function) : y.2.rest.length < x.2.rest.length := by
  obtain ⟨hsuffix, hdepth⟩ := transGen_forward h
  refine Nat.lt_of_le_of_ne hsuffix.length_le fun hlength => ?_
  have hrest := hsuffix.eq_of_length hlength
  have hlevel : y.1.level y.2 = x.1.level x.2 := by
    rw [← Rule.level_function, ← hfunction, Rule.level_function, Rule.level_congr hrest]
  rw [depth, depth, hlevel, hlength] at hdepth
  exact Nat.lt_irrefl _ hdepth

theorem wellFounded_leads : WellFounded fun y x => Leads x y :=
  Subrelation.wf (fun h => Leads.forward h |>.2) (measure fun x : Rule × Cursor => depth x.1 x.2).wf

-- The parser ends for all tokens. Whatever the rules do that it is made of, as long as none of them
-- goes back, no function goes back, and a turn of a loop that asks for another one has taken a token,
-- so that no loop stops because its fuel is used up. Rules lead into each other forward and not
-- without end, and from a function back to itself over a token. So they can be run without a bound,
-- in one way only, and that is the parse.
theorem parse_terminates :
    (∀ g : Rules, g.Forward → (∀ rule, Forward (g.body rule)) ∧ Forward g.sourceFile) ∧
    (∀ fuel loops, (Rules.mk loops (runRule fuel)).Forward) ∧
    (∀ g : Rules, g.Forward → ∀ step, Loop g step → Forward step ∧
      (∀ s, (step.run s).1 = true → (step.run s).2.rest.length < s.rest.length) ∧
      ∀ s fuel fuel', s.rest.length < fuel → s.rest.length < fuel' →
        (repeatWhile fuel step).run s = (repeatWhile fuel' step).run s) ∧
    (WellFounded fun y x => Leads x y) ∧
    (∀ x y, Relation.TransGen Leads x y → y.2.rest <:+ x.2.rest ∧
      (x.1.function = y.1.function → y.2.rest.length < x.2.rest.length)) ∧
    (∃! run : Rule → Action Unit, Recursive run) ∧
    (∀ run, Recursive run → ∀ tokens textEnd fuel, tokens.length < fuel →
      parseWith ⟨fuel, run⟩ tokens textEnd = parseTokens tokens textEnd) ∧
    ∀ text, parse text = parseTokens (Token.tokenize text) text.utf8ByteSize := by
  refine ⟨fun g hg => ⟨hg.body, hg.sourceFile⟩, forward_runRule, fun g hg step hstep => ?loops,
    wellFounded_leads, fun x y h => ⟨(transGen_forward h).1, shorter_of_function_eq h⟩, ?unique,
    ?parse, parse_eq_parseTokens⟩
  case loops => exact ⟨hstep.forward hg, hstep.shorter hg, fun s _ _ => hstep.repeatWhile_eq hg⟩
  case unique => exact ⟨Rule.run, recursive_run, fun _ h => h.eq_run⟩
  case parse =>
    intro run hrun tokens textEnd fuel hfuel
    rw [hrun.eq_run]
    exact parseWith_run textEnd hfuel

-- A parenthesis that closes nothing is no way to stay at the same token.
theorem itemStep_shorter_at_rParen :
    let g : Rules := ⟨8, runRule 8⟩
    let s : Cursor := { rest := markLineEnds false [⟨.rParen, ")", 0⟩], textEnd := 1 }
    g.Forward ∧ Loop g g.itemStep ∧ (g.itemStep.run s).1 = true ∧
    (g.itemStep.run s).2.rest.length < s.rest.length := by
  intro g s
  have hforward : g.Forward := forward_runRule 8 8
  have hmore : (g.itemStep.run s).1 = true := rfl
  exact ⟨hforward, .items, hmore, (parse_terminates.2.2.1 g hforward _ .items).2.1 s hmore⟩

end SpriteScript.Syntax
