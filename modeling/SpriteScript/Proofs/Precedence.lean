import SpriteScript.Proofs.Termination.Recursion
import SpriteScript.Syntax.Access

-- Operators group by how tight they bind, and to the left where they bind alike. That holds in the
-- tree of every text, since an expression ends only where no operator follows that belongs to it.
namespace SpriteScript

@[reducible] def NodeKind.isBinary : NodeKind → Bool
  | .binaryExpr => true
  | _ => false

namespace Tree

-- How tight the operator of a binary operation binds.
def power? (t : Tree) : Option Nat := t.binaryOp?.bind Syntax.binaryPower?

-- A binary operation before its operator binds as tight as that one or tighter, one behind it binds
-- tighter, and none is the operand of a sign.
structure Grouped (t : Tree) : Prop where
  binary : t.isA .binaryExpr = true → ∃ before op after p, t.children = before ++ .token op :: after ∧
    t.binaryOpToken? = some op ∧ t.power? = some p ∧
    (∀ u ∈ before, u.isA .binaryExpr = true → ∃ q, u.power? = some q ∧ p ≤ q) ∧
    ∀ u ∈ after, u.isA .binaryExpr = true → ∃ q, u.power? = some q ∧ p < q
  unary : t.isA .unaryExpr = true → ∀ u ∈ t.children, u.isA .binaryExpr = false

-- What may stand before an operator that binds tightest: no operation of two operands.
def Operand : Tree → Prop
  | token s => s.kind.isTrivia = true
  | node kind _ _ => kind.isBinary = false

-- All operators of the tree that are not inside of an operand bind tighter than `power`, and as
-- tight as the one that follows.
def Climbs (power : Nat) (next : Option Nat) (t : Tree) : Prop :=
  t.Operand ∨ t.isA .binaryExpr = true ∧ ∃ q, t.power? = some q ∧ power < q ∧ ∀ own ∈ next, own ≤ q

section Kinds

variable {kind : NodeKind}

theorem inherits_grouped (hunary : kind ≠ .unaryExpr) (hbinary : kind ≠ .binaryExpr) :
    Inherits (Everywhere Grouped) kind where
  node _ _ h :=
    everywhere_node.mpr ⟨⟨fun hkind => by simp_all [isA, kind?], fun hkind => by simp_all [isA, kind?]⟩, h⟩

instance : Hereditary (Everywhere Grouped) where
  token := everywhere_token _
  atom kind offset children hkind hsingle := by
    refine (inherits_grouped ?_ ?_).node offset children fun c hc => ?_
    · rintro rfl
      cases hkind
    · rintro rfl
      cases hkind
    · cases hsingle with
      | none => cases hc
      | one s => exact List.mem_singleton.mp hc ▸ everywhere_token _ s
  ordinary kind hkind := inherits_grouped (by rintro rfl; cases hkind) (by rintro rfl; cases hkind)

instance : Blanks Operand := ⟨fun _ h => h⟩

theorem isA_of_operand {t : Tree} (h : t.Operand) : t.isA .binaryExpr = false := by
  cases t with
  | token => rfl
  | node kind =>
      refine beq_eq_false_iff_ne.mpr fun hkind => ?_
      obtain rfl := Option.some.inj hkind
      cases h

end Kinds

theorem isTrivia_of_isPunct (kind : TokenKind) (h : kind.isPunct = true) : kind.isTrivia = false := by
  revert h
  cases kind <;> decide

-- Binary operators are among the punctuation.
theorem isPunct_of_binaryPower (kind : TokenKind) (h : (Syntax.binaryPower? kind).isSome = true) :
    kind.isPunct = true := by
  revert h
  cases kind <;> decide

theorem everywhere_binary {power p : Nat} {next : Option Nat} {before after : List Tree} {op : Token}
    (offset : Nat) (hop : Syntax.binaryPower? op.kind = some p)
    (hbefore : ∀ t ∈ before, t.Everywhere Grouped ∧ t.Climbs power (some p))
    (hafter : ∀ t ∈ after, t.Everywhere Grouped ∧ t.Climbs p next) :
    (node .binaryExpr offset (before ++ .token op :: after)).Everywhere Grouped ∧
      (node .binaryExpr offset (before ++ .token op :: after)).power? = some p := by
  have hnone : (before.filterMap token?).find? (·.kind.isPunct) = none := by
    refine List.find?_eq_none.mpr fun s hs hpunct => ?_
    obtain ⟨t, ht, htoken⟩ := List.mem_filterMap.mp hs
    cases t with
    | node => cases htoken
    | token =>
        obtain rfl := Option.some.inj htoken
        rcases (hbefore _ ht).2 with htrivia | ⟨hkind, -⟩
        · exact absurd (htrivia.symm.trans (isTrivia_of_isPunct _ hpunct)) (by decide)
        · cases hkind
  have htoken : (node .binaryExpr offset (before ++ .token op :: after)).binaryOpToken? = some op := by
    have hpunct := isPunct_of_binaryPower op.kind (by simp [hop])
    rw [binaryOpToken?, childTokens, children, List.filterMap_append, List.find?_append, hnone]
    simp [token?, hpunct]
  have hpower : (node .binaryExpr offset (before ++ .token op :: after)).power? = some p := by
    rw [power?, binaryOp?, htoken]
    exact hop
  have hkind : ¬ (node .binaryExpr offset (before ++ .token op :: after)).isA .unaryExpr := by
    simp [isA, kind?]
  refine ⟨everywhere_node.mpr ⟨⟨fun _ => ?_, fun hunary => absurd hunary hkind⟩, fun t ht => ?_⟩, hpower⟩
  · refine ⟨before, op, after, p, rfl, htoken, hpower, fun u hu hkind => ?_, fun u hu hkind => ?_⟩
    · rcases (hbefore u hu).2 with hoperand | ⟨-, q, hq, -, hle⟩
      · exact absurd (hkind.symm.trans (isA_of_operand hoperand)) (by decide)
      · exact ⟨q, hq, hle p rfl⟩
    · rcases (hafter u hu).2 with hoperand | ⟨-, q, hq, hlt, -⟩
      · exact absurd (hkind.symm.trans (isA_of_operand hoperand)) (by decide)
      · exact ⟨q, hq, hlt⟩
  · simp only [List.mem_append, List.mem_cons] at ht
    rcases ht with ht | rfl | ht
    · exact (hbefore t ht).1
    · exact everywhere_token _ op
    · exact (hafter t ht).1

end Tree

namespace Syntax

open SpriteScript.Tree (Everywhere Grouped Operand Inherits)

-- The instances for the parts of a long rule are found in one search.
set_option synthInstance.maxSize 1000

-- Operands

section Operands

variable {kind : NodeKind} {body : Action Unit}

-- Whatever is in a node, the node is an operand.
instance [hkind : Refuted kind.isBinary] [hb : Bracketed body] : Yields Operand (node kind body) :=
  .of_inner fun s hs => by
    obtain ⟨inner, hinner⟩ := hb.grows _ (sound_start (grows_flush hs).sound kind)
    exact ⟨inner, hinner, hkind.eq_false⟩

instance {place : Nat} [hkind : Refuted kind.isBinary] [hb : Bracketed body] :
    YieldsFrom Operand place (nodeAt place kind body) :=
  .of_inner fun _ _ _ _ _ hstart => by
    obtain ⟨inner, hinner⟩ := hb.grows _ hstart
    exact ⟨inner, hinner, hkind.eq_false⟩

namespace Rules

variable (g : Rules) [∀ rule, Bracketed (g.run rule)]

instance : Yields Operand g.typedLiteral := by unfold typedLiteral; infer_instance

instance : Yields Operand g.parenthesized := by unfold parenthesized; infer_instance

instance : Yields Operand g.primary := by
  unfold primary
  refine .bind inferInstance fun kind => .bind inferInstance fun second => ?_
  split <;> infer_instance

instance (first : Nat) : YieldsFrom Operand first (g.postfixStep first) := by
  unfold postfixStep
  refine .bind inferInstance fun kind => ?_
  split <;> infer_instance

instance (first : Nat) : YieldsFrom Operand first (g.postfixed first) := by
  unfold postfixed
  infer_instance

instance (first : Nat) : YieldsFrom Operand first (g.commandHead first) := by
  unfold commandHead
  infer_instance

end Rules

end Operands

-- How tight the operator binds that follows.
def Cursor.nextPower? (s : Cursor) : Option Nat := s.kind?.bind binaryPower?

-- What a rule makes is grouped. That of an expression binds tighter than it asks for, and no operator
-- follows that does too.
def Rule.Makes : Rule → Cursor → Tree → Prop
  | .unary, _, t => t.Operand
  | .expr power, s, t => t.Climbs power s.nextPower?
  | _, _, _ => True

def Rule.Ends : Rule → Cursor → Prop
  | .expr power, s => ∀ own ∈ s.nextPower?, own ≤ power
  | _, _ => True

def Rule.Groups (rule : Rule) (s s' : Cursor) : Prop :=
  s.Sound → ∃ new, Grows s s' new ∧ (∀ t ∈ new, t.Everywhere Grouped ∧ rule.Makes s' t) ∧ rule.Ends s'

class Rules.Grouping (g : Rules) : Prop where
  groups : ∀ (rule : Rule) (s : Cursor), rule.Groups s ((g.run rule).run s).2

-- Since the checkpoint at `s₀` only trees were added that an operator may follow.
def Climbing (power : Nat) (s₀ s : Cursor) : Prop :=
  ∃ left, Grows s₀ s left ∧ ∀ t ∈ left, t.Everywhere Grouped ∧ t.Climbs power s.nextPower?

theorem Climbing.of_operands (power : Nat) {s₀ s : Cursor} {left : List Tree} (h : Grows s₀ s left)
    (hleft : ∀ t ∈ left, t.Everywhere Grouped ∧ t.Operand) : Climbing power s₀ s :=
  ⟨left, h, fun t ht => ⟨(hleft t ht).1, .inl (hleft t ht).2⟩⟩

namespace Rules

variable (g : Rules) [hg : g.Grouping]

instance (rule : Rule) : Yields (Everywhere Grouped) (g.run rule) where
  yields s h := by
    obtain ⟨new, hnew, hall, -⟩ := hg.groups rule s h
    exact ⟨new, hnew, fun t ht => (hall t ht).1⟩

instance : Yields Operand (g.run .unary) where
  yields s h := by
    obtain ⟨new, hnew, hall, -⟩ := hg.groups .unary s h
    exact ⟨new, hnew, fun t ht => (hall t ht).2⟩

instance (rule : Rule) : Bracketed (g.run rule) :=
  (inferInstance : Yields (Everywhere Grouped) (g.run rule)).imp fun _ _ => trivial

-- An operator takes what stands before it, as tight as it binds, and behind it an expression that
-- binds tighter.
theorem climbing_operation {power own : Nat} {s₀ s : Cursor} (h₀ : s₀.Sound) (h : Climbing power s₀ s)
    (hown : s.nextPower? = some own) (hlt : power < own) :
    Climbing power s₀ ((nodeAt s₀.builder.checkpoint .binaryExpr (do bump; g.run (.expr own))).run s).2 ∧
      ((nodeAt s₀.builder.checkpoint .binaryExpr (do bump; g.run (.expr own))).run s).2.rest.length <
      s.rest.length := by
  obtain ⟨left, hleft, hall⟩ := h
  obtain ⟨op, hcurrent, hpower⟩ : ∃ op, s.current? = some op ∧ binaryPower? op.kind = some own := by
    simpa [Cursor.nextPower?, Cursor.kind?, Option.bind_map, Option.bind_eq_some_iff] using hown
  have hstart := sound_startAt hleft.sound .binaryExpr hleft.checkpoint_le
  have hbump := (grows_bump hstart).1
  obtain ⟨more, hmore, hmade, hends⟩ := hg.groups (.expr own) _ hbump.sound
  have hnode := grows_node h₀ hleft (hbump.trans hmore)
  have hsame : (s.startAt s₀.builder.checkpoint .binaryExpr).current? = some op := hcurrent
  refine ⟨⟨_, hnode, List.forall_mem_singleton.mpr ?_⟩, ?_⟩
  · have hbefore : ∀ t ∈ left ++ (s.rest.takeWhile (·.skipped)).map fun l => .token l.token,
        t.Everywhere Grouped ∧ t.Climbs power (some own) :=
      List.forall_mem_append.mpr ⟨hown ▸ hall, fun t ht =>
        ⟨forall_skipped hleft.sound t ht, .inl (forall_skipped hleft.sound t ht)⟩⟩
    have hgroups := Tree.everywhere_binary s₀.offset hpower hbefore hmade
    have hchildren :
        left ++ ((s.rest.takeWhile (·.skipped)).map (fun l => .token l.token) ++ [.token op] ++ more) =
        left ++ (s.rest.takeWhile (·.skipped)).map (fun l => .token l.token) ++ .token op :: more := by
      simp only [List.append_assoc, List.singleton_append]
    rw [hsame]
    refine hchildren ▸ ⟨hgroups.1, .inr ⟨rfl, own, hgroups.2, hlt, hends⟩⟩
  · have hshrinks := bump_shrinks (s := s.startAt s₀.builder.checkpoint .binaryExpr) (by simp [hsame])
    exact Nat.lt_of_le_of_lt hmore.length_le hshrinks

-- A turn takes an operation, or finds no operator that binds tighter.
theorem climbing_binaryStep {power : Nat} {s₀ s : Cursor} (h₀ : s₀.Sound) (h : Climbing power s₀ s) :
    Climbing power s₀ ((g.binaryStep power s₀.builder.checkpoint).run s).2 ∧
      (((g.binaryStep power s₀.builder.checkpoint).run s).1 = true →
        ((g.binaryStep power s₀.builder.checkpoint).run s).2.rest.length < s.rest.length) ∧
      (((g.binaryStep power s₀.builder.checkpoint).run s).1 = false →
        ∀ own ∈ ((g.binaryStep power s₀.builder.checkpoint).run s).2.nextPower?, own ≤ power) := by
  unfold binaryStep
  rw [run_kind?_bind]
  split
  case h_1 own hown =>
      split
      case isTrue hlt =>
          obtain ⟨hclimbing, hless⟩ := g.climbing_operation h₀ h hown hlt
          exact ⟨hclimbing, fun _ => hless, fun hturn => absurd hturn.symm Bool.false_ne_true⟩
      case isFalse hlt =>
          refine ⟨h, fun hturn => absurd hturn Bool.false_ne_true, fun _ own' hown' => ?_⟩
          obtain rfl : own = own' := Option.some.inj (hown.symm.trans hown')
          exact Nat.le_of_not_lt hlt
  case h_2 hnone =>
      refine ⟨h, fun hturn => absurd hturn Bool.false_ne_true, fun _ own hown => ?_⟩
      exact absurd (hown.symm.trans hnone) (Option.some_ne_none own)

theorem climbing_repeat {power : Nat} {s₀ s : Cursor} (h₀ : s₀.Sound) (h : Climbing power s₀ s) (fuel : Nat) :
    Climbing power s₀ ((repeatWhile fuel (g.binaryStep power s₀.builder.checkpoint)).run s).2 ∧
      (s.rest.length < fuel →
        ∀ own ∈ ((repeatWhile fuel (g.binaryStep power s₀.builder.checkpoint)).run s).2.nextPower?,
        own ≤ power) := by
  induction fuel generalizing s with
  | zero => exact ⟨h, fun hless => absurd hless (Nat.not_lt_zero _)⟩
  | succ fuel ih =>
      obtain ⟨hclimbing, hmore, hstop⟩ := g.climbing_binaryStep h₀ h
      rw [repeatWhile, run_bind]
      cases hturn : ((g.binaryStep power s₀.builder.checkpoint).run s).1 with
      | false => exact ⟨hclimbing, fun _ => hstop hturn⟩
      | true =>
          obtain ⟨hclimbing', hends⟩ := ih hclimbing
          have hless := hmore hturn
          exact ⟨hclimbing', fun hfuel => hends (by omega)⟩

-- The rules

theorem groups_exprRule (power : Nat) {s : Cursor} (hfuel : s.rest.length < g.fuel) :
    (Rule.expr power).Groups s ((g.exprRule power).run s).2 := by
  intro h
  have hflush := grows_flush h
  obtain ⟨left, hleft, hmade, -⟩ := hg.groups .unary _ hflush.sound
  have hlength : ((g.run .unary).run s.flush).2.rest.length < g.fuel :=
    Nat.lt_of_le_of_lt (hflush.trans hleft).length_le hfuel
  obtain ⟨⟨new, hnew, hall⟩, hends⟩ :=
    g.climbing_repeat hflush.sound (.of_operands power hleft hmade) g.fuel
  refine ⟨_, hflush.trans hnew, List.forall_mem_append.mpr ⟨fun t ht => ?_, hall⟩, hends hlength⟩
  exact ⟨forall_skipped h t ht, .inl (forall_skipped h t ht)⟩

theorem yields_unaryRule : Yields (fun t => t.Everywhere Grouped ∧ t.Operand) g.unaryRule := by
  have hsigned :
      Yields (Everywhere Grouped) (node .unaryExpr (do bump; g.run .unary)) := .of_inner fun s hs => by
    obtain ⟨sign, hsign, htokens⟩ := tokens_bump (sound_start (grows_flush hs).sound .unaryExpr)
    obtain ⟨operand, hoperand, hmade, -⟩ := hg.groups .unary _ hsign.sound
    refine ⟨_, hsign.trans hoperand, Tree.everywhere_node.mpr ⟨⟨nofun, fun _ => ?_⟩, ?_⟩⟩
    · refine List.forall_mem_append.mpr ⟨fun t ht => ?_, fun t ht => Tree.isA_of_operand (hmade t ht).2⟩
      obtain ⟨u, rfl⟩ := htokens t ht
      rfl
    · refine List.forall_mem_append.mpr ⟨fun t ht => ?_, fun t ht => (hmade t ht).1⟩
      obtain ⟨u, rfl⟩ := htokens t ht
      exact Tree.everywhere_token _ u
  unfold unaryRule
  refine .bind inferInstance fun signed => ?_
  split
  · exact .and hsigned inferInstance
  · exact .and inferInstance inferInstance

instance : Yields (Everywhere Grouped) g.commandOrExpr where
  yields s h := by
    have hflush := grows_flush h
    let first := s.flush.builder.checkpoint
    have hhead :
        YieldsFrom (fun t => t.Everywhere Grouped ∧ t.Operand) first (do g.commandHead first; atCommandArg) :=
      .and inferInstance inferInstance
    obtain ⟨left, hleft, hall, -⟩ := hhead.yields _ _ [] hflush.sound rfl (.refl hflush.sound) nofun
    suffices hrest : ∃ new, Grows s.flush (g.commandOrExpr.run s).2 new ∧ ∀ t ∈ new, t.Everywhere Grouped by
      obtain ⟨new, hnew, hgrouped⟩ := hrest
      exact ⟨_, hflush.trans hnew, List.forall_mem_append.mpr ⟨forall_skipped h, hgrouped⟩⟩
    have hrun : g.commandOrExpr.run s = ((if ((do g.commandHead first; atCommandArg).run s.flush).1 then
        (do nodeAt first .commandCall g.commandArgs; return true)
      else
        (do g.postfixed first; g.climb 0 first; return false)).run
          ((do g.commandHead first; atCommandArg).run s.flush).2) := rfl
    rw [hrun]
    split
    · have hcall : YieldsFrom (Everywhere Grouped) first (nodeAt first .commandCall g.commandArgs) :=
        inferInstance
      obtain ⟨new, hnew, hgrouped, -⟩ :=
        hcall.yields _ _ left hflush.sound rfl hleft fun t ht => (hall t ht).1
      exact ⟨new, hnew, hgrouped⟩
    · have hpostfixed : YieldsFrom (fun t => t.Everywhere Grouped ∧ t.Operand) first (g.postfixed first) :=
        .and inferInstance inferInstance
      obtain ⟨more, hmore, hall', -⟩ := hpostfixed.yields _ _ left hflush.sound rfl hleft hall
      obtain ⟨⟨new, hnew, hgrouped⟩, -⟩ :=
        g.climbing_repeat hflush.sound (.of_operands 0 hmore hall') g.fuel
      exact ⟨new, hnew, fun t ht => (hgrouped t ht).1⟩

-- What is grouped by the rules that a rule leads to is grouped by the rule.
theorem groups_body (rule : Rule) {s : Cursor} (hfuel : s.rest.length < g.fuel) :
    rule.Groups s ((g.body rule).run s).2 := by
  have hyields {a : Action Unit} (ha : Yields (Everywhere Grouped) a) (h : s.Sound) :
      ∃ new, Grows s (a.run s).2 new ∧ (∀ t ∈ new, t.Everywhere Grouped ∧ True) ∧ True := by
    obtain ⟨new, hnew, hgrouped⟩ := ha.yields s h
    exact ⟨new, hnew, fun t ht => ⟨hgrouped t ht, trivial⟩, trivial⟩
  cases rule with
  | type => exact hyields (inferInstance : Yields _ g.typeRule)
  | statement => exact hyields (inferInstance : Yields _ g.statementRule)
  | ifStmt => exact hyields (inferInstance : Yields _ g.ifRule)
  | expr power => exact g.groups_exprRule power hfuel
  | unary =>
      intro h
      obtain ⟨new, hnew, hmade⟩ := g.yields_unaryRule.yields s h
      exact ⟨new, hnew, hmade, trivial⟩

end Rules

-- Taking all that is left is a way to be grouped.
theorem exists_groups (rule : Rule) (s : Cursor) : ∃ s', rule.Groups s s' := by
  refine ⟨((node .error (takeUntil (s.rest.length + 1) [])).run s).2, fun h => ?_⟩
  have hyields :
      Yields (fun t => t.Everywhere Grouped ∧ t.Operand) (node .error (takeUntil (s.rest.length + 1) [])) :=
    .and inferInstance inferInstance
  obtain ⟨new, hnew, hmade⟩ := hyields.yields s h
  have hend : ((node .error (takeUntil (s.rest.length + 1) [])).run s).2.nextPower? = none := by
    have hflush := grows_flush h
    have hcurrent := takeUntil_ends (sound_start hflush.sound .error) (Nat.lt_succ_of_le hflush.length_le)
    have hkind := congrArg (fun t : Option Token => (t.map (·.kind)).bind binaryPower?) hcurrent
    exact hkind
  cases rule with
  | unary => exact ⟨new, hnew, hmade, trivial⟩
  | expr power =>
      refine ⟨new, hnew, fun t ht => ⟨(hmade t ht).1, .inl (hmade t ht).2⟩, fun own hown => ?_⟩
      exact absurd (hend.symm.trans hown) nofun
  | _ => exact ⟨new, hnew, fun t ht => ⟨(hmade t ht).1, trivial⟩, trivial⟩

instance (fuel : Nat) : (Rules.mk fuel Rule.run).Grouping where
  groups := Rule.run_induction exists_groups fun g hg rule _ hfuel =>
    have : g.Grouping := ⟨hg⟩
    g.groups_body rule hfuel

-- In the tree of every text, one with errors included, an operator takes to its left what binds as
-- tight or tighter, to its right only what binds tighter, and a sign takes no operator at all.
theorem operators_grouped (text : String) : (parse text).tree.Everywhere Grouped := by
  have hfile (g : Rules) [g.Grouping] : Yields (Everywhere Grouped) g.fileContents := inferInstance
  obtain ⟨fuel, hfuel⟩ : ∃ fuel, (Token.tokenize text).length < fuel := ⟨_, Nat.lt_succ_self _⟩
  have := hfile (Rules.mk fuel Rule.run)
  exact holds_parse_of_run (P := Everywhere Grouped) text hfuel

end Syntax

end SpriteScript
