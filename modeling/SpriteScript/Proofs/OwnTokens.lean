import SpriteScript.Proofs.Termination.Recursion
import SpriteScript.Syntax.Access

-- Every expression has a token of its own: one that is in no expression of the same kind below it.
-- That holds in the tree of every text, since each node of an expression is opened where the token
-- that tells its kind is next, or around one.
namespace SpriteScript

namespace Tree

-- A token of the tree is in no node of this kind.
inductive Exposes (kind : NodeKind) : Tree → Prop
  | token (s : Token) : Exposes kind (.token s)
  | node {other : NodeKind} {offset : Nat} {children : List Tree} {c : Tree} :
      other ≠ kind → c ∈ children → Exposes kind c → Exposes kind (.node other offset children)

-- A token of the tree is in no expression.
def Open (t : Tree) : Prop := ∀ kind, kind.isExpr = true → t.Exposes kind

def OwnsToken (t : Tree) : Prop :=
  ∀ kind, t.kind? = some kind → kind.isExpr = true → ∃ c ∈ t.children, c.Exposes kind

theorem open_token (s : Token) : Open (token s) := fun _ _ => .token s

theorem open_node {kind : NodeKind} (hkind : kind.isExpr = false) {children : List Tree}
    (h : ∃ c ∈ children, c.Open) (offset : Nat) : Open (node kind offset children) := by
  intro other hother
  obtain ⟨c, hc, hopen⟩ := h
  refine .node ?_ hc (hopen other hother)
  rintro rfl
  exact absurd (hkind.symm.trans hother) Bool.false_ne_true

-- A node with an open tree in it owns a token, whatever its kind.
theorem everywhere_ownsToken_of_open {kind : NodeKind} {children : List Tree}
    (hall : ∀ c ∈ children, c.Everywhere OwnsToken) (h : ∃ c ∈ children, c.Open) (offset : Nat) :
    (node kind offset children).Everywhere OwnsToken := by
  obtain ⟨c, hc, hopen⟩ := h
  refine everywhere_node.mpr ⟨fun other hother hexpr => ?_, hall⟩
  exact ⟨c, hc, hopen other hexpr⟩

theorem inherits_ownsToken {kind : NodeKind} (hkind : kind.isExpr = false) :
    Inherits (Everywhere OwnsToken) kind where
  node _ _ hall := everywhere_node.mpr ⟨fun other hother hexpr => by
    obtain rfl := Option.some.inj hother
    exact absurd (hkind.symm.trans hexpr) Bool.false_ne_true, hall⟩

instance : Structural (Everywhere OwnsToken) where
  token := everywhere_token _
  name offset children hsingle := (inherits_ownsToken rfl).node offset children fun c hc => by
    cases hsingle with
    | none => cases hc
    | one s => exact List.mem_singleton.mp hc ▸ everywhere_token _ s
  ordinary kind hkind := inherits_ownsToken (by revert hkind; cases kind <;> decide)

end Tree

namespace Syntax

open SpriteScript.Tree (Everywhere OwnsToken)

-- The instances for the parts of a long rule are found in one search.
set_option synthInstance.maxSize 1000

-- Where a token of this kind is next the action only adds trees that have the property.
class YieldsAt (P : Tree → Prop) (next : TokenKind) {α : Type} (a : Action α) : Prop where
  yields : ∀ s : Cursor, s.Sound → s.kind? = some next → ∃ new, Grows s (a.run s).2 new ∧ ∀ t ∈ new, P t

-- The action may also put trees into a node that were added since the checkpoint.
class YieldsFromAt (P : Tree → Prop) (place : Nat) (next : TokenKind) {α : Type} (a : Action α) : Prop where
  yields : ∀ s₀ s : Cursor, ∀ left, s₀.Sound → s₀.builder.checkpoint = place → Grows s₀ s left →
    (∀ t ∈ left, P t) → s.kind? = some next →
    ∃ new, Grows s₀ (a.run s).2 new ∧ (∀ t ∈ new, P t) ∧ s.errors <:+ (a.run s).2.errors

-- Where a token of this kind is next the action adds a tree with a token that is in no expression.
class Opens (next : TokenKind) {α : Type} (a : Action α) : Prop where
  opens : ∀ s : Cursor, s.Sound → s.kind? = some next → ∃ new, Grows s (a.run s).2 new ∧ ∃ t ∈ new, t.Open

section Looking

variable {P : Tree → Prop} {α β : Type} {place : Nat} {next : TokenKind} {a b : Action α}

instance (priority := low) [ha : Yields P a] : YieldsAt P next a := ⟨fun s h _ => ha.yields s h⟩

instance (priority := low) [ha : YieldsFrom P place a] : YieldsFromAt P place next a :=
  ⟨fun s₀ s left h₀ hplace h hleft _ => ha.yields s₀ s left h₀ hplace h hleft⟩

instance (priority := low) [ha : YieldsAt P next a] : YieldsFromAt P place next a where
  yields s₀ s left _ _ h hleft hnext := by
    obtain ⟨new, hnew, hall⟩ := ha.yields s h.sound hnext
    exact ⟨left ++ new, h.trans hnew, List.forall_mem_append.mpr ⟨hleft, hall⟩, hnew.errors⟩

instance {f : α → Action β} [ha : YieldsFromAt P place next a] [hf : ∀ x, YieldsFrom P place (f x)] :
    YieldsFromAt P place next (a >>= f) where
  yields s₀ s left h₀ hplace h hleft hnext := by
    obtain ⟨new, hnew, hall, herrors⟩ := ha.yields s₀ s left h₀ hplace h hleft hnext
    obtain ⟨more, hmore, hall', herrors'⟩ := (hf (a.run s).1).yields s₀ _ new h₀ hplace hnew hall
    exact ⟨more, hmore, hall', herrors.trans herrors'⟩

instance {c : Prop} [Decidable c] [YieldsAt P next a] [YieldsAt P next b] :
    YieldsAt P next (if c then a else b) := by
  split <;> assumption

instance {c : Prop} [Decidable c] [YieldsFromAt P place next a] [YieldsFromAt P place next b] :
    YieldsFromAt P place next (if c then a else b) := by
  split <;> assumption

theorem Yields.kind?_bind {f : Option TokenKind → Action α} (hnone : Yields P (f none))
    (hsome : ∀ kind, YieldsAt P kind (f (some kind))) : Yields P (kind? >>= f) where
  yields s h := by
    rw [run_kind?_bind]
    cases hkind : s.kind? with
    | none => exact hnone.yields s h
    | some kind => exact (hsome kind).yields s h hkind

theorem YieldsFrom.kind?_bind {f : Option TokenKind → Action α} (hnone : YieldsFrom P place (f none))
    (hsome : ∀ kind, YieldsFromAt P place kind (f (some kind))) : YieldsFrom P place (kind? >>= f) where
  yields s₀ s left h₀ hplace h hleft := by
    rw [run_kind?_bind]
    cases hkind : s.kind? with
    | none => exact hnone.yields s₀ s left h₀ hplace h hleft
    | some kind => exact (hsome kind).yields s₀ s left h₀ hplace h hleft hkind

theorem YieldsAt.second?_bind {f : Option TokenKind → Action α} (hf : ∀ second, YieldsAt P next (f second)) :
    YieldsAt P next (second? >>= f) :=
  ⟨fun s h hnext => (hf s.second?).yields s h hnext⟩

theorem YieldsAt.get_bind {f : Cursor → Action α} (hf : ∀ s, YieldsAt P next (f s)) :
    YieldsAt P next (get >>= f) :=
  ⟨fun s h hnext => (hf s).yields s h hnext⟩

theorem YieldsFromAt.get_bind {f : Cursor → Action α} (hf : ∀ s, YieldsFromAt P place next (f s)) :
    YieldsFromAt P place next (get >>= f) :=
  ⟨fun s₀ s left h₀ hplace h hleft hnext => (hf s).yields s₀ s left h₀ hplace h hleft hnext⟩

theorem YieldsFrom.isAt_bind {f : Bool → Action α} (hat : YieldsFromAt P place next (f true))
    (hother : YieldsFrom P place (f false)) : YieldsFrom P place (isAt next >>= f) where
  yields s₀ s left h₀ hplace h hleft := by
    rw [run_isAt_bind]
    cases hkind : s.kind? == some next with
    | true => exact hat.yields s₀ s left h₀ hplace h hleft (beq_iff_eq.mp hkind)
    | false => exact hother.yields s₀ s left h₀ hplace h hleft

theorem Yields.isAtAny_bind {kinds : List TokenKind} {f : Bool → Action α}
    (hat : ∀ kind, YieldsAt P kind (f true)) (hother : Yields P (f false)) :
    Yields P (isAtAny kinds >>= f) where
  yields s h := by
    rw [run_isAtAny_bind]
    cases hany : s.kind?.any kinds.contains with
    | true =>
        obtain ⟨kind, hkind, -⟩ := (Option.any_eq_true _ _).mp hany
        exact (hat kind).yields s h hkind
    | false => exact hother.yields s h

end Looking

section Opening

variable {α β : Type} {next : TokenKind} {a b : Action α}

instance : Opens next bump where
  opens s h hnext := by
    obtain ⟨t, ht, -⟩ := Option.map_eq_some_iff.mp hnext
    exact ⟨_, (grows_bump h).1, .token t, by simp [ht], Tree.open_token t⟩

instance {f : α → Action β} [ha : Opens next a] [hf : ∀ x, Bracketed (f x)] : Opens next (a >>= f) where
  opens s h hnext := by
    obtain ⟨new, hnew, t, ht, hopen⟩ := ha.opens s h hnext
    obtain ⟨more, hmore⟩ := (hf (a.run s).1).grows _ hnew.sound
    exact ⟨new ++ more, hnew.trans hmore, t, List.mem_append_left more ht, hopen⟩

instance {c : Prop} [Decidable c] [Opens next a] [Opens next b] : Opens next (if c then a else b) := by
  split <;> assumption

instance [ha : Opens next a] : Opens next (discard a) := ⟨ha.opens⟩

theorem Opens.kind?_bind {f : Option TokenKind → Action α} (h : Opens next (f (some next))) :
    Opens next (kind? >>= f) where
  opens s hs hnext := by
    rw [run_kind?_bind, hnext]
    exact h.opens s hs hnext

instance (what : String) : Opens next (expect next what) where
  opens s h hnext := by
    have hrun : (expect next what).run s = (true, s.bump) := by
      unfold expect
      rw [run_bind, run_eat, if_pos hnext]
      rfl
    rw [hrun]
    exact (inferInstance : Opens next bump).opens s h hnext

instance : Opens next Rules.stringToken where
  opens s h hnext := by
    rw [Rules.stringToken, run_get_bind]
    split
    · have hreport := grows_report h .unterminatedString
      obtain ⟨new, hnew, hopen⟩ :=
        (inferInstance : Opens next bump).opens (s.report .unterminatedString) hreport.sound hnext
      exact ⟨new, hreport.trans hnew, hopen⟩
    · exact (inferInstance : Opens next bump).opens s h hnext

-- An action adds the same trees whatever is known of them.
theorem yields_opens [ha : Yields (Everywhere OwnsToken) a] [ha' : Opens next a] {s : Cursor} (h : s.Sound)
    (hnext : s.kind? = some next) :
    ∃ new, Grows s (a.run s).2 new ∧ (∀ t ∈ new, t.Everywhere OwnsToken) ∧ ∃ t ∈ new, t.Open := by
  obtain ⟨new, hnew, hall⟩ := ha.yields s h
  obtain ⟨new', hnew', hopen⟩ := ha'.opens s h hnext
  obtain rfl := hnew.unique hnew'
  exact ⟨new, hnew, hall, hopen⟩

section Nodes

variable (kind : NodeKind) (body : Action Unit) [Yields (Everywhere OwnsToken) body] [Opens next body]

-- A node is started where `s₀` was, around the trees `left` that were added since.
theorem grows_nodeAt_opens {s₀ s : Cursor} {left : List Tree} (h₀ : s₀.Sound) (h : Grows s₀ s left)
    (hnext : s.kind? = some next) : ∃ inner,
      Grows s₀ ((nodeAt s₀.builder.checkpoint kind body).run s).2 [.node kind s₀.offset (left ++ inner)] ∧
      (∀ t ∈ inner, t.Everywhere OwnsToken) ∧ (∃ t ∈ inner, t.Open) ∧
      s.errors <:+ ((nodeAt s₀.builder.checkpoint kind body).run s).2.errors := by
  obtain ⟨inner, hinner, hall, hopen⟩ :=
    yields_opens (a := body) (sound_startAt h.sound kind h.checkpoint_le) hnext
  exact ⟨inner, grows_node h₀ h hinner, hall, hopen, hinner.errors⟩

theorem grows_node_opens {s : Cursor} (h : s.Sound) (hnext : s.kind? = some next) : ∃ inner,
    Grows s.flush ((node kind body).run s).2 [.node kind s.flush.offset inner] ∧
      (∀ t ∈ inner, t.Everywhere OwnsToken) ∧ ∃ t ∈ inner, t.Open := by
  have hflush := grows_flush h
  obtain ⟨inner, hinner, hall, hopen, -⟩ :=
    grows_nodeAt_opens kind body hflush.sound (.refl hflush.sound) ((kind?_flush s).trans hnext)
  rw [run_node, start_eq_startAt hflush.sound kind]
  exact ⟨inner, hinner, hall, hopen⟩

variable {kind body} in
theorem Opens.node (hkind : kind.isExpr = false) : Opens next (node kind body) where
  opens s h hnext := by
    obtain ⟨inner, hinner, -, hopen⟩ := grows_node_opens kind body h hnext
    exact ⟨_, (grows_flush h).trans hinner, _, List.mem_append_right _ (List.mem_singleton_self _),
      Tree.open_node hkind hopen _⟩

instance : YieldsAt (Everywhere OwnsToken) next (node kind body) where
  yields s h hnext := by
    obtain ⟨inner, hinner, hall, hopen⟩ := grows_node_opens kind body h hnext
    exact ⟨_, (grows_flush h).trans hinner, List.forall_mem_append.mpr ⟨forall_skipped h,
      List.forall_mem_singleton.mpr (Tree.everywhere_ownsToken_of_open hall hopen _)⟩⟩

instance {place : Nat} : YieldsFromAt (Everywhere OwnsToken) place next (nodeAt place kind body) where
  yields s₀ s left h₀ hplace h hleft hnext := by
    subst hplace
    obtain ⟨inner, hinner, hall, ⟨c, hc, hopen⟩, herrors⟩ :=
      grows_nodeAt_opens kind body h₀ h hnext
    refine ⟨_, hinner, List.forall_mem_singleton.mpr ?_, herrors⟩
    exact Tree.everywhere_ownsToken_of_open (List.forall_mem_append.mpr ⟨hleft, hall⟩)
      ⟨c, List.mem_append_right left hc, hopen⟩ _

end Nodes

instance (what : String) : Opens .ident (name what) where
  opens s h hnext := by
    have hrun : (name what).run s = (node .name bump).run s := by
      unfold name
      rw [run_isAt_bind, hnext]
      rfl
    rw [hrun]
    exact (Opens.node rfl : Opens .ident (node .name bump)).opens s h hnext

end Opening

-- What a rule makes owns its tokens; the type that starts a literal has one in no expression.
def Rule.Owns (rule : Rule) (s s' : Cursor) : Prop :=
  s.Sound → ∃ new, Grows s s' new ∧ (∀ t ∈ new, t.Everywhere OwnsToken) ∧
    (rule = .type → s.kind? = some .lBracket ∨ s.kind? = some .mapKw → ∃ t ∈ new, t.Open)

theorem owns_of_opens (rule : Rule) {a : Action Unit} [ha : Yields (Everywhere OwnsToken) a]
    [Opens .lBracket a] [Opens .mapKw a] (s : Cursor) : rule.Owns s (a.run s).2 := by
  intro h
  by_cases hstarts : s.kind? = some .lBracket ∨ s.kind? = some .mapKw
  · obtain ⟨new, hnew, hall, hopen⟩ : ∃ new, Grows s (a.run s).2 new ∧ (∀ t ∈ new, t.Everywhere OwnsToken) ∧
        ∃ t ∈ new, t.Open := by
      rcases hstarts with hnext | hnext
      · exact yields_opens h hnext
      · exact yields_opens h hnext
    exact ⟨new, hnew, hall, fun _ _ => hopen⟩
  · obtain ⟨new, hnew, hall⟩ := ha.yields s h
    exact ⟨new, hnew, hall, fun _ h' => absurd h' hstarts⟩

class Rules.Owning (g : Rules) : Prop where
  owns : ∀ (rule : Rule) (s : Cursor), rule.Owns s ((g.run rule).run s).2

namespace Rules

variable (g : Rules) [hg : g.Owning]

instance (rule : Rule) : Yields (Everywhere OwnsToken) (g.run rule) where
  yields s h := by
    obtain ⟨new, hnew, hall, -⟩ := hg.owns rule s h
    exact ⟨new, hnew, hall⟩

instance bracketed_of_owning (rule : Rule) : Bracketed (g.run rule) :=
  (inferInstance : Yields (Everywhere OwnsToken) (g.run rule)).imp fun _ _ => trivial

instance : Opens .lBracket g.type where
  opens s h hnext := by
    obtain ⟨new, hnew, -, hopen⟩ := hg.owns .type s h
    exact ⟨new, hnew, hopen rfl (.inl hnext)⟩

instance : Opens .mapKw g.type where
  opens s h hnext := by
    obtain ⟨new, hnew, -, hopen⟩ := hg.owns .type s h
    exact ⟨new, hnew, hopen rfl (.inr hnext)⟩

-- Operands

instance (next : TokenKind) : Opens next g.literalBody := by unfold literalBody; exact .node rfl

instance (next : TokenKind) : Opens next g.callArgs := by unfold callArgs; exact .node rfl

instance (next : TokenKind) : Opens next g.lambdaParams := by unfold lambdaParams; exact .node rfl

instance : Opens .ident (node .lambdaParams (name "parameter")) := .node rfl

instance : Opens .fatArrow g.lambdaBody := by unfold lambdaBody; infer_instance

instance (next : TokenKind) [Opens next g.type] : YieldsAt (Everywhere OwnsToken) next g.typedLiteral := by
  unfold typedLiteral
  infer_instance

instance (next : TokenKind) : YieldsAt (Everywhere OwnsToken) next g.parenthesized := by
  unfold parenthesized
  refine .get_bind fun s => ?_
  split <;> infer_instance

instance : Yields (Everywhere OwnsToken) g.primary := by
  unfold primary
  refine .kind?_bind inferInstance fun kind => .second?_bind fun second => ?_
  split <;> try infer_instance
  -- these are opened by a token of one kind only
  case h_1 hkind | h_8 hkind | h_10 hkind | h_11 hkind =>
    cases hkind
    infer_instance

instance (first : Nat) : YieldsFrom (Everywhere OwnsToken) first (g.postfixStep first) := by
  unfold postfixStep
  refine .kind?_bind inferInstance fun kind => ?_
  split <;> try infer_instance
  refine .get_bind fun s => ?_
  split <;> infer_instance

instance (first : Nat) : YieldsFrom (Everywhere OwnsToken) first (g.postfixed first) := by
  unfold postfixed
  infer_instance

instance : Yields (Everywhere OwnsToken) g.unaryRule := by
  unfold unaryRule
  exact .isAtAny_bind (fun kind => inferInstanceAs (YieldsAt _ kind (node .unaryExpr _)))
    (inferInstanceAs (Yields _ (checkpoint >>= _)))

instance (power first : Nat) : YieldsFrom (Everywhere OwnsToken) first (g.binaryStep power first) := by
  unfold binaryStep
  refine .kind?_bind (inferInstanceAs (YieldsFrom _ first (pure false))) fun kind => ?_
  split <;> infer_instance

instance (power first : Nat) : YieldsFrom (Everywhere OwnsToken) first (g.climb power first) := by
  unfold climb
  infer_instance

instance (power : Nat) : Yields (Everywhere OwnsToken) (g.exprRule power) := by
  unfold exprRule
  infer_instance

-- Commands

-- Among the trees that were added since `s₀` is one with a token that is in no command.
def Heads (s₀ s : Cursor) : Prop :=
  ∃ left, Grows s₀ s left ∧ (∀ t ∈ left, t.Everywhere OwnsToken) ∧ ∃ t ∈ left, t.Exposes .commandCall

theorem heads_name {s : Cursor} (h : s.Sound) (hnext : s.kind? = some .ident) :
    Heads s ((node .nameRef bump).run s).2 := by
  obtain ⟨inner, hinner, hall, c, hc, hopen⟩ := grows_node_opens .nameRef bump h hnext
  refine ⟨_, (grows_flush h).trans hinner, List.forall_mem_append.mpr ⟨forall_skipped h,
    List.forall_mem_singleton.mpr (Tree.everywhere_ownsToken_of_open hall ⟨c, hc, hopen⟩ _)⟩, _,
    List.mem_append_right _ (List.mem_singleton_self _), ?_⟩
  exact .node (by decide) hc (hopen .commandCall rfl)

theorem heads_selector {s₀ s : Cursor} (h₀ : s₀.Sound) (h : Heads s₀ s) (hnext : s.kind? = some .dot) :
    Heads s₀ ((nodeAt s₀.builder.checkpoint .selectorExpr (do bump; bump)).run s).2 := by
  obtain ⟨left, hleft, howns, -⟩ := h
  obtain ⟨inner, hinner, hall, ⟨c, hc, hopen⟩, -⟩ :=
    grows_nodeAt_opens .selectorExpr (do bump; bump) h₀ hleft hnext
  refine ⟨_, hinner, List.forall_mem_singleton.mpr ?_, _, List.mem_singleton_self _, ?_⟩
  · exact Tree.everywhere_ownsToken_of_open (List.forall_mem_append.mpr ⟨howns, hall⟩)
      ⟨c, List.mem_append_right left hc, hopen⟩ _
  · exact .node (by decide) (List.mem_append_right left hc) (hopen .commandCall rfl)

theorem heads_selectors {s₀ s : Cursor} (h₀ : s₀.Sound) (h : Heads s₀ s) (fuel : Nat) :
    Heads s₀ ((repeatWhile fuel (selectorStep s₀.builder.checkpoint)).run s).2 := by
  induction fuel generalizing s with
  | zero => exact h
  | succ fuel ih =>
      rw [repeatWhile, run_bind, selectorStep, run_isAt_bind, run_second?_bind]
      split
      case isTrue hmore =>
          exact ih (heads_selector h₀ h (beq_iff_eq.mp (Bool.and_eq_true_iff.mp hmore).1))
      case isFalse => exact h

omit hg in
theorem heads_commandHead {s : Cursor} (h : s.Sound) (hnext : s.kind? = some .ident) :
    Heads s ((do g.commandHead s.builder.checkpoint; atCommandArg).run s).2 := by
  obtain ⟨left, hleft, howns, c, hc, hexposes⟩ := heads_selectors h (heads_name h hnext) g.fuel
  obtain ⟨more, hmore, hall⟩ :=
    (inferInstance : Yields (Everywhere OwnsToken) atCommandArg).yields _ hleft.sound
  exact ⟨left ++ more, hleft.trans hmore, List.forall_mem_append.mpr ⟨howns, hall⟩, c,
    List.mem_append_left more hc, hexposes⟩

theorem heads_commandCall {s₀ s : Cursor} (h₀ : s₀.Sound) (h : Heads s₀ s) : ∃ new,
    Grows s₀ ((nodeAt s₀.builder.checkpoint .commandCall g.commandArgs).run s).2 new ∧
      ∀ t ∈ new, t.Everywhere OwnsToken := by
  obtain ⟨left, hleft, howns, c, hc, hexposes⟩ := h
  obtain ⟨inner, hinner, hall⟩ := (inferInstance : Yields (Everywhere OwnsToken) g.commandArgs).yields _
    (sound_startAt hleft.sound .commandCall hleft.checkpoint_le)
  refine ⟨_, grows_node h₀ hleft hinner,
    List.forall_mem_singleton.mpr (Tree.everywhere_node.mpr ⟨fun kind hkind _ => ?_,
    List.forall_mem_append.mpr ⟨howns, hall⟩⟩)⟩
  obtain rfl := Option.some.inj hkind
  exact ⟨c, List.mem_append_left inner hc, hexposes⟩

-- A command has a token of its own in what it calls; its arguments need not have one.
instance : YieldsAt (Everywhere OwnsToken) .ident g.commandOrExpr where
  yields s h hnext := by
    have hflush := grows_flush h
    let first := s.flush.builder.checkpoint
    have hheads := g.heads_commandHead hflush.sound ((kind?_flush s).trans hnext)
    suffices hrest : ∃ new, Grows s.flush (g.commandOrExpr.run s).2 new ∧ ∀ t ∈ new, t.Everywhere OwnsToken by
      obtain ⟨new, hnew, hall⟩ := hrest
      exact ⟨_, hflush.trans hnew, List.forall_mem_append.mpr ⟨forall_skipped h, hall⟩⟩
    have hrun : g.commandOrExpr.run s = ((if ((do g.commandHead first; atCommandArg).run s.flush).1 then
        (do nodeAt first .commandCall g.commandArgs; return true)
      else
        (do g.postfixed first; g.climb 0 first; return false)).run
          ((do g.commandHead first; atCommandArg).run s.flush).2) := rfl
    rw [hrun]
    split
    · exact heads_commandCall g hflush.sound hheads
    · obtain ⟨left, hleft, howns, -⟩ := hheads
      have hexpr :
          YieldsFrom (Everywhere OwnsToken) first
          (do g.postfixed first; g.climb 0 first; return false) := inferInstance
      obtain ⟨new, hnew, hall, -⟩ := hexpr.yields _ _ left hflush.sound rfl hleft howns
      exact ⟨new, hnew, hall⟩

-- Statements

instance (commandAllowed : Bool) : Yields (Everywhere OwnsToken) (g.simpleStmt commandAllowed) := by
  unfold simpleStmt
  have hrest (first : Nat) : YieldsFrom (Everywhere OwnsToken) first (do g.expr; g.simpleRest first) :=
    inferInstance
  have (first : Nat) : YieldsFrom (Everywhere OwnsToken) first (do
      if commandAllowed && (← isAt .ident) then
        if ← g.commandOrExpr then
          nodeAt first .exprStmt (return ())
        else
          g.simpleRest first
      else
        g.expr
        g.simpleRest first) := by
    refine .isAt_bind inferInstance ?_
    rw [Bool.and_false]
    exact hrest first
  infer_instance

instance : Opens .lBracket g.typeRule := by
  unfold typeRule
  exact .kind?_bind (.node rfl)

instance : Opens .mapKw g.typeRule := by
  unfold typeRule
  exact .kind?_bind (.node rfl)

-- What the rules make that a rule leads to owns its tokens, and so does what the rule makes.
theorem owns_body (rule : Rule) (s : Cursor) : rule.Owns s ((g.body rule).run s).2 := by
  have hyields {a : Action Unit} (ha : Yields (Everywhere OwnsToken) a) (hrule : rule ≠ .type) (h : s.Sound) :
      ∃ new, Grows s (a.run s).2 new ∧ (∀ t ∈ new, t.Everywhere OwnsToken) ∧
        (rule = .type → s.kind? = some .lBracket ∨ s.kind? = some .mapKw → ∃ t ∈ new, t.Open) := by
    obtain ⟨new, hnew, hall⟩ := ha.yields s h
    exact ⟨new, hnew, hall, fun htype => absurd htype hrule⟩
  cases rule with
  | statement => exact hyields (inferInstance : Yields _ g.statementRule) nofun
  | ifStmt => exact hyields (inferInstance : Yields _ g.ifRule) nofun
  | expr power => exact hyields (inferInstance : Yields _ (g.exprRule power)) nofun
  | unary => exact hyields (inferInstance : Yields _ g.unaryRule) nofun
  | type => exact owns_of_opens .type (a := g.typeRule) s

end Rules

-- One token in an error node is a way to own the tokens.
theorem exists_owns (rule : Rule) (s : Cursor) : ∃ s', rule.Owns s s' := by
  have (next : TokenKind) : Opens next (node .error bump) := .node rfl
  exact ⟨_, owns_of_opens rule (a := node .error bump) s⟩

instance (fuel : Nat) : (Rules.mk fuel Rule.run).Owning where
  owns := Rule.run_induction exists_owns fun g hg rule s _ =>
    have : g.Owning := ⟨hg⟩
    g.owns_body rule s

-- In the tree of every text, one with errors included, an expression has a token that is in no
-- expression of its kind below it.
theorem ownsToken_parse (text : String) : (parse text).tree.Everywhere OwnsToken := by
  have hfile (g : Rules) [g.Owning] : Yields (Everywhere OwnsToken) g.fileContents := inferInstance
  obtain ⟨fuel, hfuel⟩ : ∃ fuel, (Token.tokenize text).length < fuel := ⟨_, Nat.lt_succ_self _⟩
  have := hfile (Rules.mk fuel Rule.run)
  exact holds_parse_of_run (P := Everywhere OwnsToken) text hfuel

end Syntax

end SpriteScript
