import SpriteScript.Proofs.Growth
import SpriteScript.Syntax.Parser

-- Every rule of the grammar uses the builder as it is meant to be used: brackets close in the
-- order in which they open, and a checkpoint is only used as long as its node is open. So an action
-- adds finished trees, and what every node inherits from its children holds of all of them.
namespace SpriteScript

namespace NodeKind

@[reducible] def isAtom : NodeKind → Bool
  | .name | .nameRef | .literal => true
  | _ => false

-- Atoms and operations.
@[reducible] def isSpecial : NodeKind → Bool
  | .name | .nameRef | .literal | .unaryExpr | .binaryExpr => true
  | _ => false

-- Names and expressions.
@[reducible] def isTerm : NodeKind → Bool
  | .name | .nameRef | .literal | .parenExpr | .selectorExpr | .callExpr | .commandCall | .indexExpr
  | .compositeLit | .unaryExpr | .binaryExpr | .funcLit | .lambdaExpr | .listLit | .mapLit => true
  | _ => false

end NodeKind

namespace Tree

-- The children of an atom.
inductive Single : List Tree → Prop
  | none : Single []
  | one (s : Token) : Single [.token s]

-- What holds of every tree.
def Any (_ : Tree) : Prop := True

-- A node of this kind has the property if all its children have it.
class Inherits (P : Tree → Prop) (kind : NodeKind) : Prop where
  node : ∀ offset children, (∀ c ∈ children, P c) → P (.node kind offset children)

class Blanks (P : Tree → Prop) : Prop where
  blank : ∀ t : Token, t.kind.isTrivia = true → P (.token t)

-- What tokens and names have, and what all nodes but expressions inherit from their children.
class Structural (P : Tree → Prop) : Prop where
  token : ∀ t, P (.token t)
  name : ∀ offset children, Single children → P (.node .name offset children)
  ordinary : ∀ kind, kind.isTerm = false → Inherits P kind

-- What tokens and atoms have, and what all other nodes but operations inherit from their children.
class Hereditary (P : Tree → Prop) : Prop where
  token : ∀ t, P (.token t)
  atom : ∀ kind offset children, kind.isAtom = true → Single children → P (.node kind offset children)
  ordinary : ∀ kind, kind.isSpecial = false → Inherits P kind

instance (kind : NodeKind) : Inherits Any kind := ⟨fun _ _ _ => trivial⟩

instance : Hereditary Any := ⟨fun _ => trivial, fun _ _ _ _ _ => trivial, fun _ _ => inferInstance⟩

end Tree

-- What is known to be false, so that it can be found as an instance.
class Refuted (b : Bool) : Prop where
  eq_false : b = false

instance : Refuted false := ⟨rfl⟩

namespace Tree

variable {P : Tree → Prop}

instance [h : Hereditary P] : Structural P where
  token := h.token
  name offset children := h.atom .name offset children rfl
  ordinary kind hkind := h.ordinary kind (by revert hkind; cases kind <;> decide)

instance [h : Structural P] : Blanks P := ⟨fun t _ => h.token t⟩

instance [h : Structural P] (kind : NodeKind) [hkind : Refuted kind.isTerm] : Inherits P kind :=
  h.ordinary kind hkind.eq_false

instance [h : Hereditary P] (kind : NodeKind) [hkind : Refuted kind.isSpecial] : Inherits P kind :=
  h.ordinary kind hkind.eq_false

instance {c : Prop} [Decidable c] (kind kind' : NodeKind) [Inherits P kind] [Inherits P kind'] :
    Inherits P (if c then kind else kind') := by
  split <;> assumption

end Tree

namespace Syntax

open SpriteScript.Tree (Any Blanks Hereditary Inherits Structural)

-- The instances for the parts of a long rule are found in one search.
set_option synthInstance.maxSize 1000

-- The action only adds trees that have the property.
class Yields (P : Tree → Prop) {α : Type} (a : Action α) : Prop where
  yields : ∀ s : Cursor, s.Sound → ∃ new, Grows s (a.run s).2 new ∧ ∀ t ∈ new, P t

-- The action may also put trees into a node that were added since the checkpoint.
class YieldsFrom (P : Tree → Prop) {α : Type} (place : Nat) (a : Action α) : Prop where
  yields : ∀ s₀ s : Cursor, ∀ left, s₀.Sound → s₀.builder.checkpoint = place → Grows s₀ s left →
    (∀ t ∈ left, P t) →
    ∃ new, Grows s₀ (a.run s).2 new ∧ (∀ t ∈ new, P t) ∧ s.errors <:+ (a.run s).2.errors

abbrev Bracketed {α : Type} (a : Action α) : Prop := Yields Any a

abbrev BracketedFrom {α : Type} (place : Nat) (a : Action α) : Prop := YieldsFrom Any place a

section Combinators

variable {P : Tree → Prop} {α β : Type} {place : Nat} {a b : Action α} {f : α → Action β}

theorem Bracketed.grows (h : Bracketed a) (s : Cursor) (hs : s.Sound) : ∃ new, Grows s (a.run s).2 new := by
  obtain ⟨new, hnew, -⟩ := h.yields s hs
  exact ⟨new, hnew⟩

theorem BracketedFrom.grows (h : BracketedFrom place a) (s₀ s : Cursor) (left : List Tree) (h₀ : s₀.Sound)
    (hplace : s₀.builder.checkpoint = place) (hleft : Grows s₀ s left) :
    ∃ new, Grows s₀ (a.run s).2 new ∧ s.errors <:+ (a.run s).2.errors := by
  obtain ⟨new, hnew, -, herrors⟩ := h.yields s₀ s left h₀ hplace hleft fun _ _ => trivial
  exact ⟨new, hnew, herrors⟩

theorem Yields.imp {Q : Tree → Prop} (h : Yields P a) (himp : ∀ t, P t → Q t) : Yields Q a where
  yields s hs := by
    obtain ⟨new, hnew, hall⟩ := h.yields s hs
    exact ⟨new, hnew, fun t ht => himp t (hall t ht)⟩

-- An action adds the same trees whatever is known of them.
theorem Yields.and {Q : Tree → Prop} (h : Yields P a) (h' : Yields Q a) : Yields (fun t => P t ∧ Q t) a where
  yields s hs := by
    obtain ⟨new, hnew, hP⟩ := h.yields s hs
    obtain ⟨new', hnew', hQ⟩ := h'.yields s hs
    obtain rfl := hnew.unique hnew'
    exact ⟨new, hnew, fun t ht => ⟨hP t ht, hQ t ht⟩⟩

theorem YieldsFrom.and {Q : Tree → Prop} (h : YieldsFrom P place a) (h' : YieldsFrom Q place a) :
    YieldsFrom (fun t => P t ∧ Q t) place a where
  yields s₀ s left h₀ hplace hgrows hleft := by
    obtain ⟨new, hnew, hP, herrors⟩ := h.yields s₀ s left h₀ hplace hgrows fun t ht => (hleft t ht).1
    obtain ⟨new', hnew', hQ, -⟩ := h'.yields s₀ s left h₀ hplace hgrows fun t ht => (hleft t ht).2
    obtain rfl := hnew.unique hnew'
    exact ⟨new, hnew, fun t ht => ⟨hP t ht, hQ t ht⟩, herrors⟩

-- Without trees of its own an action yields what it likes.
theorem Yields.of_same (h : ∀ s, (a.run s).2 = s) : Yields P a where
  yields s hs := ⟨[], (h s).symm ▸ .refl hs, fun _ ht => nomatch ht⟩

instance (x : α) : Yields P (pure x : Action α) := .of_same fun _ => rfl

theorem Yields.bind (ha : Yields P a) (hf : ∀ x, Yields P (f x)) : Yields P (a >>= f) where
  yields s h := by
    obtain ⟨new, hnew, hall⟩ := ha.yields s h
    obtain ⟨more, hmore, hall'⟩ := (hf (a.run s).1).yields _ hnew.sound
    exact ⟨new ++ more, hnew.trans hmore, List.forall_mem_append.mpr ⟨hall, hall'⟩⟩

instance [ha : Yields P a] [hf : ∀ x, Yields P (f x)] : Yields P (a >>= f) := .bind ha hf

instance {c : Prop} [Decidable c] [Yields P a] [Yields P b] : Yields P (if c then a else b) := by
  split <;> assumption

instance [ha : Yields P a] : Yields P (discard a) := ⟨ha.yields⟩

instance (priority := low) [ha : Yields P a] : YieldsFrom P place a where
  yields s₀ s left _ _ h hleft := by
    obtain ⟨new, hnew, hall⟩ := ha.yields s h.sound
    exact ⟨left ++ new, h.trans hnew, List.forall_mem_append.mpr ⟨hleft, hall⟩, hnew.errors⟩

theorem YieldsFrom.bind (ha : YieldsFrom P place a) (hf : ∀ x, YieldsFrom P place (f x)) :
    YieldsFrom P place (a >>= f) where
  yields s₀ s left h₀ hplace h hleft := by
    obtain ⟨new, hnew, hall, herrors⟩ := ha.yields s₀ s left h₀ hplace h hleft
    obtain ⟨more, hmore, hall', herrors'⟩ := (hf (a.run s).1).yields s₀ _ new h₀ hplace hnew hall
    exact ⟨more, hmore, hall', herrors.trans herrors'⟩

instance [ha : YieldsFrom P place a] [hf : ∀ x, YieldsFrom P place (f x)] : YieldsFrom P place (a >>= f) :=
  .bind ha hf

instance {c : Prop} [Decidable c] [YieldsFrom P place a] [YieldsFrom P place b] :
    YieldsFrom P place (if c then a else b) := by
  split <;> assumption

end Combinators

section Moves

variable {P : Tree → Prop}

instance : Yields P (get : Action Cursor) := .of_same fun _ => rfl

instance : Yields P kind? := .of_same fun _ => rfl

instance : Yields P second? := .of_same fun _ => rfl

instance (kind : TokenKind) : Yields P (isAt kind) := .of_same fun _ => rfl

instance (kinds : List TokenKind) : Yields P (isAtAny kinds) := .of_same fun _ => rfl

instance : Yields P isAtEnd := .of_same fun _ => rfl

instance (kind : TokenKind) : Yields P (Rules.headHas kind) := .of_same fun _ => rfl

instance : Yields P spaceBefore := by
  unfold spaceBefore
  refine .bind inferInstance fun s => ?_
  split <;> infer_instance

instance : Yields P spaceAfter := by
  unfold spaceAfter
  refine .bind inferInstance fun s => ?_
  split <;> infer_instance

instance : Yields P Rules.atCommandArg := by
  unfold Rules.atCommandArg
  refine .bind inferInstance fun kind => ?_
  split <;> infer_instance

-- What is skipped is blank.
theorem forall_skipped [hP : Blanks P] {s : Cursor} (h : s.Sound) :
    ∀ t ∈ (s.rest.takeWhile (·.skipped)).map fun l => Tree.token l.token, P t := by
  intro t ht
  obtain ⟨l, hl, rfl⟩ := List.mem_map.mp ht
  exact hP.blank _ (h.skips l (List.takeWhile_subset _ hl) (List.mem_takeWhile_imp hl))

instance [Blanks P] : Yields P flush := ⟨fun _ h => ⟨_, grows_flush h, forall_skipped h⟩⟩

theorem tokens_bump {s : Cursor} (h : s.Sound) :
    ∃ new, Grows s s.bump new ∧ ∀ t ∈ new, ∃ u, t = .token u := by
  refine ⟨_, (grows_bump h).1, fun t ht => ?_⟩
  rcases List.mem_append.mp ht with ht | ht
  · obtain ⟨l, -, rfl⟩ := List.mem_map.mp ht
    exact ⟨_, rfl⟩
  · obtain ⟨u, -, rfl⟩ := Option.map_eq_some_iff.mp (Option.mem_toList.mp ht)
    exact ⟨u, rfl⟩

instance [hP : Structural P] : Yields P bump where
  yields s h := by
    obtain ⟨new, hnew, htokens⟩ := tokens_bump h
    refine ⟨new, hnew, fun t ht => ?_⟩
    obtain ⟨u, rfl⟩ := htokens t ht
    exact hP.token u

-- An error changes nothing but the list of errors.
theorem grows_report {s : Cursor} (h : s.Sound) (f : Fault) : Grows s (s.report f) [] where
  sound := ⟨h.row, h.skips, h.floor_le⟩
  taken := rfl
  suffix := List.suffix_rfl
  covers := rfl
  forest := by simp [Cursor.report]
  opened := rfl
  lawful := rfl
  textEnd := rfl
  literalAllowed := rfl
  errors := List.suffix_cons _ _
  marked := by
    intro e he
    rcases List.mem_cons.mp he with rfl | he
    · exact .inr s.marks_errorRange
    · exact .inl he

instance (f : Fault) : Yields P (fault f) := ⟨fun _ h => ⟨[], grows_report h f, fun _ ht => nomatch ht⟩⟩

section Nodes

variable {kind : NodeKind} {body : Action Unit} {place : Nat}

theorem Yields.of_inner [Blanks P] (h : ∀ s : Cursor, s.Sound → ∃ inner,
    Grows (s.flush.start kind) (body.run (s.flush.start kind)).2 inner ∧
    P (.node kind s.flush.offset inner)) : Yields P (node kind body) where
  yields s hs := by
    have hflush := grows_flush hs
    obtain ⟨inner, hinner, hnode⟩ := h s hs
    rw [run_node]
    rw [start_eq_startAt hflush.sound kind] at hinner ⊢
    exact ⟨_, hflush.trans (grows_node hflush.sound (.refl hflush.sound) hinner),
      List.forall_mem_append.mpr ⟨forall_skipped hs, List.forall_mem_singleton.mpr hnode⟩⟩

instance [Blanks P] [hkind : Inherits P kind] [hb : Yields P body] : Yields P (node kind body) :=
  .of_inner fun s hs => by
    obtain ⟨inner, hinner, hall⟩ := hb.yields _ (sound_start (grows_flush hs).sound kind)
    exact ⟨inner, hinner, hkind.node _ _ hall⟩

theorem YieldsFrom.of_inner (h : ∀ s₀ s : Cursor, ∀ left, Grows s₀ s left → (∀ t ∈ left, P t) →
    (s.startAt s₀.builder.checkpoint kind).Sound → ∃ inner, Grows (s.startAt s₀.builder.checkpoint kind)
      (body.run (s.startAt s₀.builder.checkpoint kind)).2 inner ∧ P (.node kind s₀.offset (left ++ inner))) :
    YieldsFrom P place (nodeAt place kind body) where
  yields s₀ s left h₀ hplace hgrows hleft := by
    subst hplace
    obtain ⟨inner, hinner, hnode⟩ :=
      h s₀ s left hgrows hleft (sound_startAt hgrows.sound kind hgrows.checkpoint_le)
    exact ⟨_, grows_node h₀ hgrows hinner, List.forall_mem_singleton.mpr hnode, hinner.errors⟩

instance [hkind : Inherits P kind] [hb : Yields P body] : YieldsFrom P place (nodeAt place kind body) :=
  .of_inner fun s₀ s left _ hleft hstart => by
    obtain ⟨inner, hinner, hall⟩ := hb.yields _ hstart
    exact ⟨inner, hinner, hkind.node _ _ (List.forall_mem_append.mpr ⟨hleft, hall⟩)⟩

-- A token that is taken where no blanks are left is the only one.
theorem single_bump {s : Cursor} (h : s.Sound) (hsolids : s.rest = s.solids) :
    ∃ new, Grows s s.bump new ∧ Tree.Single new := by
  refine ⟨_, (grows_bump h).1, ?_⟩
  have hskipped : s.rest.takeWhile (·.skipped) = [] := by
    rw [hsolids, Cursor.solids, List.takeWhile_eq_nil_iff]
    intro hpos
    simpa using List.dropWhile_get_zero_not (fun l : Lexeme => l.skipped) s.rest hpos
  rw [hskipped, List.map_nil, List.nil_append]
  cases s.current? with
  | none => exact .none
  | some t => exact .one t

theorem rest_start (kind : NodeKind) (s : Cursor) : (s.flush.start kind).rest = (s.flush.start kind).solids :=
  (rest_flush s).trans (solids_flush s).symm

theorem yields_atom [Blanks P]
    (h : ∀ offset children, Tree.Single children → P (.node kind offset children)) :
    Yields P (node kind bump) :=
  .of_inner fun s hs => by
    obtain ⟨inner, hinner, hsingle⟩ :=
      single_bump (sound_start (grows_flush hs).sound kind) (rest_start kind s)
    exact ⟨inner, hinner, h _ _ hsingle⟩

instance [hP : Structural P] : Yields P (node .name bump) := yields_atom hP.name

instance [hP : Hereditary P] : Yields P (node .nameRef bump) := yields_atom fun _ _ => hP.atom _ _ _ rfl

instance [hP : Hereditary P] : Yields P (node .literal bump) := yields_atom fun _ _ => hP.atom _ _ _ rfl

instance [hP : Hereditary P] : Yields P (node .literal Rules.stringToken) :=
  .of_inner fun s hs => by
    have hstart := sound_start (grows_flush hs).sound .literal
    rw [Rules.stringToken, run_get_bind]
    split
    · have hreport := grows_report hstart .unterminatedString
      obtain ⟨inner, hinner, hsingle⟩ := single_bump hreport.sound (rest_start .literal s)
      exact ⟨inner, hreport.trans hinner, hP.atom _ _ _ rfl hsingle⟩
    · obtain ⟨inner, hinner, hsingle⟩ := single_bump hstart (rest_start .literal s)
      exact ⟨inner, hinner, hP.atom _ _ _ rfl hsingle⟩

end Nodes

-- What follows a checkpoint may use it.
instance {α : Type} (next : Nat → Action α) [Blanks P] [hn : ∀ place, YieldsFrom P place (next place)] :
    Yields P (checkpoint >>= next) where
  yields s h := by
    have hflush := grows_flush h
    obtain ⟨new, hnew, hall, -⟩ :=
      (hn s.flush.builder.checkpoint).yields _ _ [] hflush.sound rfl (.refl hflush.sound)
      fun _ ht => nomatch ht
    exact ⟨_, hflush.trans hnew, List.forall_mem_append.mpr ⟨forall_skipped h, hall⟩⟩

instance (fuel : Nat) (step : Action Bool) [Yields P step] : Yields P (repeatWhile fuel step) := by
  induction fuel with
  | zero =>
      unfold repeatWhile
      infer_instance
  | succ fuel ih =>
      unfold repeatWhile
      infer_instance

instance (place fuel : Nat) (step : Action Bool) [YieldsFrom P place step] :
    YieldsFrom P place (repeatWhile fuel step) := by
  induction fuel with
  | zero =>
      unfold repeatWhile
      infer_instance
  | succ fuel ih =>
      unfold repeatWhile
      infer_instance

theorem sound_allow {s : Cursor} (h : s.Sound) (allowed : Bool) : (s.allow allowed).Sound :=
  ⟨h.row, h.skips, h.floor_le⟩

-- The flag is put back when the trees are there.
theorem grows_allow {s s' : Cursor} {new : List Tree} {allowed : Bool}
    (h : Grows (s.allow allowed) s' new) : Grows s (s'.allow s.literalAllowed) new :=
  ⟨sound_allow h.sound _, h.taken, h.suffix, h.covers, h.forest, h.opened, h.lawful, h.textEnd,
    rfl, h.errors, h.marked⟩

instance (allowed : Bool) (body : Action Unit) [hb : Yields P body] :
    Yields P (withLiterals allowed body) where
  yields s h := by
    obtain ⟨new, hnew, hall⟩ := hb.yields (s.allow allowed) (sound_allow h allowed)
    exact ⟨new, grows_allow hnew, hall⟩

variable [Structural P]

instance (kind : TokenKind) : Yields P (eat kind) := by
  unfold eat
  infer_instance

instance (kind : TokenKind) (what : String) : Yields P (expect kind what) := by
  unfold expect
  infer_instance

instance (fuel : Nat) (kinds : List TokenKind) : Yields P (eatWhile fuel kinds) := by
  unfold eatWhile
  infer_instance

instance (fuel : Nat) (stops : List TokenKind) : Yields P (takeUntil fuel stops) := by
  unfold takeUntil
  infer_instance

instance (fuel : Nat) (stops : List TokenKind) : Yields P (takeSome fuel stops) := by
  unfold takeSome
  infer_instance

instance (fuel : Nat) (f : Fault) (stops : List TokenKind) : Yields P (skipTo fuel f stops) := by
  unfold skipTo
  infer_instance

instance (what : String) : Yields P (name what) := by
  unfold name
  infer_instance

instance : Yields P Rules.stringToken := by
  unfold Rules.stringToken
  infer_instance

end Moves

namespace Rules

-- What all rules yield that `g` runs.
variable {P : Tree → Prop} (g : Rules) [∀ rule, Yields P (g.run rule)]

section Structural

variable [Structural P]

instance : Yields P g.type := by unfold type; infer_instance

instance : Yields P g.expr := by unfold expr; infer_instance

instance : Yields P g.statement := by unfold statement; infer_instance

instance : Yields P g.newlines := by unfold newlines; infer_instance

instance : Yields P g.separators := by unfold separators; infer_instance

instance (f : Fault) (stops : List TokenKind) : Yields P (g.skipTo f stops) := by
  unfold skipTo; infer_instance

instance (close : TokenKind) (element : Action Unit) [Yields P element] :
    Yields P (g.commaList close element) := by
  unfold commaList; infer_instance

instance (close : TokenKind) (f : Fault) (stops : List TokenKind) (member : Action Unit)
    [Yields P member] : Yields P (g.members close f stops member) := by
  unfold members; infer_instance

instance : Yields P g.statementEnd := by unfold statementEnd; infer_instance

instance (acrossLines : Bool) : Yields P (g.moreExprs acrossLines) := by
  unfold moreExprs; infer_instance

instance : Yields P g.exprList := by unfold exprList; infer_instance

-- Types

instance : Yields P g.param := by
  unfold param
  dsimp only
  infer_instance

instance : Yields P g.paramList := by unfold paramList; infer_instance

instance : Yields P g.signature := by unfold signature; infer_instance

instance (what : String) : Yields P (g.moreNames what) := by unfold moreNames; infer_instance

instance : Yields P g.fieldDecl := by
  unfold fieldDecl
  dsimp only
  infer_instance

instance : Yields P g.methodSpec := by unfold methodSpec; infer_instance

instance (what : String) (member : Action Unit) [Yields P member] :
    Yields P (g.typeBody what member) := by
  unfold typeBody
  infer_instance

instance : Yields P g.typeRule := by
  unfold typeRule
  refine .bind inferInstance fun kind => ?_
  split <;> infer_instance

-- What expressions are made of

instance (before : Nat) : Yields P (g.unlessMoved before) := by
  unfold unlessMoved
  refine .bind inferInstance fun kind => ?_
  split <;> infer_instance

instance (stops : List TokenKind) : Yields P (g.statementList stops) := by
  unfold statementList
  dsimp only
  infer_instance

instance : Yields P g.block := by unfold block; infer_instance

instance : Yields P g.lambdaBody := by unfold lambdaBody; infer_instance

instance : Yields P g.element := by unfold element; infer_instance

instance : Yields P g.literalBody := by unfold literalBody; infer_instance

instance : Yields P g.lambdaParams := by unfold lambdaParams; infer_instance

instance : Yields P g.callArgs := by unfold callArgs; infer_instance

instance [Inherits P .binaryExpr] (power first : Nat) : YieldsFrom P first (g.binaryStep power first) := by
  unfold binaryStep
  refine .bind inferInstance fun kind => ?_
  split <;> infer_instance

instance [Inherits P .binaryExpr] (power first : Nat) : YieldsFrom P first (g.climb power first) := by
  unfold climb
  infer_instance

instance [Inherits P .binaryExpr] (power : Nat) : Yields P (g.exprRule power) := by
  unfold exprRule
  infer_instance

-- Statements

instance (kind : NodeKind) [Inherits P kind] : Yields P (g.valueSpec kind) := by
  unfold valueSpec
  infer_instance

instance (decl spec : NodeKind) [Inherits P decl] [Inherits P spec] : Yields P (g.specGroup decl spec) := by
  unfold specGroup
  infer_instance

instance : Yields P g.commandArgs := by unfold commandArgs; infer_instance

instance (first : Nat) : YieldsFrom P first (g.simpleRest first) := by
  unfold simpleRest
  infer_instance

instance : Yields P atStatementEnd := by
  unfold atStatementEnd
  infer_instance

instance : Yields P g.returnStmt := by unfold returnStmt; infer_instance

instance : Yields P g.rangeTargets := by unfold rangeTargets; infer_instance

instance : Yields P g.rangeClause := by
  unfold rangeClause
  dsimp only
  infer_instance

instance [Yields P g.commandOrExpr] (commandAllowed : Bool) : Yields P (g.simpleStmt commandAllowed) := by
  unfold simpleStmt
  infer_instance

section Statements

variable [∀ commandAllowed, Yields P (g.simpleStmt commandAllowed)]

instance : Yields P g.initStmt := by unfold initStmt; infer_instance

instance : Yields P g.ifRule := by unfold ifRule; infer_instance

instance : Yields P g.forClause := by unfold forClause; infer_instance

instance : Yields P g.forStmt := by unfold forStmt; infer_instance

instance (kind : NodeKind) [Inherits P kind] : Yields P (g.clause kind) := by
  unfold clause
  infer_instance

instance (kind : NodeKind) [Inherits P kind] : Yields P (g.clauses kind) := by
  unfold clauses
  infer_instance

instance : Yields P g.switchStmt := by unfold switchStmt; infer_instance

instance : Yields P g.selectStmt := by unfold selectStmt; infer_instance

instance : Yields P g.statementRule := by
  unfold statementRule
  refine .bind inferInstance fun kind => ?_
  split <;> infer_instance

end Statements

-- Files

instance : Yields P importSpec := by
  unfold importSpec
  infer_instance

instance : Yields P g.importDecl := by unfold importDecl; infer_instance

instance : Yields P g.typeDecl := by unfold typeDecl; infer_instance

instance : Yields P atFuncDecl := by
  unfold atFuncDecl
  refine .bind inferInstance fun kind => ?_
  split <;> infer_instance

instance : Yields P g.funcDecl := by unfold funcDecl; infer_instance

instance : Yields P g.item := by
  unfold item
  refine .bind inferInstance fun kind => ?_
  split <;> infer_instance

instance : Yields P g.packageClause := by unfold packageClause; infer_instance

instance : Yields P g.items := by unfold items; infer_instance

instance : Yields P g.fileContents := by unfold fileContents; infer_instance

end Structural

-- Expressions

section Hereditary

variable [Hereditary P]

instance : Yields P g.typedLiteral := by unfold typedLiteral; infer_instance

instance : Yields P g.parenthesized := by unfold parenthesized; infer_instance

instance : Yields P g.primary := by
  unfold primary
  refine .bind inferInstance fun kind => .bind inferInstance fun second => ?_
  split <;> infer_instance

instance (first : Nat) : YieldsFrom P first (g.postfixStep first) := by
  unfold postfixStep
  refine .bind inferInstance fun kind => ?_
  split <;> infer_instance

instance (first : Nat) : YieldsFrom P first (g.postfixed first) := by
  unfold postfixed
  infer_instance

instance [Inherits P .unaryExpr] : Yields P g.unaryRule := by unfold unaryRule; infer_instance

instance (first : Nat) : YieldsFrom P first (g.commandHead first) := by
  unfold commandHead
  infer_instance

instance [Inherits P .binaryExpr] : Yields P g.commandOrExpr := by unfold commandOrExpr; infer_instance

end Hereditary

end Rules

instance {P : Tree → Prop} [Hereditary P] [Inherits P .unaryExpr] [Inherits P .binaryExpr] (fuel : Nat)
    (rule : Rule) : Yields P (runRule fuel rule) := by
  induction fuel generalizing rule with
  | zero =>
      unfold runRule
      infer_instance
  | succ fuel ih =>
      unfold runRule
      have (rule : Rule) : Yields P ((Rules.mk (fuel + 1) (runRule fuel)).run rule) := ih rule
      cases rule <;> dsimp only <;> infer_instance

end Syntax

end SpriteScript
