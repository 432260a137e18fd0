import SpriteScript.Proofs.Loops
import SpriteScript.Proofs.Lossless
import SpriteScript.Proofs.Restoring

-- Where literals behind a name may stand. The brace behind the head of a statement opens its body, so in a
-- head no literal starts with a name, unless brackets or a body lie around it.
namespace SpriteScript

namespace NodeKind

-- Nothing closes off what is in the node.
@[reducible] def isOpen : NodeKind → Bool
  | .parenExpr | .argList | .indexExpr | .listLit | .litBody | .lambdaExpr | .block => false
  | _ => true

-- Literals, and statements with a head in front of their body.
@[reducible] def isGuarded : NodeKind → Bool
  | .ifStmt | .forStmt | .switchStmt | .compositeLit => true
  | _ => false

@[reducible] def isLiteral : NodeKind → Bool
  | .compositeLit => true
  | _ => false

end NodeKind

namespace Tree

-- A literal whose type is an expression. In the others a type stands first, as in `[]int\x7b1\x7d`.
def isNamedLiteral (t : Tree) : Bool :=
  t.isA .compositeLit && t.childNodes.head?.any fun c => c.kind?.any NodeKind.isExpr

-- What lies in a tree with nothing around it that closes it off.
inductive Openly : Tree → Tree → Prop where
  | self (t : Tree) : Openly t t
  | child {kind : NodeKind} {offset : Nat} {children : List Tree} {c v : Tree} :
      kind.isOpen = true → c ∈ children → Openly c v → Openly (.node kind offset children) v

-- The head of a statement, which ends where its body starts.
def head : Tree → List Tree
  | node .ifStmt _ children | node .forStmt _ children => children.takeWhile fun c => !c.isA .block
  | node .switchStmt _ children => children.takeWhile fun c => !c.token?.any (·.kind == .lBrace)
  | _ => []

-- No literal behind a name lies openly in the tree.
def Unbraced (t : Tree) : Prop := ∀ v, t.Openly v → v.isNamedLiteral = false

def Headed (t : Tree) : Prop := ∀ c ∈ t.head, c.Unbraced

-- What is made when a brace may open a literal, or may not.
def Fits (allowed : Bool) (t : Tree) : Prop := t.Everywhere Headed ∧ (allowed = false → t.Unbraced)

-- What is made in both cases, and is no expression.
def Bare (t : Tree) : Prop := t.Fits false ∧ t.kind?.any NodeKind.isExpr = false

variable {kind : NodeKind} {offset : Nat} {children : List Tree} {allowed : Bool} {t : Tree}

theorem unbraced_token (s : Token) : (token s).Unbraced := by
  rintro v ⟨⟩
  rfl

theorem unbraced_node :
    (node kind offset children).Unbraced ↔ (node kind offset children).isNamedLiteral = false ∧
    (kind.isOpen = true → ∀ c ∈ children, c.Unbraced) := by
  constructor
  · intro h
    exact ⟨h _ (.self _), fun hopen c hc v hv => h v (.child hopen hc hv)⟩
  · rintro ⟨hself, hchildren⟩ v hv
    cases hv with
    | self => exact hself
    | child hopen hc hv => exact hchildren hopen _ hc v hv

theorem isNamedLiteral_eq_false (h : kind.isLiteral = false) :
    (node kind offset children).isNamedLiteral = false := by
  have hkind : (node kind offset children).isA .compositeLit = false := by
    refine beq_eq_false_iff_ne.mpr fun heq => ?_
    obtain rfl := Option.some.inj heq
    cases h
  rw [isNamedLiteral, hkind, Bool.false_and]

theorem mem_children_of_mem_head {c : Tree} (h : c ∈ t.head) : c ∈ t.children := by
  unfold head at h
  split at h
  · exact List.takeWhile_subset _ h
  · exact List.takeWhile_subset _ h
  · exact List.takeWhile_subset _ h
  · cases h

-- A head is over where its end has come.
theorem mem_of_mem_takeWhile {p : Tree → Bool} {new more : List Tree} {c : Tree} (h : ∃ t ∈ new, p t = false)
    (hc : c ∈ (new ++ more).takeWhile p) : c ∈ new := by
  induction new with
  | nil =>
      obtain ⟨t, ht, -⟩ := h
      cases ht
  | cons t new ih =>
      rw [List.cons_append, List.takeWhile_cons] at hc
      split at hc
      case isTrue htrue =>
        rcases List.mem_cons.mp hc with rfl | hc
        · exact List.mem_cons_self
        · obtain ⟨u, hu, hfalse⟩ := h
          rcases List.mem_cons.mp hu with rfl | hu
          · exact absurd (htrue.symm.trans hfalse) (by decide)
          · exact List.mem_cons_of_mem t (ih ⟨u, hu, hfalse⟩ hc)
      case isFalse => cases hc

theorem head_of_isGuarded (h : kind.isGuarded = false) : (node kind offset children).head = [] := by
  revert h
  cases kind <;> first | exact fun _ => rfl | exact fun h => nomatch h

theorem Fits.of_false (h : t.Fits false) : t.Fits allowed := ⟨h.1, fun _ => h.2 rfl⟩

theorem fits_token (s : Token) : (token s).Fits allowed := ⟨everywhere_token _ s, fun _ => unbraced_token s⟩

-- A node fits if its head is unbraced, and if all that it shows is unbraced where that is asked for.
theorem fits_node (hliteral : kind.isLiteral = false)
    (hhead : ∀ c ∈ (node kind offset children).head, c.Unbraced) (h : ∀ c ∈ children, c.Fits allowed) :
    (node kind offset children).Fits allowed :=
  ⟨everywhere_node.mpr ⟨hhead, fun c hc => (h c hc).1⟩, fun hallowed =>
    unbraced_node.mpr ⟨isNamedLiteral_eq_false hliteral, fun _ c hc => (h c hc).2 hallowed⟩⟩

theorem fits_of_isGuarded (hkind : kind.isGuarded = false) (h : ∀ c ∈ children, c.Fits allowed) :
    (node kind offset children).Fits allowed := by
  have hliteral : kind.isLiteral = false := by
    revert hkind
    cases kind <;> decide
  refine fits_node hliteral ?_ h
  rw [head_of_isGuarded hkind]
  exact List.forall_mem_nil _

-- What a node closes off need not be unbraced.
theorem fits_of_isOpen (hkind : kind.isOpen = false) (h : ∀ c ∈ children, c.Everywhere Headed) :
    (node kind offset children).Fits allowed := by
  obtain ⟨hguarded, hliteral⟩ : kind.isGuarded = false ∧ kind.isLiteral = false := by
    revert hkind
    cases kind <;> decide
  refine ⟨everywhere_node.mpr ⟨?_, h⟩, fun _ => ?_⟩
  · unfold Headed
    rw [head_of_isGuarded hguarded]
    exact List.forall_mem_nil _
  · refine unbraced_node.mpr ⟨isNamedLiteral_eq_false hliteral, fun hopen => ?_⟩
    exact absurd (hkind.symm.trans hopen) (by decide)

-- A literal of its own, behind a type, is none behind a name.
theorem fits_literal (h : ∀ c ∈ children, c.Bare) : (node .compositeLit offset children).Fits allowed := by
  have hnamed : (node .compositeLit offset children).isNamedLiteral = false := by
    rw [isNamedLiteral, Bool.and_eq_false_iff]
    refine .inr ?_
    cases hfirst : (node .compositeLit offset children).childNodes.head? with
    | none => rfl
    | some c => exact (h c (List.mem_of_mem_filter (List.mem_of_head? hfirst))).2
  exact ⟨everywhere_node.mpr ⟨fun c hc => (h c (mem_children_of_mem_head hc)).1.2 rfl,
    fun c hc => (h c hc).1.1⟩, fun _ => unbraced_node.mpr ⟨hnamed, fun _ c hc => (h c hc).1.2 rfl⟩⟩

instance (kind : NodeKind) [hkind : Refuted kind.isGuarded] : Inherits (Fits allowed) kind :=
  ⟨fun _ _ h => fits_of_isGuarded hkind.eq_false h⟩

instance : Inherits (Everywhere Headed) .sourceFile :=
  ⟨fun _ _ h => everywhere_node.mpr ⟨List.forall_mem_nil _, h⟩⟩

-- Where literals are allowed one may stand behind a name.
instance : Inherits (Fits true) .compositeLit where
  node _ _ h :=
    ⟨everywhere_node.mpr ⟨List.forall_mem_nil _, fun c hc => (h c hc).1⟩, fun h => absurd h (by decide)⟩

-- If all that is in a node is unbraced then so is its head.
theorem inherits_fits_false (hliteral : kind.isLiteral = false) : Inherits (Fits false) kind where
  node _ _ h := fits_node hliteral (fun c hc => (h c (mem_children_of_mem_head hc)).2 rfl) h

instance (kind : NodeKind) [hkind : Refuted kind.isLiteral] : Inherits (Fits false) kind :=
  inherits_fits_false hkind.eq_false

instance : Blanks (Fits allowed) := ⟨fun s _ => fits_token s⟩

instance : Structural (Fits false) where
  token := fits_token
  name offset children hsingle := by
    refine (inherits_fits_false rfl).node offset children fun c hc => ?_
    cases hsingle with
    | none => cases hc
    | one s => exact List.mem_singleton.mp hc ▸ fits_token s
  ordinary kind hkind := inherits_fits_false (by revert hkind; cases kind <;> decide)

theorem isExpr_of_isTerm (h : kind.isTerm = false) :
    (node kind offset children).kind?.any NodeKind.isExpr = false := by
  revert h
  cases kind <;> first | exact fun _ => rfl | exact fun h => nomatch h

instance : Structural Bare where
  token s := ⟨fits_token s, rfl⟩
  name offset children hsingle := ⟨Structural.name offset children hsingle, rfl⟩
  ordinary kind hkind := ⟨fun offset children h =>
    ⟨(Structural.ordinary kind hkind).node offset children fun c hc => (h c hc).1, isExpr_of_isTerm hkind⟩⟩

end Tree

namespace Syntax

open SpriteScript.Tree (Bare Everywhere Fits Headed Inherits)

-- The instances for the parts of a long rule are found in one search.
set_option synthInstance.maxSize 1000

-- The action only adds trees that fit, whether a brace may open a literal or not.
class Respects {α : Type} (a : Action α) : Prop where
  respects : ∀ s : Cursor, s.Sound → ∃ new, Grows s (a.run s).2 new ∧ ∀ t ∈ new, t.Fits s.literalAllowed

-- The action may also put trees into a node that were added since the checkpoint.
class RespectsFrom {α : Type} (place : Nat) (a : Action α) : Prop where
  respects : ∀ s₀ s : Cursor, ∀ left, s₀.Sound → s₀.builder.checkpoint = place → Grows s₀ s left →
    (∀ t ∈ left, t.Fits s₀.literalAllowed) →
    ∃ new, Grows s₀ (a.run s).2 new ∧ ∀ t ∈ new, t.Fits s₀.literalAllowed

section Combinators

variable {α β : Type} {place : Nat} {a b : Action α} {f : α → Action β}

instance (priority := low) [ha : Yields Bare a] : Yields (Fits false) a := ha.imp fun _ h => h.1

instance (priority := low) [ha : Yields (Fits false) a] : Respects a where
  respects s hs := by
    obtain ⟨new, hnew, hall⟩ := ha.yields s hs
    exact ⟨new, hnew, fun t ht => (hall t ht).of_false⟩

instance (priority := low) [ha : Yields (Fits false) a] : Yields (Fits true) a := ha.imp fun _ h => h.of_false

instance (priority := low) [ha : Respects a] : Yields (Everywhere Headed) a where
  yields s hs := by
    obtain ⟨new, hnew, hall⟩ := ha.respects s hs
    exact ⟨new, hnew, fun t ht => (hall t ht).1⟩

theorem Respects.bind (ha : Respects a) (hf : ∀ x, Respects (f x)) : Respects (a >>= f) where
  respects s hs := by
    obtain ⟨new, hnew, hall⟩ := ha.respects s hs
    obtain ⟨more, hmore, hall'⟩ := (hf (a.run s).1).respects _ hnew.sound
    rw [hnew.literalAllowed] at hall'
    exact ⟨new ++ more, hnew.trans hmore, List.forall_mem_append.mpr ⟨hall, hall'⟩⟩

instance [ha : Respects a] [hf : ∀ x, Respects (f x)] : Respects (a >>= f) := .bind ha hf

instance {c : Prop} [Decidable c] [Respects a] [Respects b] : Respects (if c then a else b) := by
  split <;> assumption

instance [ha : Respects a] : Respects (discard a) := ⟨ha.respects⟩

instance (priority := low) [ha : Respects a] : RespectsFrom place a where
  respects s₀ s left _ _ h hleft := by
    obtain ⟨new, hnew, hall⟩ := ha.respects s h.sound
    rw [h.literalAllowed] at hall
    exact ⟨left ++ new, h.trans hnew, List.forall_mem_append.mpr ⟨hleft, hall⟩⟩

theorem RespectsFrom.bind (ha : RespectsFrom place a) (hf : ∀ x, RespectsFrom place (f x)) :
    RespectsFrom place (a >>= f) where
  respects s₀ s left h₀ hplace h hleft := by
    obtain ⟨new, hnew, hall⟩ := ha.respects s₀ s left h₀ hplace h hleft
    exact (hf (a.run s).1).respects s₀ _ new h₀ hplace hnew hall

instance [ha : RespectsFrom place a] [hf : ∀ x, RespectsFrom place (f x)] : RespectsFrom place (a >>= f) :=
  .bind ha hf

instance {c : Prop} [Decidable c] [RespectsFrom place a] [RespectsFrom place b] :
    RespectsFrom place (if c then a else b) := by
  split <;> assumption

-- What follows a checkpoint may use it.
instance (next : Nat → Action α) [hn : ∀ place, RespectsFrom place (next place)] :
    Respects (checkpoint >>= next) where
  respects s h := by
    have hflush := grows_flush h
    obtain ⟨new, hnew, hall⟩ :=
      (hn s.flush.builder.checkpoint).respects _ _ [] hflush.sound rfl (.refl hflush.sound)
      (List.forall_mem_nil _)
    rw [hflush.literalAllowed] at hall
    exact ⟨_, hflush.trans hnew, List.forall_mem_append.mpr ⟨forall_skipped h, hall⟩⟩

instance (fuel : Nat) (step : Action Bool) [Respects step] : Respects (repeatWhile fuel step) := by
  induction fuel with
  | zero =>
      unfold repeatWhile
      infer_instance
  | succ fuel ih =>
      unfold repeatWhile
      infer_instance

instance (fuel : Nat) (step : Action Bool) [RespectsFrom place step] :
    RespectsFrom place (repeatWhile fuel step) := by
  induction fuel with
  | zero =>
      unfold repeatWhile
      infer_instance
  | succ fuel ih =>
      unfold repeatWhile
      infer_instance

-- What is made where no literal is allowed fits everywhere.
instance (body : Action Unit) [hb : Respects body] : Yields (Fits false) (withLiterals false body) where
  yields s h := by
    obtain ⟨new, hnew, hall⟩ := hb.respects (s.allow false) (sound_allow h false)
    exact ⟨new, grows_allow hnew, hall⟩

end Combinators

section Nodes

variable {kind : NodeKind} {place : Nat} {body : Action Unit}

theorem Respects.of_inner (h : ∀ s : Cursor, s.Sound → ∃ inner, Grows s (body.run s).2 inner ∧
    ∀ offset, (Tree.node kind offset inner).Fits s.literalAllowed) : Respects (node kind body) where
  respects s hs := by
    have hflush := grows_flush hs
    obtain ⟨inner, hinner, hnode⟩ := h _ (sound_start hflush.sound kind)
    have hflag : (s.flush.start kind).literalAllowed = s.literalAllowed := hflush.literalAllowed
    rw [hflag] at hnode
    rw [run_node]
    rw [start_eq_startAt hflush.sound kind] at hinner ⊢
    exact ⟨_, hflush.trans (grows_node hflush.sound (.refl hflush.sound) hinner),
      List.forall_mem_append.mpr ⟨forall_skipped hs, List.forall_mem_singleton.mpr (hnode _)⟩⟩

theorem RespectsFrom.of_inner (h : ∀ s : Cursor, s.Sound → ∃ inner, Grows s (body.run s).2 inner ∧
    ∀ offset left, (∀ t ∈ left, t.Fits s.literalAllowed) →
    (Tree.node kind offset (left ++ inner)).Fits s.literalAllowed) :
    RespectsFrom place (nodeAt place kind body) where
  respects s₀ s left h₀ hplace hgrows hleft := by
    subst hplace
    have hflag : (s.startAt s₀.builder.checkpoint kind).literalAllowed = s₀.literalAllowed :=
      hgrows.literalAllowed
    obtain ⟨inner, hinner, hnode⟩ := h _ (sound_startAt hgrows.sound kind hgrows.checkpoint_le)
    rw [hflag] at hnode
    exact ⟨_, grows_node h₀ hgrows hinner, List.forall_mem_singleton.mpr (hnode _ _ hleft)⟩

instance [hkind : ∀ allowed, Inherits (Fits allowed) kind] [hb : Respects body] : Respects (node kind body) :=
  .of_inner fun s hs => by
    obtain ⟨inner, hinner, hall⟩ := hb.respects s hs
    exact ⟨inner, hinner, fun offset => (hkind _).node offset inner hall⟩

instance [hkind : ∀ allowed, Inherits (Fits allowed) kind] [hb : Respects body] :
    RespectsFrom place (nodeAt place kind body) :=
  .of_inner fun s hs => by
    obtain ⟨inner, hinner, hall⟩ := hb.respects s hs
    exact ⟨inner, hinner, fun offset left hleft =>
      (hkind _).node offset _ (List.forall_mem_append.mpr ⟨hleft, hall⟩)⟩

instance [hb : Yields Bare body] : Yields (Fits false) (node .compositeLit body) :=
  .of_inner fun s hs => by
    obtain ⟨inner, hinner, hall⟩ := hb.yields _ (sound_start (grows_flush hs).sound .compositeLit)
    exact ⟨inner, hinner, Tree.fits_literal hall⟩

-- What a node closes off is made where literals are allowed.
instance [hkind : Refuted kind.isOpen] [hb : Yields (Everywhere Headed) body] :
    Yields (Fits false) (node kind body) :=
  .of_inner fun s hs => by
    obtain ⟨inner, hinner, hall⟩ := hb.yields _ (sound_start (grows_flush hs).sound kind)
    exact ⟨inner, hinner, Tree.fits_of_isOpen hkind.eq_false hall⟩

instance [hkind : Refuted kind.isOpen] [hterm : Refuted kind.isTerm] [hb : Yields (Everywhere Headed) body] :
    Yields Bare (node kind body) :=
  .of_inner fun s hs => by
    obtain ⟨inner, hinner, hall⟩ := hb.yields _ (sound_start (grows_flush hs).sound kind)
    exact ⟨inner, hinner, Tree.fits_of_isOpen hkind.eq_false hall, Tree.isExpr_of_isTerm hterm.eq_false⟩

instance [hkind : Refuted kind.isOpen] [hb : Yields (Everywhere Headed) body] :
    RespectsFrom place (nodeAt place kind body) :=
  .of_inner fun s hs => by
    obtain ⟨inner, hinner, hall⟩ := hb.yields s hs
    exact ⟨inner, hinner, fun _ _ hleft => Tree.fits_of_isOpen hkind.eq_false
      (List.forall_mem_append.mpr ⟨fun t ht => (hleft t ht).1, hall⟩)⟩

theorem exists_node [hb : Yields (Everywhere Headed) body] {s : Cursor} (h : s.Sound) :
    ∃ new, Grows s ((node kind body).run s).2 new ∧ ∃ t ∈ new, t.isA kind = true := by
  have hflush := grows_flush h
  obtain ⟨inner, hinner, -⟩ := hb.yields _ (sound_start hflush.sound kind)
  rw [run_node]
  rw [start_eq_startAt hflush.sound kind] at hinner ⊢
  exact ⟨_, hflush.trans (grows_node hflush.sound (.refl hflush.sound) hinner), _,
    List.mem_append_right _ (List.mem_singleton_self _), beq_self_eq_true _⟩

-- A statement with a head. What stands behind the head need not be unbraced.
theorem respects_headed {α : Type} {front : Action α} {rest : α → Action Unit}
    (hliteral : kind.isLiteral = false) [hfront : Yields (Fits false) front] [hrest : ∀ x, Respects (rest x)]
    (hhead : ∀ s : Cursor, s.Sound → ∀ new, Grows s (front.run s).2 new →
      ∀ more, Grows (front.run s).2 ((rest (front.run s).1).run (front.run s).2).2 more →
        ∀ offset, ∀ c ∈ (Tree.node kind offset (new ++ more)).head, c ∈ new) :
    Respects (node kind (front >>= rest)) :=
  .of_inner fun s hs => by
    obtain ⟨new, hnew, hunbraced⟩ := hfront.yields s hs
    obtain ⟨more, hmore, hfits⟩ := (hrest (front.run s).1).respects _ hnew.sound
    rw [hnew.literalAllowed] at hfits
    refine ⟨new ++ more, hnew.trans hmore, fun offset => Tree.fits_node hliteral (fun c hc => ?_) ?_⟩
    · exact (hunbraced c (hhead s hs new hnew more hmore offset c hc)).2 rfl
    · exact List.forall_mem_append.mpr ⟨fun c hc => (hunbraced c hc).of_false, hfits⟩

end Nodes

section Expected

variable {kind : TokenKind} {what : String} {s : Cursor}

theorem run_expect (kind : TokenKind) (what : String) (s : Cursor) : (expect kind what).run s =
    if s.kind? == some kind then (true, s.bump) else (false, s.report (.expected what)) := by
  unfold expect eat
  rw [run_bind, run_isAt_bind]
  split <;> rfl

theorem exists_of_expect (h : s.Sound) (htaken : ((expect kind what).run s).1 = true) :
    ∃ new, Grows s ((expect kind what).run s).2 new ∧ ∃ u, u.kind = kind ∧ .token u ∈ new := by
  rw [run_expect] at htaken ⊢
  split at htaken
  case isTrue hkind =>
    obtain ⟨u, hcurrent, hu⟩ := Option.map_eq_some_iff.mp (beq_iff_eq.mp hkind)
    rw [if_pos hkind]
    refine ⟨_, (grows_bump h).1, u, hu, List.mem_append_right _ ?_⟩
    rw [hcurrent]
    exact List.mem_singleton_self _
  case isFalse => cases htaken

end Expected

namespace Rules

section Definitions

variable (g : Rules)

-- The grammar without expressions and statements. Types do not need them.
def typesOnly : Rules where
  fuel := g.fuel
  run
    | .type => g.run .type
    | _ => pure ()

-- The head of an `if`, and what may follow its body.

def ifHead : Action Unit := do
  bump
  withLiterals false do
    g.initStmt
    if ← isAt .lBrace then
      fault .missingCondition
    else
      g.expr

def ifRest : Action Unit := do
  if ← eat .elseKw then
    if ← isAt .ifKw then
      g.run .ifStmt
    else
      g.block

theorem ifRule_eq : g.ifRule = node .ifStmt ((do g.ifHead; g.block) >>= fun _ => g.ifRest) := rfl

-- The head of a `switch`, and the clauses behind its brace.

def switchHead : Action Unit := do
  bump
  withLiterals false do
    g.initStmt
    if !(← isAt .lBrace) then
      g.expr

def clauseList (kind : NodeKind) (opened : Bool) : Action Unit := do
  if opened then
    g.separators
    repeatWhile g.fuel (g.clauseStep kind)
    discard <| expect .rBrace "'\x7d'"

theorem clauses_eq_bind (kind : NodeKind) :
    g.clauses kind = expect .lBrace "'\x7b'" >>= g.clauseList kind := rfl

theorem switchStmt_eq : g.switchStmt =
    node .switchStmt ((do g.switchHead; expect .lBrace "'\x7b'") >>= g.clauseList .caseClause) := by
  rw [switchStmt, switchHead, clauses_eq_bind]
  simp only [bind_assoc]

end Definitions

variable (g : Rules) [hg : ∀ rule, Respects (g.run rule)] [htype : Yields Bare (g.run .type)]

section Types

omit hg

instance (rule : Rule) : Yields Bare (g.typesOnly.run rule) := by
  cases rule <;> first | exact htype | exact inferInstanceAs (Yields Bare (pure ()))

instance : Yields Bare g.type := htype

instance : Yields Bare g.newlines := inferInstanceAs (Yields Bare g.typesOnly.newlines)

instance : Yields Bare g.separators := inferInstanceAs (Yields Bare g.typesOnly.separators)

instance (f : Fault) (stops : List TokenKind) : Yields Bare (g.skipTo f stops) :=
  inferInstanceAs (Yields Bare (g.typesOnly.skipTo f stops))

instance : Yields Bare g.statementEnd := inferInstanceAs (Yields Bare g.typesOnly.statementEnd)

instance (before : Nat) : Yields Bare (g.unlessMoved before) :=
  inferInstanceAs (Yields Bare (g.typesOnly.unlessMoved before))

instance (what : String) : Yields Bare (g.moreNames what) :=
  inferInstanceAs (Yields Bare (g.typesOnly.moreNames what))

instance : Yields Bare g.param := inferInstanceAs (Yields Bare g.typesOnly.param)

instance : Yields Bare g.signature := inferInstanceAs (Yields Bare g.typesOnly.signature)

instance : Yields Bare g.lambdaParams := inferInstanceAs (Yields Bare g.typesOnly.lambdaParams)

instance : Yields Bare g.typeRule := inferInstanceAs (Yields Bare g.typesOnly.typeRule)

instance : Yields Bare g.importDecl := inferInstanceAs (Yields Bare g.typesOnly.importDecl)

instance : Yields Bare g.typeDecl := inferInstanceAs (Yields Bare g.typesOnly.typeDecl)

instance : Yields Bare g.packageClause := inferInstanceAs (Yields Bare g.typesOnly.packageClause)

end Types

instance : Respects g.expr := hg (.expr 0)

instance : Respects g.statement := hg .statement

instance (close : TokenKind) (element : Action Unit) [Respects element] :
    Respects (g.commaList close element) := by
  unfold commaList; infer_instance

instance (close : TokenKind) (f : Fault) (stops : List TokenKind) (member : Action Unit) [Respects member] :
    Respects (g.members close f stops member) := by
  unfold members; infer_instance

instance (acrossLines : Bool) : Respects (g.moreExprs acrossLines) := by unfold moreExprs; infer_instance

instance : Respects g.exprList := by unfold exprList; infer_instance

-- Expressions

instance (stops : List TokenKind) : Respects (g.statementList stops) := by
  unfold statementList
  dsimp only
  infer_instance

instance : Yields Bare g.block := by unfold block; infer_instance

instance : Yields (Everywhere Headed) g.lambdaBody := by unfold lambdaBody; infer_instance

instance : Respects g.element := by unfold element; infer_instance

instance : Yields Bare g.literalBody := by unfold literalBody; infer_instance

instance : Yields (Fits false) g.typedLiteral := by unfold typedLiteral; infer_instance

instance : Yields (Fits false) g.parenthesized := by unfold parenthesized; infer_instance

instance : Yields (Fits false) g.primary := by
  unfold primary
  refine .bind inferInstance fun kind => .bind inferInstance fun second => ?_
  split <;> infer_instance

instance : Yields Bare g.callArgs := by unfold callArgs; infer_instance

-- A brace opens the body of a literal where that is allowed.
instance (first : Nat) : RespectsFrom first (g.postfixStep first) := by
  unfold postfixStep
  refine .bind inferInstance fun kind => ?_
  split
  case h_4 =>
    refine ⟨fun s₀ s left h₀ hplace h hleft => ?_⟩
    rw [run_get_bind]
    split
    case isTrue hbrace =>
      have hallowed : s₀.literalAllowed = true := by
        rw [← h.literalAllowed]
        exact (Bool.and_eq_true_iff.mp hbrace).1
      have hliteral :
          YieldsFrom (Fits true) first (do nodeAt first .compositeLit g.literalBody; return true) :=
        inferInstance
      rw [hallowed] at hleft ⊢
      obtain ⟨new, hnew, hall, -⟩ := hliteral.yields s₀ s left h₀ hplace h hleft
      exact ⟨new, hnew, hall⟩
    case isFalse => exact ⟨left, h, hleft⟩
  all_goals infer_instance

instance (first : Nat) : RespectsFrom first (g.postfixed first) := by unfold postfixed; infer_instance

instance : Respects g.unaryRule := by unfold unaryRule; infer_instance

instance (power first : Nat) : RespectsFrom first (g.binaryStep power first) := by
  unfold binaryStep
  refine .bind inferInstance fun kind => ?_
  split <;> infer_instance

instance (power first : Nat) : RespectsFrom first (g.climb power first) := by unfold climb; infer_instance

instance (power : Nat) : Respects (g.exprRule power) := by unfold exprRule; infer_instance

-- Statements

instance : Respects (g.valueSpec .varSpec) := by unfold valueSpec; infer_instance

instance : Respects (g.valueSpec .constSpec) := by unfold valueSpec; infer_instance

instance : Respects (g.specGroup .varDecl .varSpec) := by unfold specGroup; infer_instance

instance : Respects (g.specGroup .constDecl .constSpec) := by unfold specGroup; infer_instance

instance (first : Nat) : RespectsFrom first (g.commandHead first) := by unfold commandHead; infer_instance

instance : Respects g.commandArgs := by unfold commandArgs; infer_instance

instance : Respects g.commandOrExpr := by unfold commandOrExpr; infer_instance

instance (first : Nat) : RespectsFrom first (g.simpleRest first) := by unfold simpleRest; infer_instance

instance (commandAllowed : Bool) :
    Respects (g.simpleStmt commandAllowed) := by unfold simpleStmt; infer_instance

instance : Respects g.returnStmt := by unfold returnStmt; infer_instance

instance : Respects g.initStmt := by unfold initStmt; infer_instance

instance : Respects g.rangeTargets := by unfold rangeTargets; infer_instance

instance : Respects g.rangeClause := by
  unfold rangeClause
  dsimp only
  infer_instance

instance : Respects g.forClause := by unfold forClause; infer_instance

instance : Yields (Fits false) g.forStmt := by unfold forStmt; infer_instance

instance (kind : NodeKind) [∀ allowed, Inherits (Fits allowed) kind] : Respects (g.clause kind) := by
  unfold clause
  infer_instance

instance : Yields (Fits false) g.ifHead := by unfold ifHead; infer_instance

instance : Respects g.ifRest := by unfold ifRest; infer_instance

omit htype in
theorem exists_block {s : Cursor} (h : s.Sound) :
    ∃ new, Grows s (g.block.run s).2 new ∧ ∃ t ∈ new, t.isA .block = true := by
  unfold block
  exact exists_node h

instance : Respects g.ifRule := by
  rw [ifRule_eq]
  refine respects_headed rfl fun s hs new hnew more _ offset c hc => ?_
  obtain ⟨head, hgrows, -⟩ := (inferInstance : Yields (Fits false) g.ifHead).yields s hs
  obtain ⟨body, hbody, t, ht, hblock⟩ := g.exists_block hgrows.sound
  obtain rfl := hnew.unique (hgrows.trans hbody)
  exact Tree.mem_of_mem_takeWhile ⟨t, List.mem_append_right head ht, by simp [hblock]⟩ hc

instance : Yields (Fits false) g.switchHead := by unfold switchHead; infer_instance

instance (kind : NodeKind) [∀ allowed, Inherits (Fits allowed) kind] (opened : Bool) :
    Respects (g.clauseList kind opened) := by
  unfold clauseList clauseStep
  infer_instance

instance (kind : NodeKind) [∀ allowed, Inherits (Fits allowed) kind] : Respects (g.clauses kind) := by
  rw [clauses_eq_bind]
  infer_instance

instance : Respects g.switchStmt := by
  rw [switchStmt_eq]
  refine respects_headed rfl fun s hs new hnew more hmore offset c hc => ?_
  obtain ⟨head, hgrows, -⟩ := (inferInstance : Yields (Fits false) g.switchHead).yields s hs
  rw [run_bind] at hnew hmore
  cases hopened : ((expect .lBrace "'\x7b'").run (g.switchHead.run s).2).1 with
  | false =>
      rw [hopened] at hmore
      obtain rfl := hmore.unique (.refl hnew.sound)
      rw [List.append_nil] at hc
      exact Tree.mem_children_of_mem_head hc
  | true =>
      obtain ⟨brace, hbrace, u, hkind, hu⟩ := exists_of_expect hgrows.sound hopened
      obtain rfl := hnew.unique (hgrows.trans hbrace)
      refine Tree.mem_of_mem_takeWhile ⟨.token u, List.mem_append_right head hu, ?_⟩ hc
      simp [Tree.token?, hkind]

instance : Respects g.selectStmt := by unfold selectStmt; infer_instance

instance : Respects g.statementRule := by
  unfold statementRule
  refine .bind inferInstance fun kind => ?_
  split <;> infer_instance

-- Files

instance : Respects g.funcDecl := by unfold funcDecl; infer_instance

instance : Respects g.item := by
  unfold item
  refine .bind inferInstance fun kind => ?_
  split <;> infer_instance

instance : Respects g.items := by unfold items; infer_instance

instance : Respects g.fileContents := by unfold fileContents; infer_instance

end Rules

theorem respects_runRule (fuel : Nat) :
    (∀ rule, Respects (runRule fuel rule)) ∧ Yields Bare (runRule fuel .type) := by
  induction fuel with
  | zero => exact ⟨fun _ => inferInstanceAs (Respects (pure ())), inferInstanceAs (Yields Bare (pure ()))⟩
  | succ fuel ih =>
      let g : Rules := ⟨fuel + 1, runRule fuel⟩
      have (rule : Rule) : Respects (g.run rule) := ih.1 rule
      have : Yields Bare (g.run .type) := ih.2
      refine ⟨fun rule => ?_, (inferInstance : Yields Bare g.typeRule)⟩
      cases rule with
      | type => exact (inferInstance : Respects g.typeRule)
      | expr power => exact (inferInstance : Respects (g.exprRule power))
      | unary => exact (inferInstance : Respects g.unaryRule)
      | statement => exact (inferInstance : Respects g.statementRule)
      | ifStmt => exact (inferInstance : Respects g.ifRule)

theorem headed_parse (text : String) : (parse text).tree.Everywhere Headed := by
  rw [root_parse, endCursor_eq]
  generalize enoughFuel (Token.tokenize text) = fuel
  let g : Rules := ⟨fuel, runRule fuel⟩
  have (rule : Rule) : Respects (g.run rule) := (respects_runRule fuel).1 rule
  have : Yields Bare (g.run .type) := (respects_runRule fuel).2
  exact holds_root g (sound_startCursor text) rfl

-- Every function of the grammar leaves as it was whether a brace may open a literal. In the tree of every
-- text no literal behind a name lies in the head of a statement, unless brackets or a body lie around it.
theorem heads_without_literals :
    (∀ (fuel depth : Nat) (α : Type) (a : Action α), (Rules.mk fuel (runRule depth)).Part a →
      ∀ s : Cursor, (a.run s).2.literalAllowed = s.literalAllowed) ∧
    ∀ text : String, ∀ t ∈ (parse text).tree.nodes, ∀ c ∈ t.head, ∀ v, c.Openly v →
    v.isNamedLiteral = false := by
  refine ⟨fun fuel depth α a ha => ?_, headed_parse⟩
  have (rule : Rule) : Restores ((Rules.mk fuel (runRule depth)).run rule) :=
    inferInstanceAs (Restores (runRule depth rule))
  exact (ha.restores).restores

-- The brace behind the name opens the body of the `if`; and a block that starts where no literals are
-- allowed ends there, although they are allowed inside of it.
theorem heads_without_literals_brace :
    (∃ t ∈ (parse "if x \x7b\n\x7d").tree.nodes, t.isA .ifStmt = true ∧ ∃ c ∈ t.head, c.isA .nameRef = true ∧
      c.Openly c ∧ c.isNamedLiteral = false) ∧
    let s := (startCursor "\x7b\x7d").allow false
    (((Rules.mk 1 (runRule 1)).block).run s).2.literalAllowed = s.literalAllowed := by
  have hfound : ((parse "if x \x7b\n\x7d").tree.nodes.any fun t =>
      t.isA .ifStmt && t.head.any (·.isA .nameRef)) = true := by decide +kernel
  obtain ⟨t, ht, hkinds⟩ := List.any_eq_true.mp hfound
  obtain ⟨hif, hname⟩ := Bool.and_eq_true_iff.mp hkinds
  obtain ⟨c, hc, hname⟩ := List.any_eq_true.mp hname
  exact ⟨⟨t, ht, hif, c, hc, hname, .self c, heads_without_literals.2 _ t ht c hc c (.self c)⟩,
    heads_without_literals.1 1 1 Unit _ .block _⟩

end Syntax

end SpriteScript
