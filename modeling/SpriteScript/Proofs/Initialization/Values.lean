import SpriteScript.Proofs.Completeness
import SpriteScript.Proofs.Constants.Expressions

-- Values that are made of literals, names and operators, and the names that stand in them.
namespace SpriteScript

def NodeKind.isPlain : NodeKind → Bool
  | literal | nameRef | parenExpr | unaryExpr | binaryExpr => true
  | _ => false

namespace Tree

-- A value with all its parts, as its accessors find them.
inductive Plain : Tree → Prop
  | literal {t : Tree} (hkind : t.kind? = some .literal) : Plain t
  | name {t : Tree} {ident : Token} (hkind : t.kind? = some .nameRef) (hident : t.ident? = some ident) :
      Plain t
  | paren {t u : Tree} (hkind : t.kind? = some .parenExpr) (hinner : t.expr? = some u)
      (hu : Plain u) : Plain t
  | unary {t u : Tree} {op : TokenKind} (hkind : t.kind? = some .unaryExpr) (hop : t.unaryOp? = some op)
      (hoperand : t.expr? = some u) (hu : Plain u) : Plain t
  | binary {t u v : Tree} {op : TokenKind} (hkind : t.kind? = some .binaryExpr) (hlhs : t.expr? = some u)
      (hop : t.binaryOp? = some op) (hrhs : t.secondExpr? = some v) (hu : Plain u) (hv : Plain v) : Plain t

-- The name stands in the value.
inductive Mentions : Tree → Token → Prop
  | name {t : Tree} {ident : Token} (hkind : t.kind? = some .nameRef) (hident : t.ident? = some ident) :
      Mentions t ident
  | first {t u : Tree} {ident : Token}
      (hkind : t.kind? = some .parenExpr ∨ t.kind? = some .unaryExpr ∨ t.kind? = some .binaryExpr)
      (hu : t.expr? = some u) (h : Mentions u ident) : Mentions t ident
  | second {t v : Tree} {ident : Token} (hkind : t.kind? = some .binaryExpr) (hv : t.secondExpr? = some v)
      (h : Mentions v ident) : Mentions t ident

variable {t u v : Tree} {ident other : Token}

theorem not_mentions_literal (hkind : t.kind? = some .literal) : ¬ t.Mentions ident := by
  intro h
  cases h with
  | name hname => rw [hkind] at hname; cases hname
  | first hfirst => rw [hkind] at hfirst; rcases hfirst with h | h | h <;> cases h
  | second hsecond => rw [hkind] at hsecond; cases hsecond

theorem mentions_name_iff (hkind : t.kind? = some .nameRef) (hident : t.ident? = some other) :
    t.Mentions ident ↔ ident = other := by
  constructor
  · intro h
    cases h with
    | name _ hident' => exact Option.some.inj (hident'.symm.trans hident)
    | first hfirst => rw [hkind] at hfirst; rcases hfirst with h | h | h <;> cases h
    | second hsecond => rw [hkind] at hsecond; cases hsecond
  · rintro rfl
    exact .name hkind hident

theorem mentions_inner_iff (hkind : t.kind? = some .parenExpr ∨ t.kind? = some .unaryExpr)
    (hu : t.expr? = some u) : t.Mentions ident ↔ u.Mentions ident := by
  constructor
  · intro h
    cases h with
    | name hname => rw [hname] at hkind; rcases hkind with h | h <;> cases h
    | first _ hu' h =>
        obtain rfl := Option.some.inj (hu.symm.trans hu')
        exact h
    | second hsecond => rw [hsecond] at hkind; rcases hkind with h | h <;> cases h
  · exact .first (hkind.imp_right .inl) hu

theorem mentions_binary_iff (hkind : t.kind? = some .binaryExpr) (hu : t.expr? = some u)
    (hv : t.secondExpr? = some v) : t.Mentions ident ↔ u.Mentions ident ∨ v.Mentions ident := by
  constructor
  · intro h
    cases h with
    | name hname => rw [hkind] at hname; cases hname
    | first _ hu' h =>
        obtain rfl := Option.some.inj (hu.symm.trans hu')
        exact .inl h
    | second _ hv' h =>
        obtain rfl := Option.some.inj (hv.symm.trans hv')
        exact .inr h
  · rintro (h | h)
    · exact .first (.inr (.inr hkind)) hu h
    · exact .second hkind hv h

theorem Plain.height_pos (h : t.Plain) : 0 < t.height := by
  cases h with
  | literal hkind | name hkind | paren hkind | unary hkind | binary hkind => exact height_pos_of_kind? hkind

-- A value stands in a list of values.
theorem exists_list {t v : Tree} {index : Nat} (h : v ∈ t.listed index) :
    ∃ l ∈ t.children, v ∈ l.children ∧ v.isExpr = true := by
  unfold listed at h
  cases hlist : (t.childrenOf .exprList)[index]? with
  | none =>
      rw [hlist] at h
      cases h
  | some l =>
      rw [hlist] at h
      have hv : v ∈ l.children.filter fun c => c.kind?.any NodeKind.isExpr := h
      obtain ⟨hmem, hexpr⟩ := List.mem_filter.mp hv
      exact ⟨l, List.mem_of_mem_filter (List.mem_of_getElem? hlist), hmem, hexpr⟩

-- In the tree of a text without syntax errors no part of a value is missing.
structure Sound (t : Tree) : Prop where
  conforms : t.conforms = true
  covers : ∃ start stop, t.Covers start stop

theorem Sound.child {c : Tree} (h : t.Sound) (hc : c ∈ t.children) : c.Sound := by
  obtain ⟨start, stop, hcovers⟩ := h.covers
  obtain ⟨first, last, -, hcovers', -⟩ := hcovers.children hc
  exact ⟨conforms_child h.conforms c hc, first, last, hcovers'⟩

theorem Sound.hasParts {kind : NodeKind} (h : t.Sound) (hkind : t.kind? = some kind) :
    t.hasParts kind = true := by
  obtain ⟨start, stop, hcovers⟩ := h.covers
  cases t with
  | token => cases hkind
  | node other offset children =>
      cases hkind
      exact hasParts_of_conforms h.conforms hcovers.2

theorem sound_parse {text : String} (hok : (Syntax.parse text).ok = true) : (Syntax.parse text).tree.Sound :=
  ⟨Syntax.parse_conforms hok, _, _, Syntax.parse_covers text⟩

theorem isNode_of_kind? {p : NodeKind → Bool} (h : t.kind?.any p = true) : t.isNode = true := by
  unfold isNode
  cases hkind : t.kind? with
  | none => rw [hkind] at h; cases h
  | some => rfl

-- What consists of nothing but plain nodes is plain.
theorem Sound.plain {t : Tree} (h : t.Sound) (hnode : t.isNode = true)
    (hkinds : ∀ u ∈ t.nodes, u.kind?.any NodeKind.isPlain = true) :
    t.Plain := by
  have hchild {c : Tree} (hc : c ∈ t.children) (hexpr : c.kind?.any NodeKind.isExpr = true) : c.Plain :=
    have := height_lt_of_mem_children hc
    (h.child hc).plain (isNode_of_kind? hexpr) fun u hu => hkinds u (nodes_child hc hu)
  have hfirst {u : Tree} (hu : t.expr? = some u) : u.Plain :=
    hchild (List.mem_of_find?_eq_some hu) (List.find?_some hu :)
  have hsecond {v : Tree} (hv : t.secondExpr? = some v) : v.Plain := by
    obtain ⟨hmem, hexpr⟩ := List.mem_filter.mp (List.mem_of_getElem? hv)
    exact hchild hmem hexpr
  obtain ⟨kind, hkind, hplain⟩ := (Option.any_eq_true _ _).mp (hkinds t (mem_nodes_self hnode))
  have hparts := h.hasParts hkind
  cases kind with
  | literal => exact .literal hkind
  | nameRef =>
      obtain ⟨ident, hident⟩ := Option.isSome_iff_exists.mp hparts
      exact .name hkind hident
  | parenExpr =>
      obtain ⟨u, hu⟩ := Option.isSome_iff_exists.mp hparts
      exact .paren hkind hu (hfirst hu)
  | unaryExpr =>
      obtain ⟨hop, hu⟩ := Bool.and_eq_true_iff.mp hparts
      obtain ⟨op, hop, -⟩ := (Option.any_eq_true _ _).mp hop
      obtain ⟨u, hu⟩ := Option.isSome_iff_exists.mp hu
      exact .unary hkind hop hu (hfirst hu)
  | binaryExpr =>
      have hparts : t.hasOperands = true := hparts
      unfold hasOperands at hparts
      split at hparts
      case h_1 u op v hu hop hv =>
        exact .binary hkind hu (Option.map_eq_some_iff.mpr ⟨op, hop, rfl⟩) hv (hfirst hu) (hsecond hv)
      case h_2 => cases hparts
  | _ => cases hplain
termination_by t.height

end Tree

end SpriteScript
