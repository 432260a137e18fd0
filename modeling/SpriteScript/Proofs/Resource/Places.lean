import Mathlib.Data.List.Pairwise
import SpriteScript.Proofs.Extent
import SpriteScript.Proofs.Tidy
import SpriteScript.Syntax.Access
import SpriteScript.Syntax.Place

-- The places of names and literals: each holds a token of its own, and so no two of them have
-- one range.
namespace SpriteScript

namespace Token

def range (t : Token) : Text.ByteRange := ⟨t.offset, t.stop⟩

-- Tokens of a row have different ranges.
theorem Row.ranges_ne {start stop : Nat} {tokens : List Token} (h : Row start tokens stop) :
    tokens.Pairwise fun a b => a.range ≠ b.range := by
  induction tokens generalizing start with
  | nil => exact .nil
  | cons t rest ih =>
      obtain ⟨rfl, hpos, hrest⟩ := h
      refine .cons (fun u hu heq => ?_) (ih hrest)
      obtain ⟨before, after, rfl⟩ := List.append_of_mem hu
      obtain ⟨mid, hbefore, hmid, -⟩ := append_iff.mp hrest
      have hle := hbefore.le
      have hoffset : t.offset = u.offset := congrArg Text.ByteRange.start heq
      omega

end Token

namespace Tree

variable {t u c : Tree} {around outer : List Tree}

theorem mem_nodesWithinAll {p : Place} {ts : List Tree} :
    p ∈ nodesWithin.nodesWithinAll around ts ↔ ∃ t ∈ ts, p ∈ t.nodesWithin around := by
  induction ts with
  | nil => simp [nodesWithin.nodesWithinAll]
  | cons t ts ih => simp [nodesWithin.nodesWithinAll, ih]

theorem mem_nodesWithin_self (ht : t.isNode = true) : ⟨t, around⟩ ∈ t.nodesWithin around := by
  cases t with
  | token => simp [isNode, kind?] at ht
  | node => exact List.mem_cons_self

-- With a node its inner nodes are among the places.
theorem nodesWithin_child (hc : c ∈ u.children) (hnode : c.isNode = true) : (t : Tree) →
    (around : List Tree) → ⟨u, outer⟩ ∈ t.nodesWithin around →
    ⟨c, u :: outer⟩ ∈ t.nodesWithin around
  | .token _, _, hu => absurd hu (by simp [nodesWithin])
  | .node kind offset children, around, hu => by
      rw [nodesWithin] at hu ⊢
      refine List.mem_cons_of_mem _ ?_
      rcases List.mem_cons.mp hu with heq | hu
      · obtain ⟨rfl, rfl⟩ := Place.mk.inj heq
        exact mem_nodesWithinAll.mpr ⟨c, hc, mem_nodesWithin_self hnode⟩
      · exact go children (.node kind offset children :: around) hu
where
  go : (ts : List Tree) → (around : List Tree) →
      ⟨u, outer⟩ ∈ nodesWithin.nodesWithinAll around ts →
      ⟨c, u :: outer⟩ ∈ nodesWithin.nodesWithinAll around ts
    | [], _, hu => absurd hu (by simp [nodesWithin.nodesWithinAll])
    | t :: rest, around, hu => by
        rw [nodesWithin.nodesWithinAll, List.mem_append] at hu ⊢
        exact hu.imp (nodesWithin_child hc hnode t around) (go rest around)

end Tree

-- The token of a name or a literal.
def Place.atom? (p : Place) : Option Token :=
  if p.tree.kind?.any NodeKind.isAtom then p.tree.childTokens.head? else none

namespace Tree

-- The token of a name or a literal is its only one.
theorem atom?_of_mem_childTokens {t : Tree} {kind : NodeKind} {s : Token} {around : List Tree}
    (htidy : t.Tidy) (hkind : t.kind? = some kind) (hatom : kind.isAtom = true)
    (hmem : s ∈ t.childTokens) :
    Place.atom? ⟨t, around⟩ = some s := by
  cases t with
  | token => cases hkind
  | node kind' offset children =>
      cases hkind
      cases htidy.1 hatom with
      | none => cases hmem
      | one s' =>
          have hs : s = s' := by simpa [childTokens, Tree.children, Tree.token?] using hmem
          subst hs
          simp [Place.atom?, Tree.kind?, hatom, childTokens, Tree.children, Tree.token?]

theorem atom?_of_ident? {t : Tree} {kind : NodeKind} {s : Token} {around : List Tree} (htidy : t.Tidy)
    (hkind : t.kind? = some kind) (hatom : kind.isAtom = true) (h : t.ident? = some s) :
    Place.atom? ⟨t, around⟩ = some s :=
  atom?_of_mem_childTokens htidy hkind hatom (List.mem_of_find?_eq_some h)

-- The tokens of names and literals come in the order of the text.
theorem atoms_sublist : (t : Tree) → t.Tidy → (around : List Tree) →
    ((t.nodesWithin around).filterMap Place.atom?).Sublist t.tokens
  | .token _, _, _ => by simp [nodesWithin]
  | .node kind offset children, h, around => by
      have hall := go children h.2 (.node kind offset children :: around)
      rw [nodesWithin, List.filterMap_cons, tokens]
      cases hatom : kind.isAtom with
      | false =>
          have hnone : Place.atom? ⟨.node kind offset children, around⟩ = none := by
            simp [Place.atom?, Tree.kind?, hatom]
          rw [hnone]
          exact hall
      | true =>
          have hfirst : Place.atom? ⟨.node kind offset children, around⟩ =
              (node kind offset children).childTokens.head? := by
            simp [Place.atom?, Tree.kind?, hatom]
          rw [hfirst]
          cases h.1 hatom with
          | none => simp [childTokens, Tree.children, nodesWithin.nodesWithinAll]
          | one s =>
              simp [childTokens, Tree.children, Tree.token?, nodesWithin.nodesWithinAll, nodesWithin,
                tokens.tokensOfAll, tokens]
where
  go : (ts : List Tree) → Tidy.tidyAll ts → (around : List Tree) →
      ((nodesWithin.nodesWithinAll around ts).filterMap Place.atom?).Sublist (tokens.tokensOfAll ts)
    | [], _, _ => by simp [nodesWithin.nodesWithinAll]
    | t :: rest, h, around => by
        rw [nodesWithin.nodesWithinAll, List.filterMap_append, tokens.tokensOfAll]
        exact (atoms_sublist t h.1 around).append (go rest h.2 around)

-- What a tree hands down to its children holds of every node in it.
theorem forall_nodesWithin {P : Tree → Prop} (hchild : ∀ t, P t → ∀ c ∈ t.children, P c) :
    (t : Tree) → (around : List Tree) → P t → ∀ p ∈ t.nodesWithin around, P p.tree
  | .token _, _, _ => by simp [nodesWithin]
  | .node kind offset children, around, h => by
      rintro p (_ | ⟨_, hp⟩)
      · exact h
      · exact go children (.node kind offset children :: around) (hchild _ h) p hp
where
  go : (ts : List Tree) → (around : List Tree) → (∀ t ∈ ts, P t) →
      ∀ p ∈ nodesWithin.nodesWithinAll around ts, P p.tree
    | [], _, _ => by simp [nodesWithin.nodesWithinAll]
    | t :: rest, around, h => by
        intro p hp
        rw [nodesWithin.nodesWithinAll, List.mem_append] at hp
        rcases hp with hp | hp
        · exact forall_nodesWithin hchild t around (h t List.mem_cons_self) p hp
        · exact go rest around (fun u hu => h u (List.mem_cons_of_mem t hu)) p hp

end Tree

-- Where a name or a literal stands, its token stands.
theorem Place.range_of_atom {text : String} {p : Place} (hlies : p.tree.LiesIn text)
    (htidy : p.tree.Tidy) {s : Token} (hs : p.atom? = some s) : p.tree.range = s.range := by
  obtain ⟨tree, around⟩ := p
  cases tree with
  | token => simp [atom?, Tree.kind?] at hs
  | node kind offset children =>
      cases hatom : kind.isAtom with
      | false => simp [atom?, Tree.kind?, hatom] at hs
      | true =>
          cases htidy.1 hatom with
          | none => simp [atom?, Tree.kind?, hatom, Tree.childTokens, Tree.children] at hs
          | one s' =>
              obtain rfl : s' = s := by
                simpa [atom?, Tree.kind?, hatom, Tree.childTokens, Tree.children, Tree.token?] using hs
              obtain ⟨before, after, stop, -, hoffset, mid, ⟨hstart, -, -⟩, -⟩ := hlies
              rw [Tree.range, Token.range, Tree.start, hoffset, ← hstart]
              rfl

namespace Syntax

variable {text : String} {p q : Place}

theorem tidy_place (hp : p ∈ (parse text).tree.places) : p.tree.Tidy :=
  Tree.forall_nodesWithin (fun _ h _ hc => h.child hc) _ [] (tidy_parse text) p hp

theorem liesIn_place (hp : p ∈ (parse text).tree.places) : p.tree.LiesIn text :=
  Tree.forall_nodesWithin (fun _ h _ hc => h.child hc) _ [] (liesIn_parse text) p hp

-- Names and literals in one range are the same.
theorem place_unique (hp : p ∈ (parse text).tree.places) (hq : q ∈ (parse text).tree.places)
    {s s' : Token} (hs : p.atom? = some s) (hs' : q.atom? = some s')
    (hrange : s.range = s'.range) : p = q := by
  have hrow := (parse_covers text).row.ranges_ne.sublist
    (Tree.atoms_sublist (parse text).tree (tidy_parse text) [])
  rw [List.pairwise_filterMap] at hrow
  by_contra hne
  have : Std.Symm fun p q : Place => ∀ a, p.atom? = some a → ∀ b, q.atom? = some b →
      a.range ≠ b.range := ⟨fun _ _ h a ha b hb heq => h b hb a ha heq.symm⟩
  exact hrow.forall hp hq hne s hs s' hs' hrange

end Syntax

end SpriteScript
