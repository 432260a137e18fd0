import SpriteScript.Proofs.TokenRow
import SpriteScript.Syntax.Tree

-- Trees that lie over a stretch of the text without gaps.
namespace SpriteScript.Tree

mutual

-- The tree covers the bytes from `start` to `stop`: its tokens follow each other, and so do its
-- nodes, an empty one where the tree before it ends.
def Covers (start : Nat) : Tree → Nat → Prop
  | .token t, stop => t.offset = start ∧ start < t.stop ∧ t.stop = stop
  | .node _ offset children, stop => offset = start ∧ CoversAll start children stop

def CoversAll (start : Nat) : List Tree → Nat → Prop
  | [], stop => start = stop
  | t :: rest, stop => ∃ mid, Covers start t mid ∧ CoversAll mid rest stop

end

theorem tokensOfAll_append (xs ys : List Tree) :
    tokens.tokensOfAll (xs ++ ys) = tokens.tokensOfAll xs ++ tokens.tokensOfAll ys := by
  induction xs with
  | nil => rfl
  | cons t xs ih => simp [tokens.tokensOfAll, ih]

theorem tokensOfAll_eq_flatMap (ts : List Tree) : tokens.tokensOfAll ts = ts.flatMap tokens := by
  induction ts with
  | nil => rfl
  | cons t ts ih => rw [tokens.tokensOfAll, ih, List.flatMap_cons]

theorem tokens_eq_flatMap {t : Tree} (h : t.isNode = true) : t.tokens = t.children.flatMap tokens := by
  cases t with
  | token => cases h
  | node => rw [tokens, tokensOfAll_eq_flatMap, children]

theorem mem_tokens_child {t c : Tree} {s : Token} (hc : c ∈ t.children) (hs : s ∈ c.tokens) :
    s ∈ t.tokens := by
  cases t with
  | token => cases hc
  | node =>
      rw [tokens_eq_flatMap rfl]
      exact List.mem_flatMap_of_mem hc hs

theorem childTokens_subset (t : Tree) : t.childTokens ⊆ t.tokens := by
  intro s hs
  obtain ⟨c, hc, htoken⟩ := List.mem_filterMap.mp hs
  refine mem_tokens_child hc ?_
  cases c with
  | token =>
      cases htoken
      exact List.mem_singleton_self _
  | node => cases htoken

theorem coversAll_singleton {start stop : Nat} {t : Tree} :
    CoversAll start [t] stop ↔ t.Covers start stop := by
  simp [CoversAll]

theorem coversAll_append {start stop : Nat} {xs ys : List Tree} :
    CoversAll start (xs ++ ys) stop ↔ ∃ mid, CoversAll start xs mid ∧ CoversAll mid ys stop := by
  induction xs generalizing start with
  | nil => simp [CoversAll]
  | cons t xs ih =>
      simp only [List.cons_append, CoversAll, ih]
      constructor
      · rintro ⟨a, ht, b, hxs, hys⟩
        exact ⟨b, ⟨a, ht, hxs⟩, hys⟩
      · rintro ⟨b, ⟨a, ht, hxs⟩, hys⟩
        exact ⟨a, ht, b, hxs, hys⟩

mutual

-- The tokens of a tree fill exactly what the tree covers.
theorem Covers.row {start stop : Nat} : {t : Tree} → t.Covers start stop →
    Token.Row start t.tokens stop
  | .token _, ⟨hoffset, hpos, hstop⟩ => ⟨hoffset, hpos, hstop⟩
  | .node .., ⟨_, hchildren⟩ => CoversAll.row hchildren

theorem CoversAll.row {start stop : Nat} : {ts : List Tree} → CoversAll start ts stop →
    Token.Row start (tokens.tokensOfAll ts) stop
  | [], h => h
  | _ :: _, ⟨mid, ht, hrest⟩ => Token.Row.append_iff.mpr ⟨mid, Covers.row ht, CoversAll.row hrest⟩

end

theorem Covers.le {start stop : Nat} {t : Tree} (h : t.Covers start stop) : start ≤ stop := h.row.le

theorem CoversAll.le {start stop : Nat} {ts : List Tree} (h : CoversAll start ts stop) :
    start ≤ stop :=
  h.row.le

theorem Covers.start_eq {start stop : Nat} {t : Tree} (h : t.Covers start stop) :
    t.start = start := by
  cases t <;> exact h.1

-- Only the end of an empty row depends on where the row starts.
theorem stopOfAll_cons (a b : Nat) (t : Tree) (ts : List Tree) :
    stop.stopOfAll a (t :: ts) = stop.stopOfAll b (t :: ts) := by
  induction ts generalizing t with
  | nil => rfl
  | cons u us ih => exact ih u

mutual

theorem Covers.stop_eq {start stop : Nat} : {t : Tree} → t.Covers start stop → t.stop = stop
  | .token _, ⟨_, _, hstop⟩ => hstop
  | .node .., ⟨hoffset, hchildren⟩ => by
      subst hoffset
      exact CoversAll.stop_eq hchildren

theorem CoversAll.stop_eq {start stop : Nat} : {ts : List Tree} → CoversAll start ts stop →
    Tree.stop.stopOfAll start ts = stop
  | [], h => h
  | [_], ⟨_, ht, hmid⟩ => (Covers.stop_eq ht).trans hmid
  | _ :: u :: rest, ⟨mid, _, hrest⟩ =>
      (stopOfAll_cons start mid u rest).trans (CoversAll.stop_eq hrest)

end

-- Each tree of a row covers a part of what the row covers.
theorem CoversAll.exists_of_mem {start stop : Nat} {ts : List Tree} (h : CoversAll start ts stop)
    {t : Tree} (ht : t ∈ ts) : ∃ first last, start ≤ first ∧ t.Covers first last ∧ last ≤ stop := by
  induction ts generalizing start with
  | nil => cases ht
  | cons u rest ih =>
      obtain ⟨mid, hu, hrest⟩ := h
      cases List.mem_cons.mp ht with
      | inl heq => exact ⟨start, mid, Nat.le_refl _, heq ▸ hu, hrest.le⟩
      | inr hmem =>
          obtain ⟨first, last, hfirst, hcovers, hlast⟩ := ih hrest hmem
          exact ⟨first, last, Nat.le_trans hu.le hfirst, hcovers, hlast⟩

theorem Covers.children {start stop : Nat} {t : Tree} (h : t.Covers start stop) {c : Tree}
    (hc : c ∈ t.children) : ∃ first last, start ≤ first ∧ c.Covers first last ∧ last ≤ stop := by
  cases t with
  | token => cases hc
  | node => exact h.2.exists_of_mem hc

-- Of two trees in a row the second starts where the first one ends or later.
theorem CoversAll.ordered {start stop : Nat} {ts : List Tree} (h : CoversAll start ts stop)
    {t u : Tree} (htu : [t, u].Sublist ts) : t.stop ≤ u.start := by
  induction ts generalizing start with
  | nil => cases htu
  | cons x rest ih =>
      obtain ⟨mid, hx, hrest⟩ := h
      cases htu with
      | cons _ hrest' => exact ih hrest hrest'
      | cons_cons _ hu =>
          have hmem : u ∈ rest := List.singleton_sublist.mp hu
          obtain ⟨first, last, hfirst, hcovers, -⟩ := hrest.exists_of_mem hmem
          rw [hx.stop_eq, hcovers.start_eq]
          exact hfirst

-- What a tree hands down to its children holds of every tree in it.
theorem forall_preorder {P : Tree → Prop} (hchild : ∀ t, P t → ∀ c ∈ t.children, P c) :
    ∀ (t : Tree) (depth : Nat), P t → ∀ u ∈ t.preorder depth, P u.2
  | .token _, _, h => by simpa [preorder] using h
  | .node _ _ children, depth, h => by
      rintro u (_ | ⟨_, hu⟩)
      · exact h
      · exact go children (depth + 1) (hchild _ h) u hu
where
  go : ∀ (ts : List Tree) (depth : Nat), (∀ t ∈ ts, P t) →
      ∀ u ∈ preorder.preorderOfAll depth ts, P u.2
    | [], _, _ => by simp [preorder.preorderOfAll]
    | t :: rest, depth, h => by
        intro u hu
        rw [preorder.preorderOfAll, List.mem_append] at hu
        rcases hu with hu | hu
        · exact forall_preorder hchild t depth (h t List.mem_cons_self) u hu
        · exact go rest depth (fun v hv => h v (List.mem_cons_of_mem t hv)) u hu

-- The depths are only counted along.
theorem map_preorder (first second : Nat) :
    (t : Tree) → (t.preorder first).map (·.2) = (t.preorder second).map (·.2)
  | .token _ => by simp [preorder]
  | .node _ _ children => by
      simp only [preorder, List.map_cons]
      rw [go children (first + 1) (second + 1)]
where
  go : (ts : List Tree) → (first second : Nat) →
      (preorder.preorderOfAll first ts).map (·.2) = (preorder.preorderOfAll second ts).map (·.2)
    | [], _, _ => rfl
    | t :: rest, first, second => by
        simp only [preorder.preorderOfAll, List.map_append]
        rw [map_preorder first second t, go rest first second]

theorem map_preorderOfAll (depth : Nat) (ts : List Tree) :
    (preorder.preorderOfAll depth ts).map (·.2) = ts.flatMap fun t => (t.preorder 0).map (·.2) := by
  induction ts with
  | nil => rfl
  | cons t rest ih =>
      rw [preorder.preorderOfAll, List.map_append, ih, map_preorder depth 0, List.flatMap_cons]

@[simp] theorem nodes_token (s : Token) : (token s).nodes = [] := by simp [nodes, preorder, isNode, kind?]

theorem nodes_node (kind : NodeKind) (offset : Nat) (children : List Tree) :
    (node kind offset children).nodes = node kind offset children :: children.flatMap nodes := by
  rw [nodes, preorder, List.map_cons, map_preorderOfAll, List.filter_cons_of_pos (by rfl),
    List.filter_flatMap]
  rfl

theorem nodes_child {t c : Tree} (hc : c ∈ t.children) : c.nodes ⊆ t.nodes := by
  cases t with
  | token => cases hc
  | node kind offset children =>
      intro u hu
      rw [nodes_node]
      exact List.mem_cons_of_mem _ (List.mem_flatMap_of_mem hc hu)

theorem mem_nodes_self {t : Tree} (h : t.isNode = true) : t ∈ t.nodes := by
  refine List.mem_filter.mpr ⟨?_, h⟩
  cases t <;> simp [preorder]

-- A property that all nodes of the tree have.
def Everywhere (P : Tree → Prop) (t : Tree) : Prop := ∀ u ∈ t.nodes, P u

theorem everywhere_token (P : Tree → Prop) (s : Token) : Everywhere P (token s) := by simp [Everywhere]

theorem everywhere_node {P : Tree → Prop} {kind : NodeKind} {offset : Nat} {children : List Tree} :
    Everywhere P (node kind offset children) ↔
      P (node kind offset children) ∧ ∀ c ∈ children, Everywhere P c := by
  simp only [Everywhere, nodes_node, List.forall_mem_cons, List.forall_mem_flatMap]

end SpriteScript.Tree
