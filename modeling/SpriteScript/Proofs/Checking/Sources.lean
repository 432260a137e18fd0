import Mathlib.Data.List.Lattice
import Mathlib.Data.List.Nodup
import SpriteScript.Proofs.Checking.Bundled

-- The files of a program: which of their parts hold the names of their variables.
namespace SpriteScript

namespace Tree

variable {t c c' root decl spec part : Tree} {s : Token}

-- A token lies in one part of a tree only.
theorem nodup_children (h : t.tokens.Nodup) : (∀ c ∈ t.children, c.tokens.Nodup) ∧
    t.children.Pairwise fun c c' => c.tokens.Disjoint c'.tokens := by
  cases t with
  | token => exact ⟨nofun, .nil⟩
  | node =>
      rw [tokens_eq_flatMap rfl] at h
      exact List.nodup_flatMap.mp h

theorem child_unique (h : t.tokens.Nodup) (hc : c ∈ t.children) (hc' : c' ∈ t.children)
    (hs : s ∈ c.tokens) (hs' : s ∈ c'.tokens) : c = c' := by
  by_contra hne
  have : Std.Symm fun c c' : Tree => c.tokens.Disjoint c'.tokens := ⟨fun _ _ h => List.Disjoint.symm h⟩
  exact (nodup_children h).2.forall hc hc' hne hs hs'

theorem mem_children_of_mem_childrenWith {p : NodeKind → Bool} (hc : c ∈ t.childrenWith p) : c ∈ t.children :=
  (List.mem_filter.mp hc).1

theorem kind?_of_mem_childrenOf {kind : NodeKind} (hc : c ∈ t.childrenOf kind) : c.kind? = some kind := by
  obtain ⟨k, hk, heq⟩ := (Option.any_eq_true _ _).mp (List.mem_filter.mp hc).2
  rw [hk, beq_iff_eq.mp heq]

theorem mem_tokens_of_ident? (h : t.ident? = some s) : s ∈ t.tokens :=
  childTokens_subset t (List.mem_of_find?_eq_some h)

theorem mem_declaredIdents : s ∈ decl.declaredIdents ↔
    ∃ spec ∈ decl.specs, ∃ name ∈ spec.names, name.ident? = some s := by
  simp [declaredIdents]

-- Only variables have names that are those of variables.
theorem not_mem_varIdents (h : root.tokens.Nodup) (hc : c ∈ root.children)
    (hkind : c.kind? ≠ some .varDecl) (hs : s ∈ c.tokens) : s ∉ root.varIdents := by
  intro hvar
  obtain ⟨decl, hdecl, hs'⟩ := List.mem_flatMap.mp hvar
  obtain rfl := child_unique h hc (mem_children_of_mem_childrenWith hdecl) hs (declaredIdents_subset decl hs')
  exact hkind (kind?_of_mem_childrenOf hdecl)

-- In a declaration only the names are.
theorem not_mem_varIdents_of_part (h : root.tokens.Nodup) (hdecl : decl ∈ root.children)
    (hspec : spec ∈ decl.specs) (hpart : part ∈ spec.children) (hkind : part.kind? ≠ some .name)
    (hs : s ∈ part.tokens) : s ∉ root.varIdents := by
  intro hvar
  obtain ⟨decl', hdecl', hs'⟩ := List.mem_flatMap.mp hvar
  have hspec := mem_children_of_mem_childrenWith hspec
  have hin : s ∈ decl.tokens := mem_tokens_child hspec (mem_tokens_child hpart hs)
  obtain rfl := child_unique h hdecl (mem_children_of_mem_childrenWith hdecl') hin
    (declaredIdents_subset decl' hs')
  obtain ⟨spec', hspec', name, hname, hident⟩ := mem_declaredIdents.mp hs'
  have hspec' := mem_children_of_mem_childrenWith hspec'
  have hs' := mem_tokens_of_ident? hident
  have hchild := mem_children_of_mem_childrenWith hname
  have hdecl := (nodup_children h).1 _ hdecl
  obtain rfl := child_unique hdecl hspec hspec' (mem_tokens_child hpart hs) (mem_tokens_child hchild hs')
  obtain rfl := child_unique ((nodup_children hdecl).1 _ hspec) hpart hchild hs hs'
  exact hkind (kind?_of_mem_childrenOf hname)

end Tree

theorem Syntax.nodup_tokens_parse (text : String) : (parse text).tree.tokens.Nodup :=
  (parse_covers text).row.ranges_ne.imp fun hne heq => hne (congrArg Token.range heq)

namespace Check

-- A file of a program in its setting.
structure Source.Fits (w : Setting) (source : Source) : Prop where
  exists_text : ∃ text, w.text? source.file = some text ∧ source.tree = (Syntax.parse text).tree
  notBundled : source.file.isBundled = false
  calls : w.strict → ∀ u ∈ source.tree.nodes, u.isEmptySpread = false

namespace Source.Fits

variable {w : Setting} {source : Source} {item part spec : Tree} {s : Token} (h : source.Fits w)

include h

theorem identsOf_eq (list : Tree → List Token) : w.identsOf list source.file = list source.tree := by
  obtain ⟨text, htext, htree⟩ := h.exists_text
  cases hfile : source.file with
  | bundled => exact absurd h.notBundled (by simp [hfile, FileId.isBundled])
  | source index =>
      rw [hfile] at htext
      rw [Setting.identsOf, htext, htree]
      rfl

theorem nodup : source.tree.tokens.Nodup := by
  obtain ⟨text, -, htree⟩ := h.exists_text
  rw [htree]
  exact Syntax.nodup_tokens_parse text

-- A part without names of variables.
theorem sits_of_part (hpart : source.tree.HasPart part)
    (hapart : ∀ s ∈ part.tokens, s ∉ source.tree.varIdents) :
    Sits ⟨w, source.tree.range⟩ source.file part := by
  obtain ⟨text, htext, htree⟩ := h.exists_text
  have hlies : source.tree.LiesIn text := htree ▸ Syntax.liesIn_parse text
  refine ⟨⟨text, htext, htree ▸ hpart⟩, hpart.includes hlies, fun s hs => ?_, fun hstrict u hu => ?_⟩
  · rw [Setting.varIdents, h.identsOf_eq]
    exact hapart s hs
  · exact h.calls hstrict u (hpart.nodes_subset hu)

theorem sits_item (hitem : item ∈ source.tree.children) (hkind : item.kind? ≠ some .varDecl) :
    ItemSits ⟨w, source.tree.range⟩ source.file item := by
  obtain ⟨text, htext, htree⟩ := h.exists_text
  have hsits :=
    h.sits_of_part (.child (.self _) hitem) fun s hs => Tree.not_mem_varIdents h.nodup hitem hkind hs
  exact { toSits := hsits, listed := ⟨text, htext, htree ▸ hitem⟩ }

theorem specSits (hitem : item ∈ source.tree.children) (hspec : spec ∈ item.specs) :
    SpecSits ⟨w, source.tree.range⟩ source.file spec := by
  obtain ⟨text, htext, htree⟩ := h.exists_text
  have hpartSpec : source.tree.HasPart spec :=
    .child (.child (.self _) hitem) (Tree.mem_children_of_mem_childrenWith hspec)
  have hspecLies := hpartSpec.liesIn (htree ▸ Syntax.liesIn_parse text)
  have hpart (part : Tree) (hpart : part ∈ spec.children) (hkind : part.kind? ≠ some .name) :
      Sits ⟨w, source.tree.range⟩ source.file part :=
    h.sits_of_part (hpartSpec.child hpart) fun s hs =>
      Tree.not_mem_varIdents_of_part h.nodup hitem hspec hpart hkind hs
  refine ⟨⟨text, htext, hspecLies.fitsIn⟩, fun t ht => ?_, SitAll.getD fun list hlist => ?_⟩
  · refine hpart t (List.mem_of_find?_eq_some ht) fun hkind => ?_
    have htype := List.find?_some ht
    rw [hkind] at htype
    cases htype
  · have hlist := List.mem_of_getElem? hlist
    have : Sits ⟨w, source.tree.range⟩ source.file list := by
      refine hpart list (Tree.mem_children_of_mem_childrenWith hlist) fun hkind => ?_
      rw [Tree.kind?_of_mem_childrenOf hlist] at hkind
      cases hkind
    infer_instance

-- The names of a declaration of variables, when it is known whether it is the first one.
theorem declaresIn {first : Bool} (hitem : item ∈ source.tree.children)
    (hfirst : ∀ s ∈ item.declaredIdents, (first = true ↔ s ∈ source.tree.firstVarIdents)) :
    DeclaresIn ⟨w, source.tree.range⟩ source.file first item := by
  obtain ⟨text, htext, htree⟩ := h.exists_text
  intro spec hspec
  refine ⟨h.specSits hitem hspec, fun ident hident => ?_⟩
  obtain ⟨name, hname, hname'⟩ := List.mem_filterMap.mp hident
  have hdeclared : ident ∈ item.declaredIdents :=
    Tree.mem_declaredIdents.mpr ⟨spec, hspec, name, hname, hname'⟩
  have htokens := Tree.mem_tokens_child hitem (item.declaredIdents_subset hdeclared)
  refine ⟨{ exists_text := ⟨text, htext, Syntax.tokens_parse text ▸ htree ▸ htokens⟩, kind := ?_ }, ?_⟩
  · exact beq_iff_eq.mp (List.find?_some hname' :)
  · rw [Setting.firstVarIdents, h.identsOf_eq]
    exact hfirst ident hdeclared

-- The items behind the first variables.
theorem items_later {items : List Tree} (hitems : items ⊆ source.tree.children)
    (hlater : ∀ item ∈ items, ∀ s ∈ item.tokens, s ∉ source.tree.firstVarIdents) :
    Items ⟨w, source.tree.range⟩ source.file false items := by
  induction items with
  | nil => exact .nil false
  | cons item rest ih =>
      obtain ⟨hitem, hrest⟩ := List.cons_subset.mp hitems
      obtain ⟨hfirst, hlater⟩ := List.forall_mem_cons.mp hlater
      by_cases hkind : item.kind? = some .varDecl
      · refine .vars hkind (h.declaresIn hitem fun s hs => ?_) (ih hrest hlater)
        simpa using hfirst s (item.declaredIdents_subset hs)
      · exact .other hkind (h.sits_item hitem hkind) (ih hrest hlater)

theorem items_from {items : List Tree} (hitems : items ⊆ source.tree.children)
    (hapart : items.Pairwise fun c c' => c.tokens.Disjoint c'.tokens)
    (hfirst : source.tree.firstVarIdents =
      ((items.filter (·.kind?.any (· == .varDecl))).head?.map Tree.declaredIdents).getD []) :
    Items ⟨w, source.tree.range⟩ source.file true items := by
  induction items with
  | nil => exact .nil true
  | cons item rest ih =>
      obtain ⟨hitem, hrest⟩ := List.cons_subset.mp hitems
      obtain ⟨hdisjoint, hapart⟩ := List.pairwise_cons.mp hapart
      by_cases hkind : item.kind? = some .varDecl
      · have hnames : source.tree.firstVarIdents = item.declaredIdents := by simp [hfirst, hkind]
        refine .vars hkind (h.declaresIn hitem fun s hs => ?_) (h.items_later hrest fun c hc s hs => ?_)
        · simpa [hnames] using hs
        · rw [hnames]
          exact fun hs' => hdisjoint c hc (item.declaredIdents_subset hs') hs
      · refine .other hkind (h.sits_item hitem hkind) (ih hrest hapart ?_)
        have hnot : (item.kind?.any (· == .varDecl)) = false := by
          refine (Option.any_eq_false _ _).mpr fun k hk => beq_eq_false_iff_ne.mpr ?_
          rintro rfl
          exact hkind hk
        rw [hfirst, List.filter_cons_of_neg (by simp [hnot])]

theorem items : Items ⟨w, source.tree.range⟩ source.file true source.tree.items := by
  refine h.items_from (fun _ => Tree.mem_children_of_mem_childrenWith)
    ((Tree.nodup_children h.nodup).2.sublist List.filter_sublist) ?_
  rw [Tree.items, Tree.childrenWith, List.filter_filter, Tree.firstVarIdents, Tree.childrenOf,
    Tree.childrenWith]
  congr 4
  funext c
  cases c.kind? with
  | none => rfl
  | some k =>
      by_cases hk : k = .varDecl
      · subst hk
        rfl
      · simp [hk]

end Source.Fits

end Check

end SpriteScript
