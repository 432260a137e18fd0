import SpriteScript.Proofs.OwnTokens
import SpriteScript.Semantics.Info

-- A node is known to the checker by its kind and range. No two expressions of a file have the same of
-- both: nodes side by side lie apart, and a node inside of another one of its kind is shorter, since
-- the outer one has a token that is not in it.
namespace SpriteScript

namespace Tree

variable {kind : NodeKind} {t u v c : Tree} {ts : List Tree} {start stop : Nat}

theorem Exposes.lt (h : t.Exposes kind) (hcovers : t.Covers start stop) : start < stop := by
  induction h generalizing start stop with
  | token s =>
      obtain ⟨-, hpos, hstop⟩ := hcovers
      exact hstop ▸ hpos
  | node _ hc _ ih =>
      obtain ⟨first, last, hfirst, hcovers', hlast⟩ := hcovers.children hc
      have := ih hcovers'
      omega

-- A node of the tree covers a part of what the tree covers.
theorem Covers.of_mem_nodes (h : t.Covers start stop) (hu : u ∈ t.nodes) :
    ∃ first last, start ≤ first ∧ u.Covers first last ∧ last ≤ stop := by
  obtain ⟨hmem, -⟩ := List.mem_filter.mp hu
  obtain ⟨⟨depth, u⟩, hpreorder, rfl⟩ := List.mem_map.mp hmem
  refine forall_preorder (P := fun t => ∃ first last, start ≤ first ∧ t.Covers first last ∧
    last ≤ stop) ?_ t 0 ⟨start, stop, Nat.le_refl _, h, Nat.le_refl _⟩ _ hpreorder
  rintro t ⟨first, last, hfirst, hcovers, hlast⟩ c hc
  obtain ⟨first', last', hfirst', hcovers', hlast'⟩ := hcovers.children hc
  exact ⟨first', last', Nat.le_trans hfirst hfirst', hcovers', Nat.le_trans hlast' hlast⟩

theorem CoversAll.of_mem_nodes (h : CoversAll start ts stop) (hu : u ∈ ts.flatMap nodes) :
    ∃ first last, start ≤ first ∧ u.Covers first last ∧ last ≤ stop := by
  obtain ⟨t, ht, hu⟩ := List.mem_flatMap.mp hu
  obtain ⟨first, last, hfirst, hcovers, hlast⟩ := h.exists_of_mem ht
  obtain ⟨first', last', hfirst', hcovers', hlast'⟩ := hcovers.of_mem_nodes hu
  exact ⟨first', last', Nat.le_trans hfirst hfirst', hcovers', Nat.le_trans hlast' hlast⟩

-- Where a tree of a row has a token outside of nodes of a kind, each such node is shorter than the row.
theorem CoversAll.shorter (h : CoversAll start ts stop) (hc : c ∈ ts) (hexposes : c.Exposes kind)
    (hinner : ∀ first last, c.Covers first last → v ∈ c.nodes → v.stop - v.start < last - first)
    (hv : v ∈ ts.flatMap nodes) : v.stop - v.start < stop - start := by
  obtain ⟨before, after, rfl⟩ := List.append_of_mem hc
  obtain ⟨first, hbefore, last, hcovers, hafter⟩ := coversAll_append.mp h
  have hpos := hexposes.lt hcovers
  have hle := hbefore.le
  have hle' := hafter.le
  rw [List.flatMap_append, List.flatMap_cons, List.mem_append, List.mem_append] at hv
  rcases hv with hv | hv | hv
  · obtain ⟨a, b, ha, hv, hb⟩ := hbefore.of_mem_nodes hv
    rw [hv.start_eq, hv.stop_eq]
    omega
  · have := hinner first last hcovers hv
    omega
  · obtain ⟨a, b, ha, hv, hb⟩ := hafter.of_mem_nodes hv
    have := hv.le
    rw [hv.start_eq, hv.stop_eq]
    omega

theorem Exposes.shorter (h : t.Exposes kind) (hkind : v.kind? = some kind) (hcovers : t.Covers start stop)
    (hv : v ∈ t.nodes) : v.stop - v.start < stop - start := by
  induction h generalizing start stop with
  | token s => simp at hv
  | node hother hc hexposes ih =>
      rw [nodes_node, List.mem_cons] at hv
      rcases hv with rfl | hv
      · exact absurd (Option.some.inj hkind) hother
      · exact hcovers.2.shorter hc hexposes (fun _ _ hcovers' hv' => ih hcovers' hv') hv

-- Two nodes do not have both kind and range in common.
def Apart (t u : Tree) : Prop := t.kind? = u.kind? → t.range ≠ u.range

theorem lt_of_ownsToken (h : u.OwnsToken) (hexpr : u.isExpr = true) (hcovers : u.Covers start stop) :
    start < stop := by
  obtain ⟨kind, hkind, hexpr⟩ := (Option.any_eq_true _ _).mp hexpr
  obtain ⟨c, hc, hexposes⟩ := h kind hkind hexpr
  obtain ⟨first, last, hfirst, hcovers', hlast⟩ := hcovers.children hc
  have := hexposes.lt hcovers'
  omega

theorem apart_of_inner (h : t.OwnsToken) (hexpr : t.isExpr = true) (hcovers : t.Covers start stop)
    (hu : u ∈ t.children.flatMap nodes) : t.Apart u := by
  intro hkind hrange
  obtain ⟨kind, hkind', hexpr⟩ := (Option.any_eq_true _ _).mp hexpr
  obtain ⟨c, hc, hexposes⟩ := h kind hkind' hexpr
  cases t with
  | token => cases hc
  | node other offset children =>
      have hshorter := hcovers.2.shorter hc hexposes
        (fun _ _ hcovers' hu' => hexposes.shorter (hkind ▸ hkind') hcovers' hu') hu
      have hstart : start = u.start := hcovers.start_eq.symm.trans (congrArg Text.ByteRange.start hrange)
      have hstop : stop = u.stop := hcovers.stop_eq.symm.trans (congrArg Text.ByteRange.stop hrange)
      rw [hstart, hstop] at hshorter
      exact Nat.lt_irrefl _ hshorter

mutual

-- Of two expressions in a tree no one has the kind and the range of the other.
theorem pairwise_apart {start stop : Nat} : {t : Tree} → t.Covers start stop → t.Everywhere OwnsToken →
    (t.nodes.filter isExpr).Pairwise Apart
  | .token _, _, _ => by simp
  | .node kind offset children, hcovers, howns => by
      obtain ⟨hown, hall⟩ := everywhere_node.mp howns
      have hrest := pairwise_apartAll hcovers.2 hall
      rw [nodes_node, List.filter_cons]
      split
      case isTrue hexpr =>
          exact List.pairwise_cons.mpr
            ⟨fun u hu => apart_of_inner hown hexpr hcovers (List.mem_of_mem_filter hu), hrest⟩
      case isFalse => exact hrest

theorem pairwise_apartAll {start stop : Nat} : {ts : List Tree} → CoversAll start ts stop →
    (∀ t ∈ ts, t.Everywhere OwnsToken) → ((ts.flatMap nodes).filter isExpr).Pairwise Apart
  | [], _, _ => by simp
  | t :: rest, ⟨mid, ht, hrest⟩, howns => by
      rw [List.forall_mem_cons] at howns
      rw [List.flatMap_cons, List.filter_append, List.pairwise_append]
      refine ⟨pairwise_apart ht howns.1, pairwise_apartAll hrest howns.2, fun u hu v hv _ hrange => ?_⟩
      obtain ⟨hu, hexpr⟩ := List.mem_filter.mp hu
      obtain ⟨first, last, -, hcovers, hlast⟩ := ht.of_mem_nodes hu
      obtain ⟨first', last', hfirst', hcovers', -⟩ := hrest.of_mem_nodes (List.mem_of_mem_filter hv)
      have hpos := lt_of_ownsToken (howns.1 u hu) hexpr hcovers
      have hstart : first = first' := by
        rw [← hcovers.start_eq, ← hcovers'.start_eq]
        exact congrArg Text.ByteRange.start hrange
      omega

end

end Tree

namespace Info

variable {file : FileId} {t u : Tree}

-- What is recorded of the first node is not seen at the second one.
structure KeptApart (file : FileId) (t u : Tree) : Prop where
  key : key? file t ≠ key? file u
  type : ∀ (i : Info) (tv : TypeAndValue), (i.recordType file t tv).type? file u = i.type? file u
  expected : ∀ (i : Info) (ty : Ty), (i.recordExpected file t ty).expected? file u = i.expected? file u
  call : ∀ (i : Info) (call : CallInfo), (i.recordCall file t call).call? file u = i.call? file u

theorem bind_insert_of_ne {α : Type} (table : Std.HashMap NodeKey α) {key : NodeKey} (value : α)
    (hkey : key? file t = some key) (h : key? file t ≠ key? file u) :
    (key? file u).bind ((table.insert key value)[·]?) = (key? file u).bind (table[·]?) := by
  cases hother : key? file u with
  | none => rfl
  | some other =>
      have hne : key ≠ other := fun hsame => h (by rw [hkey, hother, hsame])
      simp [Std.HashMap.getElem?_insert, hne]

theorem keptApart_of_key (h : key? file t ≠ key? file u) : KeptApart file t u where
  key := h
  type i tv := by
    unfold recordType type?
    split
    case h_1 key hkey => exact bind_insert_of_ne i.types tv hkey h
    case h_2 => rfl
  expected i ty := by
    unfold recordExpected expected?
    split
    case h_1 key hkey =>
        split
        · rfl
        · exact bind_insert_of_ne i.expected ty hkey h
    case h_2 => rfl
  call i call := by
    unfold recordCall call?
    split
    case h_1 key hkey => exact bind_insert_of_ne i.calls call hkey h
    case h_2 => rfl

-- What is recorded of nodes of another kind, in whatever file, does not matter either.
theorem type?_recordType_of_kind {other : FileId} (i : Info) (tv : TypeAndValue) (h : t.kind? ≠ u.kind?) :
    (i.recordType file t tv).type? other u = i.type? other u := by
  unfold recordType type?
  split
  case h_1 key hkey =>
      cases hother : key? other u with
      | none => rfl
      | some key' =>
          obtain ⟨kind, hkind, rfl⟩ := Option.map_eq_some_iff.mp hkey
          obtain ⟨kind', hkind', rfl⟩ := Option.map_eq_some_iff.mp hother
          have hne : kind ≠ kind' := fun hsame => h (by rw [hkind, hkind', hsame])
          simp [Std.HashMap.getElem?_insert, hne]
  case h_2 => rfl

theorem key?_ne_of_apart (h : t.Apart u) (ht : t.isNode = true) : key? file t ≠ key? file u := by
  intro hsame
  obtain ⟨kind, hkind⟩ := Option.isSome_iff_exists.mp ht
  rw [key?, key?, hkind, Option.map_some] at hsame
  obtain ⟨kind', hkind', hkey⟩ := Option.map_eq_some_iff.mp hsame.symm
  obtain ⟨-, rfl, hrange⟩ := NodeKey.mk.inj hkey
  exact h (hkind.trans hkind'.symm) hrange.symm

-- In the tree of every text, one with errors included, no two expressions have the same kind and range.
-- So each has a key of its own, and what is recorded of one of them, a type, a type that is asked for or
-- a call, changes nothing of what is known of the other.
theorem expressions_kept_apart (text : String) (file : FileId) :
    ((Syntax.parse text).tree.nodes.filter Tree.isExpr).Pairwise fun t u =>
      ¬(t.kind? = u.kind? ∧ t.range = u.range) ∧ KeptApart file t u ∧ KeptApart file u t := by
  have hapart := Tree.pairwise_apart (Syntax.parse_covers text) (Syntax.ownsToken_parse text)
  refine hapart.imp_of_mem fun {t u} ht _ h => ?_
  have hkey : key? file t ≠ key? file u :=
    key?_ne_of_apart h (List.mem_filter.mp (List.mem_of_mem_filter ht)).2
  exact ⟨fun hsame => h hsame.1 hsame.2, keptApart_of_key hkey, keptApart_of_key hkey.symm⟩

end Info

end SpriteScript
