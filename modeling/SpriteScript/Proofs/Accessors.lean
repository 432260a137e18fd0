import SpriteScript.Proofs.Conformance.Files

-- What the accessors of a node find among the trees that count in the grammar.
namespace SpriteScript.Tree

open Grammar

section Accessors

variable {t c : Tree} {p : NodeKind → Bool} {kind : TokenKind}

@[simp] theorem kind?_token (s : Token) : (token s).kind? = none := rfl

@[simp] theorem kind?_node (kind : NodeKind) (offset : Nat) (children : List Tree) :
    (node kind offset children).kind? = some kind := rfl

@[simp] theorem token?_token (s : Token) : (token s).token? = some s := rfl

@[simp] theorem token?_node (kind : NodeKind) (offset : Nat) (children : List Tree) :
    (node kind offset children).token? = none := rfl

@[simp] theorem children_node (kind : NodeKind) (offset : Nat) (children : List Tree) :
    (node kind offset children).children = children := rfl

theorem isTok_iff : c.isTok kind = true ↔ ∃ s, c = .token s ∧ s.kind = kind := by
  cases c <;> simp [isTok]

theorem isTokIn_iff {kinds : List TokenKind} :
    c.isTokIn kinds = true ↔ ∃ s, c = .token s ∧ s.kind ∈ kinds := by
  cases c <;> simp [isTokIn]

theorem solid_sublist (ts : List Tree) : (solid ts).Sublist ts := List.filter_sublist

-- Nodes, and tokens that are no blanks, are found among the trees that count.
theorem childrenWith_eq_solid : t.childrenWith p = (solid t.children).filter (·.kind?.any p) := by
  rw [childrenWith, solid, List.filter_filter]
  refine List.filter_congr fun c _ => ?_
  cases c <;> simp [isBlank]

theorem filter_childTokens {q : Token → Bool} (hq : ∀ s, q s = true → s.kind.isTrivia = false) :
    t.childTokens.filter q = ((solid t.children).filterMap token?).filter q := by
  rw [childTokens, solid, List.filterMap_filter, List.filter_filterMap, List.filter_filterMap]
  refine List.filterMap_congr fun c _ => ?_
  cases c with
  | node => simp
  | token s =>
      cases hs : q s with
      | true => simp [isBlank, hq s hs]
      | false => cases (token s).isBlank <;> simp [hs]

theorem childWith?_eq_head? : t.childWith? p = (t.childrenWith p).head? :=
  (List.head?_filter ..).symm

theorem childrenOf_eq_solid (kind : NodeKind) :
    t.childrenOf kind = (solid t.children).filter (·.isA kind) := by
  rw [childrenOf, childrenWith_eq_solid]
  exact List.filter_congr fun c _ => by cases c <;> simp [isA]

-- What holds of no blank is looked for among the trees that count.
theorem any_solid {q : Tree → Bool} (hq : ∀ c, c.isBlank = true → q c = false) (ts : List Tree) :
    (solid ts).any q = ts.any q := by
  rw [solid, List.any_filter]
  refine List.any_congr rfl fun c => ?_
  cases hblank : c.isBlank <;> simp [hq c, hblank]

theorem countP_solid {q : Tree → Bool} (hq : ∀ c, c.isBlank = true → q c = false)
    (ts : List Tree) : (solid ts).countP q = ts.countP q := by
  rw [solid, List.countP_filter]
  refine List.countP_congr fun c _ => ?_
  cases hblank : c.isBlank <;> simp [hq c, hblank]

theorem isA_of_isBlank {wanted : NodeKind} (c : Tree) (h : c.isBlank = true) :
    c.isA wanted = false := by
  cases c <;> simp_all [isA, isBlank]

theorem isExpr_of_isBlank (c : Tree) (h : c.isBlank = true) : c.isExpr = false := by
  cases c <;> simp_all [isExpr, isBlank]

theorem isTok_of_isBlank (hkind : kind.isTrivia = false) (c : Tree) (h : c.isBlank = true) :
    c.isTok kind = false := by
  cases c with
  | node => rfl
  | token s =>
      refine beq_false_of_ne fun heq => ?_
      simp [isBlank, heq, hkind] at h

theorem child?_isSome_eq (wanted : NodeKind) :
    (t.child? wanted).isSome = (solid t.children).any (·.isA wanted) := by
  rw [any_solid isA_of_isBlank, child?, childWith?, List.isSome_find?]
  exact List.any_congr rfl fun c => by cases c <;> simp [isA]

theorem expr?_isSome_eq : t.expr?.isSome = (solid t.children).any isExpr := by
  rw [any_solid isExpr_of_isBlank, expr?, childWith?, List.isSome_find?]
  rfl

theorem has_eq (hkind : kind.isTrivia = false) :
    t.has kind = (solid t.children).any (·.isTok kind) := by
  rw [any_solid (isTok_of_isBlank hkind), has, tokenOf?, List.isSome_find?, childTokens,
    List.any_filterMap]
  rfl

theorem length_childrenOf (wanted : NodeKind) :
    (t.childrenOf wanted).length = (solid t.children).countP (·.isA wanted) := by
  rw [childrenOf_eq_solid, List.countP_eq_length_filter]

theorem length_tokensOf (hkind : kind.isTrivia = false) :
    (t.tokensOf kind).length = (solid t.children).countP (·.isTok kind) := by
  rw [countP_solid (isTok_of_isBlank hkind), tokensOf, ← List.countP_eq_length_filter, childTokens,
    List.countP_filterMap]
  exact List.countP_congr fun c _ => by cases c <;> simp [isTok]

theorem token?_of_any (h : c.kind?.any p = true) : c.token? = none := by
  cases c <;> simp_all

-- A node of one class is none of a kind outside of it, and no token.
theorem isA_of_any {wanted : NodeKind} (h : c.kind?.any p = true) (hwanted : p wanted = false) :
    c.isA wanted = false := by
  refine beq_false_of_ne fun heq => ?_
  simp [heq, hwanted] at h

theorem isTok_of_any (h : c.kind?.any p = true) : c.isTok kind = false := by
  simp [isTok, token?_of_any h]

theorem isA_of_isTok {wanted : NodeKind} (h : c.isTok kind = true) : c.isA wanted = false := by
  obtain ⟨s, rfl, -⟩ := isTok_iff.mp h
  rfl

theorem isExpr_of_isTok (h : c.isTok kind = true) : c.isExpr = false := by
  obtain ⟨s, rfl, -⟩ := isTok_iff.mp h
  rfl

theorem isTok_of_isTok {other : TokenKind} (h : c.isTok other = true) (hne : other ≠ kind) :
    c.isTok kind = false := by
  obtain ⟨s, rfl, rfl⟩ := isTok_iff.mp h
  exact beq_false_of_ne hne

theorem childWith?_isSome (hc : c ∈ solid t.children) (hp : c.kind?.any p = true) :
    (t.childWith? p).isSome = true :=
  List.find?_isSome.mpr ⟨c, List.mem_of_mem_filter hc, hp⟩

theorem find?_childTokens_isSome {s : Token} {q : Token → Bool} (hs : .token s ∈ solid t.children)
    (hq : q s = true) : (t.childTokens.find? q).isSome = true :=
  List.find?_isSome.mpr ⟨s, List.mem_filterMap.mpr ⟨_, List.mem_of_mem_filter hs, rfl⟩, hq⟩

theorem second_isSome {d : Tree} (hcd : [c, d].Sublist (solid t.children))
    (hc : c.kind?.any p = true) (hd : d.kind?.any p = true) :
    (t.childrenWith p)[1]?.isSome = true := by
  have hsublist := hcd.filter (·.kind?.any p)
  rw [← childrenWith_eq_solid] at hsublist
  simpa [hc, hd, Nat.lt_iff_add_one_le] using hsublist.length_le

end Accessors

-- The trees that count in a node that follows the grammar.
theorem exists_row {kind : NodeKind} {offset : Nat} {children : List Tree}
    (h : (node kind offset children).conforms = true) :
    ∃ slots ∈ productions kind, fills slots (solid children) = true := by
  rw [conforms, fits, Bool.and_eq_true, Bool.and_eq_true] at h
  exact List.any_eq_true.mp h.1.1

theorem conforms_child {t : Tree} (h : t.conforms = true) : ∀ c ∈ t.children, c.conforms = true := by
  cases t with
  | token => simp [children]
  | node kind offset children =>
      rw [conforms, Bool.and_eq_true] at h
      have hall : ∀ ts : List Tree, conforms.conformsAll ts = true →
          ∀ c ∈ ts, c.conforms = true := by
        intro ts
        induction ts with
        | nil => simp
        | cons c rest ih =>
            intro hts
            rw [conforms.conformsAll, Bool.and_eq_true] at hts
            simpa using ⟨hts.1, ih hts.2⟩
      exact hall children h.2

-- The places of a production that are not optional are taken by trees in the same order.
theorem exists_of_fills {slots : List Slot} (ps : List (Tree → Bool))
    (hps : (ps.map Slot.one).Sublist slots) {ts : List Tree} (h : fills slots ts = true) :
    ∃ cs : List Tree, cs.Sublist ts ∧ List.Forall₂ (fun p c => p c = true) ps cs := by
  induction slots generalizing ps ts with
  | nil =>
      obtain rfl : ps = [] := by simpa using hps
      exact ⟨[], List.nil_sublist ts, .nil⟩
  | cons slot slots ih =>
      have hskip (hps : (ps.map Slot.one).Sublist slots) :
          ∃ cs : List Tree, cs.Sublist ts ∧ List.Forall₂ (fun p c => p c = true) ps cs := by
        obtain ⟨xs, ys, rfl, -, hys⟩ := exists_of_fills_append [slot] h
        obtain ⟨cs, hcs, hall⟩ := ih ps hps hys
        exact ⟨cs, hcs.trans (List.sublist_append_right xs ys), hall⟩
      cases ps with
      | nil => exact ⟨[], List.nil_sublist ts, .nil⟩
      | cons p ps =>
          rcases List.cons_sublist_cons'.mp hps with hlater | ⟨rfl, hrest⟩
          · exact hskip hlater
          · obtain ⟨t, more, rfl, ht, hmore⟩ := fills_one.mp h
            obtain ⟨cs, hcs, hall⟩ := ih ps hrest hmore
            exact ⟨t :: cs, hcs.cons_cons t, .cons ht hall⟩

end SpriteScript.Tree
