import Mathlib.Data.List.Chain
import Mathlib.Logic.Relation

-- A descent through things that lead to each other. Each is entered once and left when everything
-- that it leads to was looked at. Coming back to one that was entered and not left yet is reported.
namespace SpriteScript

open Relation

variable {α : Type} {leads leads' edge : α → α → Prop} {closed closed' : α → List α → Prop} {a b m : α}
variable {l path : List α}

-- Things in the order in which they were left, the latest first. `closed a before` says that what
-- `a` leads to is in `before`.
inductive LeftInOrder (closed : α → List α → Prop) : List α → Prop
  | nil : LeftInOrder closed []
  | cons {a : α} {before : List α} (hclosed : closed a before) (hnew : a ∉ before)
      (hbefore : LeftInOrder closed before) : LeftInOrder closed (a :: before)

namespace LeftInOrder

theorem mono (h : LeftInOrder closed l) (hmono : ∀ a ∈ l, ∀ before, closed a before → closed' a before) :
    LeftInOrder closed' l := by
  induction h with
  | nil => exact .nil
  | cons hclosed hnew hbefore ih =>
      obtain ⟨hfirst, hrest⟩ := List.forall_mem_cons.mp hmono
      exact .cons (hfirst _ hclosed) hnew (ih hrest)

variable (hedge : ∀ a before, closed a before → ∀ b, edge a b → b ∈ before)

include hedge

theorem mem_of_edge (h : LeftInOrder closed l) (ha : a ∈ l) (hab : edge a b) : b ∈ l := by
  induction h with
  | nil => cases ha
  | cons hclosed hnew hbefore ih =>
      rcases List.mem_cons.mp ha with rfl | ha
      · exact List.mem_cons_of_mem _ (hedge _ _ hclosed b hab)
      · exact List.mem_cons_of_mem _ (ih ha)

theorem mem_of_path (h : LeftInOrder closed l) (ha : a ∈ l) (hab : ReflTransGen edge a b) : b ∈ l := by
  induction hab with
  | refl => exact ha
  | tail _ hstep ih => exact h.mem_of_edge hedge ih hstep

-- None of them leads back to itself.
theorem acyclic (h : LeftInOrder closed l) (ha : a ∈ l) : ¬ TransGen edge a a := by
  induction h with
  | nil => cases ha
  | cons hclosed hnew hbefore ih =>
      rcases List.mem_cons.mp ha with rfl | ha
      · intro hcycle
        obtain ⟨b, hab, hback⟩ := TransGen.head'_iff.mp hcycle
        exact hnew (hbefore.mem_of_path hedge (hedge _ _ hclosed b hab) hback)
      · exact ih ha

end LeftInOrder

-- The state of a descent: each entry of the path is led to by the one behind it. What was reported
-- is a cycle. As long as nothing is reported, what is left was left in order, and the path is still
-- to be left.
structure Descent (leads : α → α → Prop) (closed : α → List α → Prop) (reported : Prop) (path : List α)
    (left : α → Prop) : Prop where
  chain : path.IsChain fun a b => leads b a
  cycle : reported → ∃ a, TransGen leads a a
  order : ¬ reported → (∀ a ∈ path, ¬ left a) ∧ ∃ l, LeftInOrder closed l ∧ ∀ a, a ∈ l ↔ left a

-- What is on the path leads to its end.
theorem reaches_head (h : (a :: path).IsChain fun a b => leads b a) (hm : m ∈ a :: path) :
    ReflTransGen leads m a := by
  induction path generalizing a with
  | nil =>
      rw [List.mem_singleton.mp hm]
  | cons b rest ih =>
      obtain ⟨hab, hrest⟩ := List.isChain_cons_cons.mp h
      rcases List.mem_cons.mp hm with rfl | hm
      · exact .refl
      · exact (ih hrest hm).tail hab

namespace Descent

variable {reported reported' : Prop} {left left' : α → Prop}

theorem start (hreported : ¬ reported) (hleft : ∀ a, ¬ left a) : Descent leads closed reported [] left where
  chain := .nil
  cycle h := absurd h hreported
  order _ := ⟨nofun, [], .nil, fun a => iff_of_false List.not_mem_nil (hleft a)⟩

-- More may be found out about what things lead to, but nothing else about those that were left.
theorem mono (h : Descent leads closed reported path left) (hleads : ∀ a b, leads a b → leads' a b)
    (hclosed : ∀ a before, left a → closed a before → closed' a before) (hreported : reported' ↔ reported)
    (hleft : ∀ a, left' a ↔ left a) : Descent leads' closed' reported' path left' where
  chain := h.chain.imp fun a b => hleads b a
  cycle hcycle := (h.cycle (hreported.mp hcycle)).imp fun a ha => TransGen.mono hleads a a ha
  order hnone := by
    obtain ⟨hpath, l, hl, hmem⟩ := h.order (mt hreported.mpr hnone)
    refine ⟨fun a ha => mt (hleft a).mp (hpath a ha), l, hl.mono fun a ha before => ?_, fun a => ?_⟩
    · exact hclosed a before ((hmem a).mp ha)
    · rw [hmem, hleft]

theorem enter (h : Descent leads closed reported path left) (ha : ¬ left a)
    (hlead : ∀ b ∈ path.head?, leads b a) : Descent leads closed reported (a :: path) left where
  chain := h.chain.cons hlead
  cycle := h.cycle
  order hnone := by
    obtain ⟨hpath, hl⟩ := h.order hnone
    exact ⟨List.forall_mem_cons.mpr ⟨ha, hpath⟩, hl⟩

-- The end of the path leads back to it.
theorem report (h : Descent leads closed reported path left) (hm : m ∈ path)
    (hlead : ∀ b ∈ path.head?, leads b m) (hreported : reported') :
    Descent leads closed reported' path left' where
  chain := h.chain
  cycle _ := by
    cases path with
    | nil => cases hm
    | cons b rest => exact ⟨m, .tail' (reaches_head h.chain hm) (hlead b rfl)⟩
  order hnone := absurd hreported hnone

theorem leave (h : Descent leads closed reported (a :: path) left) (hpath : a ∉ path)
    (hclosed : ¬ reported → ∀ l, (∀ b, b ∈ l ↔ left b) → closed a l) (hleft : ∀ b, left' b ↔ b = a ∨ left b) :
    Descent leads closed reported path left' where
  chain := h.chain.tail
  cycle := h.cycle
  order hnone := by
    obtain ⟨hfree, l, hl, hmem⟩ := h.order hnone
    obtain ⟨ha, hrest⟩ := List.forall_mem_cons.mp hfree
    refine ⟨fun b hb => ?_, a :: l, .cons (hclosed hnone l hmem) (mt (hmem a).mp ha) hl, fun b => ?_⟩
    · rw [hleft, not_or]
      exact ⟨fun heq => hpath (heq ▸ hb), hrest b hb⟩
    · rw [List.mem_cons, hmem, hleft]

-- When everything was left, a report was made just where something leads back to itself.
theorem reported_iff (h : Descent leads closed reported [] left) (hleads : ∀ a b, leads a b → edge a b)
    (hclosed : ∀ a before, closed a before → ∀ b, edge a b → b ∈ before) (hleft : ∀ a b, edge a b → left a) :
    reported ↔ ∃ a, TransGen edge a a := by
  constructor
  · intro hreported
    exact (h.cycle hreported).imp fun a ha => TransGen.mono hleads a a ha
  · rintro ⟨a, ha⟩
    by_contra hnone
    obtain ⟨-, l, hl, hmem⟩ := h.order hnone
    obtain ⟨b, hab, -⟩ := TransGen.head'_iff.mp ha
    exact hl.acyclic hclosed ((hmem a).mpr (hleft a b hab)) ha

end Descent

end SpriteScript
