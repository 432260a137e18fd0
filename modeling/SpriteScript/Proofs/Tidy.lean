import SpriteScript.Proofs.Lossless

-- Names and literals are the atoms of a tree: in the tree of any text, one with errors included,
-- they hold one token at most and nothing else.
namespace SpriteScript

namespace Tree

def Tidy : Tree → Prop
  | token _ => True
  | node kind _ children => (kind.isAtom = true → Single children) ∧ tidyAll children
where
  tidyAll : List Tree → Prop
    | [] => True
    | t :: rest => t.Tidy ∧ tidyAll rest

theorem tidyAll_iff {ts : List Tree} : Tidy.tidyAll ts ↔ ∀ t ∈ ts, t.Tidy := by
  induction ts with
  | nil => simp [Tidy.tidyAll]
  | cons t ts ih => simp [Tidy.tidyAll, ih]

theorem Tidy.child {t c : Tree} (h : t.Tidy) (hc : c ∈ t.children) : c.Tidy := by
  cases t with
  | token => simp [children] at hc
  | node => exact tidyAll_iff.mp h.2 c hc

-- A node that is no atom is tidy if its children are.
theorem inherits_tidy {kind : NodeKind} (hkind : kind.isAtom = false) : Inherits Tidy kind where
  node _ _ h := ⟨fun hatom => absurd (hkind.symm.trans hatom) Bool.false_ne_true, tidyAll_iff.mpr h⟩

instance : Hereditary Tidy where
  token _ := trivial
  atom _ _ _ _ hsingle := ⟨fun _ => hsingle, tidyAll_iff.mpr fun t ht => by
    cases hsingle with
    | none => cases ht
    | one s => exact List.mem_singleton.mp ht ▸ trivial⟩
  ordinary kind hkind := inherits_tidy (by revert hkind; cases kind <;> decide)

instance : Inherits Tidy .unaryExpr := inherits_tidy rfl

instance : Inherits Tidy .binaryExpr := inherits_tidy rfl

end Tree

namespace Syntax

-- The tree of every text is tidy.
theorem tidy_parse (text : String) : (parse text).tree.Tidy := holds_parse text

end Syntax

end SpriteScript
