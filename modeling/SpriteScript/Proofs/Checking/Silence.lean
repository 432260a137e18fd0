import SpriteScript.Proofs.Checking.Redeclaration.Spaces
import SpriteScript.Proofs.Checking.Underlying

-- Declarations that lead back to themselves are reported where they are looked into, and nowhere else.
namespace SpriteScript

namespace Problem

def IsRecursion (p : Problem) : Prop := ∃ name, p = recursiveType name

def IsInitCycle (p : Problem) : Prop := ∃ name, p = initCycle name

-- Problems of these kinds are found where a declaration leads back to itself.
class OfCycles (P : Problem → Prop) : Prop where
  isCycle : ∀ p, P p → p.isCycle = true

instance : OfCycles IsRecursion := ⟨fun _ ⟨_, h⟩ => h ▸ rfl⟩

instance : OfCycles IsInitCycle := ⟨fun _ ⟨_, h⟩ => h ▸ rfl⟩

end Problem

namespace Check

open Problem

-- No problem of these kinds is reported.
def Unreported (P : Problem → Prop) (s s' : State) : Prop := ∀ p, P p → (s'.Reports p ↔ s.Reports p)

variable {P : Problem → Prop} {s s' : State} {p : Problem} {file : FileId} {range : Text.ByteRange}

instance : IsPreorder State (Unreported P) where
  refl _ _ _ := .rfl
  trans _ _ _ h h' p hp := (h' p hp).trans (h p hp)

theorem unreported_of_problems (h : s'.problems = s.problems) : Unreported P s s' := fun p _ => by
  unfold State.Reports
  rw [h]

theorem unreported_cons (hp : ¬ P p) :
    Unreported P s { s with problems := (file, range, p) :: s.problems } := by
  intro other hother
  refine ⟨?_, fun ⟨x, hx, h⟩ => ⟨x, List.mem_cons_of_mem _ hx, h⟩⟩
  rintro ⟨x, hx, hfile, rfl⟩
  rcases List.mem_cons.mp hx with rfl | hx
  · exact absurd hother hp
  · exact ⟨x, hx, hfile, rfl⟩

theorem unreported_of_not_isCycle [hP : OfCycles P] (hp : p.isCycle = false) :
    Unreported P s { s with problems := (file, range, p) :: s.problems } := by
  refine unreported_cons fun h => ?_
  rw [hP.isCycle p h] at hp
  cases hp

instance [OfCycles P] : DeclaresTypes (Unreported P) where
  context _ _ := unreported_of_problems rfl
  info _ _ := unreported_of_problems rfl
  problem _ _ _ _ hp := unreported_of_not_isCycle hp
  symbol _ _ _ := unreported_of_problems rfl
  composite x _ _ hbody _ := by
    refine ⟨fun s => ?_⟩
    have hadded : Unreported P s ((addNamed x).run s).2 := unreported_of_problems rfl
    exact trans_of (Unreported P) hadded (trans_of (Unreported P) ((hbody ⟨s.model.named.size⟩).run _)
      (unreported_of_problems rfl))
  crashed _ := unreported_of_problems rfl
  addScope _ _ := unreported_of_problems rfl
  declare _ _ _ _ := unreported_of_problems rfl
  scopes _ _ _ _ := unreported_of_problems rfl
  modifyNamed _ _ _ _ := unreported_of_problems rfl
  unnamed _ _ _ := unreported_of_problems rfl
  openClass _ _ _ _ := ⟨fun _ => unreported_of_problems rfl⟩
  openType _ _ _ _ := ⟨fun _ => unreported_of_problems rfl⟩
  aliases _ _ := unreported_of_problems rfl

instance [OfCycles P] : DeclaresFuncs (Unreported P) where
  funcs _ _ := unreported_of_problems rfl

instance [OfCycles P] : DeclaresSpecs (Unreported P) where
  pushSpec _ _ _ _ _ := unreported_of_problems rfl

instance [OfCycles P] {fileClass : Option NamedId} : Fills (Unreported P) fileClass where
  fill _ _ _ _ _ := unreported_of_problems rfl

instance {f : Model → Model} : Runs (Unreported P) (modifyModel f) := ⟨fun _ => unreported_of_problems rfl⟩

instance {isConst : Bool} {id : SymbolId} {ty : Ty} {value : Option Constant} :
    Runs (Unreported P) (settle isConst id ty value) := by
  unfold settle
  refine .bind inferInstance fun s => ?_
  dsimp only
  split <;> infer_instance

-- Nothing here reports a type that stands for itself: those are found where types are looked into.
instance : Resolves (Unreported IsRecursion) :=
  .of_moves (fun _ _ _ => ⟨fun _ => unreported_cons nofun⟩)
    (fun _ _ => ⟨fun _ => unreported_of_problems rfl⟩) fun _ _ _ _ => inferInstance

instance {r : Rules} [RunsRules (Unreported IsRecursion) r] :
    Runs (Unreported IsRecursion) (resolveOthers r) :=
  .resolveOthers (fun _ _ => unreported_of_problems rfl) (fun _ _ => unreported_of_problems rfl)
    fun _ _ _ => unreported_of_problems rfl

end Check

end SpriteScript
