import SpriteScript.Proofs.Checking.Tables

-- What holds of every state of a check, and what it means that an action keeps it.
namespace SpriteScript

-- Problems that are found where the program names its resources, and nowhere else.
@[reducible] def Problem.isOfResource : Problem → Bool
  | resourceMissing .. | resourceUnnamed _ | assets _ | rootNotConstant | misplacedField .. => true
  | _ => false

instance {c : Prop} [Decidable c] (p q : Problem) [hp : Refuted p.isOfResource]
    [hq : Refuted q.isOfResource] : Refuted (if c then p else q).isOfResource where
  eq_false := by
    split
    · exact hp.eq_false
    · exact hq.eq_false

namespace Check

-- What is there stays there.
structure State.Extends (s s' : State) : Prop where
  model : s.model.Extends s'.model
  classes : s.classes <+: s'.classes
  problems : s.problems <:+ s'.problems
  defs : ∀ key, s.info.defs.contains key = true → s'.info.defs.contains key = true

-- A region, and a model that the check has gone on from.
structure Stage extends Region where
  base : Model

instance : Coe Stage Region := ⟨Stage.toRegion⟩

-- What is put off in a context holds in a region for which the scope of the context has room.
def Deferred (w : Setting) (m : Model) (c : Context) (P : Region → Prop) : Prop :=
  ∃ span, m.outline.Encloses c.scope c.file span ∧ P ⟨w, span⟩

def PendingDecl.Waits (p : PendingDecl) (w : Setting) (m : Model) : Prop :=
  Deferred w m p.context (Sits · p.context.file p.decl)

def PendingSpec.Waits (p : PendingSpec) (w : Setting) (m : Model) : Prop :=
  Deferred w m p.context (SpecSits · p.context.file p.spec)

-- What holds of every state, as long as it is in the given file and its scope has room for the
-- region: problems lie in files of the program, and everything that is put off is a tree of the
-- file that it is checked in.
structure Sane (w : Stage) (file : FileId) (s : State) : Prop where
  context : s.context.file = file
  room : s.model.outline.Encloses s.context.scope file w.span
  nested : s.model.outline.Nested w.text?
  base : w.base.Extends s.model
  problems : ∀ p ∈ s.problems, InText w p.1 p.2.1 ∧ p.2.2.isOfResource = false
  specs : ∀ p ∈ s.specs.toList, p.Waits w s.model
  typeDecls : ∀ p ∈ s.typeDecls, p.2.Waits w s.model
  aliases : ∀ p ∈ s.aliases, p.2.Waits w s.model
  funcs : ∀ p ∈ s.funcs, p.2.Waits w s.model
  crashed : w.strict → s.crashed = false

structure Tables (w : Setting) (s : State) : Prop where
  model : s.model.Fits w
  info : s.info.Fits w

-- A sane state stays sane.
structure Staying (w : Stage) (file : FileId) (s s' : State) : Prop where
  sane : Sane w file s → Sane w file s'
  extending : Sane w file s → s.Extends s'

-- On the way to the finished program the tables stay as they should be.
structure Keeping (w : Stage) (file : FileId) (s s' : State) : Prop extends Staying w file s s' where
  tables : Sane w file s → Tables w s → s'.model.Agrees w → Tables w s'

-- Every run of the action goes from a state to a related one.
class Runs (R : State → State → Prop) {α : Type} (a : CheckM α) : Prop where
  run : ∀ s, R s (a.run s).2

abbrev Stays (w : Stage) (file : FileId) {α : Type} (a : CheckM α) : Prop := Runs (Staying w file) a

abbrev Keeps (w : Stage) (file : FileId) {α : Type} (a : CheckM α) : Prop := Runs (Keeping w file) a

-- The action may be used on all trees of the file.
class KeepsOn (w : Stage) (file : FileId) {α : Type} (f : Tree → CheckM α) : Prop where
  keeps : ∀ t, Sits w file t → Keeps w file (f t)

-- What the action returns, in every sane state.
def Ensures (w : Stage) (file : FileId) {α : Type} (a : CheckM α) (P : α → Prop) : Prop :=
  ∀ s, Sane w file s → P (a.run s).1

-- What it returns on the way to the finished program.
def Finds (w : Stage) (file : FileId) {α : Type} (a : CheckM α) (P : α → Prop) : Prop :=
  ∀ s, Sane w file s → Tables w s → (a.run s).2.model.Agrees w → P (a.run s).1

-- The action keeps the state and finds something with the property.
structure Yields (w : Stage) (file : FileId) {α : Type} (a : CheckM α) (P : α → Prop) : Prop where
  keeps : Keeps w file a
  finds : Finds w file a P

variable {w : Stage} {file : FileId} {s s' s'' : State}

theorem State.Extends.refl (s : State) : s.Extends s :=
  ⟨.refl _, List.prefix_rfl, List.suffix_rfl, fun _ h => h⟩

theorem State.Extends.trans (h : s.Extends s') (h' : s'.Extends s'') : s.Extends s'' :=
  ⟨h.model.trans h'.model, h.classes.trans h'.classes, h.problems.trans h'.problems,
    fun key hkey => h'.defs key (h.defs key hkey)⟩

theorem State.Extends.agrees (h : s.Extends s') (hagrees : s'.model.Agrees w) : s.model.Agrees w :=
  h.model.origins.trans hagrees

instance : IsPreorder State (Staying w file) where
  refl s := ⟨id, fun _ => .refl s⟩
  trans _ _ _ h h' := ⟨fun hs => h'.sane (h.sane hs),
    fun hs => (h.extending hs).trans (h'.extending (h.sane hs))⟩

instance : IsPreorder State (Keeping w file) where
  refl s := ⟨refl_of (Staying w file) s, fun _ ht _ => ht⟩
  trans _ _ _ h h' := ⟨trans_of (Staying w file) h.toStaying h'.toStaying, fun hs ht hagrees =>
    have hmid := h.sane hs
    h'.tables hmid (h.tables hs ht ((h'.extending hmid).agrees hagrees)) hagrees⟩

instance (priority := low) {α : Type} (a : CheckM α) [h : Keeps w file a] : Stays w file a :=
  ⟨fun s => (h.run s).toStaying⟩

end Check

end SpriteScript
