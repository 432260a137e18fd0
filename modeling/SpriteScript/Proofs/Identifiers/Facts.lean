import SpriteScript.Proofs.Checking.Moves

-- What a check has found out and relies on later: what identifiers mean, which symbols have texts
-- for values, and which specifications it is looking into. None of this changes any more.
namespace SpriteScript

open Check

def Model.values (m : Model) : List (Option Constant) := m.symbols.toList.map (·.value)

namespace Model

variable {m m' : Model} {x : SymbolId}

theorem value_symbol (m : Model) (x : SymbolId) : (m.symbol x).value = m.values[x.index]?.getD none := by
  rw [values, symbol, List.getElem?_map, Array.getElem?_toList]
  cases m.symbols[x.index]? <;> rfl

theorem length_values (m : Model) : m.values.length = m.symbols.size := by
  rw [values, List.length_map, Array.length_toList]

theorem value_symbol_eq (h : m.values <+: m'.values) (hx : x.index < m.symbols.size) :
    (m'.symbol x).value = (m.symbol x).value := by
  rw [← length_values] at hx
  rw [value_symbol, value_symbol, List.prefix_iff_getElem?.mp h _ hx, List.getElem?_eq_getElem hx]

-- A value stays.
theorem value_mono {v : Constant} (h : m.values <+: m'.values) (hv : (m.symbol x).value = some v) :
    (m'.symbol x).value = some v := by
  refine (value_symbol_eq h ?_).trans hv
  rw [value_symbol] at hv
  rw [← length_values]
  by_contra hx
  rw [List.getElem?_eq_none (Nat.le_of_not_lt hx)] at hv
  cases hv

theorem values_addSymbol (m : Model) (x : Symbol) : m.values <+: (m.addSymbol x).2.values := by
  rw [values, values, addSymbol, Array.toList_push, List.map_append]
  exact List.prefix_append _ _

theorem values_modifySymbol (m : Model) (id : SymbolId) {f : Symbol → Symbol}
    (hf : ∀ x, (f x).value = x.value) : (m.modifySymbol id f).values = m.values := by
  rw [values, values, modifySymbol, Array.toList_modify]
  refine List.ext_getElem? fun i => ?_
  rw [List.getElem?_map, List.getElem?_map, List.getElem?_modify]
  cases m.symbols.toList[i]? with
  | none => rfl
  | some x =>
      simp only [Option.map_eq_map, Option.map_some]
      split
      · rw [hf]
      · rfl

end Model

namespace Check

inductive Fact where
  -- the identifier means the symbol
  | use (key : FileId × Text.ByteRange) (x : SymbolId)
  -- the identifier declares the symbol
  | declares (key : FileId × Text.ByteRange) (x : SymbolId)
  -- the symbol has the text for its value
  | value (x : SymbolId) (text : String)
  -- the specification is being looked into
  | started (index : Nat) (pending : PendingSpec)

def Fact.Holds (s : State) : Fact → Prop
  | use key x => s.info.uses[key]? = some x
  | declares key x => s.info.defs[key]? = some x
  | value x text => (s.model.symbol x).value = some (.string text)
  | started index pending => s.specs[index]? = some pending ∧ pending.progress = .running

-- What a check starts from: the texts that it reads, what was found in other files before, and
-- what is known already.
structure Ground where
  texts : FileId → Option String
  before : Info
  facts : List Fact

def Ground.learn (ground : Ground) (facts : List Fact) : Ground :=
  { ground with facts := facts ++ ground.facts }

end Check

-- The identifier means a symbol that has the text for its value.
def Info.Tells (i : Info) (m : Model) (key : FileId × Text.ByteRange) (text : String) : Prop :=
  ∃ x, i.uses[key]? = some x ∧ (m.symbol x).value = some (.string text)

-- A name with a text for its value means a constant that has it. The keys of a map from texts
-- stand for themselves instead; such a key is a plain string.
def Info.Named (i : Info) (m : Model) : Prop :=
  ∀ (key : NodeKey) (tv : TypeAndValue) (text : String), i.types[key]? = some tv → key.kind = .nameRef →
    tv.value = some (.string text) → tv.ty ≠ .basic .string → i.Tells m (key.file, key.range) text

theorem Info.Named.of_eq {i i' : Info} {m : Model} (h : i.Named m) (huses : i'.uses = i.uses)
    (htypes : i'.types = i.types) : i'.Named m := by
  unfold Info.Named Info.Tells
  rw [huses, htypes]
  exact h

theorem Info.recordType_eq (i : Info) (f : FileId) (t : Tree) (tv : TypeAndValue) :
    (i.recordType f t tv).defs = i.defs ∧ (i.recordType f t tv).uses = i.uses ∧
      (i.recordType f t tv).useSites = i.useSites := by
  unfold Info.recordType
  split <;> exact ⟨rfl, rfl, rfl⟩

-- No identifier means or declares another symbol than before.
structure Info.Keeps (i i' : Info) : Prop where
  uses : ∀ (key : FileId × Text.ByteRange) (x : SymbolId), i.uses[key]? = some x → i'.uses[key]? = some x
  defs : ∀ (key : FileId × Text.ByteRange) (x : SymbolId), i.defs[key]? = some x → i'.defs[key]? = some x

theorem Info.Keeps.refl (i : Info) : i.Keeps i := ⟨fun _ _ h => h, fun _ _ h => h⟩

namespace Check

-- What is known holds, and the values of symbols that are put off are not known before their
-- specification is finished.
structure Valued (ground : Ground) (s : State) : Prop where
  facts : ∀ fact ∈ ground.facts, fact.Holds s
  named : s.info.Named s.model
  apart : (s.specs.toList.flatMap PendingSpec.symbols).Nodup
  there : ∀ p ∈ s.specs.toList, ∀ x ∈ p.symbols, x.index < s.model.symbols.size
  unset : ∀ p ∈ s.specs.toList, p.progress ≠ .finished → ∀ x ∈ p.symbols, (s.model.symbol x).value = none

-- What was found out in the first state is so in the second one.
structure State.Onward (s s' : State) : Prop where
  info : s.info.Keeps s'.info
  values : ∀ x v, (s.model.symbol x).value = some v → (s'.model.symbol x).value = some v
  started : ∀ (index : Nat) (p : PendingSpec), s.specs[index]? = some p → p.progress = .running →
    s'.specs[index]? = some p

variable {ground : Ground} {s s' : State} {facts : List Fact}

theorem State.Onward.holds {fact : Fact} (hnext : s.Onward s') (h : fact.Holds s) : fact.Holds s' := by
  cases fact with
  | use key x => exact hnext.info.uses key x h
  | declares key x => exact hnext.info.defs key x h
  | value x text => exact hnext.values x _ h
  | started index pending => exact ⟨hnext.started index pending h.1 h.2, h.2⟩

theorem State.Onward.tells {key : FileId × Text.ByteRange} {text : String} (hnext : s.Onward s')
    (h : s.info.Tells s.model key text) : s'.info.Tells s'.model key text :=
  h.imp fun x hx => ⟨hnext.info.uses key x hx.1, hnext.values x _ hx.2⟩

namespace Valued

theorem forget (h : Valued (ground.learn facts) s) : Valued ground s :=
  { h with facts := fun fact hfact => h.facts fact (List.mem_append_right _ hfact) }

theorem learn (h : Valued ground s) (hfacts : ∀ fact ∈ facts, fact.Holds s) : Valued (ground.learn facts) s :=
  { h with facts := fun fact hfact => (List.mem_append.mp hfact).elim (hfacts fact) (h.facts fact) }

-- Nothing changes about what is put off.
theorem next (h : Valued ground s) (hinfo : s.info.Keeps s'.info)
    (hnamed : s.Onward s' → s'.info.Named s'.model) (hvalues : s.model.values <+: s'.model.values)
    (hspecs : s'.specs = s.specs) : Valued ground s' := by
  have hnext : s.Onward s' := ⟨hinfo, fun x v => Model.value_mono hvalues, fun index p hp _ => hspecs ▸ hp⟩
  refine ⟨fun fact hfact => hnext.holds (h.facts fact hfact), hnamed hnext, ?_, ?_, ?_⟩
  · rw [hspecs]
    exact h.apart
  · intro p hp x hx
    rw [hspecs] at hp
    have hsize := hvalues.length_le
    rw [Model.length_values, Model.length_values] at hsize
    exact (h.there p hp x hx).trans_le hsize
  · intro p hp hprogress x hx
    rw [hspecs] at hp
    rw [Model.value_symbol_eq hvalues (h.there p hp x hx)]
    exact h.unset p hp hprogress x hx

-- The types of expressions are as before.
theorem next_of_types (h : Valued ground s) (hinfo : s.info.Keeps s'.info)
    (htypes : s'.info.types = s.info.types) (hvalues : s.model.values <+: s'.model.values)
    (hspecs : s'.specs = s.specs) : Valued ground s' :=
  h.next hinfo (fun hnext key tv text htv hkind hvalue hty =>
    hnext.tells (h.named key tv text (htypes ▸ htv) hkind hvalue hty)) hvalues hspecs

theorem of_model (h : Valued ground s) (hinfo : s'.info = s.info)
    (hvalues : s.model.values <+: s'.model.values) (hspecs : s'.specs = s.specs) :
    Valued ground s' :=
  h.next_of_types (hinfo ▸ .refl _) (congrArg Info.types hinfo) hvalues hspecs

end Valued

end Check

end SpriteScript
