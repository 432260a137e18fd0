import SpriteScript.Proofs.Checking.Program

-- Where names are told apart, and what it means that names come there one after the other.
namespace SpriteScript

namespace Check

-- Where no two names may be the same.
inductive Space where
  | scope (id : ScopeId)
  | fields (owner : NamedId)
  | methods (owner : NamedId)

end Check

def Scope.names (x : Scope) : List String := x.entries.toList.map (·.1)

def NamedType.fieldNames (n : NamedType) : List String := n.fields.map (·.name)

def NamedType.methodNames (symbols : Array Symbol) (n : NamedType) : List String :=
  n.methods.filterMap fun id => symbols[id.index]?.map (·.name)

namespace Check.Space

def problem (name : String) : Space → Problem
  | scope _ => .redeclared name
  | fields _ => .duplicateField name
  | methods _ => .duplicateMethod name

def Exists (m : Model) : Space → Prop
  | scope id => id.index < m.scopes.size
  | fields owner | methods owner => owner.index < m.named.size

-- The names that are taken.
def names (m : Model) : Space → List String
  | scope id => (m.scope id).names
  | fields owner => (m.namedType owner).fieldNames
  | methods owner => (m.namedType owner).methodNames m.symbols

end Check.Space

open Check

-- No name is given up.
structure Model.KeepsNames (m m' : Model) : Prop where
  names : ∀ sp : Space, sp.names m ⊆ sp.names m'
  scopes : m.scopes.size ≤ m'.scopes.size
  named : m.named.size ≤ m'.named.size
  fileScopes : m.fileScopes ⊆ m'.fileScopes

-- A name that is bound again keeps its place.
theorem Scope.names_bind (x : Scope) (name : String) (entry : ScopeEntry) :
    (x.bind name entry).names = if name ∈ x.names then x.names else x.names ++ [name] := by
  unfold Scope.bind names
  split
  case h_1 i hi =>
    obtain ⟨hlt, hname, -⟩ := Array.findIdx?_eq_some_iff_getElem.mp hi
    have hname : x.entries.toList[i].1 = name := beq_iff_eq.mp hname
    rw [if_pos (List.mem_map.mpr ⟨_, List.getElem_mem hlt, hname⟩), Array.toList_modify]
    refine List.ext_getElem (by simp) fun j hj hj' => ?_
    rw [List.getElem_map, List.getElem_map, List.getElem_modify]
    split
    · subst_vars
      rfl
    · rfl
  case h_2 hnone =>
    rw [if_neg, Array.toList_push, List.map_append, List.map_singleton]
    rintro hmem
    obtain ⟨y, hy, rfl⟩ := List.mem_map.mp hmem
    have := Array.findIdx?_eq_none_iff.mp hnone y (Array.mem_toList_iff.mp hy)
    simp at this

theorem Scope.mem_names_iff {x : Scope} {name : String} :
    name ∈ x.names ↔ (x.bound? name).isSome = true := by
  rw [bound?, Option.isSome_map, ← Array.find?_toList, List.find?_isSome, names, List.mem_map]
  simp only [beq_iff_eq]

namespace Model

variable {m m' m'' : Model} {sp : Space}

theorem KeepsNames.refl (m : Model) : m.KeepsNames m :=
  ⟨fun _ _ h => h, le_rfl, le_rfl, fun _ h => h⟩

theorem KeepsNames.trans (h : m.KeepsNames m') (h' : m'.KeepsNames m'') : m.KeepsNames m'' where
  names sp := List.Subset.trans (h.names sp) (h'.names sp)
  scopes := h.scopes.trans h'.scopes
  named := h.named.trans h'.named
  fileScopes := List.Subset.trans h.fileScopes h'.fileScopes

theorem KeepsNames.exists (h : m.KeepsNames m') (hexists : sp.Exists m) : sp.Exists m' := by
  cases sp with
  | scope => exact Nat.lt_of_lt_of_le hexists h.scopes
  | fields => exact Nat.lt_of_lt_of_le hexists h.named
  | methods => exact Nat.lt_of_lt_of_le hexists h.named

theorem scope_modifyScope (m : Model) {id : ScopeId} (g : Scope → Scope) (h : id.index < m.scopes.size) :
    (m.modifyScope id g).scope id = g (m.scope id) := by
  unfold scope modifyScope
  rw [Array.getElem?_modify, if_pos rfl, Array.getElem?_eq_getElem h]
  rfl

theorem mem_names_declare (m : Model) {id : ScopeId} {name : String} {entry : ScopeEntry}
    (h : id.index < m.scopes.size) : name ∈ (Space.scope id).names (m.declare id name entry) := by
  rw [Space.names, declare, scope_modifyScope _ _ h, Scope.names_bind]
  split
  · assumption
  · exact List.mem_append_right _ List.mem_cons_self

-- What an entry of a table has is still there when the table has grown, or the entry itself.

theorem getD_push_subset {α β : Type} [Inhabited α] {f : α → List β} (hf : f default = [])
    (xs : Array α) (x : α) (i : Nat) : f (xs[i]?.getD default) ⊆ f ((xs.push x)[i]?.getD default) := by
  intro b hb
  by_cases hlt : i < xs.size
  · rwa [Array.getElem?_push_lt hlt, ← Array.getElem?_eq_getElem hlt]
  · rw [Array.getElem?_eq_none (Nat.le_of_not_lt hlt), Option.getD_none, hf] at hb
    cases hb

theorem getD_modify_subset {α β : Type} [Inhabited α] {f : α → List β} {g : α → α}
    (hg : ∀ x, f x ⊆ f (g x)) (xs : Array α) (i j : Nat) :
    f (xs[i]?.getD default) ⊆ f ((xs.modify j g)[i]?.getD default) := by
  rw [Array.getElem?_modify]
  split
  · cases xs[i]? with
    | none => exact fun _ hb => hb
    | some x => exact hg x
  · exact fun _ hb => hb

theorem keepsNames_addSymbol (m : Model) (x : Symbol) : m.KeepsNames (m.addSymbol x).2 where
  names sp := by
    cases sp with
    | scope => exact fun _ h => h
    | fields => exact fun _ h => h
    | methods owner =>
        intro name hname
        obtain ⟨id, hid, hname⟩ := List.mem_filterMap.mp hname
        obtain ⟨y, hy, rfl⟩ := Option.map_eq_some_iff.mp hname
        have hlt := (Array.getElem?_eq_some_iff.mp hy).1
        refine List.mem_filterMap.mpr ⟨id, hid, Option.map_eq_some_iff.mpr ⟨y, ?_, rfl⟩⟩
        rwa [addSymbol, Array.getElem?_push_lt hlt, ← Array.getElem?_eq_getElem hlt]
  scopes := le_rfl
  named := le_rfl
  fileScopes _ h := h

theorem keepsNames_addNamed (m : Model) (n : NamedType) : m.KeepsNames (m.addNamed n).2 where
  names sp := by
    cases sp with
    | scope => exact fun _ h => h
    | fields owner => exact getD_push_subset (f := NamedType.fieldNames) rfl m.named n owner.index
    | methods owner =>
        exact getD_push_subset (f := NamedType.methodNames m.symbols) rfl m.named n owner.index
  scopes := le_rfl
  named := by simp [addNamed]
  fileScopes _ h := h

-- A declared type may get more members.
theorem keepsNames_modifyNamed (m : Model) (id : NamedId) {g : NamedType → NamedType}
    (hfields : ∀ n, n.fieldNames ⊆ (g n).fieldNames) (hmethods : ∀ n, n.methods ⊆ (g n).methods) :
    m.KeepsNames (m.modifyNamed id g) where
  names sp := by
    cases sp with
    | scope => exact fun _ h => h
    | fields owner => exact getD_modify_subset hfields m.named owner.index id.index
    | methods owner =>
        have hnames (n : NamedType) : n.methodNames m.symbols ⊆ (g n).methodNames m.symbols :=
          List.filterMap_subset _ (hmethods n)
        exact getD_modify_subset hnames m.named owner.index id.index
  scopes := le_rfl
  named := by simp [modifyNamed]
  fileScopes _ h := h

theorem keepsNames_modifyScope (m : Model) (id : ScopeId) {g : Scope → Scope}
    (hg : ∀ x, x.names ⊆ (g x).names) : m.KeepsNames (m.modifyScope id g) where
  names sp := by
    cases sp with
    | scope scope => exact getD_modify_subset hg m.scopes scope.index id.index
    | fields => exact fun _ h => h
    | methods => exact fun _ h => h
  scopes := by simp [modifyScope]
  named := le_rfl
  fileScopes _ h := h

theorem keepsNames_declare (m : Model) (scope : ScopeId) (name : String) (entry : ScopeEntry) :
    m.KeepsNames (m.declare scope name entry) := by
  refine keepsNames_modifyScope m scope fun x => ?_
  rw [Scope.names_bind]
  split
  · exact fun _ h => h
  · exact List.subset_append_left ..

theorem keepsNames_addScope (m : Model) (x : Scope) : m.KeepsNames (m.addScope x).2 := by
  have hpush : m.KeepsNames { m with scopes := m.scopes.push x } := by
    refine ⟨fun sp => ?_, by simp, le_rfl, fun _ h => h⟩
    cases sp with
    | scope scope => exact getD_push_subset (f := Scope.names) rfl m.scopes x scope.index
    | fields => exact fun _ h => h
    | methods => exact fun _ h => h
  unfold addScope
  dsimp only
  split
  · exact hpush.trans (keepsNames_modifyScope _ _ fun _ _ h => h)
  · exact hpush

end Model

namespace Check

variable {s s' s'' : State} {sources : List Source} {file : FileId} {sp : Space}
variable {names names' history : List String} {name : String} {α β γ : Type} {a : CheckM α} {f : α → CheckM β}

-- The classes that are noted are there.
def State.Sound (s : State) : Prop := ∀ entry ∈ s.classes, entry.2.index < s.model.named.size

-- The problem is reported for a file of the program.
def State.Reports (s : State) (p : Problem) : Prop :=
  ∃ x ∈ s.problems, x.1.isBundled = false ∧ x.2.2 = p

-- The check goes on in the same file, and nothing is taken back.
structure Preserving (s s' : State) : Prop where
  model : s.model.KeepsNames s'.model
  file : s'.context.file = s.context.file
  problems : s.problems <:+ s'.problems
  classes : s.classes <+: s'.classes
  sound : s.Sound → s'.Sound

abbrev Preserves {α : Type} (a : CheckM α) : Prop := Runs Preserving a

-- The names of the history came into the space one after the other: they are taken unless something
-- was reported, and each that came again is reported.
structure Warned (sp : Space) (history : List String) (s : State) : Prop where
  taken : ∀ name ∈ history, name ∈ sp.names s.model ∨ s.Reports (sp.problem name)
  reported : ∀ name, 2 ≤ history.count name → s.Reports (sp.problem name)

-- The check goes on from a state in which the classes are known, and the names come into the space.
structure Bringing (sources : List Source) (file : FileId) (sp : Space) (names : List String)
    (s s' : State) : Prop where
  preserving : Preserving s s'
  warned : s.context.file = file → Ready sources s → s.Sound → sp.Exists s.model →
    ∀ history, Warned sp history s → Warned sp (history ++ names) s'

abbrev Brings (sources : List Source) (file : FileId) (sp : Space) (names : List String) {α : Type}
    (a : CheckM α) : Prop :=
  Runs (Bringing sources file sp names) a

instance : IsPreorder State Preserving where
  refl _ := ⟨.refl _, rfl, List.suffix_rfl, List.prefix_rfl, id⟩
  trans _ _ _ h h' := ⟨h.model.trans h'.model, h'.file.trans h.file, h.problems.trans h'.problems,
    h.classes.trans h'.classes, fun hs => h'.sound (h.sound hs)⟩

theorem Preserving.reports (h : Preserving s s') {p : Problem} (hp : s.Reports p) : s'.Reports p :=
  hp.imp fun _ hx => ⟨h.problems.subset hx.1, hx.2⟩

theorem Preserving.ready (h : Preserving s s') (hready : Ready sources s) : Ready sources s' :=
  fun source hsource =>
  ⟨(hready source hsource).1.imp fun _ hmem => h.classes.subset hmem,
    (hready source hsource).2.imp fun _ hmem => h.model.fileScopes hmem⟩

theorem Warned.mono (h : Warned sp history s) (hon : Preserving s s') : Warned sp history s' where
  taken name hname := (h.taken name hname).imp (hon.model.names sp ·) hon.reports
  reported name hname := hon.reports (h.reported name hname)

-- One more name is reported, or it is new.
theorem Warned.concat (h : Warned sp history s) (hon : Preserving s s')
    (hname : s'.Reports (sp.problem name) ∨ name ∉ sp.names s.model ∧ name ∈ sp.names s'.model) :
    Warned sp (history ++ [name]) s' where
  taken other hother := by
    rcases List.mem_append.mp hother with hother | hother
    · exact (h.mono hon).taken other hother
    · obtain rfl := List.mem_singleton.mp hother
      exact hname.elim .inr fun hnew => .inl hnew.2
  reported other hother := by
    rw [List.count_append, List.count_singleton] at hother
    split at hother
    case isTrue heq =>
      obtain rfl := beq_iff_eq.mp heq
      rcases hname with hreported | ⟨hfree, -⟩
      · exact hreported
      · exact hon.reports ((h.taken _ (List.count_pos_iff.mp (by omega))).resolve_left hfree)
    case isFalse => exact (h.mono hon).reported other hother

theorem Bringing.of_preserving (h : Preserving s s') : Bringing sources file sp [] s s' :=
  ⟨h, fun _ _ _ _ history ht => (List.append_nil history).symm ▸ ht.mono h⟩

theorem Bringing.trans (h : Bringing sources file sp names s s')
    (h' : Bringing sources file sp names' s' s'') :
    Bringing sources file sp (names ++ names') s s'' where
  preserving := trans_of Preserving h.preserving h'.preserving
  warned hfile hready hsound hexists history ht := by
    have hfirst := h.warned hfile hready hsound hexists history ht
    rw [← List.append_assoc]
    exact h'.warned (h.preserving.file.trans hfile) (h.preserving.ready hready)
      (h.preserving.sound hsound) (h.preserving.model.exists hexists) _ hfirst

section Combinators

theorem Brings.preserves (h : Brings sources file sp names a) : Preserves a :=
  ⟨fun s => (h.run s).preserving⟩

theorem Brings.of_preserves [h : Preserves a] : Brings sources file sp [] a :=
  ⟨fun s => .of_preserving (h.run s)⟩

theorem Brings.bind (ha : Brings sources file sp names a) (hf : ∀ x, Brings sources file sp names' (f x)) :
    Brings sources file sp (names ++ names') (a >>= f) :=
  ⟨fun s => (ha.run s).trans ((hf _).run _)⟩

-- Only the first part, or the rest, brings names.

theorem Brings.bind_left (ha : Brings sources file sp names a) (hf : ∀ x, Preserves (f x)) :
    Brings sources file sp names (a >>= f) :=
  List.append_nil names ▸ ha.bind fun x => have := hf x; .of_preserves

theorem Brings.bind_right [Preserves a] (hf : ∀ x, Brings sources file sp names (f x)) :
    Brings sources file sp names (a >>= f) :=
  Brings.bind .of_preserves hf

theorem Brings.forM {l : List γ} {g : γ → CheckM PUnit} {of : γ → List String}
    (h : ∀ x ∈ l, Brings sources file sp (of x) (g x)) :
    Brings sources file sp (l.flatMap of) (forM l g) := by
  induction l with
  | nil =>
      rw [List.forM_nil]
      exact .of_preserves
  | cons x rest ih =>
      rw [List.forM_cons, List.flatMap_cons]
      exact .bind (h x List.mem_cons_self) fun _ => ih fun y hy => h y (List.mem_cons_of_mem x hy)

theorem Brings.mapM {l : List γ} {g : γ → CheckM β} {of : γ → List String}
    (h : ∀ x ∈ l, Brings sources file sp (of x) (g x)) :
    Brings sources file sp (l.flatMap of) (l.mapM g) := by
  induction l with
  | nil =>
      rw [List.mapM_nil]
      exact .of_preserves
  | cons x rest ih =>
      rw [List.mapM_cons, List.flatMap_cons]
      refine .bind (h x List.mem_cons_self) fun _ => ?_
      exact .bind_left (ih fun y hy => h y (List.mem_cons_of_mem x hy)) fun _ => inferInstance

end Combinators

section Moves

-- A move that changes no more than the tables and the reports.
theorem Preserving.of_model (hmodel : s.model.KeepsNames s'.model)
    (hfile : s'.context.file = s.context.file) (hclasses : s'.classes = s.classes)
    (hproblems : s.problems <:+ s'.problems) : Preserving s s' where
  model := hmodel
  file := hfile
  problems := hproblems
  classes := hclasses ▸ List.prefix_rfl
  sound hs entry hentry := Nat.lt_of_lt_of_le (hs entry (hclasses ▸ hentry)) hmodel.named

theorem Preserves.of_same (hmodel : ∀ s, (a.run s).2.model = s.model)
    (hfile : ∀ s, (a.run s).2.context.file = s.context.file)
    (hclasses : ∀ s, (a.run s).2.classes = s.classes)
    (hproblems : ∀ s, (a.run s).2.problems = s.problems) : Preserves a where
  run s := .of_model ((hmodel s).symm ▸ .refl _) (hfile s) (hclasses s) ((hproblems s).symm ▸ List.suffix_rfl)

theorem Preserves.modifyModel {f : Model → Model} (h : ∀ m : Model, m.KeepsNames (f m)) :
    Preserves (modifyModel f) :=
  ⟨fun s => .of_model (h s.model) rfl rfl List.suffix_rfl⟩

instance (x : Symbol) : Preserves (addSymbol x) :=
  ⟨fun s => .of_model (s.model.keepsNames_addSymbol x) rfl rfl List.suffix_rfl⟩

instance (n : NamedType) : Preserves (addNamed n) :=
  ⟨fun s => .of_model (s.model.keepsNames_addNamed n) rfl rfl List.suffix_rfl⟩

instance (x : Scope) : Preserves (addScope x) :=
  ⟨fun s => .of_model (s.model.keepsNames_addScope x) rfl rfl List.suffix_rfl⟩

instance (scope : ScopeId) (name : String) (entry : ScopeEntry) :
    Preserves (modifyModel fun m => m.declare scope name entry) :=
  .modifyModel fun m => m.keepsNames_declare scope name entry

instance (id : NamedId) (symbol : Option SymbolId) :
    Preserves (modifyModel fun m => m.modifyNamed id fun n => { n with symbol }) :=
  .modifyModel fun m => m.keepsNames_modifyNamed id (fun _ _ h => h) fun _ _ h => h

instance (range : Text.ByteRange) (p : Problem) : Preserves (problem range p) :=
  ⟨fun _ => .of_model (.refl _) rfl rfl (List.suffix_cons ..)⟩

instance (range : Text.ByteRange) (id : SymbolId) : Preserves (recordDef range id) :=
  .of_same (fun _ => rfl) (fun _ => rfl) (fun _ => rfl) fun _ => rfl

instance (range : Text.ByteRange) (id : SymbolId) : Preserves (recordUse range id) :=
  .of_same (fun _ => rfl) (fun _ => rfl) (fun _ => rfl) fun _ => rfl

instance {c : Context} [h : Preserves a] : Preserves (within c a) where
  run s := by
    have hbody := h.run { s with context := c }
    exact ⟨hbody.model, rfl, hbody.problems, hbody.classes, hbody.sound⟩

theorem Brings.within {c : Context} (h : Brings sources c.file sp names a) :
    Brings sources file sp names (within c a) where
  run s := by
    have := h.preserves
    refine ⟨(inferInstance : Preserves (Check.within c a)).run s,
      fun _ hready hsound hexists history ht => ?_⟩
    have hbefore : Warned sp history { s with context := c } := ⟨ht.taken, ht.reported⟩
    have hwarned := (h.run { s with context := c }).warned rfl hready hsound hexists history hbefore
    exact ⟨hwarned.taken, hwarned.reported⟩

end Moves

end Check

end SpriteScript
