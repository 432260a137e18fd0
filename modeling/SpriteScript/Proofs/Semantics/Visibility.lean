import SpriteScript.Proofs.Semantics.Members

-- What can be seen from a scope is what names mean there.
namespace SpriteScript

-- A scope binds each name once.
def Scope.BindsOnce (s : Scope) : Prop := (s.entries.toList.map (·.1)).Nodup

theorem Scope.BindsOnce.bind {s : Scope} (h : s.BindsOnce) (name : String) (entry : ScopeEntry) :
    (s.bind name entry).BindsOnce := by
  unfold BindsOnce at h ⊢
  unfold Scope.bind
  split
  case h_1 i hi =>
    have hkeys :
        (s.entries.toList.modify i fun _ => (name, entry)).map (·.1) = s.entries.toList.map (·.1) := by
      refine List.ext_getElem? fun j => ?_
      rw [List.getElem?_map, List.getElem?_map, List.getElem?_modify]
      split
      case isTrue heq =>
        obtain ⟨hlt, hname, -⟩ := Array.findIdx?_eq_some_iff_getElem.mp hi
        subst heq
        rw [Array.getElem?_toList, Array.getElem?_eq_getElem hlt]
        exact congrArg some (beq_iff_eq.mp hname).symm
      case isFalse => simp
    rw [Array.toList_modify, hkeys]
    exact h
  case h_2 hnone =>
    rw [Array.toList_push, List.map_append, List.nodup_append']
    refine ⟨h, List.nodup_singleton _, fun key hkey hname => ?_⟩
    obtain ⟨x, hx, rfl⟩ := List.mem_map.mp hkey
    have hother := Array.findIdx?_eq_none_iff.mp hnone x (Array.mem_toList_iff.mp hx)
    simp [List.mem_singleton.mp hname] at hother

namespace Model

-- Names are the keys of scopes: each is bound once, and to a symbol of that name.
structure Keyed (m : Model) : Prop where
  once : ∀ scope ∈ m.scopes, scope.BindsOnce
  named : ∀ scope ∈ m.scopes, ∀ entry ∈ scope.entries, (m.symbol entry.2.symbol).name = entry.1

variable {m : Model} {scope : Scope} {offset? : Option Nat} {insideFunc : Bool} {name : String} {id : ScopeId}
  {s : SymbolId}

theorem scope_mem_or_empty (m : Model) (id : ScopeId) :
    m.scope id ∈ m.scopes ∨ (m.scope id).entries = #[] := by
  unfold Model.scope
  cases hscope : m.scopes[id.index]? with
  | none => exact .inr rfl
  | some scope => exact .inl (Array.mem_of_getElem? hscope)

theorem Keyed.bindsOnce_scope (h : m.Keyed) (id : ScopeId) : (m.scope id).BindsOnce := by
  rcases scope_mem_or_empty m id with hmem | hempty
  · exact h.once _ hmem
  · rw [Scope.BindsOnce, hempty]
    exact .nil

theorem Keyed.named_scope (h : m.Keyed) (id : ScopeId) :
    ∀ entry ∈ (m.scope id).entries.toList, (m.symbol entry.2.symbol).name = entry.1 := by
  intro entry hentry
  rcases scope_mem_or_empty m id with hmem | hempty
  · exact h.named _ hmem entry (Array.mem_toList_iff.mp hentry)
  · rw [hempty] at hentry
    cases hentry

-- One scope

-- A binding is looked up before it is asked whether it counts, and seen after.
theorem bound?_filter (honce : scope.BindsOnce) (p : ScopeEntry → Bool) (name : String) :
    (scope.bound? name).filter p =
      ((scope.entries.toList.filter fun entry => p entry.2).find? (·.1 == name)).map (·.2) := by
  have hsub : ((scope.entries.toList.filter fun entry => p entry.2).map (·.1)).Nodup :=
    honce.sublist (List.filter_sublist.map _)
  refine Option.ext fun entry => ?_
  rw [Option.filter_eq_some_iff, Scope.bound?, ← Array.find?_toList, Option.map_eq_some_iff,
    Option.map_eq_some_iff]
  simp only [find?_key_eq_some_iff honce, find?_key_eq_some_iff hsub, List.mem_filter]
  constructor
  · rintro ⟨⟨x, ⟨hx, hname⟩, rfl⟩, hp⟩
    exact ⟨x, ⟨⟨hx, hp⟩, hname⟩, rfl⟩
  · rintro ⟨x, ⟨⟨hx, hp⟩, hname⟩, rfl⟩
    exact ⟨⟨x, ⟨hx, hname⟩, rfl⟩, hp⟩

theorem find?_members (m : Model) (root : NamedId) (name : String) :
    (((m.members root).map fun member => (m.memberName member, member.symbol)).find? (·.1 == name)).map
      (·.2) = m.member? root name := by
  rw [List.find?_map, Option.map_map, member?_eq]
  rfl

-- Looking a name up in a scope finds the first that can be seen in it under the name.
theorem lookupIn_eq (honce : scope.BindsOnce) :
    m.lookupIn name offset? scope insideFunc =
      ((m.visibleIn offset? scope insideFunc).find? (·.1 == name)).map (·.2) := by
  have hbound : (((scope.entries.toList.filter fun entry => entry.2.isVisible scope offset? insideFunc).map
      fun entry => (entry.1, entry.2.symbol)).find? (·.1 == name)).map (·.2) =
      ((scope.bound? name).filter (·.isVisible scope offset? insideFunc)).map (·.symbol) := by
    rw [bound?_filter honce, List.find?_map, Option.map_map, Option.map_map]
    rfl
  have hinherited : ((((scope.fileClass.map m.members).getD []).map
      fun member => (m.memberName member, member.symbol)).find? (·.1 == name)).map (·.2) =
      scope.fileClass.bind (m.member? · name) := by
    cases scope.fileClass with
    | none => rfl
    | some root => exact find?_members m root name
  unfold lookupIn visibleIn
  dsimp only
  rw [List.find?_append, Option.map_or, hbound]
  change _ = Option.or _ (Option.map _
    (List.find? _ (List.map (fun member => (m.memberName member, member.symbol)) _)))
  rw [hinherited]
  cases (scope.bound? name).filter (·.isVisible scope offset? insideFunc) <;> rfl

theorem name_of_mem_visibleIn (hnamed : ∀ entry ∈ scope.entries.toList,
      (m.symbol entry.2.symbol).name = entry.1) :
    ∀ x ∈ m.visibleIn offset? scope insideFunc, (m.symbol x.2).name = x.1 := by
  intro x hx
  rcases List.mem_append.mp hx with hx | hx
  · obtain ⟨entry, hentry, rfl⟩ := List.mem_map.mp hx
    exact hnamed entry (List.mem_filter.mp hentry).1
  · obtain ⟨member, -, rfl⟩ := List.mem_map.mp hx
    rfl

-- A chain of scopes

-- All that can be seen from a scope, shadowed names included.
def visibleAll (m : Model) (scope : ScopeId) (offset? : Option Nat) : List (String × SymbolId) :=
  (m.chainWithFuncs false (m.scopeChain scope)).flatMap fun (s, insideFunc) =>
    m.visibleIn offset? s insideFunc

theorem visibleSymbols_eq (m : Model) (scope : ScopeId) (offset? : Option Nat) :
    m.visibleSymbols scope offset? = ((m.visibleAll scope offset?).eraseDupsBy (sameKey (·.1))).map
    (·.2) := by
  have hfirst := eq_eraseDupsBy_of_seen Prod.fst Prod.snd firstOfKey
    (fun _ => rfl) (fun _ _ _ => rfl) (m.visibleAll scope offset?) {}
  rw [List.filter_eq_self.mpr (by simp)] at hfirst
  exact hfirst

theorem mem_chainWithFuncs {x : Scope × Bool} {ids : List ScopeId}
    (h : x ∈ m.chainWithFuncs insideFunc ids) : ∃ id ∈ ids, x.1 = m.scope id := by
  induction ids generalizing insideFunc with
  | nil => cases h
  | cons id rest ih =>
      rw [chainWithFuncs] at h
      rcases List.mem_cons.mp h with rfl | h
      · exact ⟨id, List.mem_cons_self, rfl⟩
      · obtain ⟨id', hmem, heq⟩ := ih h
        exact ⟨id', List.mem_cons_of_mem id hmem, heq⟩

-- Looking a name up from a scope finds the first that can be seen from there under the name.
theorem lookup?_eq (h : m.Keyed) (id : ScopeId) (name : String) (offset? : Option Nat) :
    m.lookup? id name offset? = ((m.visibleAll id offset?).find? (·.1 == name)).map (·.2) := by
  have hchain (ids : List ScopeId) (insideFunc : Bool) :
      ((m.chainWithFuncs insideFunc ids).findSome? fun (s, insideFunc) =>
        m.lookupIn name offset? s insideFunc) =
        (((m.chainWithFuncs insideFunc ids).flatMap fun (s, insideFunc) =>
          m.visibleIn offset? s insideFunc).find? (·.1 == name)).map (·.2) := by
    induction ids generalizing insideFunc with
    | nil => rfl
    | cons id rest ih =>
        rw [chainWithFuncs, List.findSome?_cons, List.flatMap_cons, List.find?_append, Option.map_or, ← ih,
          ← lookupIn_eq (h.bindsOnce_scope id)]
        dsimp only
        cases m.lookupIn name offset? (m.scope id) insideFunc with
        | none => rw [Option.none_or]
        | some s => rw [Option.some_or]
  exact hchain _ _

theorem name_of_mem_visibleAll (h : m.Keyed) : ∀ x ∈ m.visibleAll id offset?, (m.symbol x.2).name = x.1 := by
  intro x hx
  obtain ⟨⟨scope, insideFunc⟩, hscope, hx⟩ := List.mem_flatMap.mp hx
  obtain ⟨id', -, rfl⟩ := mem_chainWithFuncs hscope
  exact name_of_mem_visibleIn (h.named_scope id') x hx

-- Shadowed names left out, names and symbols go together.
theorem mem_visibleSymbols (h : m.Keyed) : s ∈ m.visibleSymbols id offset? ↔
    ((m.symbol s).name, s) ∈ (m.visibleAll id offset?).eraseDupsBy (sameKey (·.1)) := by
  rw [visibleSymbols_eq, List.mem_map]
  constructor
  · rintro ⟨x, hx, rfl⟩
    rwa [name_of_mem_visibleAll h x (eraseDupsBy_subset _ _ hx)]
  · exact fun hs => ⟨_, hs, rfl⟩

theorem names_visibleSymbols (h : m.Keyed) (id : ScopeId) (offset? : Option Nat) :
    (m.visibleSymbols id offset?).map (fun s => (m.symbol s).name) =
      ((m.visibleAll id offset?).eraseDupsBy (sameKey (·.1))).map (·.1) := by
  rw [visibleSymbols_eq, List.map_map]
  exact List.map_congr_left fun x hx => name_of_mem_visibleAll h x (eraseDupsBy_subset _ _ hx)

theorem lookup?_of_bound {entry : ScopeEntry} (hbound : (m.scope id).bound? name = some entry)
    (hvisible : entry.isVisible (m.scope id) offset? false = true) :
    m.lookup? id name offset? = some entry.symbol := by
  have hin : m.lookupIn name offset? (m.scope id) false = some entry.symbol := by
    unfold lookupIn
    rw [hbound, Option.filter_some, if_pos hvisible]
  unfold lookup? scopeChain scopeChain.go
  rw [chainWithFuncs, List.findSome?_cons]
  dsimp only
  rw [hin]

-- What a scope binds can be seen in it from its offset on. For a binding of a statement at the top of a
-- file that holds of every place in the file that is not in a declared function, also of those that are
-- settled before the statements.
theorem mem_visibleSymbols_of_bound {entry : ScopeEntry} (h : m.Keyed)
    (hbound : (m.scope id).bound? name = some entry)
    (hvisible : entry.isVisible (m.scope id) offset? false = true) :
    entry.symbol ∈ m.visibleSymbols id offset? := by
  have hfound := lookup?_of_bound hbound hvisible
  rw [lookup?_eq h, ← find?_eraseDupsBy_sameKey, Option.map_eq_some_iff] at hfound
  obtain ⟨x, hx, hsymbol⟩ := hfound
  rw [visibleSymbols_eq, ← hsymbol]
  exact List.mem_map_of_mem (List.mem_of_find?_eq_some hx)

-- Of all that can be seen from a scope no two symbols have one name, and looking a name up finds the
-- one that has it.
theorem visibleSymbols_agree (m : Model) (h : m.Keyed) (scope : ScopeId) (offset? : Option Nat) :
    ((m.visibleSymbols scope offset?).map fun s => (m.symbol s).name).Nodup ∧
    ∀ name s, m.lookup? scope name offset? = some s ↔
      s ∈ m.visibleSymbols scope offset? ∧ (m.symbol s).name = name := by
  have honce := nodup_eraseDupsBy_sameKey (·.1) (m.visibleAll scope offset?)
  refine ⟨names_visibleSymbols h scope offset? ▸ honce, fun name s => ?_⟩
  rw [lookup?_eq h, ← find?_eraseDupsBy_sameKey, Option.map_eq_some_iff, mem_visibleSymbols h]
  simp only [find?_key_eq_some_iff honce]
  constructor
  · rintro ⟨x, ⟨hx, rfl⟩, rfl⟩
    have hname := name_of_mem_visibleAll h x (eraseDupsBy_subset _ _ hx)
    rw [hname]
    exact ⟨hx, rfl⟩
  · rintro ⟨hs, rfl⟩
    exact ⟨_, ⟨hs, rfl⟩, rfl⟩

-- A class with the field `x`, a variable `x` at the top of its file from an offset on, and the scope
-- of a function in the file.
def handler : Model where
  symbols := #[{ name := "x", kind := .field, package := "main", owner := some ⟨0⟩ },
    { name := "x", kind := .var, package := "main" },
    { name := "Fido", kind := .typeName, package := "main", ty := .named ⟨0⟩ }]
  named := #[{ name := "Fido", package := "main", underlying := .struct [⟨⟨0⟩, "x", .invalid, false⟩] }]
  scopes := #[{ kind := .unit, parent := none, entries := #[("Fido", ⟨⟨2⟩, 0, false⟩)] },
    { kind := .file, parent := some ⟨0⟩, file := some (.source 0), range := ⟨0, 40⟩,
      entries := #[("x", ⟨⟨1⟩, 10, true⟩)], fileClass := some ⟨0⟩ },
    { kind := .func, parent := some ⟨1⟩, file := some (.source 0), range := ⟨20, 40⟩ }]

-- The variable is there behind its declaration, and never in the function.
example : handler.lookup? ⟨1⟩ "x" (some 12) = some ⟨1⟩ ∧ handler.lookup? ⟨1⟩ "x" (some 5) = some ⟨0⟩ ∧
    handler.lookup? ⟨2⟩ "x" (some 25) = some ⟨0⟩ := by decide

theorem visibleSymbols_agree_handler : handler.Keyed ∧
    ((handler.visibleSymbols ⟨2⟩ (some 25)).map fun s => (handler.symbol s).name).Nodup ∧
    ∀ name s, handler.lookup? ⟨2⟩ name (some 25) = some s ↔
      s ∈ handler.visibleSymbols ⟨2⟩ (some 25) ∧ (handler.symbol s).name = name := by
  have hkeyed : handler.Keyed := ⟨by simp [handler, Scope.BindsOnce], by simp [handler, symbol]⟩
  exact ⟨hkeyed, visibleSymbols_agree handler hkeyed ⟨2⟩ (some 25)⟩

end Model

end SpriteScript
