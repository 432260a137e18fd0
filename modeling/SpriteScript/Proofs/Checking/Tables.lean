import SpriteScript.Proofs.Checking.Setting
import SpriteScript.Proofs.Semantics.Visibility

-- The tables that a check fills: symbols with the names that are bound to them, and the places
-- where they are declared and used.
namespace SpriteScript

open Check

-- The fields are named like their symbols.
def Check.Spelled (w : Setting) (fields : List Field) : Prop := ∀ f ∈ fields, Names w f.symbol f.name

-- Symbols are what they say, and every name that is bound to a symbol is its name.
structure Model.Fits (w : Setting) (m : Model) : Prop where
  origins : ∀ o ∈ m.origins, o.Fits w
  once : ∀ scope ∈ m.scopes.toList, scope.BindsOnce
  entries : ∀ scope ∈ m.scopes.toList, ∀ x ∈ scope.entries.toList, Names w x.2.symbol x.1
  fields : ∀ n ∈ m.named.toList, Spelled w n.fields

-- The symbols are the first ones of the finished program.
def Model.Agrees (w : Setting) (m : Model) : Prop := m.origins <+: w.origins

-- What is there stays there, and scopes keep their room.
structure Model.Extends (m m' : Model) : Prop where
  origins : m.origins <+: m'.origins
  fileScopes : m.fileScopes <+: m'.fileScopes
  encloses : ∀ scope file range, m.outline.Encloses scope file range → m'.outline.Encloses scope file range

-- The symbol is used at an identifier of its name. Bundled packages use their own symbols only.
structure Check.UsedAt (w : Setting) (id : SymbolId) (site : FileId × Text.ByteRange) : Prop where
  bundled : site.1.isBundled = true → id.index < w.bundledCount
  source : w.Holds site.1 →
    ∃ s, FreeWord w site.1 s ∧ rangeOf s = site.2 ∧ Names w id s.text

structure Info.Fits (w : Setting) (i : Info) : Prop where
  defs : ∀ file range id, i.defs[(file, range)]? = some id → DefinedAt w id file range
  sites : ∀ id, ∀ site ∈ i.sitesOf id, UsedAt w id site
  used : ∀ id, ∀ site ∈ i.sitesOf id, i.uses.contains site = true
  unique : ∀ id id' site, site ∈ i.sitesOf id → site ∈ i.sitesOf id' → id = id'

variable {w : Setting} {file : FileId} {m m' : Model}

-- Entries of an array that was changed in one place.
theorem forall_modify {α : Type} {P : α → Prop} {xs : Array α} {index : Nat} {f : α → α}
    (h : ∀ x ∈ xs.toList, P x) (hf : ∀ x, P x → P (f x)) : ∀ x ∈ (xs.modify index f).toList, P x := by
  intro x hx
  rw [Array.toList_modify, List.mem_iff_getElem?] at hx
  obtain ⟨i, hi⟩ := hx
  rw [List.getElem?_modify] at hi
  obtain ⟨y, hy, rfl⟩ := Option.map_eq_some_iff.mp hi
  have hmem := h y (List.mem_of_getElem? hy)
  split
  · exact hf y hmem
  · exact hmem

theorem forall_push {α : Type} {P : α → Prop} {xs : Array α} {y : α}
    (h : ∀ x ∈ xs.toList, P x) (hy : P y) : ∀ x ∈ (xs.push y).toList, P x := by
  intro x hx
  rw [Array.toList_push, List.mem_append, List.mem_singleton] at hx
  rcases hx with hx | rfl
  · exact h x hx
  · exact hy

namespace Model

-- What there is of the table stands in the finished one.
theorem Agrees.origin (h : m.Agrees w) {id : SymbolId} {x : Symbol}
    (hx : m.symbols[id.index]? = some x) : w.origins[id.index]? = some x.origin := by
  obtain ⟨rest, hrest⟩ := h
  have hx' : m.origins[id.index]? = some x.origin := by
    rw [origins, List.getElem?_map, Array.getElem?_toList, hx, Option.map_some]
  have hlt := (List.getElem?_eq_some_iff.mp hx').1
  rw [← hrest, List.getElem?_append_left hlt, hx']

-- The number of a symbol that has a name.
theorem Agrees.names (h : m.Agrees w) {id : SymbolId} {name : String}
    (hname : (m.symbol id).name = name) (hne : name ≠ "") : Names w id name := by
  unfold symbol at hname
  cases hid : m.symbols[id.index]? with
  | none =>
      rw [hid] at hname
      exact absurd hname.symm hne
  | some x =>
      rw [hid] at hname
      exact ⟨x.origin, h.origin hid, hname⟩

theorem Extends.refl (m : Model) : m.Extends m := ⟨List.prefix_rfl, List.prefix_rfl, fun _ _ _ h => h⟩

theorem Extends.trans {m'' : Model} (h : m.Extends m') (h' : m'.Extends m'') : m.Extends m'' :=
  ⟨h.origins.trans h'.origins, h.fileScopes.trans h'.fileScopes,
    fun scope file range hroom => h'.encloses scope file range (h.encloses scope file range hroom)⟩

-- A change that leaves the scopes alone.
theorem extends_of_outline (horigins : m.origins <+: m'.origins) (houtline : m'.outline = m.outline) :
    m.Extends m' := by
  have hfiles : m'.fileScopes = m.fileScopes := congrArg Outline.fileScopes houtline
  exact ⟨horigins, hfiles ▸ List.prefix_rfl, fun _ _ _ h => houtline ▸ h⟩

-- Symbols

theorem extends_addSymbol (m : Model) (x : Symbol) : m.Extends (m.addSymbol x).2 := by
  refine extends_of_outline ?_ rfl
  rw [origins, origins, addSymbol, Array.toList_push, List.map_append]
  exact List.prefix_append ..

theorem Fits.addSymbol (h : m.Fits w) {x : Symbol} (hx : x.origin.Fits w) : (m.addSymbol x).2.Fits w where
  origins o ho := by
    rw [Model.origins, Model.addSymbol, Array.toList_push, List.map_append, List.mem_append] at ho
    rcases ho with ho | ho
    · exact h.origins o ho
    · rwa [List.mem_singleton.mp ho]
  once := h.once
  entries := h.entries
  fields := h.fields

theorem origin_addSymbol {x : Symbol} (h : (m.addSymbol x).2.Agrees w) :
    w.origins[(m.addSymbol x).1.index]? = some x.origin :=
  h.origin (by simp [addSymbol])

-- A change of a symbol that leaves what it has for good.
theorem origins_modifySymbol (m : Model) (id : SymbolId) {f : Symbol → Symbol}
    (hf : ∀ x, (f x).origin = x.origin) : (m.modifySymbol id f).origins = m.origins := by
  rw [origins, origins, modifySymbol, Array.toList_modify]
  refine List.ext_getElem? fun i => ?_
  rw [List.getElem?_map, List.getElem?_map, List.getElem?_modify]
  cases m.symbols.toList[i]? with
  | none => rfl
  | some x =>
      by_cases hid : id.index = i
      · simp [hid, hf]
      · simp [hid]

theorem extends_modifySymbol (m : Model) (id : SymbolId) {f : Symbol → Symbol}
    (hf : ∀ x, (f x).origin = x.origin) : m.Extends (m.modifySymbol id f) :=
  extends_of_outline (origins_modifySymbol m id hf ▸ List.prefix_rfl) rfl

theorem Fits.modifySymbol (h : m.Fits w) {id : SymbolId} {f : Symbol → Symbol}
    (hf : ∀ x, (f x).origin = x.origin) : (m.modifySymbol id f).Fits w where
  origins := origins_modifySymbol m id hf ▸ h.origins
  once := h.once
  entries := h.entries
  fields := h.fields

-- Types

theorem extends_addNamed (m : Model) (n : NamedType) : m.Extends (m.addNamed n).2 :=
  extends_of_outline List.prefix_rfl rfl

theorem Fits.addNamed (h : m.Fits w) {n : NamedType} (hn : n.fields = []) : (m.addNamed n).2.Fits w where
  origins := h.origins
  once := h.once
  entries := h.entries
  fields := forall_push h.fields (by simp [Spelled, hn])

theorem namedType_modifyNamed (m : Model) {id : NamedId} (f : NamedType → NamedType)
    (h : id.index < m.named.size) : (m.modifyNamed id f).namedType id = f (m.namedType id) := by
  unfold namedType modifyNamed
  rw [Array.getElem?_modify, if_pos rfl, Array.getElem?_eq_getElem h]
  rfl

theorem namedType_modifyNamed_of_ne (m : Model) {id other : NamedId} (f : NamedType → NamedType)
    (h : other ≠ id) : (m.modifyNamed id f).namedType other = m.namedType other := by
  have hindex : id.index ≠ other.index := fun heq => h (by cases id; cases other; cases heq; rfl)
  unfold namedType modifyNamed
  rw [Array.getElem?_modify, if_neg hindex]

theorem extends_modifyNamed (m : Model) (id : NamedId) (f : NamedType → NamedType) :
    m.Extends (m.modifyNamed id f) :=
  extends_of_outline List.prefix_rfl rfl

theorem Fits.modifyNamed (h : m.Fits w) {id : NamedId} {f : NamedType → NamedType}
    (hf : ∀ n, Spelled w n.fields → Spelled w (f n).fields) :
    (m.modifyNamed id f).Fits w where
  origins := h.origins
  once := h.once
  entries := h.entries
  fields := forall_modify h.fields hf

theorem Fits.spelled_fields (h : m.Fits w) (id : NamedId) : Spelled w (m.namedType id).fields := by
  unfold namedType
  cases hid : m.named[id.index]? with
  | none => exact nofun
  | some n => exact h.fields n (Array.mem_toList_iff.mpr (Array.mem_of_getElem? hid))

-- Scopes

theorem extends_declare (m : Model) (scope : ScopeId) (name : String) (entry : ScopeEntry) :
    m.Extends (m.declare scope name entry) :=
  extends_of_outline List.prefix_rfl outline_declare

theorem origins_addScope (m : Model) (x : Scope) : (m.addScope x).2.origins = m.origins := by
  unfold addScope
  dsimp only
  split <;> rfl

theorem extends_addScope (m : Model) {x : Scope} {parent : ScopeId} (hparent : x.parent = some parent) :
    m.Extends (m.addScope x).2 := by
  have houtline := outline_addScope (m := m) hparent
  have hfiles : (m.addScope x).2.fileScopes = m.fileScopes := congrArg Outline.fileScopes houtline
  exact ⟨(origins_addScope m x).symm ▸ List.prefix_rfl, hfiles ▸ List.prefix_rfl,
    fun _ _ _ h => houtline ▸ h.add⟩

theorem Fits.addScope (h : m.Fits w) {x : Scope} (hx : x.entries = #[]) : (m.addScope x).2.Fits w := by
  have honce := forall_push (y := x) h.once (by simp [Scope.BindsOnce, hx])
  have hpush := forall_push (y := x) h.entries (by simp [hx])
  unfold Model.addScope
  dsimp only
  split
  · exact ⟨h.origins, forall_modify honce fun _ hs => hs, forall_modify hpush fun _ hs => hs, h.fields⟩
  · exact ⟨h.origins, honce, hpush, h.fields⟩

theorem forall_bind {P : String × ScopeEntry → Prop} {scope : Scope} {name : String} {entry : ScopeEntry}
    (h : ∀ x ∈ scope.entries.toList, P x) (hname : P (name, entry)) :
    ∀ x ∈ (scope.bind name entry).entries.toList, P x := by
  unfold Scope.bind
  split
  · exact forall_modify h fun _ _ => hname
  · exact forall_push h hname

theorem Fits.declare (h : m.Fits w) {scope : ScopeId} {name : String} {entry : ScopeEntry}
    (hname : Names w entry.symbol name) : (m.declare scope name entry).Fits w where
  origins := h.origins
  once := forall_modify h.once fun _ hs => hs.bind name entry
  entries := forall_modify h.entries fun _ hs => forall_bind hs hname
  fields := h.fields

-- What a name is bound to has that name.
theorem Fits.names_of_bound? (h : m.Fits w) {scope : ScopeId} {name : String} {entry : ScopeEntry}
    (hbound : (m.scope scope).bound? name = some entry) : Names w entry.symbol name := by
  obtain ⟨x, hx, rfl⟩ := Option.map_eq_some_iff.mp hbound
  have hname : x.1 = name := beq_iff_eq.mp (List.find?_some (Array.find?_toList .. ▸ hx) :)
  have hmem : x ∈ (m.scope scope).entries := Array.mem_of_find?_eq_some hx
  unfold Model.scope at hmem
  cases hscope : m.scopes[scope.index]? with
  | none =>
      rw [hscope] at hmem
      exact absurd hmem (Array.not_mem_empty x)
  | some s =>
      rw [hscope, Option.getD_some] at hmem
      exact hname ▸ h.entries s (Array.mem_toList_iff.mpr (Array.mem_of_getElem? hscope)) x
        (Array.mem_toList_iff.mpr hmem)

theorem names_of_member? (h : m.Agrees w) {owner : NamedId} {name : String} {id : SymbolId}
    (hmember : m.member? owner name = some id) (hne : name ≠ "") : Names w id name := by
  obtain ⟨member, hfound, rfl⟩ := Option.map_eq_some_iff.mp hmember
  exact h.names (beq_iff_eq.mp (List.find?_some hfound :)) hne

theorem names_of_memberOf? (h : m.Agrees w) {ty : Ty} {name : String} {id : SymbolId}
    (hmember : m.memberOf? ty name = some id) (hne : name ≠ "") : Names w id name := by
  obtain ⟨owner, -, hmember⟩ := Option.bind_eq_some_iff.mp hmember
  exact names_of_member? h hmember hne

-- What a name means has that name.
theorem Fits.names_of_lookup? (h : m.Fits w) (hagrees : m.Agrees w) {scope : ScopeId} {name : String}
    {offset? : Option Nat} {id : SymbolId} (hfound : m.lookup? scope name offset? = some id)
    (hne : name ≠ "") : Names w id name := by
  obtain ⟨x, hx, hin⟩ := List.exists_of_findSome?_eq_some hfound
  obtain ⟨scopeId, -, hscope⟩ := mem_chainWithFuncs hx
  unfold lookupIn at hin
  dsimp only at hin
  split at hin
  case h_1 entry hbound =>
    cases hin
    rw [hscope] at hbound
    exact h.names_of_bound? (Option.filter_eq_some_iff.mp hbound).1
  case h_2 =>
    obtain ⟨owner, -, hmember⟩ := Option.bind_eq_some_iff.mp hin
    exact names_of_member? hagrees hmember hne

end Model

namespace Info

-- Types and calls may be anything.
theorem Fits.of_eq {i i' : Info} (h : i.Fits w) (hdefs : i'.defs = i.defs) (huses : i'.uses = i.uses)
    (hsites : i'.useSites = i.useSites) : i'.Fits w := by
  have hof (id : SymbolId) : i'.sitesOf id = i.sitesOf id := by
    rw [sitesOf, sitesOf, hsites]
  constructor
  · rw [hdefs]
    exact h.defs
  · simpa only [hof] using h.sites
  · simpa only [hof, huses] using h.used
  · simpa only [hof] using h.unique

theorem Fits.recordDef {i : Info} (h : i.Fits w) {range : Text.ByteRange} {id : SymbolId}
    (hdef : DefinedAt w id file range) : (i.recordDef file range id).Fits w where
  defs f r s hs := by
    rw [Info.recordDef, Std.HashMap.getElem?_insert] at hs
    split at hs
    · rename_i heq
      cases beq_iff_eq.mp heq
      cases hs
      exact hdef
    · exact h.defs f r s hs
  sites := h.sites
  used := h.used
  unique := h.unique

-- The places where a symbol is used, after one more use.
theorem mem_sitesOf_recordUse {i : Info} {range : Text.ByteRange} {id id' : SymbolId}
    {site : FileId × Text.ByteRange} (h : site ∈ (i.recordUse file range id).sitesOf id') :
    site ∈ i.sitesOf id' ∨ id' = id ∧ site = (file, range) ∧ i.uses.contains (file, range) = false := by
  unfold Info.recordUse at h
  split at h
  · exact .inl h
  · rename_i hnew
    rw [sitesOf, List.mem_reverse] at h ⊢
    dsimp only at h
    rw [Std.HashMap.getD_alter] at h
    split at h
    · rename_i heq
      cases beq_iff_eq.mp heq
      rw [Option.getD_some, ← Std.HashMap.getD_eq_getD_getElem?] at h
      rcases List.mem_cons.mp h with hsite | h
      · exact .inr ⟨rfl, hsite, Bool.not_eq_true _ ▸ hnew⟩
      · exact .inl h
    · exact .inl h

theorem contains_recordUse {i : Info} {range : Text.ByteRange} {id : SymbolId}
    (site : FileId × Text.ByteRange) : (i.recordUse file range id).uses.contains site =
      ((file, range) == site || i.uses.contains site) := by
  unfold Info.recordUse
  split <;> exact Std.HashMap.contains_insert

theorem Fits.recordUse {i : Info} (h : i.Fits w) {range : Text.ByteRange} {id : SymbolId}
    (huse : UsedAt w id (file, range)) : (i.recordUse file range id).Fits w where
  defs := by
    unfold Info.recordUse
    split <;> exact h.defs
  sites id' site hsite := by
    rcases mem_sitesOf_recordUse hsite with hold | ⟨rfl, rfl, -⟩
    · exact h.sites id' site hold
    · exact huse
  used id' site hsite := by
    rw [contains_recordUse]
    rcases mem_sitesOf_recordUse hsite with hold | ⟨rfl, rfl, -⟩
    · rw [h.used id' site hold, Bool.or_true]
    · rw [beq_self_eq_true, Bool.true_or]
  unique id₁ id₂ site h₁ h₂ := by
    rcases mem_sitesOf_recordUse h₁ with hold₁ | ⟨rfl, rfl, hnew⟩
    · rcases mem_sitesOf_recordUse h₂ with hold₂ | ⟨rfl, rfl, hnew⟩
      · exact h.unique id₁ id₂ site hold₁ hold₂
      · exact absurd (h.used id₁ _ hold₁) (Bool.eq_false_iff.mp hnew)
    · rcases mem_sitesOf_recordUse h₂ with hold₂ | ⟨rfl, -, -⟩
      · exact absurd (h.used id₂ _ hold₂) (Bool.eq_false_iff.mp hnew)
      · rfl

end Info

end SpriteScript
