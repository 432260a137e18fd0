import SpriteScript.Proofs.Identifiers.Facts
import SpriteScript.Proofs.Identifiers.Parts

-- What a check has ahead of it. Every token pays for one entry in the tables of definitions and
-- uses, so that no entry is ever made twice.
namespace SpriteScript

open Check

-- The identifier at the place declares something, or means something.
def Info.Notes (i : Info) (key : FileId × Text.ByteRange) : Prop :=
  i.uses.contains key = true ∨ i.defs.contains key = true

-- The tables agree on the places. What was found in files that are not read is left as it was.
structure Info.Once (ground : Ground) (i : Info) : Prop where
  sites : ∀ id site, site ∈ i.sitesOf id ↔ i.uses[site]? = some id
  nodup : ∀ id, (i.sitesOf id).Nodup
  apart : ∀ key, i.uses.contains key = true → i.defs.contains key = false
  kept : ∀ key : FileId × Text.ByteRange, ground.texts key.1 = none →
    i.uses[key]? = ground.before.uses[key]? ∧ i.defs[key]? = ground.before.defs[key]?

namespace Info

variable {ground : Ground} {i i' : Info} {file : FileId} {range : Text.ByteRange}
variable {id id' : SymbolId} {key : FileId × Text.ByteRange}

theorem sitesOf_recordUse (hnew : i.uses.contains (file, range) = false) :
    (i.recordUse file range id).sitesOf id' =
      if id' = id then i.sitesOf id' ++ [(file, range)] else i.sitesOf id' := by
  unfold recordUse
  rw [if_neg (by simp [hnew])]
  unfold sitesOf
  dsimp only
  rw [Std.HashMap.getD_alter]
  by_cases hid : id' = id
  · subst hid
    rw [if_pos (beq_self_eq_true _), if_pos rfl, Option.getD_some, List.reverse_cons,
      ← Std.HashMap.getD_eq_getD_getElem?]
  · rw [if_neg (by simpa using Ne.symm hid), if_neg hid]

theorem uses_recordUse : (i.recordUse file range id).uses = i.uses.insert (file, range) id := by
  unfold recordUse
  split <;> rfl

theorem defs_recordUse : (i.recordUse file range id).defs = i.defs := by
  unfold recordUse
  split <;> rfl

theorem types_recordUse : (i.recordUse file range id).types = i.types := by
  unfold recordUse
  split <;> rfl

theorem keeps_recordUse (hnew : ¬ i.Notes (file, range)) : i.Keeps (i.recordUse file range id) := by
  refine ⟨fun key x hx => ?_, fun key x hx => by rwa [defs_recordUse]⟩
  have hne : (file, range) ≠ key := by
    rintro rfl
    exact hnew (.inl (Std.HashMap.contains_eq_isSome_getElem?.trans (hx ▸ rfl)))
  rwa [uses_recordUse, Std.HashMap.getElem?_insert, if_neg (by simpa using hne)]

theorem keeps_recordDef (hnew : ¬ i.Notes (file, range)) : i.Keeps (i.recordDef file range id) := by
  refine ⟨fun _ _ hx => hx, fun key x hx => ?_⟩
  have hne : (file, range) ≠ key := by
    rintro rfl
    exact hnew (.inr (Std.HashMap.contains_eq_isSome_getElem?.trans (hx ▸ rfl)))
  rwa [recordDef, Std.HashMap.getElem?_insert, if_neg (by simpa using hne)]

theorem notes_recordUse : (i.recordUse file range id).Notes key ↔ (file, range) = key ∨ i.Notes key := by
  unfold Notes
  rw [uses_recordUse, defs_recordUse, Std.HashMap.contains_insert, Bool.or_eq_true, beq_iff_eq, or_assoc]

theorem notes_recordDef : (i.recordDef file range id).Notes key ↔ (file, range) = key ∨ i.Notes key := by
  unfold Notes recordDef
  dsimp only
  rw [Std.HashMap.contains_insert, Bool.or_eq_true, beq_iff_eq, or_left_comm]

namespace Once

-- Types and calls may be anything.
theorem of_eq (h : i.Once ground) (hdefs : i'.defs = i.defs) (huses : i'.uses = i.uses)
    (hsites : i'.useSites = i.useSites) : i'.Once ground := by
  have hof (id : SymbolId) : i'.sitesOf id = i.sitesOf id := by
    rw [sitesOf, sitesOf, hsites]
  constructor
  · simpa only [hof, huses] using h.sites
  · simpa only [hof] using h.nodup
  · simpa only [huses, hdefs] using h.apart
  · simpa only [huses, hdefs] using h.kept

section

variable (h : i.Once ground) (hnew : ¬ i.Notes (file, range)) (htext : ground.texts file ≠ none)

include h hnew htext

theorem recordUse : (i.recordUse file range id).Once ground := by
  obtain ⟨huse, hdef⟩ := not_or.mp hnew
  rw [Bool.not_eq_true] at huse hdef
  have hnone : i.uses[(file, range)]? = none := Std.HashMap.getElem?_eq_none_of_contains_eq_false huse
  have hold (id' : SymbolId) : (file, range) ∉ i.sitesOf id' := fun hmem => by
    rw [h.sites, hnone] at hmem
    cases hmem
  refine ⟨fun id' site => ?_, fun id' => ?_, fun key hkey => ?_, fun key hkey => ?_⟩
  · rw [sitesOf_recordUse huse, uses_recordUse, Std.HashMap.getElem?_insert]
    by_cases hsite : (file, range) = site
    · subst hsite
      rw [if_pos (beq_self_eq_true _), Option.some.injEq]
      by_cases hid : id' = id
      · simp [hid]
      · simp [hid, hold, Ne.symm hid]
    · rw [if_neg (show ¬((file, range) == site) = true by simpa using hsite), ← h.sites]
      split
      · simp [Ne.symm hsite]
      · rfl
  · rw [sitesOf_recordUse huse]
    split
    · refine List.nodup_append.mpr ⟨h.nodup id', List.nodup_cons.mpr ⟨nofun, .nil⟩,
        fun site hsite other hother heq => ?_⟩
      rw [heq, List.mem_singleton.mp hother] at hsite
      exact hold id' hsite
    · exact h.nodup id'
  · rw [defs_recordUse]
    rw [uses_recordUse, Std.HashMap.contains_insert, Bool.or_eq_true, beq_iff_eq] at hkey
    rcases hkey with rfl | hkey
    · exact hdef
    · exact h.apart key hkey
  · have hne : (file, range) ≠ key := fun heq => htext (by rwa [← heq] at hkey)
    rw [uses_recordUse, defs_recordUse, Std.HashMap.getElem?_insert, if_neg (by simpa using hne)]
    exact h.kept key hkey

theorem recordDef : (i.recordDef file range id).Once ground where
  sites := h.sites
  nodup := h.nodup
  apart key hkey := by
    rw [Info.recordDef, Std.HashMap.contains_insert, h.apart key hkey, Bool.or_false, beq_eq_false_iff_ne]
    rintro rfl
    exact hnew (.inl hkey)
  kept key hkey := by
    have hne : (file, range) ≠ key := fun heq => htext (by rwa [← heq] at hkey)
    rw [Info.recordDef, Std.HashMap.getElem?_insert, if_neg (by simpa using hne)]
    exact h.kept key hkey

end

end Once

end Info

namespace Check

-- A tree in the file that it belongs to.
abbrev Part := FileId × Tree

def partsIn (file : FileId) (ts : List Tree) : List Part := ts.map (file, ·)

-- The places of the tokens.
def keysOf (parts : List Part) : List (FileId × Text.ByteRange) :=
  parts.flatMap fun p => p.2.tokens.map fun s => (p.1, rangeOf s)

-- What is to be read of something that was put off.
def PendingSpec.parts (p : PendingSpec) : List Part :=
  match p.progress with
  | .untouched => partsIn p.context.file (p.spec.type?.toList ++ p.spec.listed 0)
  | .running | .finished => []

def PendingDecl.typeParts (p : PendingDecl) : List Part := partsIn p.context.file p.decl.type?.toList

def PendingDecl.signatureParts (p : PendingDecl) : List Part := partsIn p.context.file p.decl.signatureParts

-- The declaration of the type was not looked into.
def State.isOpen (s : State) (id : NamedId) : Bool :=
  (s.model.namedType id).isPending && !s.resolving.contains id

def State.putOff (s : State) : List Part :=
  s.specs.toList.flatMap PendingSpec.parts ++
    ((s.typeDecls.flatMap fun d => if s.isOpen d.1 then d.2.typeParts else []) ++
      (s.aliases.flatMap (·.2.typeParts) ++ s.funcs.flatMap (·.2.signatureParts)))

-- Every type that is declared is there.
def State.Known (s : State) : Prop := ∀ d ∈ s.typeDecls, d.1.index < s.model.named.size

variable {ground : Ground} {file : FileId} {parts parts' rest : List Part} {s s' : State}

-- The tree is a part of the text of its file.
def Part.Stands (ground : Ground) (p : Part) : Prop :=
  ∃ text, ground.texts p.1 = some text ∧ p.2.StandsIn text

-- None of the parts and of what was put off is noted, and nothing stands in them twice.
structure Ahead (ground : Ground) (file : FileId) (parts : List Part) (s : State) : Prop where
  context : s.context.file = file
  stands : ∀ p ∈ parts ++ s.putOff, p.Stands ground
  nodup : (keysOf (parts ++ s.putOff)).Nodup
  unnoted : ∀ key ∈ keysOf (parts ++ s.putOff), ¬ s.info.Notes key
  once : s.info.Once ground
  known : s.Known
  valued : Valued ground s

-- What is ahead before the action is ahead after it.
def Passing (ground : Ground) (file : FileId) (s s' : State) : Prop :=
  ∀ rest, Ahead ground file rest s → Ahead ground file rest s'

-- The action looks at the parts, at each of them once. Whatever else is ahead stays ahead.
def Visits (ground : Ground) (file : FileId) (parts : List Part) {α : Type} (a : CheckM α) : Prop :=
  ∀ rest s, Ahead ground file (parts ++ rest) s → Ahead ground file rest (a.run s).2

-- The same for trees of the file that the action is in.
def Reads (ground : Ground) (file : FileId) (ts : List Tree) {α : Type} (a : CheckM α) : Prop :=
  Visits ground file (partsIn file ts) a

-- The same, where what is returned has the property in view of what is known then.
def Learns (ground : Ground) (file : FileId) (ts : List Tree) {α : Type} (a : CheckM α)
    (P : Ground → α → Prop) : Prop :=
  ∀ rest s, Ahead ground file (partsIn file ts ++ rest) s → ∃ facts,
    Ahead (ground.learn facts) file rest (a.run s).2 ∧ P (ground.learn facts) (a.run s).1

instance : IsPreorder State (Passing ground file) where
  refl _ _ h := h
  trans _ _ _ h h' rest hs := h' rest (h rest hs)

theorem keysOf_append (parts parts' : List Part) : keysOf (parts ++ parts') = keysOf parts ++ keysOf parts' :=
  List.flatMap_append

theorem keysOf_subperm (h : parts.Subperm parts') : (keysOf parts).Subperm (keysOf parts') := by
  obtain ⟨mid, hperm, hsub⟩ := h
  exact ⟨_, hperm.flatMap_right _, hsub.flatMap _⟩

theorem keysOf_partsIn (file : FileId) (ts : List Tree) :
    keysOf (partsIn file ts) = (ts.flatMap Tree.tokens).map fun s => (file, rangeOf s) := by
  rw [keysOf, partsIn, List.flatMap_map, List.map_flatMap]

namespace Ahead

theorem forget {facts : List Fact} (h : Ahead (ground.learn facts) file parts s) :
    Ahead ground file parts s :=
  { h with
    once := ⟨h.once.sites, h.once.nodup, h.once.apart, h.once.kept⟩
    valued := h.valued.forget }

theorem learn {facts : List Fact} (h : Ahead ground file parts s) (hfacts : ∀ fact ∈ facts, fact.Holds s) :
    Ahead (ground.learn facts) file parts s :=
  { h with
    once := ⟨h.once.sites, h.once.nodup, h.once.apart, h.once.kept⟩
    valued := h.valued.learn hfacts }

-- A state with the same notes and nothing more ahead.
theorem next_of_keys (h : Ahead ground file parts s) {other : FileId} (hcontext : s'.context.file = other)
    (hkeys : (keysOf (parts' ++ s'.putOff)).Subperm (keysOf (parts ++ s.putOff)))
    (hstands : ∀ p ∈ parts' ++ s'.putOff, p.Stands ground)
    (hnotes : ∀ key, s'.info.Notes key → s.info.Notes key) (honce : s'.info.Once ground) (hknown : s'.Known)
    (hvalued : Valued ground s') : Ahead ground other parts' s' where
  context := hcontext
  stands := hstands
  nodup := by
    obtain ⟨mid, hperm, hsub⟩ := hkeys
    exact hperm.nodup_iff.mp (h.nodup.sublist hsub)
  unnoted key hkey hnoted := h.unnoted key (hkeys.subset hkey) (hnotes key hnoted)
  once := honce
  known := hknown
  valued := hvalued

theorem next (h : Ahead ground file parts s) {other : FileId} (hcontext : s'.context.file = other)
    (hparts : (parts' ++ s'.putOff).Subperm (parts ++ s.putOff)) (hinfo : s'.info = s.info)
    (hknown : s'.Known) (hvalued : Valued ground s') : Ahead ground other parts' s' :=
  h.next_of_keys hcontext (keysOf_subperm hparts) (fun p hp => h.stands p (hparts.subset hp))
    (fun _ hkey => hinfo ▸ hkey) (hinfo ▸ h.once) hknown hvalued

-- What is ahead may come in any order.
theorem perm (h : Ahead ground file parts s) (hperm : parts'.Perm parts) : Ahead ground file parts' s :=
  h.next h.context (hperm.append_right _).subperm rfl h.known h.valued

-- Parts are put off.
theorem putOff (h : Ahead ground file (parts ++ rest) s) (hcontext : s'.context.file = file)
    (hparts : s'.putOff.Subperm (parts ++ s.putOff)) (hinfo : s'.info = s.info) (hknown : s'.Known)
    (hvalued : Valued ground s') : Ahead ground file rest s' := by
  refine h.next hcontext (((List.subperm_append_left rest).mpr hparts).trans ?_) hinfo hknown hvalued
  rw [List.append_assoc]
  exact (List.perm_append_comm_assoc _ _ _).subperm

-- What was put off is taken up.
theorem takeUp (h : Ahead ground file rest s) (hcontext : s'.context.file = file)
    (hparts : (parts ++ s'.putOff).Subperm s.putOff) (hinfo : s'.info = s.info) (hknown : s'.Known)
    (hvalued : Valued ground s') : Ahead ground file (parts ++ rest) s' := by
  refine h.next hcontext (List.Subperm.trans ?_ ((List.subperm_append_left rest).mpr hparts)) hinfo
    hknown hvalued
  rw [List.append_assoc]
  exact (List.perm_append_comm_assoc _ _ _).subperm

-- What stands ahead was not found to mean anything.
theorem uses_eq_none {key : FileId × Text.ByteRange} (h : Ahead ground file parts s)
    (hkey : key ∈ keysOf parts) : s.info.uses[key]? = none := by
  by_contra hnone
  have hnoted := Std.HashMap.contains_eq_isSome_getElem?.trans (Option.isSome_iff_ne_none.mpr hnone)
  exact h.unnoted key (by rw [keysOf_append]; exact List.mem_append_left _ hkey) (.inl hnoted)

-- Parts of what is ahead are ahead.
theorem below {ts us : List Tree} {other : FileId} (h : Ahead ground file (partsIn other us ++ rest) s)
    (hbelow : Tree.Below ts us) : Ahead ground file (partsIn other ts ++ rest) s := by
  refine h.next_of_keys h.context ?_ (fun p hp => ?_) (fun _ hkey => hkey) h.once h.known
    h.valued
  · rw [List.append_assoc, List.append_assoc, keysOf_append, keysOf_append _ (rest ++ _), keysOf_partsIn,
      keysOf_partsIn]
    obtain ⟨mid, hperm, hsub⟩ := hbelow.tokens
    exact List.Subperm.append ⟨_, hperm.map _, hsub.map _⟩ (List.Subperm.refl _)
  · rw [List.append_assoc] at hp
    rcases List.mem_append.mp hp with hp | hp
    · obtain ⟨t, ht, rfl⟩ := List.mem_map.mp hp
      obtain ⟨u, hu, htu⟩ := hbelow.stands t ht
      obtain ⟨text, htext, hstands⟩ :=
        h.stands (other, u) (List.mem_append_left _ (List.mem_append_left _ (List.mem_map_of_mem hu)))
      exact ⟨text, htext, htu text hstands⟩
    · exact h.stands p (by rw [List.append_assoc]; exact List.mem_append_right _ hp)

end Ahead

end Check

end SpriteScript
