import SpriteScript.Proofs.Resource.Loading
import SpriteScript.Proofs.Resource.Locators

-- The resources that a catalog lists. Each has a locator of its own, but the locator is read back only if
-- no name in it is empty or has a slash, and names are taken from the index files as they are.
namespace SpriteScript

theorem takeWhile_append_of_not_mem {α : Type} [DecidableEq α] {sep : α} {xs rest : List α} (hxs : sep ∉ xs)
    (hrest : ∀ c ∈ rest.head?, c = sep) : (xs ++ rest).takeWhile (· != sep) = xs := by
  have hne : ∀ c ∈ xs, (c != sep) = true := fun c hc => bne_iff_ne.mpr (ne_of_mem_of_not_mem hc hxs)
  rw [List.takeWhile_append_of_pos hne]
  cases rest with
  | nil => simp
  | cons c rest => simp [hrest c rfl]

-- What stands before the first separator and what stands there are told apart by it.
theorem append_inj_of_not_mem {α : Type} [DecidableEq α] {sep : α} {xs ys rest rest' : List α}
    (hxs : sep ∉ xs) (hys : sep ∉ ys) (hrest : ∀ c ∈ rest.head?, c = sep)
    (hrest' : ∀ c ∈ rest'.head?, c = sep) (h : xs ++ rest = ys ++ rest') :
    xs = ys ∧ rest = rest' := by
  have hfront : xs = ys := by
    rw [← takeWhile_append_of_not_mem hxs hrest, ← takeWhile_append_of_not_mem hys hrest', h]
  exact ⟨hfront, List.append_cancel_left (hfront ▸ h)⟩

namespace ResourceId

variable {id id' : ResourceId}

-- The parts of a locator behind the scheme, as characters: the folder of the kind, the sprite, if one is
-- named, and what is left.

def folder (id : ResourceId) : List Char := (id.parts.headD "").toList

def spriteNamed? : ResourceId → Option String
  | sprite owner | costume owner _ | animation owner _ => some owner
  | _ => none

def owner (id : ResourceId) : List Char := (id.spriteNamed?.getD "").toList

def rest : ResourceId → List Char
  | backdrop name | sound name | widget name => name.toList
  | sprite _ => []
  | costume _ name => '/' :: ("costumes".toList ++ '/' :: name.toList)
  | animation _ name => '/' :: ("animations".toList ++ '/' :: name.toList)

theorem toList_locator (id : ResourceId) :
    id.locator.toList = scheme.toList ++ (id.folder ++ '/' :: (id.owner ++ id.rest)) := by
  rw [locator, String.toList_append, String.toList_intercalate]
  cases id <;> simp [parts, folder, owner, spriteNamed?, rest, List.intercalate]

theorem slash_not_mem_folder (id : ResourceId) : '/' ∉ id.folder := by
  cases id <;> simp [folder, parts]

theorem head?_rest (h : id.spriteNamed?.isSome = true) : ∀ c ∈ id.rest.head?, c = '/' := by
  cases id <;> simp_all [spriteNamed?, rest]

theorem isSome_spriteNamed?_of_folder (h : id.folder = id'.folder) :
    id.spriteNamed?.isSome = id'.spriteNamed?.isSome := by
  cases id <;> cases id' <;> simp_all [folder, parts, spriteNamed?]

theorem owner_of_isNone (h : id.spriteNamed?.isSome = false) : id.owner = [] := by
  cases id <;> simp_all [spriteNamed?, owner]

theorem eq_of_parts (hfolder : id.folder = id'.folder) (howner : id.owner = id'.owner)
    (hrest : id.rest = id'.rest) : id = id' := by
  cases id <;> cases id' <;> simp_all [folder, parts, owner, spriteNamed?, rest, String.toList_inj]

-- Resources with one locator are the same, if no sprite in them has a slash in its name.
theorem locator_injective (hid : '/' ∉ id.owner) (hid' : '/' ∉ id'.owner)
    (h : id.locator = id'.locator) : id = id' := by
  have htext : id.folder ++ '/' :: (id.owner ++ id.rest) = id'.folder ++ '/' :: (id'.owner ++ id'.rest) := by
    have htext := congrArg String.toList h
    rwa [toList_locator, toList_locator, List.append_cancel_left_eq] at htext
  obtain ⟨hfolder, hbehind⟩ :=
    append_inj_of_not_mem id.slash_not_mem_folder id'.slash_not_mem_folder (by simp) (by simp) htext
  have hbehind : id.owner ++ id.rest = id'.owner ++ id'.rest := (List.cons.inj hbehind).2
  have hnamed := isSome_spriteNamed?_of_folder hfolder
  cases hsome : id.spriteNamed?.isSome with
  | true =>
      obtain ⟨howner, hrest⟩ :=
        append_inj_of_not_mem hid hid' (head?_rest hsome) (head?_rest (hnamed ▸ hsome)) hbehind
      exact eq_of_parts hfolder howner hrest
  | false =>
      have howner := owner_of_isNone hsome
      have howner' := owner_of_isNone (hnamed ▸ hsome)
      rw [howner, howner', List.nil_append, List.nil_append] at hbehind
      exact eq_of_parts hfolder (howner.trans howner'.symm) hbehind

end ResourceId

namespace AssetReader

-- No folder has a slash in its name.
def Plain (reader : AssetReader) : Prop :=
  ∀ path names, reader.foldersIn path = .ok names → ∀ name ∈ names, '/' ∉ name.toList

theorem plain_ofFiles (files : List (String × String)) : (ofFiles files).Plain := by
  intro path names hnames name hname
  obtain rfl := Except.ok.inj hnames
  rw [Text.sortedUnique, List.mem_eraseDups, List.mem_mergeSort] at hname
  obtain ⟨file, -, hfile⟩ := List.mem_filterMap.mp hname
  obtain ⟨rest, -, hrest⟩ := Option.bind_eq_some_iff.mp hfile
  unfold firstFolder? at hrest
  split at hrest
  case h_1 folder _ _ hsplit =>
      obtain rfl := Option.some.inj hrest
      exact Text.not_mem_of_mem_splitText (hsplit ▸ List.mem_cons_self)
  case h_2 => cases hrest

end AssetReader

namespace Catalog

variable {reader : AssetReader} {root name : String} {c : Catalog} {id id' : ResourceId}

-- What is listed for a kind, and for a sprite where the kind needs one, is there.
theorem contains_of_mem_ids {kind : ResourceKind} {owner? : Option String} (h : id ∈ c.ids kind owner?) :
    c.contains id = true := by
  have hnamed {s : SpriteAsset} (hs : owner?.bind c.sprite? = some s) : c.sprite? s.name = some s := by
    obtain ⟨owner, -, hfound⟩ := Option.bind_eq_some_iff.mp hs
    obtain rfl : s.name = owner := by simpa using List.find?_some hfound
    exact hfound
  cases kind with
  | spriteCostume =>
      cases hs : owner?.bind c.sprite? with
      | none => simp [ids, hs] at h
      | some s =>
          obtain ⟨name, hname, rfl⟩ : ∃ name ∈ s.costumes, .costume s.name name = id := by
            simpa [ids, hs] using h
          simp [contains, hnamed hs, hname]
  | spriteAnimation =>
      cases hs : owner?.bind c.sprite? with
      | none => simp [ids, hs] at h
      | some s =>
          obtain ⟨name, hname, rfl⟩ : ∃ name ∈ s.animations, .animation s.name name = id := by
            simpa [ids, hs] using h
          simp [contains, hnamed hs, hname]
  | sprite =>
      obtain ⟨s, hs, rfl⟩ := List.mem_map.mp h
      simpa [contains, sprite?] using ⟨s, hs, rfl⟩
  | _ =>
      obtain ⟨name, hname, rfl⟩ := List.mem_map.mp h
      simpa [contains] using hname

-- A resource that is there names no sprite but those of the catalog.
theorem mem_sprites_of_contains {owner : String} (h : c.contains id = true)
    (howner : id.spriteNamed? = some owner) : owner ∈ c.sprites.map (·.name) := by
  have hfound {s : SpriteAsset} {owner : String} (hs : c.sprite? owner = some s) :
      owner ∈ c.sprites.map (·.name) := by
    obtain rfl : s.name = owner := by simpa using List.find?_some hs
    exact List.mem_map_of_mem (List.mem_of_find?_eq_some hs)
  cases id with
  | sprite name =>
      cases howner
      obtain ⟨s, hs⟩ := Option.isSome_iff_exists.mp h
      exact hfound hs
  | costume sprite name =>
      cases howner
      obtain ⟨s, hs, -⟩ := (Option.any_eq_true _ _).mp h
      exact hfound hs
  | animation sprite name =>
      cases howner
      obtain ⟨s, hs, -⟩ := (Option.any_eq_true _ _).mp h
      exact hfound hs
  | _ => cases howner

-- Sprites are named after their folders.
theorem mem_of_mem_names_foldl_enter {names : List String} {sprites : List SpriteAsset}
    (h : name ∈ (names.foldl (enter reader root) sprites).map (·.name)) :
    name ∈ sprites.map (·.name) ∨ name ∈ names := by
  induction names generalizing sprites with
  | nil => exact .inl h
  | cons folder rest ih =>
      rcases ih h with hentered | hrest
      · unfold enter at hentered
        split at hentered
        case h_1 s hs =>
            rw [names_putSprite, name_of_spriteIn? hs] at hentered
            split at hentered
            · exact .inl hentered
            · rw [List.mem_append, List.mem_singleton] at hentered
              rcases hentered with hold | rfl
              · exact .inl hold
              · exact .inr List.mem_cons_self
        case h_2 => exact .inl hentered
      · exact .inr (List.mem_cons_of_mem folder hrest)

theorem not_mem_owner_of_loaded (hplain : reader.Plain) (hload : load reader root = .ok c)
    (h : c.contains id = true) : '/' ∉ id.owner := by
  unfold ResourceId.owner
  cases hnamed : id.spriteNamed? with
  | none => simp
  | some owner =>
      have hmem := mem_sprites_of_contains h hnamed
      obtain ⟨sounds, sprites, -, hsprites, rfl⟩ := load_eq_ok_iff.mp hload
      have hfolder := (mem_of_mem_names_foldl_enter hmem).resolve_left (by simp)
      exact hplain _ sprites hsprites owner hfolder

-- Where folders have no slashes in their names, as in files in memory, no two resources of a catalog
-- share a locator; and the locator of a resource is read back just where the names in it are components.
theorem locators_of_loaded (hplain : reader.Plain) (hload : load reader root = .ok c)
    {kind kind' : ResourceKind} {owner? owner'? : Option String} (hid : id ∈ c.ids kind owner?)
    (hid' : id' ∈ c.ids kind' owner'?) :
    (ResourceId.parse id.locator = .ok id ↔ id.IsNamed) ∧ (id.locator = id'.locator → id = id') := by
  refine ⟨ResourceId.parse_eq_ok_iff.trans (and_iff_right rfl), ?_⟩
  exact ResourceId.locator_injective (not_mem_owner_of_loaded hplain hload (contains_of_mem_ids hid))
    (not_mem_owner_of_loaded hplain hload (contains_of_mem_ids hid'))

-- A backdrop can have a slash in its name, and then its locator is none that is read.
example :
    (readIndex? "\x7b\"backdrops\": [\x7b\"name\": \"day/night\"\x7d]\x7d").map (·.1) = some
    ["day/night"] := by cbv

example : ResourceId.parse (ResourceId.backdrop "day/night").locator =
    .error (.malformed "spx://resources/backdrops/day/night") := by cbv

end Catalog

end SpriteScript
