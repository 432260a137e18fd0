import Mathlib.Data.List.DropRight
import SpriteScript.Resource.Catalog

-- Loading a catalog. It knows the folder that it was read from, and files in memory always make one. A
-- file that cannot be read is left out and recorded; whatever becomes of it, the rest of the catalog is
-- the same, in the same order.
namespace SpriteScript

theorem Text.dropTrailing_dropTrailing (c : Char) (text : String) :
    dropTrailing c (dropTrailing c text) = dropTrailing c text := by
  rw [dropTrailing, dropTrailing, String.toList_ofList, List.reverse_reverse, List.dropWhile_idempotent]

namespace AssetReader

-- The readers find the same folders, and the same files with the same faults but for the one at the path.
structure AgreeBut (path : String) (reader reader' : AssetReader) : Prop where
  folders : reader.foldersIn = reader'.foldersIn
  texts : ∀ other, other ≠ path → reader.textOf other = reader'.textOf other
  faults : ∀ other, other ≠ path → reader.faultIn other = reader'.faultIn other

-- The errors of reading the file at the path name the path.
def Names (reader : AssetReader) (path : String) : Prop := ∀ e, reader.textOf path = .error e → e.path = path

end AssetReader

namespace Catalog

variable {reader reader' : AssetReader} {root name : String} {c : Catalog}

-- Paths

-- The index file of a project, and that of a sprite in it.
def indexPath (root : String) : String := underRoot root "index.json"

def spritePath (root name : String) : String := underRoot root ("sprites/" ++ name ++ "/index.json")

theorem underRoot_inj {path path' : String} : underRoot root path = underRoot root path' ↔ path = path' := by
  unfold underRoot
  split <;> simp [String.ext_iff]

theorem spritePath_inj {other : String} : spritePath root other = spritePath root name ↔ other = name := by
  rw [spritePath, spritePath, underRoot_inj]
  simp [String.ext_iff]

theorem indexPath_ne_spritePath : indexPath root ≠ spritePath root name := by
  rw [indexPath, spritePath, Ne, underRoot_inj]
  simp [String.ext_iff]

-- What is read

-- What is recorded of a file: why it is left out, if it is.
def recordsOf {α : Type} : Except AssetError (Option α) → List SkippedAsset
  | .ok _ => []
  | .error e => [⟨e.path, e.message⟩]

def readIndex (reader : AssetReader) (root : String) :
    Except AssetError (Option (List String × List String)) :=
  readWith reader readIndex? (indexPath root)

def readSprite (reader : AssetReader) (root name : String) :
    Except AssetError (Option (List String × List String)) :=
  readWith reader readSprite? (spritePath root name)

-- The entry of a sprite, if there is something to enter.
def spriteIn? (reader : AssetReader) (root name : String) : Option SpriteAsset :=
  match readSprite reader root name with
  | .ok (some (costumes, animations)) => some ⟨name, costumes, animations⟩
  | _ => none

theorem name_of_spriteIn? {s : SpriteAsset} (h : spriteIn? reader root name = some s) : s.name = name := by
  unfold spriteIn? at h
  split at h <;> cases h
  rfl

theorem length_recordsOf_le {α : Type} (read : Except AssetError (Option α)) :
    (recordsOf read).length ≤ 1 := by
  cases read <;> simp [recordsOf]

theorem path_of_mem_recordsOf {α : Type} {read? : String → Option α} {path : String} {x : SkippedAsset}
    (h : reader.Names path) (hx : x ∈ recordsOf (readWith reader read? path)) : x.path = path := by
  unfold readWith at hx
  cases hread : reader.textOf path with
  | error e =>
      rw [hread] at hx
      obtain rfl := List.mem_singleton.mp hx
      exact h e hread
  | ok text? =>
      rw [hread] at hx
      cases text? with
      | none => cases hx
      | some text =>
          cases hvalue : read? text with
          | none =>
              simp only [bind, Except.bind, hvalue] at hx
              obtain rfl := List.mem_singleton.mp hx
              rfl
          | some value =>
              simp only [bind, Except.bind, hvalue] at hx
              cases hx

theorem readWith_congr {α : Type} {read? : String → Option α} {path other : String}
    (h : reader.AgreeBut path reader') (hother : other ≠ path) :
    readWith reader read? other = readWith reader' read? other := by
  rw [readWith, readWith, h.texts other hother, h.faults other hother]

-- Sprites

-- The sprites with one more, if it has an entry.
def enter (reader : AssetReader) (root : String) (sprites : List SpriteAsset) (name : String) :
    List SpriteAsset :=
  match spriteIn? reader root name with
  | some s => putSprite s sprites
  | none => sprites

theorem filter_putSprite_self (s : SpriteAsset) (sprites : List SpriteAsset) :
    (putSprite s sprites).filter (·.name != s.name) = sprites.filter (·.name != s.name) := by
  induction sprites with
  | nil => simp [putSprite]
  | cons t rest ih =>
      rw [putSprite]
      split
      case isTrue hname => simp [beq_iff_eq.mp hname]
      case isFalse hname => rw [List.filter_cons, List.filter_cons, ih]

theorem filter_putSprite_other {s : SpriteAsset} (h : s.name ≠ name) (sprites : List SpriteAsset) :
    (putSprite s sprites).filter (·.name != name) = putSprite s (sprites.filter (·.name != name)) := by
  induction sprites with
  | nil => simp [putSprite, h]
  | cons t rest ih =>
      rw [putSprite]
      split
      case isTrue hname =>
          simp [putSprite, h, beq_iff_eq.mp hname]
      case isFalse hname =>
          rw [List.filter_cons, List.filter_cons, ih]
          split
          · rw [putSprite, if_neg hname]
          · rfl

-- Which sprites there are but for one, the folders of the others decide.
theorem filter_foldl_enter (names : List String) (sprites : List SpriteAsset) :
    (names.foldl (enter reader root) sprites).filter (·.name != name) =
      (names.filter (· != name)).foldl (enter reader root) (sprites.filter (·.name != name)) := by
  induction names generalizing sprites with
  | nil => rfl
  | cons other rest ih =>
      rw [List.foldl_cons, ih, List.filter_cons]
      by_cases hname : other = name
      · have hsame :
            (enter reader root sprites other).filter (·.name != name) = sprites.filter (·.name != name) := by
          unfold enter
          split
          case h_1 s hs =>
              obtain rfl := (name_of_spriteIn? hs).trans hname
              exact filter_putSprite_self s sprites
          case h_2 => rfl
        rw [hsame, if_neg (by simp [hname])]
      · have hother : (enter reader root sprites other).filter (·.name != name) =
            enter reader root (sprites.filter (·.name != name)) other := by
          unfold enter
          split
          case h_1 s hs => exact filter_putSprite_other (name_of_spriteIn? hs ▸ hname) sprites
          case h_2 => rfl
        rw [hother, if_pos (by simp [hname]), List.foldl_cons]

theorem names_putSprite (s : SpriteAsset) (sprites : List SpriteAsset) :
    (putSprite s sprites).map (·.name) =
      if s.name ∈ sprites.map (·.name) then sprites.map (·.name) else sprites.map (·.name) ++ [s.name] := by
  induction sprites with
  | nil => rfl
  | cons t rest ih =>
      rw [putSprite]
      by_cases hname : t.name = s.name
      · simp [hname]
      · rw [if_neg (by simpa using hname), List.map_cons, ih]
        split <;> simp_all [Ne.symm hname]

-- No two entries have one name.
theorem nodup_foldl_enter (names : List String) {sprites : List SpriteAsset}
    (h : (sprites.map (·.name)).Nodup) :
    ((names.foldl (enter reader root) sprites).map (·.name)).Nodup := by
  induction names generalizing sprites with
  | nil => exact h
  | cons name rest ih =>
      refine ih ?_
      unfold enter
      split
      case h_1 s _ =>
          rw [names_putSprite]
          split
          case isTrue => exact h
          case isFalse hnew => exact List.nodup_append.mpr ⟨h, by simp, by simp_all⟩
      case h_2 => exact h

-- Loading

-- What the files make of the folders that are listed.
def loaded (reader : AssetReader) (root : String) (sounds sprites : List String) : Catalog where
  root
  backdrops := match readIndex reader root with
    | .ok (some (backdrops, _)) => backdrops
    | _ => []
  sounds := sounds.eraseDups
  sprites := sprites.foldl (enter reader root) []
  widgets := match readIndex reader root with
    | .ok (some (_, widgets)) => widgets
    | _ => []
  skipped := recordsOf (readIndex reader root) ++ sprites.flatMap fun name =>
    recordsOf (readSprite reader root name)

theorem addSprite_eq (c : Catalog) (name : String) : addSprite reader c name =
    { c with
      sprites := enter reader c.root c.sprites name
      skipped := c.skipped ++ recordsOf (readSprite reader c.root name) } := by
  unfold addSprite enter spriteIn? readSprite spritePath
  rcases readWith reader readSprite? (underRoot c.root ("sprites/" ++ name ++ "/index.json")) with
    e | _ | ⟨costumes, animations⟩ <;> simp [skip, recordsOf]

theorem foldl_addSprite_eq (names : List String) (c : Catalog) : names.foldl (addSprite reader) c =
    { c with
      sprites := names.foldl (enter reader c.root) c.sprites
      skipped := c.skipped ++ names.flatMap fun name => recordsOf (readSprite reader c.root name) } := by
  induction names generalizing c with
  | nil => simp
  | cons name rest ih =>
      rw [List.foldl_cons, ih, addSprite_eq]
      simp

theorem loaded_eq (reader : AssetReader) (root : String) (sounds sprites : List String) :
    loaded reader root sounds sprites =
      sprites.foldl (addSprite reader) { addIndex reader { root } with sounds := sounds.eraseDups } := by
  have hindex : addIndex reader { root } = { loaded reader root [] [] with sounds := [] } := by
    unfold addIndex loaded readIndex indexPath
    rcases readWith reader readIndex? (underRoot root "index.json") with e | _ | ⟨backdrops, widgets⟩ <;>
      simp [skip, recordsOf]
  rw [foldl_addSprite_eq, hindex]
  simp [loaded]

-- What there is to list decides whether there is a catalog; the files decide what is in it.
theorem load_eq_ok_iff : load reader root = .ok c ↔ ∃ sounds sprites,
    reader.foldersIn (underRoot (Text.dropTrailing '/' root) "sounds") = .ok sounds ∧
    reader.foldersIn (underRoot (Text.dropTrailing '/' root) "sprites") = .ok sprites ∧
    c = loaded reader (Text.dropTrailing '/' root) sounds sprites := by
  simp only [loaded_eq]
  unfold load
  cases hsounds : reader.foldersIn (underRoot (Text.dropTrailing '/' root) "sounds") with
  | error e => simp [bind, Except.bind, hsounds]
  | ok sounds =>
      cases hsprites : reader.foldersIn (underRoot (Text.dropTrailing '/' root) "sprites") with
      | error e => simp [bind, Except.bind, hsounds, hsprites]
      | ok sprites => simp [bind, Except.bind, pure, Except.pure, hsounds, hsprites, eq_comm]

theorem load_eq_error_iff {e : AssetError} : load reader root = .error e ↔
    reader.foldersIn (underRoot (Text.dropTrailing '/' root) "sounds") = .error e ∨
    (∃ sounds, reader.foldersIn (underRoot (Text.dropTrailing '/' root) "sounds") = .ok sounds) ∧
      reader.foldersIn (underRoot (Text.dropTrailing '/' root) "sprites") = .error e := by
  unfold load
  cases hsounds : reader.foldersIn (underRoot (Text.dropTrailing '/' root) "sounds") with
  | error e => simp [bind, Except.bind, hsounds]
  | ok sounds =>
      cases hsprites : reader.foldersIn (underRoot (Text.dropTrailing '/' root) "sprites") with
      | error e => simp [bind, Except.bind, hsounds, hsprites]
      | ok sprites => simp [bind, Except.bind, pure, Except.pure, hsounds, hsprites]

theorem root_load (h : load reader root = .ok c) : c.root = Text.dropTrailing '/' root := by
  obtain ⟨sounds, sprites, -, -, rfl⟩ := load_eq_ok_iff.mp h
  rfl

-- Reading once more from the folder of a catalog gives the same catalog.
theorem load_root (h : load reader root = .ok c) : load reader c.root = .ok c := by
  rw [← h, root_load h]
  unfold load
  rw [Text.dropTrailing_dropTrailing]

theorem load_ofFiles (files : List (String × String)) (root : String) :
    ∃ c, load (.ofFiles files) root = .ok c := ⟨_, rfl⟩

-- Two catalogs

-- Both or neither could be read, and what was read is alike.
inductive Alike (R : Catalog → Catalog → Prop) : Except AssetError Catalog → Except AssetError Catalog → Prop
  | loaded {c c' : Catalog} : R c c' → Alike R (.ok c) (.ok c')
  | failed (e : AssetError) : Alike R (.error e) (.error e)

-- A file is recorded once at most, and under its path if the errors of the reader name it.
def RecordsOne (reader : AssetReader) (path : String) (records : List SkippedAsset) : Prop :=
  records.length ≤ 1 ∧ (reader.Names path → ∀ x ∈ records, x.path = path)

-- The catalogs differ in one sprite at most, and in what is recorded of its file.
structure SpriteApart (reader reader' : AssetReader) (name : String) (c c' : Catalog) : Prop where
  root : c.root = c'.root
  backdrops : c.backdrops = c'.backdrops
  sounds : c.sounds = c'.sounds
  widgets : c.widgets = c'.widgets
  sprites : c.sprites.filter (·.name != name) = c'.sprites.filter (·.name != name)
  once : (c.sprites.map (·.name)).Nodup ∧ (c'.sprites.map (·.name)).Nodup
  skipped : ∃ (before : List SkippedAsset) (folders : List String),
    reader.foldersIn (underRoot c.root "sprites") = .ok folders ∧
    c.skipped = before ++ folders.flatMap (fun folder => recordsOf (readSprite reader c.root folder)) ∧
    c'.skipped = before ++ folders.flatMap (fun folder => recordsOf (readSprite reader' c.root folder)) ∧
    ∀ folder, folder ≠ name → readSprite reader c.root folder = readSprite reader' c.root folder
  records : RecordsOne reader (spritePath c.root name) (recordsOf (readSprite reader c.root name)) ∧
    RecordsOne reader' (spritePath c.root name) (recordsOf (readSprite reader' c.root name))

-- The catalogs differ in backdrops and widgets at most, and in what is recorded of the project's index.
structure IndexApart (reader reader' : AssetReader) (c c' : Catalog) : Prop where
  root : c.root = c'.root
  sounds : c.sounds = c'.sounds
  sprites : c.sprites = c'.sprites
  skipped : ∃ behind, c.skipped = recordsOf (readIndex reader c.root) ++ behind ∧
    c'.skipped = recordsOf (readIndex reader' c.root) ++ behind
  records : RecordsOne reader (indexPath c.root) (recordsOf (readIndex reader c.root)) ∧
    RecordsOne reader' (indexPath c.root) (recordsOf (readIndex reader' c.root))

theorem recordsOne {α : Type} (read? : String → Option α) (path : String) :
    RecordsOne reader path (recordsOf (readWith reader read? path)) :=
  ⟨length_recordsOf_le _, fun h _ hx => path_of_mem_recordsOf h hx⟩

-- Readers that find the same folders read a catalog both or neither.
theorem alike_load {R : Catalog → Catalog → Prop} (hfolders : reader.foldersIn = reader'.foldersIn)
    (h : ∀ sounds sprites, reader.foldersIn (underRoot (Text.dropTrailing '/' root) "sprites") = .ok sprites →
      R (loaded reader (Text.dropTrailing '/' root) sounds sprites)
      (loaded reader' (Text.dropTrailing '/' root) sounds sprites)) :
    Alike R (load reader root) (load reader' root) := by
  cases hload : load reader root with
  | ok c =>
      obtain ⟨sounds, sprites, hsounds, hsprites, rfl⟩ := load_eq_ok_iff.mp hload
      have hload' : load reader' root = .ok (loaded reader' (Text.dropTrailing '/' root) sounds sprites) :=
        load_eq_ok_iff.mpr ⟨sounds, sprites, hfolders ▸ hsounds, hfolders ▸ hsprites, rfl⟩
      rw [hload']
      exact .loaded (h sounds sprites hsprites)
  | error e =>
      have hload' : load reader' root = .error e := by
        rw [load_eq_error_iff, ← hfolders]
        exact load_eq_error_iff.mp hload
      rw [hload']
      exact .failed e

theorem spriteApart_loaded (h : reader.AgreeBut (spritePath root name) reader') (sounds sprites : List String)
    (hsprites : reader.foldersIn (underRoot root "sprites") = .ok sprites) :
    SpriteApart reader reader' name (loaded reader root sounds sprites)
    (loaded reader' root sounds sprites) := by
  have hindex : readIndex reader root = readIndex reader' root :=
    readWith_congr h indexPath_ne_spritePath
  have hsprite (folder : String) (hne : folder ≠ name) :
      readSprite reader root folder = readSprite reader' root folder :=
    readWith_congr h (mt spritePath_inj.mp hne)
  have henter (entered : List SpriteAsset) (folder : String) (hmem : folder ∈ sprites.filter (· != name)) :
      enter reader root entered folder = enter reader' root entered folder := by
    rw [enter, enter, spriteIn?, spriteIn?, hsprite folder (by simpa using (List.mem_filter.mp hmem).2)]
  exact {
    root := rfl
    backdrops := by rw [loaded, loaded, hindex]
    sounds := rfl
    widgets := by rw [loaded, loaded, hindex]
    sprites := by
      rw [loaded, loaded, filter_foldl_enter, filter_foldl_enter, List.filter_nil]
      exact List.foldl_ext _ _ _ henter
    once := ⟨nodup_foldl_enter sprites List.nodup_nil, nodup_foldl_enter sprites List.nodup_nil⟩
    skipped := ⟨recordsOf (readIndex reader root), sprites, hsprites, rfl, by rw [hindex]; rfl, hsprite⟩
    records := ⟨recordsOne _ _, recordsOne _ _⟩ }

theorem indexApart_loaded (h : reader.AgreeBut (indexPath root) reader') (sounds sprites : List String) :
    IndexApart reader reader' (loaded reader root sounds sprites) (loaded reader' root sounds sprites) := by
  have hsprite : readSprite reader root = readSprite reader' root :=
    funext fun _ => readWith_congr h indexPath_ne_spritePath.symm
  have henter : enter reader root = enter reader' root := by
    funext entered folder
    rw [enter, enter, spriteIn?, spriteIn?, hsprite]
  exact {
    root := rfl
    sounds := rfl
    sprites := by rw [loaded, loaded, henter]
    skipped :=
      ⟨sprites.flatMap fun folder => recordsOf (readSprite reader root folder), rfl, by rw [hsprite]; rfl⟩
    records := ⟨recordsOne _ _, recordsOne _ _⟩ }

-- There is no catalog just where the sounds or the sprites cannot be listed. What the index of a sprite
-- holds, or that it cannot be read, is seen in the entry of that sprite and in one record, and what the
-- index of the project holds in the backdrops, the widgets and one record; all else stays as it is.
theorem load_isolates (reader : AssetReader) (root : String) :
    ((∃ e, load reader root = .error e) ↔
      (∃ e, reader.foldersIn (underRoot (Text.dropTrailing '/' root) "sounds") = .error e) ∨
      ∃ e, reader.foldersIn (underRoot (Text.dropTrailing '/' root) "sprites") = .error e) ∧
    (∀ reader' name, reader.AgreeBut (spritePath (Text.dropTrailing '/' root) name) reader' →
      Alike (SpriteApart reader reader' name) (load reader root) (load reader' root)) ∧
    ∀ reader', reader.AgreeBut (indexPath (Text.dropTrailing '/' root)) reader' →
      Alike (IndexApart reader reader') (load reader root) (load reader' root) := by
  refine ⟨?_, fun _ _ h => alike_load h.folders (spriteApart_loaded h),
    fun _ h => alike_load h.folders fun sounds sprites _ => indexApart_loaded h sounds sprites⟩
  simp only [load_eq_error_iff]
  cases reader.foldersIn (underRoot (Text.dropTrailing '/' root) "sounds") <;> simp

-- A project with two sprites, given the index of the project and that of the second sprite.
def twoSprites (index other : String) : AssetReader :=
  .ofFiles [("assets/sprites/Fido/index.json", "\x7b\x7d"), ("assets/sprites/Other/index.json", other),
    ("assets/index.json", index)]

theorem foldersIn_twoSprites (index other index' other' : String) :
    (twoSprites index other).foldersIn = (twoSprites index' other').foldersIn := by
  funext path
  simp only [twoSprites, AssetReader.ofFiles, List.filterMap_cons]

-- One index file is cut off after the first character.
theorem load_isolates_cut :
    Alike (SpriteApart (twoSprites "\x7b\x7d" "\x7b") (twoSprites "\x7b\x7d" "\x7b\x7d") "Other")
      (load (twoSprites "\x7b\x7d" "\x7b") "assets/") (load (twoSprites "\x7b\x7d" "\x7b\x7d") "assets/") ∧
    Alike (IndexApart (twoSprites "\x7b" "\x7b\x7d") (twoSprites "\x7b\x7d" "\x7b\x7d"))
      (load (twoSprites "\x7b" "\x7b\x7d") "assets/")
      (load (twoSprites "\x7b\x7d" "\x7b\x7d") "assets/") := by
  have hsprite : spritePath (Text.dropTrailing '/' "assets/") "Other" =
      "assets/sprites/Other/index.json" := by decide
  have hindex : indexPath (Text.dropTrailing '/' "assets/") = "assets/index.json" := by decide
  refine ⟨(load_isolates _ _).2.1 _ "Other" ⟨foldersIn_twoSprites .., fun path hpath => ?_, fun _ _ => rfl⟩,
    (load_isolates _ _).2.2 _ ⟨foldersIn_twoSprites .., fun path hpath => ?_, fun _ _ => rfl⟩⟩
  · have hother : ("assets/sprites/Other/index.json" == path) = false := by
      simpa [hsprite] using Ne.symm hpath
    simp [twoSprites, AssetReader.ofFiles, List.find?_cons, hother]
  · have hother : ("assets/index.json" == path) = false := by simpa [hindex] using Ne.symm hpath
    simp [twoSprites, AssetReader.ofFiles, List.find?_cons, hother]

end Catalog

end SpriteScript
