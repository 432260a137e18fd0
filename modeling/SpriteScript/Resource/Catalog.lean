import SpriteScript.Json.Reader
import SpriteScript.Json.Number
import SpriteScript.Json.Record
import SpriteScript.Resource.Assets
import SpriteScript.Resource.Id

-- The resources of a project, as its asset files list them:
--   index.json                  backdrops, and the widgets among the things on the stage
--   sounds/NAME/                one folder for each sound
--   sprites/NAME/index.json     the costumes and animations of a sprite
namespace SpriteScript

structure SpriteAsset where
  name : String
  costumes : List String
  animations : List String
deriving DecidableEq, Repr, Inhabited

-- A file that was left out because it could not be read.
structure SkippedAsset where
  path : String
  message : String
deriving DecidableEq, Repr, Inhabited

structure Catalog where
  root : String
  backdrops : List String := []
  sounds : List String := []
  sprites : List SpriteAsset := []
  widgets : List String := []
  skipped : List SkippedAsset := []
deriving DecidableEq, Repr, Inhabited

namespace Catalog

def sprite? (c : Catalog) (name : String) : Option SpriteAsset := c.sprites.find? (·.name == name)

def contains (c : Catalog) : ResourceId → Bool
  | .backdrop name => c.backdrops.contains name
  | .sound name => c.sounds.contains name
  | .sprite name => (c.sprite? name).isSome
  | .costume owner name => (c.sprite? owner).any (·.costumes.contains name)
  | .animation owner name => (c.sprite? owner).any (·.animations.contains name)
  | .widget name => c.widgets.contains name

-- The resources of a kind. Those that belong to a sprite are listed for one sprite.
def ids (c : Catalog) (kind : ResourceKind) (owner? : Option String) : List ResourceId :=
  match kind with
  | .backdrop => c.backdrops.map .backdrop
  | .sound => c.sounds.map .sound
  | .sprite => c.sprites.map (.sprite ·.name)
  | .widget => c.widgets.map .widget
  | .spriteCostume =>
      match owner?.bind c.sprite? with
      | some s => s.costumes.map (.costume s.name)
      | none => []
  | .spriteAnimation =>
      match owner?.bind c.sprite? with
      | some s => s.animations.map (.animation s.name)
      | none => []

def isEmpty (c : Catalog) : Bool :=
  c.backdrops.isEmpty && c.sounds.isEmpty && c.sprites.isEmpty && c.widgets.isEmpty

-- Reading the index files

-- Something on the stage: a sprite, given by its name, or a widget.
inductive StageEntry where
  | sprite (name : String)
  | widget (name : String)
deriving DecidableEq, Repr

def nameOf? (x : Json) : Option String :=
  match Json.record? ["name"] x with
  | some [some (.str name)] => some name
  | _ => none

def namesOf? (x : Json) : Option (List String) := do
  let items ← x.arr?
  items.mapM nameOf?

def stageEntry? (x : Json) : Option StageEntry :=
  if !x.isKeepable 2 then none
  else
    match x with
    | .str name => some (.sprite name)
    | .obj _ =>
        match Json.record? ["type", "name"] x with
        | some [some (.str _), some (.str name)] => some (.widget name)
        | _ => none
    | _ => none

-- The backdrops and the widgets of the project's index.
def readIndex? (text : String) : Option (List String × List String) := do
  let x ← Json.parse? text
  match ← Json.record? ["backdrops", "zorder"] x with
  | [backdrops, zorder] =>
      let backdrops ← (backdrops.map namesOf?).getD (some [])
      let zorder ←
        match zorder with
        | some z => do (← z.arr?).mapM stageEntry?
        | none => some []
      let widgets := zorder.filterMap fun
        | .widget name => some name
        | .sprite _ => none
      return (backdrops.eraseDups, widgets.eraseDups)
  | _ => none

-- The costumes and the animations of a sprite's index.
def readSprite? (text : String) : Option (List String × List String) := do
  let x ← Json.parse? text
  match ← Json.record? ["costumes", "fAnimations"] x with
  | [costumes, animations] =>
      let costumes ← (costumes.map namesOf?).getD (some [])
      let animations ←
        match animations with
        | some (.obj fields) =>
            if fields.all fun (_, value) => value.isKeepable 2 then some (fields.map (·.1)) else none
        | some _ => none
        | none => some []
      return (costumes.eraseDups, animations.eraseDups)
  | _ => none

-- What a file holds, or why it is left out; nothing when there is no file.
def readWith {α : Type} (reader : AssetReader) (read? : String → Option α) (path : String) :
    Except AssetError (Option α) := do
  match ← reader.textOf path with
  | none => return none
  | some text =>
      match read? text with
      | some value => return some value
      | none => throw (.malformed path (reader.faultIn path text))

def skip (c : Catalog) (e : AssetError) : Catalog :=
  { c with skipped := c.skipped ++ [⟨e.path, e.message⟩] }

def underRoot (root path : String) : String := if root.isEmpty then path else root ++ "/" ++ path

-- The backdrops and the widgets, as the index file of the project lists them.
def addIndex (reader : AssetReader) (c : Catalog) : Catalog :=
  match readWith reader readIndex? (underRoot c.root "index.json") with
  | .ok (some (backdrops, widgets)) => { c with backdrops, widgets }
  | .ok none => c
  | .error e => c.skip e

-- Puts a sprite at the end; one of the same name that is there already is replaced.
def putSprite (s : SpriteAsset) : List SpriteAsset → List SpriteAsset
  | [] => [s]
  | t :: rest => if t.name == s.name then s :: rest else t :: putSprite s rest

def addSprite (reader : AssetReader) (c : Catalog) (name : String) : Catalog :=
  match readWith reader readSprite? (underRoot c.root ("sprites/" ++ name ++ "/index.json")) with
  | .ok (some (costumes, animations)) =>
      { c with sprites := putSprite ⟨name, costumes, animations⟩ c.sprites }
  | .ok none => c
  | .error e => c.skip e

-- A file that cannot be read is left out and recorded; a folder that cannot be listed is an
-- error. No files at all make an empty catalog.
def load (reader : AssetReader) (root : String) : Except AssetError Catalog := do
  let root := Text.dropTrailing '/' root
  let sounds ← reader.foldersIn (underRoot root "sounds")
  let sprites ← reader.foldersIn (underRoot root "sprites")
  let indexed := addIndex reader { root }
  return sprites.foldl (addSprite reader) { indexed with sounds := sounds.eraseDups }

end Catalog

end SpriteScript
