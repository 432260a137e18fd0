import SpriteScript.Text.Split

-- The assets a program can name, and the locators that stand for them outside of it.
namespace SpriteScript

inductive ResourceKind where
  | backdrop | sound | sprite | spriteCostume | spriteAnimation | widget
deriving DecidableEq, Repr, Inhabited

namespace ResourceKind

-- The word for the kind in a message.
def word : ResourceKind → String
  | backdrop => "backdrop"
  | sound => "sound"
  | sprite => "sprite"
  | spriteCostume => "sprite costume"
  | spriteAnimation => "sprite animation"
  | widget => "widget"

-- The name of the kind in exchanged data.
def key : ResourceKind → String
  | backdrop => "backdrop"
  | sound => "sound"
  | sprite => "sprite"
  | spriteCostume => "spriteCostume"
  | spriteAnimation => "spriteAnimation"
  | widget => "widget"

def ofKey? (key : String) : Option ResourceKind :=
  [backdrop, sound, sprite, spriteCostume, spriteAnimation, widget].find? (·.key == key)

-- Costumes and animations belong to a sprite.
def isSpriteScoped : ResourceKind → Bool
  | spriteCostume | spriteAnimation => true
  | _ => false

end ResourceKind

inductive ResourceId where
  | backdrop (name : String)
  | sound (name : String)
  | sprite (name : String)
  | costume (sprite name : String)
  | animation (sprite name : String)
  | widget (name : String)
deriving DecidableEq, Repr, Inhabited, Hashable

-- Why a text is no locator.
inductive LocatorError where
  | scheme (text : String)
  | unknownKind (text : String)
  | malformed (text : String)
deriving DecidableEq, Repr, Inhabited

namespace LocatorError

def message : LocatorError → String
  | scheme text => "not a resource locator: " ++ text
  | unknownKind text => "unknown resource kind in " ++ text
  | malformed text => "malformed resource locator: " ++ text

end LocatorError

namespace ResourceId

def kind : ResourceId → ResourceKind
  | backdrop _ => .backdrop
  | sound _ => .sound
  | sprite _ => .sprite
  | costume .. => .spriteCostume
  | animation .. => .spriteAnimation
  | widget _ => .widget

def name : ResourceId → String
  | backdrop name | sound name | sprite name | costume _ name | animation _ name | widget name => name

-- The sprite that a costume or an animation belongs to.
def sprite? : ResourceId → Option String
  | costume owner _ | animation owner _ => some owner
  | _ => none

def renamed (id : ResourceId) (name : String) : ResourceId :=
  match id with
  | backdrop _ => backdrop name
  | sound _ => sound name
  | sprite _ => sprite name
  | costume owner _ => costume owner name
  | animation owner _ => animation owner name
  | widget _ => widget name

-- The resource of a kind that needs no sprite.
def topLevel? (kind : ResourceKind) (name : String) : Option ResourceId :=
  match kind with
  | .backdrop => some (backdrop name)
  | .sound => some (sound name)
  | .sprite => some (sprite name)
  | .widget => some (widget name)
  | .spriteCostume | .spriteAnimation => none

def ofSprite? (kind : ResourceKind) (owner name : String) : Option ResourceId :=
  match kind with
  | .spriteCostume => some (costume owner name)
  | .spriteAnimation => some (animation owner name)
  | _ => none

def scheme : String := "spx://resources/"

-- The parts of the locator behind the scheme.
def parts : ResourceId → List String
  | backdrop name => ["backdrops", name]
  | sound name => ["sounds", name]
  | sprite name => ["sprites", name]
  | costume owner name => ["sprites", owner, "costumes", name]
  | animation owner name => ["sprites", owner, "animations", name]
  | widget name => ["widgets", name]

def locator (id : ResourceId) : String := scheme ++ "/".intercalate id.parts

def ofParts? : List String → Option ResourceId
  | ["backdrops", name] => some (backdrop name)
  | ["sounds", name] => some (sound name)
  | ["sprites", name] => some (sprite name)
  | ["widgets", name] => some (widget name)
  | ["sprites", owner, "costumes", name] => some (costume owner name)
  | ["sprites", owner, "animations", name] => some (animation owner name)
  | _ => none

def kindFolders : List String := ["backdrops", "sounds", "sprites", "widgets"]

def parse (text : String) : Except LocatorError ResourceId :=
  match Text.dropTextStart? scheme text with
  | none => .error (.scheme text)
  | some rest =>
      let parts := Text.splitText '/' rest
      if parts.any String.isEmpty then .error (.malformed text)
      else
        match ofParts? parts with
        | some id => .ok id
        | none =>
            if parts.head?.any kindFolders.contains then .error (.malformed text)
            else .error (.unknownKind text)

end ResourceId

end SpriteScript
