import SpriteScript.Resource.Id

-- What the checker knows by name about the engine.
namespace SpriteScript.Vocabulary

-- The package whose names every file sees.
def enginePackage : String := "spx"

-- The class of the entry file, and what it and the sprites' classes are built on.
def gameClass : String := "Game"

def gameBase : String := "Game"

def spriteBase : String := "SpriteImpl"

def colorType : String := "Color"

-- Functions that build a color from this many numbers.
def colorConstructors : List (String × Nat) := [("HSB", 3), ("HSBA", 4)]

-- Engine types with a few named values.
inductive EnumDomain where
  | direction | key | rotationStyle | specialObj | effectKind | playAction
deriving DecidableEq, Repr, Inhabited

namespace EnumDomain

def all : List EnumDomain := [direction, key, rotationStyle, specialObj, effectKind, playAction]

def typeName : EnumDomain → String
  | direction => "Direction"
  | key => "Key"
  | rotationStyle => "RotationStyle"
  | specialObj => "SpecialObj"
  | effectKind => "EffectKind"
  | playAction => "PlayAction"

def ofTypeName? (name : String) : Option EnumDomain := all.find? (·.typeName == name)

-- Directions are edited as numbers, the others by name.
def isNumeric (d : EnumDomain) : Bool := d == direction

end EnumDomain

-- Engine types whose values are the names of resources.
def resourceNameTypes : List (String × ResourceKind) := [
  ("BackdropName", .backdrop), ("SoundName", .sound), ("SpriteName", .sprite),
  ("SpriteCostumeName", .spriteCostume), ("SpriteAnimationName", .spriteAnimation),
  ("WidgetName", .widget)]

def resourceNameKind? (typeName : String) : Option ResourceKind :=
  (resourceNameTypes.find? (·.1 == typeName)).map (·.2)

-- Engine types whose fields stand for the resource of the field's name.
def resourceFieldTypes : List (String × ResourceKind) := [("Sound", .sound), ("Monitor", .widget)]

def resourceFieldKind? (typeName : String) : Option ResourceKind :=
  (resourceFieldTypes.find? (·.1 == typeName)).map (·.2)

end SpriteScript.Vocabulary
