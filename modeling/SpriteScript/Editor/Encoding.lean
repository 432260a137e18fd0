import SpriteScript.Editor.Completion
import SpriteScript.Editor.Lookup
import SpriteScript.Editor.Slot
import SpriteScript.Json.Basic

-- Answers as JSON. How floats are written is left to who sends them.
namespace SpriteScript.Editor

def encodePosition (p : Text.Position) : Json :=
  .obj [("line", .ofNat p.line), ("character", .ofNat p.column)]

def encodeSpan (s : Text.Span) : Json :=
  .obj [("start", encodePosition s.start), ("end", encodePosition s.stop)]

def encodeResource (id : ResourceId) : Json := .str id.locator

def severityKey : Severity → String
  | .error => "error"
  | .warning => "warning"

namespace Finding

def encode (f : Finding) : Json :=
  .obj ([("span", encodeSpan f.span), ("severity", .str (severityKey f.severity))] ++
    Json.field? "code" (f.code.map .str) ++ [("message", .str f.message)])

end Finding

namespace ResourceLocation

def encode (l : ResourceLocation) : Json :=
  .obj [("path", .str l.path), ("span", encodeSpan l.span), ("kind", .str l.kind.label)]

end ResourceLocation

namespace DefinitionTarget

def encode : DefinitionTarget → Json
  | source path span name =>
      .obj [("kind", .str "source"), ("path", .str path), ("span", encodeSpan span), ("name", .str name)]
  | builtin key =>
      .obj [("kind", .str "builtin"), ("package", .str key.package), ("name", .str key.name)]
  | resource id => .obj [("kind", .str "resource"), ("id", encodeResource id)]

end DefinitionTarget

namespace InputType

def key : InputType → String
  | integer => "integer"
  | decimal => "decimal"
  | string => "string"
  | boolean => "boolean"
  | resourceName => "resourceName"
  | color => "color"
  | enum .direction => "direction"
  | enum .key => "key"
  | enum .rotationStyle => "rotationStyle"
  | enum .specialObj => "specialObj"
  | enum .effectKind => "effectKind"
  | enum .playAction => "playAction"
  | unknown => "unknown"

end InputType

def tagged (type : String) (value : Json) : Json := .obj [("type", .str type), ("value", value)]

namespace InputValue

def encode (float : Float → Json) : InputValue → Json
  | int n => tagged "int" (.num (toString n))
  | .float x => tagged "float" (float x)
  | bool b => tagged "bool" (.bool b)
  | string text => tagged "string" (.str text)
  | constant name => tagged "constant" (.str name)
  | color constructor args =>
      tagged "color" (.obj [("constructor", .str constructor), ("args", .ofList float args)])

end InputValue

namespace Input

def encode (float : Float → Json) : Input → Json
  | inPlace type value =>
      .obj [("kind", .str "inPlace"), ("type", .str type.key), ("value", value.encode float)]
  | predefined type name =>
      .obj [("kind", .str "predefined"), ("type", .str type.key), ("name", .str name)]

end Input

namespace SlotKind

def key : SlotKind → String
  | value => "value"
  | address => "address"

end SlotKind

namespace ResourceContext

def encode (c : ResourceContext) : Json :=
  .obj (("kind", .str c.kind.key) :: Json.field? "sprite" (c.sprite.map .str))

end ResourceContext

namespace InputSlot

def encode (float : Float → Json) (s : InputSlot) : Json :=
  let accepts := ("type", .str s.accepts.key) ::
    Json.field? "resourceContext" (s.resources.map ResourceContext.encode)
  .obj [("kind", .str s.kind.key), ("accept", .obj accepts), ("input", s.input.encode float),
    ("predefinedNames", .ofList .str s.names), ("span", encodeSpan s.span)]

end InputSlot

namespace CompletionKind

def key : CompletionKind → String
  | resource => "resource"
  | var => "variable"
  | field => "field"
  | method => "method"
  | func => "function"
  | const => "constant"
  | classType => "class"
  | interface => "interface"
  | package => "module"
  | keyword => "keyword"

end CompletionKind

namespace CompletionItem

def encode (i : CompletionItem) : Json :=
  .obj ([("label", .str i.label), ("kind", .str i.kind.key)] ++
    Json.field? "detail" (i.detail.map .str) ++
    Json.field? "documentation" (i.documentation.map .str) ++
    Json.field? "insertText" (i.insertText.map .str) ++
    Json.field? "resource" (i.resource.map encodeResource))

end CompletionItem

end SpriteScript.Editor
