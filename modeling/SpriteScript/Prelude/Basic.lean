import SpriteScript.FileId
import SpriteScript.Syntax.Parser
import SpriteScript.Prelude.Engine
import SpriteScript.Prelude.Libraries

-- The bundled packages. They are written in the language itself.
namespace SpriteScript.Prelude

structure Package where
  file : FileId
  -- the import path
  path : String
  text : String
  tree : Tree
deriving Inhabited

def sources : List (String × String) :=
  [("spx", engineText), ("math", mathText), ("strings", stringsText), ("fmt", fmtText)]

def packages : List Package :=
  sources.zipIdx.map fun ((path, text), index) => ⟨.bundled index, path, text, (Syntax.parse text).tree⟩

end SpriteScript.Prelude
