import SpriteScript.Text.Split

-- Which files make up a program.
namespace SpriteScript

structure Config where
  entryFile : String := "main.spx"
  extension : String := "spx"
  assetRoot : String := "assets"
  package : String := "main"
deriving DecidableEq, Repr, Inhabited

namespace Config

-- The last part of a path; both slashes separate.
def fileName (path : String) : String :=
  String.ofList (path.toList.reverse.takeWhile fun c => c != '/' && c != '\\').reverse

-- What stands behind the last dot, if there is a dot.
def afterLastDot? (path : String) : Option String :=
  if path.toList.contains '.' then some (String.ofList (path.toList.reverse.takeWhile (· != '.')).reverse)
  else none

def isSourcePath (c : Config) (path : String) : Bool := afterLastDot? path == some c.extension

def isEntryPath (c : Config) (path : String) : Bool := fileName path == c.entryFile

-- The class that a file declares: its name without the extension.
def className (c : Config) (path : String) : String :=
  let name := fileName path
  (Text.dropTextEnd? ("." ++ c.extension) name).getD name

end Config

end SpriteScript
