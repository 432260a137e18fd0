import SpriteScript.Text.Split

-- Access to the asset files of a project. Paths have slashes and start at the project.
namespace SpriteScript

inductive AssetError where
  | unreadable (path reason : String)
  | malformed (path reason : String)
deriving DecidableEq, Repr, Inhabited

namespace AssetError

def path : AssetError → String
  | unreadable path _ | malformed path _ => path

-- What is told of a reason, if one is given.
def because (reason : String) : String := if reason.isEmpty then "" else ": " ++ reason

def message : AssetError → String
  | unreadable path reason => "failed to read " ++ path ++ because reason
  | malformed path reason => "failed to parse " ++ path ++ because reason

end AssetError

structure AssetReader where
  -- the text of a file, or nothing when there is no such file
  textOf : String → Except AssetError (Option String)
  -- the names of the folders in a folder, sorted
  foldersIn : String → Except AssetError (List String)
  -- what is wrong with the text of a file, by its path, where the file should hold something else
  faultIn : String → String → String := fun _ _ => ""

namespace AssetReader

-- The part of `path` up to the first slash, if there is a slash.
def firstFolder? (path : String) : Option String :=
  match Text.splitText '/' path with
  | folder :: _ :: _ => some folder
  | _ => none

-- Files held in memory; of two with one path the later counts.
def ofFiles (files : List (String × String)) : AssetReader where
  textOf path := .ok ((files.reverse.find? (·.1 == path)).map (·.2))
  foldersIn path :=
    let start := Text.dropTrailing '/' path ++ "/"
    .ok <| Text.sortedUnique <| files.filterMap fun (file, _) =>
      (Text.dropTextStart? start file).bind firstFolder?

end AssetReader

end SpriteScript
