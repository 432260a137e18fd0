import SpriteScript.Project.Folder
import SpriteScript.Resource.Catalog
import SpriteScript.Session

-- A session from a folder: all source files in it, and its assets.
namespace SpriteScript.Project

-- Assets

-- Why a file cannot be read; nothing when there is no file.
def reason? : PathError → Option String
  | .notFound => none
  | .notFolder => some "Not a directory (os error 20)"
  | .nameTooLong => some "File name too long (os error 36)"
  | .nulInName => some "file name contained an unexpected NUL byte"

def textOf (l : Location) (path : String) : Except AssetError (Option String) :=
  match l.at? path with
  | .error e =>
      match reason? e with
      | some reason => .error (.unreadable path reason)
      | none => .ok none
  | .ok found =>
      match found.entry with
      | .folder _ => .error (.unreadable path "Is a directory (os error 21)")
      | .file bytes =>
          match String.fromUTF8? bytes with
          | some text => .ok (some text)
          | none => .error (.unreadable path "")

def foldersIn (l : Location) (path : String) : List String :=
  match l.at? path with
  | .ok found => Text.sortedUnique ((found.entry.entries.filter (·.2.isFolder)).map (·.1))
  | .error _ => []

def assets (l : Location) : AssetReader where
  textOf := textOf l
  foldersIn path := .ok (foldersIn l path)

-- Sources

inductive LoadError where
  | notFolder
  | unreadable (path : String)
deriving DecidableEq, Repr, Inhabited

-- What stands behind the last dot of a name; a dot at the front does not count.
def extension? (name : String) : Option String :=
  let cs := name.toList.reverse
  match cs.dropWhile (· != '.') with
  | [] | ['.'] => none
  | _ => some (String.ofList (cs.takeWhile (· != '.')).reverse)

-- The source files in the entries of the folder at a path.
def sourcesIn (ext path : String) : List (String × Entry) → List (String × ByteArray)
  | [] => []
  | (name, .file bytes) :: rest =>
      let more := sourcesIn ext path rest
      if extension? name == some ext then (path ++ name, bytes) :: more else more
  | (name, .folder entries) :: rest =>
      sourcesIn ext (path ++ name ++ "/") entries ++ sourcesIn ext path rest

-- Source files by path, part by part.
def sources (ext : String) (e : Entry) : List (String × ByteArray) :=
  (sourcesIn ext "" e.entries).mergeSort fun a b =>
    !decide (Text.splitText '/' b.1 < Text.splitText '/' a.1)

def loadFile (s : Session) (file : String × ByteArray) : Except LoadError Session :=
  match String.fromUTF8? file.2 with
  | some text => .ok (s.setFile file.1 text)
  | none => .error (.unreadable file.1)

def load (config : Config) (l : Location) : Except LoadError Session :=
  if !l.entry.isFolder then .error .notFolder
  else
    (sources config.extension l.entry).foldlM loadFile { config, assets := assets l }

end SpriteScript.Project
