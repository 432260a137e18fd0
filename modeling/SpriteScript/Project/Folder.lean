import SpriteScript.Text.Split

-- Folders of files.
namespace SpriteScript.Project

inductive Entry where
  | file (bytes : ByteArray)
  | folder (entries : List (String × Entry))
deriving Inhabited

namespace Entry

def empty : Entry := folder []

def isFolder : Entry → Bool
  | folder _ => true
  | file _ => false

def entries : Entry → List (String × Entry)
  | folder entries => entries
  | file _ => []

def child? (e : Entry) (name : String) : Option Entry := (e.entries.find? (·.1 == name)).map (·.2)

-- Puts an entry at a path. Folders on the way are made, and a folder that is there keeps what
-- it holds.
def put (new : Entry) : List String → Entry → Entry
  | [], old => if new.isFolder && old.isFolder then old else new
  | name :: rest, e =>
      let child := put new rest ((e.child? name).getD empty)
      folder (e.entries.filter (·.1 != name) ++ [(name, child)])

-- The parts of a path; empty ones do not count.
def partsOf (path : String) : List String := (Text.splitText '/' path).filter (!·.isEmpty)

def addFile (e : Entry) (path : String) (bytes : ByteArray) : Entry := put (file bytes) (partsOf path) e

def addFolder (e : Entry) (path : String) : Entry := put empty (partsOf path) e

end Entry

-- Why a path leads nowhere.
inductive PathError where
  | notFound
  -- a file stands where a folder is needed
  | notFolder
  | nameTooLong
  | nulInName
deriving DecidableEq, Repr, Inhabited

-- An entry with the folders around it, the nearest first.
structure Location where
  entry : Entry
  around : List Entry := []
deriving Inhabited

namespace Location

-- A name has at most this many bytes.
def maxName : Nat := 255

-- Follows the parts of a path. The way up from the outermost folder leads nowhere.
def follow (l : Location) : List String → Except PathError Location
  | [] => .ok l
  | part :: rest =>
      if !l.entry.isFolder then .error .notFolder
      else if part == "." then l.follow rest
      else if part == ".." then
        match l.around with
        | outer :: more => follow ⟨outer, more⟩ rest
        | [] => .error .notFound
      else if maxName < part.utf8ByteSize then .error .nameTooLong
      else
        match l.entry.child? part with
        | some child => follow ⟨child, l.entry :: l.around⟩ rest
        | none => .error .notFound

def at? (l : Location) (path : String) : Except PathError Location :=
  if path.toList.contains '\x00' then .error .nulInName else l.follow (Entry.partsOf path)

end Location

end SpriteScript.Project
