import SpriteScript.Editor.Docs
import SpriteScript.Program.Basic

-- An editing session: texts that change, and the program that they make up. The program is
-- compiled when it is asked for, and kept until something changes.
namespace SpriteScript

structure Session where
  config : Config := {}
  assets : AssetReader := .ofFiles []
  docs : Editor.Docs := Editor.Docs.bundled
  -- texts by path, in the order in which they were added
  files : List (String × String) := []
  program : Option Program := none
  -- how many programs have been compiled
  compiled : Nat := 0

namespace Session

def fileCount (s : Session) : Nat := s.files.length

def content? (s : Session) (path : String) : Option String := (s.files.find? (·.1 == path)).map (·.2)

def hasFile (s : Session) (path : String) : Bool := (s.content? path).isSome

-- Forgets the program.
def markDirty (s : Session) : Session := { s with program := none }

def setConfig (s : Session) (config : Config) : Session := { s with config }.markDirty

def setAssets (s : Session) (assets : AssetReader) : Session := { s with assets }.markDirty

-- Gives a file a text; a path that is there already keeps its place.
def put (path text : String) : List (String × String) → List (String × String)
  | [] => [(path, text)]
  | (p, old) :: rest => if p == path then (p, text) :: rest else (p, old) :: put path text rest

-- A text that stays the same keeps the program.
def setFile (s : Session) (path text : String) : Session :=
  if s.content? path == some text then s
  else { s with files := put path text s.files }.markDirty

def removeFile (s : Session) (path : String) : Session :=
  if s.hasFile path then { s with files := s.files.filter (·.1 != path) }.markDirty else s

-- Asks for the program of the current texts. A compilation that is cancelled leaves none behind.
def ask (s : Session) (cancelled : Program.Phase → Bool) : Except AnalysisError Program × Session :=
  match s.program with
  | some program => (.ok program, s)
  | none =>
      match Program.compileUnless s.config s.assets s.files cancelled with
      | .ok (program : Program) =>
          (.ok program, { s with program := some program, compiled := s.compiled + 1 })
      | .error e => (.error e, s)

def current (s : Session) (cancelled : Bool) : Except AnalysisError (Program × Session) :=
  let (answer, next) := s.ask fun _ => cancelled
  answer.map (·, next)

end Session

end SpriteScript
