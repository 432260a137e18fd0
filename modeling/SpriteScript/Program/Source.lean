import SpriteScript.Check
import SpriteScript.Config
import SpriteScript.Text.LineIndex

-- The files of a program.
namespace SpriteScript

structure SourceFile where
  file : FileId
  path : String
  lines : Text.LineIndex
  tree : Tree
  className : String
  isEntry : Bool
  -- declares another package and is left out of the check
  excluded : Bool
deriving Inhabited

namespace SourceFile

def text (f : SourceFile) : String := f.lines.text

def find? (files : Array SourceFile) : FileId → Option SourceFile
  | .source index => files[index]?
  | .bundled _ => none

end SourceFile

namespace Program

structure Parsed where
  files : Array SourceFile := #[]
  report : Report := {}

-- The name in the package clause of a file.
def packageIdent? (file : Tree) : Option Token :=
  ((file.child? .packageClause).bind Tree.name?).bind Tree.ident?

namespace Parsed

def entryFile? (p : Parsed) : Option SourceFile := p.files.find? (·.isEntry)

def addProblem (r : Report) (file : FileId) (range : Text.ByteRange) (p : Problem) : Report :=
  r.add (p.diagnostic file range)

-- Adds a file, unless its path does not belong to a source or was seen before. The first file
-- with the name of the entry is the entry.
def addFile (config : Config) (p : Parsed) (path text : String) : Parsed :=
  if !config.isSourcePath path || p.files.any (·.path == path) then p
  else
    let file := FileId.source p.files.size
    let parse := Syntax.parse text
    let report := parse.errors.foldl (fun r e => addProblem r file e.range (.syntaxError e.fault)) p.report
    let isEntry := p.entryFile?.isNone && config.isEntryPath path
    let wrong? := (packageIdent? parse.tree).filter (·.text != config.package)
    let report :=
      match wrong? with
      | some ident =>
          addProblem report file (Check.rangeOf ident) (.packageMismatch ident.text config.package)
      | none => report
    { files := p.files.push {
        file, path, lines := .ofText text, tree := parse.tree
        className := if isEntry then Vocabulary.gameClass else config.className path
        isEntry, excluded := wrong?.isSome }
      report }

end Parsed

-- The sources among the given files, in their order.
def parseFiles (config : Config) (files : List (String × String)) : Parsed :=
  files.foldl (fun p (path, text) => p.addFile config path text) {}

end Program

end SpriteScript
