import Std.Data.HashSet
import SpriteScript.FileId
import SpriteScript.Text.Position

-- Reports about a program, and their collection without repeats.
namespace SpriteScript

inductive Severity where
  | error | warning
deriving DecidableEq, Repr, Inhabited, Hashable

-- The number of a severity in the language server protocol.
def Severity.number : Severity → Nat
  | error => 1
  | warning => 2

structure Diagnostic where
  file : FileId
  range : Text.ByteRange
  severity : Severity
  code : Option String
  message : String
deriving DecidableEq, Repr, Inhabited

namespace Diagnostic

def isError (d : Diagnostic) : Bool := d.severity == .error

-- What makes two reports the same; the code does not.
def identity (d : Diagnostic) : FileId × Severity × Text.ByteRange × String :=
  (d.file, d.severity, d.range, d.message)

end Diagnostic

-- Reports in the order in which they came.
structure Report where
  diagnostics : Array Diagnostic := #[]
  seen : Std.HashSet (FileId × Severity × Text.ByteRange × String) := {}

namespace Report

def add (r : Report) (d : Diagnostic) : Report :=
  if r.seen.contains d.identity then r
  else { diagnostics := r.diagnostics.push d, seen := r.seen.insert d.identity }

def isNew (r : Report) (d : Diagnostic) : Bool := !r.seen.contains d.identity

def errorCount (r : Report) : Nat := (r.diagnostics.filter (·.isError)).size

def warningCount (r : Report) : Nat := (r.diagnostics.filter (!·.isError)).size

def hasErrors (r : Report) : Bool := r.diagnostics.any (·.isError)

def ofFile (r : Report) (file : FileId) : Array Diagnostic := r.diagnostics.filter (·.file == file)

-- By file; within a file the order stays.
def byFile (r : Report) : List Diagnostic :=
  r.diagnostics.toList.mergeSort fun a b => !b.file.before a.file

end Report

end SpriteScript
