import SpriteScript.Resource.References

-- A program: its files, what they mean, and what is wrong with them.
namespace SpriteScript

inductive AnalysisError where
  | cancelled
  -- a problem without a place in a file of the program
  | frontEndContract (message : String)
  -- the checker broke off
  | indexOutOfBounds
deriving DecidableEq, Repr, Inhabited

def AnalysisError.message : AnalysisError → String
  | cancelled => "analysis cancelled"
  | frontEndContract message => "front-end contract violation: " ++ message
  | indexOutOfBounds => "index out of bounds"

structure Program where
  config : Config
  files : Array SourceFile
  model : Model
  info : Info
  catalog : Catalog
  resources : ResourceIndex
  -- by file, and in the order in which they were found
  diagnostics : List Diagnostic

namespace Program

def file? (p : Program) (file : FileId) : Option SourceFile := SourceFile.find? p.files file

def fileOfPath? (p : Program) (path : String) : Option SourceFile := p.files.find? (·.path == path)

def entryFile? (p : Program) : Option SourceFile := p.files.find? (·.isEntry)

def hasEntry (p : Program) : Bool := p.entryFile?.isSome

def hasError (p : Program) : Bool := p.diagnostics.any (·.isError)

def diagnosticsOf (p : Program) (file : FileId) : List Diagnostic := p.diagnostics.filter (·.file == file)

-- Problems with assets are reported at the start of the entry file.
def reportAssets (entryFile? : Option SourceFile) (report : Report) (messages : List String) : Report :=
  match entryFile? with
  | some f =>
      messages.foldl (fun r message => r.add ((Problem.assets message).diagnostic f.file (.empty 0))) report
  | none => report

-- The report of what the checker found. It has to lie in a file of the program.
def checkedDiagnostic (files : Array SourceFile) (file : FileId) (range : Text.ByteRange) (p : Problem) :
    Except AnalysisError Diagnostic :=
  match SourceFile.find? files file with
  | some f =>
      if range.stop ≤ f.text.utf8ByteSize then .ok (p.diagnostic file range)
      else .error (.frontEndContract ("type error without valid position: " ++ p.message))
  | none => .error (.frontEndContract ("type error without valid position: " ++ p.message))

def reportChecked (files : Array SourceFile) (problems : List (FileId × Text.ByteRange × Problem))
    (report : Report) : Except AnalysisError Report :=
  problems.foldlM (fun r (file, range, p) => do
    return r.add (← checkedDiagnostic files file range p)) report

-- The assets of a program, as far as they could be read.
structure Loaded where
  root : String
  catalog? : Option Catalog
  report : Report

def loadAssets (config : Config) (assets : AssetReader) (parsed : Parsed) (checked : Check.Result)
    (report : Report) : Loaded :=
  let (root, report) := Resource.assetRoot config checked.model checked.info parsed.entryFile? report
  match Catalog.load assets root with
  | .ok (catalog : Catalog) =>
      ⟨root, some catalog, reportAssets parsed.entryFile? report (catalog.skipped.map SkippedAsset.message)⟩
  | .error e => ⟨root, none, reportAssets parsed.entryFile? report [e.message]⟩

-- The program of files that were checked. Without a catalog no name is looked up, since every
-- one would be missing.
def assemble (config : Config) (parsed : Parsed) (checked : Check.Result) (loaded : Loaded) : Program :=
  let (catalog, resources, report) :=
    match loaded.catalog? with
    | some catalog =>
        let (resources, report) := Resource.resolve
          ⟨checked.model, checked.info, catalog, config.entryFile⟩ parsed.files.toList loaded.report
        (catalog, resources, report)
    | none => ({ root := loaded.root }, {}, loaded.report)
  { config, files := parsed.files, model := checked.model, info := checked.info
    catalog, resources, diagnostics := report.byFile }

-- The points at which a compilation can be given up.
inductive Phase where
  | parsed | checked | loaded
deriving DecidableEq, Repr, Inhabited

def poll (cancelled : Phase → Bool) (phase : Phase) : Except AnalysisError Unit :=
  if cancelled phase then .error .cancelled else .ok ()

-- Compiles files into a program, unless it is cancelled on the way. Whatever is wrong with the
-- files is part of the result.
def compileUnless (config : Config) (assets : AssetReader) (files : List (String × String))
    (cancelled : Phase → Bool) : Except AnalysisError Program := do
  let parsed := parseFiles config files
  poll cancelled .parsed
  let sources := (parsed.files.toList.filter (!·.excluded)).map fun f =>
    (⟨f.file, f.tree, f.className, f.isEntry⟩ : Check.Source)
  let checked := Check.checkProgram config.package sources
  if checked.crashed then
    throw .indexOutOfBounds
  let report ← reportChecked parsed.files checked.problems parsed.report
  poll cancelled .checked
  let loaded := loadAssets config assets parsed checked report
  poll cancelled .loaded
  return assemble config parsed checked loaded

-- Compiles with everything cancelled from the start, or nothing.
def compile (config : Config) (assets : AssetReader) (files : List (String × String)) (cancelled : Bool) :
    Except AnalysisError Program :=
  compileUnless config assets files fun _ => cancelled

end Program

end SpriteScript
