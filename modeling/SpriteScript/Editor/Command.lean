import SpriteScript.Editor.Encoding
import SpriteScript.Json.Record

-- Commands: questions by name, with arguments and answers in JSON.
namespace SpriteScript.Editor

inductive Command where
  | getDefinitions | getInputSlots | getResourceReferences | getDiagnostics
deriving DecidableEq, Repr, Inhabited

namespace Command

def all : List Command := [getDefinitions, getInputSlots, getResourceReferences, getDiagnostics]

def name : Command → String
  | getDefinitions => "spx.getDefinitions"
  | getInputSlots => "spx.getInputSlots"
  | getResourceReferences => "spx.getResourceReferences"
  | getDiagnostics => "spx.getDiagnostics"

def ofName? (name : String) : Option Command := all.find? (·.name == name)

end Command

inductive CommandError where
  | unknownCommand (name : String)
  -- the reason is given for locators only
  | invalidArguments (command : String) (reason : Option LocatorError)
  | request (error : RequestError)
deriving DecidableEq, Repr, Inhabited

def CommandError.message : CommandError → String
  | unknownCommand name => "unknown command: " ++ name
  | invalidArguments command none => "invalid arguments for " ++ command
  | invalidArguments command (some reason) => "invalid arguments for " ++ command ++ ": " ++ reason.message
  | request error => error.message

-- Arguments

-- Lines and columns are numbers below this one.
def positionLimit : Nat := 4294967296

def positionPart? (x : Json) : Option Nat := x.nat?.filter (· < positionLimit)

def decodePosition? (x : Json) : Option Text.Position := do
  match ← x.record? ["line", "character"] with
  | [some line, some column] => return ⟨← positionPart? line, ← positionPart? column⟩
  | _ => none

def decodePath? (x : Json) : Option String := do
  match ← x.record? ["path"] with
  | [some path] => path.str?
  | _ => none

def decodePlace? (x : Json) : Option (String × Text.Position) := do
  match ← x.record? ["path", "position"] with
  | [some path, some position] => return (← path.str?, ← decodePosition? position)
  | _ => none

-- All arguments are read before any of them is used.
def decodeAll {α : Type} (command : Command) (decode? : Json → Option α) (args : List Json) :
    Except CommandError (List α) :=
  args.mapM fun arg =>
    match decode? arg with
    | some value => .ok value
    | none => .error (.invalidArguments command.name none)

def decodeResource (command : Command) (x : Json) : Except CommandError ResourceId :=
  match x with
  | .str text => (ResourceId.parse text).mapError fun e => .invalidArguments command.name (some e)
  | _ => .error (.invalidArguments command.name none)

-- Answers

def ofRequest {α : Type} (answer : Except RequestError α) : Except CommandError α :=
  answer.mapError .request

def run (p : Program) (float : Float → Json) (command : Command) (args : List Json) :
    Except CommandError Json := do
  match command with
  | .getDefinitions =>
      let places ← decodeAll command decodePlace? args
      let answers ← places.mapM fun (path, position) => ofRequest (definitions p path position)
      return .ofList (.ofList DefinitionTarget.encode) answers
  | .getInputSlots =>
      match ← decodeAll command decodePath? args with
      | [path] => return .ofList (InputSlot.encode float) (← ofRequest (inputSlots p path))
      | paths => throw (.request (.documentCount paths.length))
  | .getResourceReferences =>
      let ids ← args.mapM (decodeResource command)
      return .ofList ResourceLocation.encode (ids.flatMap (resourceLocations p))
  | .getDiagnostics =>
      let paths ← decodeAll command decodePath? args
      let answers ← paths.mapM fun path => return (path, ← ofRequest (findings p path))
      return .ofList (fun (path, found) =>
        .obj [("path", .str path), ("diagnostics", .ofList Finding.encode found)]) answers

def execute (p : Program) (float : Float → Json) (name : String) (args : List Json) :
    Except CommandError Json :=
  match Command.ofName? name with
  | some command => run p float command args
  | none => .error (.unknownCommand name)

end SpriteScript.Editor
