-- Values of the JSON data format, and their text.
namespace SpriteScript

-- A number keeps its spelling, and an object the order of its fields.
inductive Json where
  | null
  | bool (value : Bool)
  | num (spelling : String)
  | str (text : String)
  | arr (items : List Json)
  | obj (fields : List (String × Json))
deriving Repr, Inhabited

namespace Json

def ofNat (n : Nat) : Json := num (toString n)

def ofOption {α : Type} (f : α → Json) : Option α → Json
  | some a => f a
  | none => null

def ofList {α : Type} (f : α → Json) (xs : List α) : Json := arr (xs.map f)

-- A field that is left out when it has no value.
def field? (name : String) : Option Json → List (String × Json)
  | some value => [(name, value)]
  | none => []

def get? : Json → String → Option Json
  | obj fields, name => (fields.find? (·.1 == name)).map (·.2)
  | _, _ => none

def str? : Json → Option String
  | str text => some text
  | _ => none

def bool? : Json → Option Bool
  | bool value => some value
  | _ => none

def arr? : Json → Option (List Json)
  | arr items => some items
  | _ => none

-- A number that is written with digits only.
def nat? : Json → Option Nat
  | num spelling =>
      if spelling.isEmpty then none
      else spelling.toList.foldlM (fun n c => if c.isDigit then some (n * 10 + (c.toNat - 48)) else none) 0
  | _ => none

-- Writing

def hexDigit (n : Nat) : Char := (Nat.toDigits 16 n).headD '0'

def escapeChar (c : Char) : List Char :=
  if c = '"' then ['\\', '"']
  else if c = '\\' then ['\\', '\\']
  else if c = '\n' then ['\\', 'n']
  else if c = '\r' then ['\\', 'r']
  else if c = '\t' then ['\\', 't']
  else if c.toNat = 8 then ['\\', 'b']
  else if c.toNat = 12 then ['\\', 'f']
  else if c.toNat < 32 then ['\\', 'u', '0', '0', hexDigit (c.toNat / 16), hexDigit (c.toNat % 16)]
  else [c]

def quote (text : String) : String :=
  "\"" ++ String.ofList (text.toList.flatMap escapeChar) ++ "\""

def render : Json → String
  | null => "null"
  | bool true => "true"
  | bool false => "false"
  | num spelling => spelling
  | str text => quote text
  | arr items => "[" ++ ",".intercalate (renderItems items) ++ "]"
  | obj fields => "\x7b" ++ ",".intercalate (renderFields fields) ++ "\x7d"
where
  renderItems : List Json → List String
    | [] => []
    | x :: rest => x.render :: renderItems rest
  renderFields : List (String × Json) → List String
    | [] => []
    | (name, x) :: rest => (quote name ++ ":" ++ x.render) :: renderFields rest

end Json

end SpriteScript
