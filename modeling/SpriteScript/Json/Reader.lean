import SpriteScript.Text.CharClass
import SpriteScript.Json.Basic

-- Reading JSON texts, strictly: one value, blanks around it, and nothing else.
namespace SpriteScript.Json

def isBlank (c : Char) : Bool := c == ' ' || c == '\t' || c == '\n' || c == '\r'

def skipBlanks (cs : List Char) : List Char := cs.dropWhile isBlank

def hex4? : List Char → Option (Nat × List Char)
  | a :: b :: c :: d :: rest => do
      let a ← Text.digitValue? a
      let b ← Text.digitValue? b
      let c ← Text.digitValue? c
      let d ← Text.digitValue? d
      return (((a * 16 + b) * 16 + c) * 16 + d, rest)
  | _ => none

-- The character of a `\u` escape; one outside the basic plane takes two of them.
def unicodeEscape? (cs : List Char) : Option (Char × List Char) := do
  let (unit, rest) ← hex4? cs
  if 0xdc00 ≤ unit && unit ≤ 0xdfff then none
  else if 0xd800 ≤ unit && unit ≤ 0xdbff then
    match rest with
    | '\\' :: 'u' :: rest =>
        let (low, rest) ← hex4? rest
        if 0xdc00 ≤ low && low ≤ 0xdfff then
          some (Char.ofNat (0x10000 + (unit - 0xd800) * 0x400 + (low - 0xdc00)), rest)
        else none
    | _ => none
  else some (Char.ofNat unit, rest)

-- The rest of a string behind its opening quote. `done` holds what was read, newest first.
def stringTail? (fuel : Nat) (done : List Char) (cs : List Char) : Option (String × List Char) :=
  match fuel, cs with
  | 0, _ => none
  | _, [] => none
  | _, '"' :: rest => some (String.ofList done.reverse, rest)
  | fuel + 1, '\\' :: c :: rest =>
      match c with
      | '"' => stringTail? fuel ('"' :: done) rest
      | '\\' => stringTail? fuel ('\\' :: done) rest
      | '/' => stringTail? fuel ('/' :: done) rest
      | 'b' => stringTail? fuel ('\x08' :: done) rest
      | 'f' => stringTail? fuel ('\x0c' :: done) rest
      | 'n' => stringTail? fuel ('\n' :: done) rest
      | 'r' => stringTail? fuel ('\r' :: done) rest
      | 't' => stringTail? fuel ('\t' :: done) rest
      | 'u' =>
          match unicodeEscape? rest with
          | some (c, rest) => stringTail? fuel (c :: done) rest
          | none => none
      | _ => none
  | fuel + 1, c :: rest => if c.toNat < 32 || c == '\\' then none else stringTail? fuel (c :: done) rest

def string? : List Char → Option (String × List Char)
  | '"' :: rest => stringTail? (rest.length + 1) [] rest
  | _ => none

def digits? (cs : List Char) : Option (List Char × List Char) :=
  match cs.takeWhile Char.isDigit with
  | [] => none
  | ds => some (ds, cs.dropWhile Char.isDigit)

-- A number: no leading zero, and digits on both sides of the point and behind the exponent.
def number? (cs : List Char) : Option (String × List Char) := do
  let (sign, cs) :=
    match cs with
    | '-' :: rest => (['-'], rest)
    | _ => ([], cs)
  let (whole, cs) ← digits? cs
  if whole.head? == some '0' && whole.length > 1 then none
  let (fraction, cs) ←
    match cs with
    | '.' :: rest => (digits? rest).map fun (ds, rest) => ('.' :: ds, rest)
    | _ => some ([], cs)
  let (exponent, cs) ←
    match cs with
    | e :: rest =>
        if e == 'e' || e == 'E' then
          let (mark, rest) :=
            match rest with
            | '+' :: rest => ([e, '+'], rest)
            | '-' :: rest => ([e, '-'], rest)
            | _ => ([e], rest)
          (digits? rest).map fun (ds, rest) => (mark ++ ds, rest)
        else some ([], cs)
    | [] => some ([], cs)
  return (String.ofList (sign ++ whole ++ fraction ++ exponent), cs)

mutual

-- The value at the front; it may have blanks before it.
def value? (fuel : Nat) (cs : List Char) : Option (Json × List Char) :=
  match fuel with
  | 0 => none
  | fuel + 1 =>
      match skipBlanks cs with
      | 'n' :: 'u' :: 'l' :: 'l' :: rest => some (.null, rest)
      | 't' :: 'r' :: 'u' :: 'e' :: rest => some (.bool true, rest)
      | 'f' :: 'a' :: 'l' :: 's' :: 'e' :: rest => some (.bool false, rest)
      | '"' :: rest => (stringTail? (rest.length + 1) [] rest).map fun (s, rest) => (.str s, rest)
      | '[' :: rest =>
          match skipBlanks rest with
          | ']' :: rest => some (.arr [], rest)
          | rest => (items? fuel rest).map fun (xs, rest) => (.arr xs, rest)
      | '\x7b' :: rest =>
          match skipBlanks rest with
          | '\x7d' :: rest => some (.obj [], rest)
          | rest => (fields? fuel rest).map fun (xs, rest) => (.obj xs, rest)
      | rest => (number? rest).map fun (n, rest) => (.num n, rest)

def items? (fuel : Nat) (cs : List Char) : Option (List Json × List Char) :=
  match fuel with
  | 0 => none
  | fuel + 1 => do
      let (x, rest) ← value? fuel cs
      match skipBlanks rest with
      | ']' :: rest => some ([x], rest)
      | ',' :: rest =>
          let (xs, rest) ← items? fuel rest
          some (x :: xs, rest)
      | _ => none

def fields? (fuel : Nat) (cs : List Char) : Option (List (String × Json) × List Char) :=
  match fuel with
  | 0 => none
  | fuel + 1 => do
      let (name, rest) ← string? (skipBlanks cs)
      match skipBlanks rest with
      | ':' :: rest =>
          let (x, rest) ← value? fuel rest
          match skipBlanks rest with
          | '\x7d' :: rest => some ([(name, x)], rest)
          | ',' :: rest =>
              let (xs, rest) ← fields? fuel rest
              some ((name, x) :: xs, rest)
          | _ => none
      | _ => none

end

def parse? (text : String) : Option Json :=
  let cs := text.toList
  match value? (cs.length + 1) cs with
  | some (x, rest) => if (skipBlanks rest).isEmpty then some x else none
  | none => none

end SpriteScript.Json
