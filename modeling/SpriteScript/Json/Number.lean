import SpriteScript.Json.Basic
import SpriteScript.Semantics.Constant

-- Limits of JSON values that are read as a whole: numbers are finite floats, and containers
-- are not nested too deep.
namespace SpriteScript.Json

def float (spelling : String) : Float :=
  let (negative, digits) :=
    match spelling.toList with
    | '-' :: rest => (true, rest)
    | cs => (false, cs)
  let isDigitOrPoint (c : Char) := c.isDigit || c == '.'
  let mantissa := digits.takeWhile isDigitOrPoint
  let exponent := digits.dropWhile isDigitOrPoint
  let value := Constant.floatLiteral (String.ofList (mantissa ++ exponent))
  if negative then -value else value

def numbersFinite : Json → Bool
  | num spelling => (float spelling).isFinite
  | arr items => allFinite items
  | obj fields => allFieldsFinite fields
  | _ => true
where
  allFinite : List Json → Bool
    | [] => true
    | x :: rest => x.numbersFinite && allFinite rest
  allFieldsFinite : List (String × Json) → Bool
    | [] => true
    | (_, x) :: rest => x.numbersFinite && allFieldsFinite rest

-- How many containers lie inside each other.
def depth : Json → Nat
  | arr items => depthOfAll items + 1
  | obj fields => depthOfFields fields + 1
  | _ => 0
where
  depthOfAll : List Json → Nat
    | [] => 0
    | x :: rest => max x.depth (depthOfAll rest)
  depthOfFields : List (String × Json) → Nat
    | [] => 0
    | (_, x) :: rest => max x.depth (depthOfFields rest)

def maxDepth : Nat := 127

-- Whether a value inside `outer` containers may be kept.
def isKeepable (outer : Nat) (x : Json) : Bool := x.numbersFinite && outer + x.depth ≤ maxDepth

end SpriteScript.Json
