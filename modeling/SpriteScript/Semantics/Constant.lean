import SpriteScript.Text.CharClass
import SpriteScript.Text.Quoted
import SpriteScript.Token.Basic
import SpriteScript.Semantics.Type

-- Values that are known before the program runs, and the arithmetic on them.
namespace SpriteScript

-- An integer constant fits into 64 bits with a sign.
inductive Constant where
  | bool (value : Bool)
  | int (value : Int)
  | float (value : Float)
  | string (text : String)
deriving Repr, Inhabited

namespace Constant

def minInt : Int := -9223372036854775808

def maxInt : Int := 9223372036854775807

-- The constant for an integer, unless it needs more than 64 bits.
def ofInt? (n : Int) : Option Constant :=
  if minInt ≤ n && n ≤ maxInt then some (int n) else none

def text? : Constant → Option String
  | string text => some text
  | _ => none

def float? : Constant → Option Float
  | int n => some (Float.ofInt n)
  | float x => some x
  | _ => none

-- A float has no text here.
def shown? : Constant → Option String
  | bool value => some (if value then "true" else "false")
  | int value => some (toString value)
  | float _ => none
  | string text => some (Text.Quoted.encode text)

-- Literals

def natInBase? (base : Nat) (digits : List Char) : Option Nat :=
  if digits.isEmpty then none
  else digits.foldlM (fun n c =>
    match Text.digitValue? c with
    | some d => if d < base then some (n * base + d) else none
    | none => none) 0

-- Hexadecimal behind `0x`, octal behind any other leading zero, decimal otherwise.
def intLiteral? (text : String) : Option Int :=
  let value? :=
    match text.toList with
    | '0' :: 'x' :: digits => natInBase? 16 digits
    | '0' :: 'X' :: digits => natInBase? 16 digits
    | '0' :: d :: digits => natInBase? 8 (d :: digits)
    | digits => natInBase? 10 digits
  match value? with
  | some n => if (n : Int) ≤ maxInt then some n else none
  | none => none

-- The nearest float to `digits` times ten to the `exponent`; beyond the largest it is infinite.
def decimalFloat (digits : Nat) (exponent : Int) : Float :=
  let size : Int := (Nat.toDigits 10 digits).length + exponent
  if digits == 0 then 0
  else if 310 < size then 1 / 0
  else if size < -330 then 0
  else if 0 ≤ exponent then OfScientific.ofScientific digits false exponent.toNat
  else OfScientific.ofScientific digits true (-exponent).toNat

def floatLiteral (text : String) : Float :=
  let cs := text.toList
  let (mantissa, tail) :=
    (cs.takeWhile fun c => c.isDigit || c == '.', cs.dropWhile fun c => c.isDigit || c == '.')
  let fraction := (mantissa.dropWhile (· != '.')).filter Char.isDigit
  let digits := (natInBase? 10 (mantissa.filter Char.isDigit)).getD 0
  let shift : Int := ((natInBase? 10 (tail.filter Char.isDigit)).getD 0 : Nat)
  let shift := if tail.contains '-' then -shift else shift
  decimalFloat digits (shift - fraction.length)

-- Arithmetic

inductive Folded where
  | value (c : Constant)
  -- not a constant, or one that does not fit
  | unknown
  | divisionByZero
deriving Repr, Inhabited

def Folded.ofOption : Option Constant → Folded
  | some c => .value c
  | none => .unknown

-- A comparison from the two tests `equal` and `less`.
def compare? (op : TokenKind) (equal less greater : Bool) : Option Constant :=
  match op with
  | .eqEq => some (bool equal)
  | .bangEq => some (bool !equal)
  | .lt => some (bool less)
  | .ltEq => some (bool (less || equal))
  | .gt => some (bool greater)
  | .gtEq => some (bool (greater || equal))
  | _ => none

-- A bit operation on 64-bit words.
def onWords (f : Int64 → Int64 → Int64) (a b : Int) : Int := (f (.ofInt a) (.ofInt b)).toInt

-- Shifts keep 64 bits and take amounts below 64.
def foldInts (op : TokenKind) (a b : Int) : Folded :=
  match op with
  | .plus => .ofOption (ofInt? (a + b))
  | .minus => .ofOption (ofInt? (a - b))
  | .star => .ofOption (ofInt? (a * b))
  | .slash => if b = 0 then .divisionByZero else .ofOption (ofInt? (a.tdiv b))
  | .percent =>
      if b = 0 then .divisionByZero
      else if a = minInt && b = -1 then .unknown
      else .value (int (a.tmod b))
  | .amp => .value (int (onWords (· &&& ·) a b))
  | .pipe => .value (int (onWords (· ||| ·) a b))
  | .caret => .value (int (onWords (· ^^^ ·) a b))
  | .shl => if 0 ≤ b && b < 64 then .value (int (onWords (· <<< ·) a b)) else .unknown
  | .shr => if 0 ≤ b && b < 64 then .value (int (onWords (· >>> ·) a b)) else .unknown
  | _ => .ofOption (compare? op (a = b) (a < b) (b < a))

def foldStrings (op : TokenKind) (a b : String) : Folded :=
  match op with
  | .plus => .value (string (a ++ b))
  | _ => .ofOption (compare? op (a = b) (a < b) (b < a))

def foldBools (op : TokenKind) (a b : Bool) : Folded :=
  match op with
  | .ampAmp => .value (bool (a && b))
  | .pipePipe => .value (bool (a || b))
  | .eqEq => .value (bool (a == b))
  | .bangEq => .value (bool (a != b))
  | _ => .unknown

def foldFloats (op : TokenKind) (a b : Float) : Folded :=
  match op with
  | .plus => .value (float (a + b))
  | .minus => .value (float (a - b))
  | .star => .value (float (a * b))
  | .slash => if b == 0 then .divisionByZero else .value (float (a / b))
  | _ => .ofOption (compare? op (a == b) (a < b) (b < a))

-- The value of a binary operation. `integer` says that both operands are of integer type.
def foldBinary (op : TokenKind) (a b : Constant) (integer : Bool) : Folded :=
  match a, b with
  | string a, string b => foldStrings op a b
  | bool a, bool b => foldBools op a b
  | int x, int y => if integer then foldInts op x y else foldFloats op (Float.ofInt x) (Float.ofInt y)
  | _, _ =>
      match a.float?, b.float? with
      | some x, some y => foldFloats op x y
      | _, _ => .unknown

def foldUnary? (op : TokenKind) (c : Constant) : Option Constant :=
  match op, c with
  | .plus, int n => some (int n)
  | .plus, float x => some (float x)
  | .minus, int n => ofInt? (-n)
  | .minus, float x => some (float (-x))
  | .caret, int n => some (int (-n - 1))
  | .bang, bool b => some (bool !b)
  | _, _ => none

def isWhole (x : Float) : Bool := x.isFinite && x.floor == x

-- The constant as a value of the given kind. A float with a fraction is no integer; one that
-- is too large becomes the nearest integer that fits.
def convert? (c : Constant) (target : BasicKind) : Option Constant :=
  match c, target.defaulted with
  | int n, .float64 => some (float (Float.ofInt n))
  | float x, .int => if isWhole x then some (int x.toInt64.toInt) else none
  | c, _ => some c

-- The kind of an operation on two untyped constants.
def untypedResult (a b : BasicKind) : BasicKind :=
  match a, b with
  | .untypedFloat, .untypedInt => .untypedFloat
  | .untypedInt, .untypedFloat => .untypedFloat
  | a, _ => a

end Constant

end SpriteScript
