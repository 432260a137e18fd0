import SpriteScript.Text.Unicode.Letter
import SpriteScript.Text.Unicode.Number
import SpriteScript.Text.Unicode.WordPart
import SpriteScript.Text.Unicode.Upper
import SpriteScript.Text.Unicode.Lower
import SpriteScript.Text.Unicode.Hidden

-- Classes of characters. ASCII is answered directly; from U+0080 on the tables decide.
namespace SpriteScript.Text

def inRanges (ranges : List (Nat × Nat)) (c : Char) : Bool :=
  ranges.any fun (first, last) => first ≤ c.toNat && c.toNat ≤ last

def isAscii (c : Char) : Bool := c.toNat < 128

def isLetter (c : Char) : Bool :=
  if isAscii c then c.isAlpha else inRanges Unicode.letterRanges c

def isNumber (c : Char) : Bool :=
  if isAscii c then c.isDigit else inRanges Unicode.numberRanges c

-- An identifier starts with a letter or an underscore and goes on with letters, numbers
-- and underscores.
def isIdentStart (c : Char) : Bool := c == '_' || isLetter c

def isIdentPart (c : Char) : Bool := isIdentStart c || isNumber c

-- The first and the last code point among those whose UTF-8 form starts with the same byte.
def firstByteBlock (c : Char) : Nat × Nat :=
  let n := c.toNat
  let block (size least : Nat) := (max least (n / size * size), n / size * size + size - 1)
  if n < 0x80 then (n, n)
  else if n < 0x800 then block 0x40 0x80
  else if n < 0x10000 then block 0x1000 0x800
  else block 0x40000 0x10000

-- Whether the first byte of the character does not tell it from one that an identifier may go
-- on with.
def startsLikeIdentPart (c : Char) : Bool :=
  if isAscii c then isIdentPart c
  else
    let (low, high) := firstByteBlock c
    let meets (ranges : List (Nat × Nat)) :=
      ranges.any fun (first, last) => first ≤ high && low ≤ last
    meets Unicode.letterRanges || meets Unicode.numberRanges

-- What a double click in an editor takes as one word. Marks and joiners belong to a word too,
-- and its table knows more recent letters than those of identifiers.
def isWordChar (c : Char) : Bool :=
  if isAscii c then c.isAlphanum || c == '_' else inRanges Unicode.wordPartRanges c

def isUpper (c : Char) : Bool :=
  if isAscii c then c.isUpper else inRanges Unicode.upperRanges c

def isLower (c : Char) : Bool :=
  if isAscii c then c.isLower else inRanges Unicode.lowerRanges c

-- White_Space: the ASCII controls from tab to carriage return, space, and the blanks of
-- other scripts.
def isBlank (c : Char) : Bool :=
  let n := c.toNat
  (9 ≤ n && n ≤ 13) || n == 0x20 || n == 0x85 || n == 0xa0 || n == 0x1680 ||
    (0x2000 ≤ n && n ≤ 0x200a) || n == 0x2028 || n == 0x2029 || n == 0x202f || n == 0x205f ||
    n == 0x3000

-- Characters that a quoted text shows by their number.
def isHidden (c : Char) : Bool :=
  if isAscii c then c.toNat < 0x20 || c.toNat == 0x7f else inRanges Unicode.hiddenRanges c

def isHexDigit (c : Char) : Bool :=
  c.isDigit || ('a' ≤ c && c ≤ 'f') || ('A' ≤ c && c ≤ 'F')

-- The value of a digit in any base up to sixteen.
def digitValue? (c : Char) : Option Nat :=
  if c.isDigit then some (c.toNat - 48)
  else if 'a' ≤ c && c ≤ 'f' then some (c.toNat - 87)
  else if 'A' ≤ c && c ≤ 'F' then some (c.toNat - 55)
  else none

-- The name of an event handler: `on` and then a word that starts with a capital.
def isHandlerName (name : String) : Bool :=
  match name.toList with
  | 'o' :: 'n' :: c :: _ => isUpper c
  | _ => false

end SpriteScript.Text
