import SpriteScript.Text.CharClass

-- A text between double quotes, with escapes for the quote, the backslash and what has no
-- picture of its own.
namespace SpriteScript.Text.Quoted

def hexDigits (n : Nat) : List Char := Nat.toDigits 16 n

def encodeChar (c : Char) : List Char :=
  if c = '\x00' then ['\\', '0']
  else if c = '\t' then ['\\', 't']
  else if c = '\r' then ['\\', 'r']
  else if c = '\n' then ['\\', 'n']
  else if c = '"' then ['\\', '"']
  else if c = '\\' then ['\\', '\\']
  else if isHidden c then ['\\', 'u', '\x7b'] ++ hexDigits c.toNat ++ ['\x7d']
  else [c]

def encode (text : String) : String :=
  String.ofList ('"' :: text.toList.flatMap encodeChar ++ ['"'])

end SpriteScript.Text.Quoted
