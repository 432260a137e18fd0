-- Lengths of texts. Offsets into a source file count UTF-8 bytes; columns that an editor sees
-- count UTF-16 units.
namespace SpriteScript.Text

def utf16Size (c : Char) : Nat := if c.toNat < 0x10000 then 1 else 2

def byteLength : List Char → Nat
  | [] => 0
  | c :: cs => c.utf8Size + byteLength cs

def utf16Length : List Char → Nat
  | [] => 0
  | c :: cs => utf16Size c + utf16Length cs

-- The characters that end at or before the byte `limit`, and those after them.
def splitAtByte : List Char → Nat → List Char × List Char
  | [], _ => ([], [])
  | c :: cs, limit =>
      if c.utf8Size ≤ limit then
        let (before, after) := splitAtByte cs (limit - c.utf8Size)
        (c :: before, after)
      else ([], c :: cs)

theorem splitAtByte_append (cs : List Char) (limit : Nat) :
    (splitAtByte cs limit).1 ++ (splitAtByte cs limit).2 = cs := by
  induction cs generalizing limit with
  | nil => rfl
  | cons c cs ih =>
      unfold splitAtByte
      split
      · simp [ih]
      · rfl

theorem byteLength_append (xs ys : List Char) :
    byteLength (xs ++ ys) = byteLength xs + byteLength ys := by
  induction xs with
  | nil => simp [byteLength]
  | cons x xs ih => simp [byteLength, ih, Nat.add_assoc]

end SpriteScript.Text
