import SpriteScript.Text.CharClass
import SpriteScript.Text.Measure
import SpriteScript.Text.Position

-- Words of a text: the longest runs of word characters.
namespace SpriteScript.Text

-- First and last bound of the word that holds the character with the given number.
def wordBounds? (chars : List Char) (index : Nat) : Option (Nat × Nat) :=
  match chars[index]? with
  | none => none
  | some c =>
      if isWordChar c then
        let before := (chars.take index).reverse.takeWhile isWordChar
        let after := (chars.drop index).takeWhile isWordChar
        some (index - before.length, index + after.length)
      else none

def wordAt? (chars : List Char) (index : Nat) : Option (List Char) :=
  (wordBounds? chars index).map fun (start, stop) => (chars.drop start).take (stop - start)

-- The bytes of the word that ends at the offset, empty if a word does not end there.
def wordRangeBefore (chars : List Char) (offset : Nat) : ByteRange :=
  let before := (splitAtByte chars offset).1
  let stop := byteLength before
  ⟨stop - byteLength (before.reverse.takeWhile isWordChar), stop⟩

end SpriteScript.Text
