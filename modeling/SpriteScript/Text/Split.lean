-- Cutting texts at a character.
namespace SpriteScript.Text

-- The parts between the separators; always one more than there are separators.
def splitChars (sep : Char) : List Char → List (List Char)
  | [] => [[]]
  | c :: cs =>
      let parts := splitChars sep cs
      if c = sep then [] :: parts
      else
        match parts with
        | part :: rest => (c :: part) :: rest
        | [] => [[c]]

def splitText (sep : Char) (text : String) : List String :=
  (splitChars sep text.toList).map String.ofList

-- The rest behind a given start.
def dropStart? (start text : List Char) : Option (List Char) :=
  match start, text with
  | [], rest => some rest
  | s :: ss, c :: cs => if s = c then dropStart? ss cs else none
  | _ :: _, [] => none

def dropTextStart? (start text : String) : Option String :=
  (dropStart? start.toList text.toList).map String.ofList

-- The text before a given end.
def dropTextEnd? (ending text : String) : Option String :=
  (dropStart? ending.toList.reverse text.toList.reverse).map fun cs => String.ofList cs.reverse

def dropTrailing (c : Char) (text : String) : String :=
  String.ofList (text.toList.reverse.dropWhile (· == c)).reverse

-- Texts by code points, without repeats.
def sortedUnique (texts : List String) : List String :=
  (texts.mergeSort fun a b => !decide (b < a)).eraseDups

end SpriteScript.Text
