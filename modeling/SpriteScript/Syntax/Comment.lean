import SpriteScript.Syntax.Tree

-- Comments in front of declarations.
namespace SpriteScript.Syntax

def dropSlashes : List Char → List Char
  | '/' :: '/' :: rest => dropSlashes rest
  | cs => cs

-- The text of a comment: no slashes, and without the first space.
def commentText (text : String) : String :=
  match dropSlashes text.toList with
  | ' ' :: rest => String.ofList rest
  | rest => String.ofList rest

-- The comments at the front of `before`, which runs away from the declaration. A blank line, or
-- anything else, ends them; `feeds` counts line feeds since the last comment.
def commentsBackwards (feeds : Nat) : List Tree → List String
  | .token t :: rest =>
      match t.kind with
      | .whitespace => commentsBackwards feeds rest
      | .newline => if feeds = 0 then commentsBackwards 1 rest else []
      | .lineComment => commentText t.text :: commentsBackwards 0 rest
      | _ => []
  | _ => []

def leadingComment? (before : List Tree) : Option String :=
  match (commentsBackwards 0 before).reverse with
  | [] => none
  | lines => some ("\n".intercalate lines)

-- The children of a node with their siblings before them, the nearest first.
def withBefore (before : List Tree) : List Tree → List (Tree × List Tree)
  | [] => []
  | t :: rest => (t, before) :: withBefore (t :: before) rest

end SpriteScript.Syntax
