-- Files: those of a program by their place in it, and those of the bundled packages.
namespace SpriteScript

inductive FileId where
  | source (index : Nat)
  | bundled (index : Nat)
deriving DecidableEq, Repr, Inhabited, Hashable

namespace FileId

def isBundled : FileId → Bool
  | bundled _ => true
  | source _ => false

-- The place in the program; bundled files come after all sources.
def before : FileId → FileId → Bool
  | source a, source b => a < b
  | source _, bundled _ => true
  | bundled a, bundled b => a < b
  | bundled _, source _ => false

end FileId

end SpriteScript
