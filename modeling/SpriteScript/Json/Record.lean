import SpriteScript.Json.Basic

-- Records in JSON: objects, or arrays of the fields' values.
namespace SpriteScript.Json

-- The values of a record's fields, an array giving them in the order of `names`. A field may
-- not be given twice, and an array may end early but not go on too long.
def record? (names : List String) : Json → Option (List (Option Json))
  | .obj fields =>
      names.mapM fun name =>
        match fields.filter (·.1 == name) with
        | [] => some none
        | [(_, value)] => some (some value)
        | _ => none
  | .arr items =>
      if items.length ≤ names.length then some ((List.range names.length).map fun i => items[i]?)
      else none
  | _ => none

end SpriteScript.Json
