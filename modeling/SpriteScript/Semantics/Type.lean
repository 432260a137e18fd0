-- Static types. A declared type is a number into the model's table; all others are values.
namespace SpriteScript

structure SymbolId where
  index : Nat
deriving DecidableEq, Repr, Inhabited, Hashable

structure NamedId where
  index : Nat
deriving DecidableEq, Repr, Inhabited, Hashable

-- The predeclared types, and the kinds of constants that have no type yet.
inductive BasicKind where
  | bool | int | float64 | string
  | untypedBool | untypedInt | untypedFloat | untypedString | untypedNil
deriving DecidableEq, Repr, Inhabited

namespace BasicKind

def isUntyped : BasicKind → Bool
  | untypedBool | untypedInt | untypedFloat | untypedString | untypedNil => true
  | _ => false

def isNumeric : BasicKind → Bool
  | int | float64 | untypedInt | untypedFloat => true
  | _ => false

def isInteger : BasicKind → Bool
  | int | untypedInt => true
  | _ => false

def isString : BasicKind → Bool
  | string | untypedString => true
  | _ => false

def isBoolean : BasicKind → Bool
  | bool | untypedBool => true
  | _ => false

-- What an untyped constant becomes where nothing asks for another type.
def defaulted : BasicKind → BasicKind
  | untypedBool => bool
  | untypedInt => int
  | untypedFloat => float64
  | untypedString => string
  | kind => kind

def name : BasicKind → String
  | bool => "bool"
  | int => "int"
  | float64 => "float64"
  | string => "string"
  | untypedBool => "untyped bool"
  | untypedInt => "untyped int"
  | untypedFloat => "untyped float"
  | untypedString => "untyped string"
  | untypedNil => "untyped nil"

end BasicKind

inductive Ty where
  -- the type of what is already in error; it fits everywhere
  | invalid
  | basic (kind : BasicKind)
  -- the interface without methods
  | any
  | named (id : NamedId)
  | slice (elem : Ty)
  | map (key value : Ty)
  | chan (elem : Ty)
  -- the last parameter of a variadic function is a slice of what the call may repeat
  | func (params : List Ty) (variadic : Bool) (results : List Ty)
  -- several results of a call, or none
  | tuple (items : List Ty)
deriving Repr, Inhabited

namespace Ty

-- Equality of types.
def same : Ty → Ty → Bool
  | invalid, invalid => true
  | basic a, basic b => a == b
  | any, any => true
  | named a, named b => a == b
  | slice a, slice b => a.same b
  | map a b, map c d => a.same c && b.same d
  | chan a, chan b => a.same b
  | func ps v rs, func ps' v' rs' => sameAll ps ps' && v == v' && sameAll rs rs'
  | tuple as, tuple bs => sameAll as bs
  | _, _ => false
where
  sameAll : List Ty → List Ty → Bool
    | [], [] => true
    | a :: as, b :: bs => a.same b && sameAll as bs
    | _, _ => false

instance : BEq Ty := ⟨same⟩

def void : Ty := tuple []

def isInvalid : Ty → Bool
  | invalid => true
  | _ => false

def isVoid : Ty → Bool
  | tuple [] => true
  | _ => false

def basic? : Ty → Option BasicKind
  | basic kind => some kind
  | _ => none

def isUntyped (t : Ty) : Bool := t.basic?.any BasicKind.isUntyped

def named? : Ty → Option NamedId
  | named id => some id
  | _ => none

def defaulted : Ty → Ty
  | basic kind => basic kind.defaulted
  | t => t

end Ty

structure Signature where
  params : List Ty := []
  paramNames : List (Option String) := []
  variadic : Bool := false
  results : List Ty := []
deriving Repr, Inhabited

namespace Signature

def toTy (s : Signature) : Ty := .func s.params s.variadic s.results

-- How many arguments a call must have at least.
def fixedCount (s : Signature) : Nat := if s.variadic then s.params.length - 1 else s.params.length

def accepts (s : Signature) (count : Nat) : Bool :=
  if s.variadic then s.fixedCount ≤ count else count == s.params.length

-- The type of the argument with the given number; those of a variadic tail share one.
def param? (s : Signature) (index : Nat) : Option Ty :=
  if s.variadic && s.params.length ≤ index + 1 then
    s.params.getLast?.map fun
      | .slice elem => elem
      | t => t
  else s.params[index]?

-- The type of a call: that of its one result, or a tuple.
def result (s : Signature) : Ty :=
  match s.results with
  | [t] => t
  | ts => .tuple ts

end Signature

end SpriteScript
