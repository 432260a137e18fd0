import SpriteScript.Editor.Document

-- Values as a visual editor shows and changes them.
namespace SpriteScript.Editor

-- What kind of value an editor offers a control for.
inductive InputType where
  | integer | decimal | string | boolean
  -- the name of a resource
  | resourceName
  | color
  -- one of the named values of an engine type
  | enum (domain : Vocabulary.EnumDomain)
  | unknown
deriving DecidableEq, Repr, Inhabited

namespace InputType

def ofBasic (kind : BasicKind) : InputType :=
  if kind.isBoolean then .boolean
  else if kind.isInteger then .integer
  else if kind.isNumeric then .decimal
  else if kind.isString then .string
  else .unknown

def ofTy (m : Model) (ty : Ty) : InputType :=
  if (m.resourceNameKind? ty).isSome then .resourceName
  else
    match m.enumDomain? ty with
    | some domain => .enum domain
    | none =>
        if m.isEngineType ty Vocabulary.colorType then .color
        else ((m.basicOf? ty).map ofBasic).getD .unknown

end InputType

inductive InputValue where
  | int (value : Int)
  | float (value : Float)
  | bool (value : Bool)
  | string (text : String)
  -- a constant of the engine by its name
  | constant (name : String)
  | color (constructor : String) (args : List Float)
deriving Repr, Inhabited

inductive Input where
  -- the value is written out
  | inPlace (type : InputType) (value : InputValue)
  -- the value is that of a name
  | predefined (type : InputType) (name : String)
deriving Repr, Inhabited

namespace Input

-- Floats beyond this are no integers of 64 bits.
def intLimit : Float := 9223372036854775808.0

-- A literal. The check may have made a float of an integer; it is shown as it is written.
def ofLiteral? (d : Document) (t : Tree) : Option Input := do
  let value ← (← d.typeAndValue? t).value
  match ← t.literalKind?, value with
  | .int, .int n => return .inPlace .integer (.int n)
  | .int, .float x =>
      if Constant.isWhole x && x.abs < intLimit then return .inPlace .integer (.int x.toInt64.toInt)
      else none
  | .float, value => return .inPlace .decimal (.float (← value.float?))
  | .string, .string text => return .inPlace .string (.string text)
  | _, _ => none

-- A constant of an engine type. Directions are shown as numbers.
def ofEnum? (domain : Vocabulary.EnumDomain) (s : Symbol) : Option Input :=
  if domain.isNumeric then
    match s.value with
    | some (.int n) => some (.inPlace (.enum domain) (.int n))
    | some (.float x) => some (.inPlace (.enum domain) (.float x))
    | _ => none
  else some (.inPlace (.enum domain) (.constant s.name))

def ofSymbol? (m : Model) (s : Symbol) : Option Input :=
  let named : Option Input :=
    if s.kind.isVariable || s.kind == .const then some (.predefined (.ofTy m s.ty) s.name) else none
  if s.kind != .const then named
  else
    match s.value, (if s.isBuiltin then m.enumDomain? s.ty else none) with
    | some (.bool b), _ => some (.inPlace .boolean (.bool b))
    | _, some domain => ofEnum? domain s
    | _, none => named

-- A name.
def ofName? (d : Document) (t : Tree) : Option Input := do
  ofSymbol? d.model (d.model.symbol (← d.used? (← t.ident?)))

def applySign? (op : TokenKind) (value : InputValue) : Option InputValue :=
  match op, value with
  | .plus, .int n => some (.int n)
  | .plus, .float x => some (.float x)
  | .minus, .int n => if n == Constant.minInt then none else some (.int (-n))
  | .minus, .float x => some (.float (-x))
  | .caret, .int n => some (.int (-n - 1))
  | .bang, .bool b => some (.bool !b)
  | _, _ => none

-- A number with a sign, or a negated truth value.
def ofUnary? (d : Document) (t : Tree) : Option Input := do
  let op ← t.unaryOp?
  let operand := (← t.expr?).unparen
  let inner ←
    match op, operand.kind? with
    | .plus, some .literal | .minus, some .literal | .caret, some .literal => ofLiteral? d operand
    | .bang, some .nameRef => ofName? d operand
    | _, _ => none
  match inner with
  | .inPlace type value => return .inPlace type (← applySign? op value)
  | .predefined .. => none

def numberOf? (d : Document) (arg : Tree) : Option Float := do
  let t := arg.unparen
  let input ←
    match t.kind? with
    | some .literal => ofLiteral? d t
    | some .unaryExpr => ofUnary? d t
    | _ => none
  match input with
  | .inPlace _ (.int n) => return Float.ofInt n
  | .inPlace _ (.float x) => return x
  | _ => none

-- A call that builds a color from written numbers.
def ofColorCall? (d : Document) (t : Tree) : Option Input := do
  let callee := (← t.expr?).unparen
  if !callee.isA .nameRef then none
  else
    let s := d.model.symbol (← d.used? (← callee.ident?))
    let isConstructor := s.kind == .func && s.isBuiltin && s.package == Vocabulary.enginePackage &&
      Vocabulary.colorConstructors.contains (s.name, t.args.length)
    if !isConstructor then none
    else return .inPlace .color (.color s.name (← t.args.mapM (numberOf? d)))

-- The input that an expression stands for; most expressions are none.
def ofExpr? (d : Document) (expr : Tree) : Option Input :=
  let t := expr.unparen
  match t.kind? with
  | some .literal => ofLiteral? d t
  | some .nameRef => ofName? d t
  | some .unaryExpr => ofUnary? d t
  | some .callExpr => ofColorCall? d t
  | _ => none

end Input

end SpriteScript.Editor
