import SpriteScript.Editor.Input

-- Slots: the places of a document that a visual editor lets its user change.
namespace SpriteScript.Editor

inductive SlotKind where
  -- a value that may be replaced
  | value
  -- a variable that is assigned
  | address
deriving DecidableEq, Repr, Inhabited

-- The resources that a slot for the name of a resource may take.
structure ResourceContext where
  kind : ResourceKind
  -- whose costumes or animations
  sprite : Option String
deriving DecidableEq, Repr, Inhabited

structure InputSlot where
  kind : SlotKind
  accepts : InputType
  resources : Option ResourceContext
  input : Input
  -- names that could stand here instead
  names : List String
  span : Text.Span
deriving Repr, Inhabited

namespace InputSlot

-- Values before addresses.
def rank (s : InputSlot) : Nat :=
  match s.kind with
  | .value => 0
  | .address => 1

def le (a b : InputSlot) : Bool :=
  a.span.start.lt b.span.start || (a.span.start == b.span.start && a.rank ≤ b.rank)

end InputSlot

-- The role of an expression in a list of expressions.
def listedSlotKind? (list : Place) : Option SlotKind :=
  list.parent?.bind fun stmt =>
    let isFirst := (stmt.tree.child? .exprList).any list.tree.sameAs
    match stmt.tree.kind? with
    | some .assignStmt => some (if isFirst then .address else .value)
    | some .defineStmt => if isFirst then none else some .value
    | some .returnStmt | some .caseClause | some .varSpec | some .constSpec => some .value
    | _ => none

-- The role of a node by where it stands.
def slotKind? (place : Place) : Option SlotKind :=
  if !place.tree.isExpr then none
  else
    place.parent?.bind fun parent =>
      match parent.tree.kind? with
      | some .argList | some .binaryExpr | some .listLit | some .litBody | some .sendStmt
      | some .ifStmt | some .forStmt | some .forClause | some .switchStmt | some .returnStmt
      | some .caseClause | some .varSpec | some .constSpec => some .value
      | some .indexExpr | some .keyedElement =>
          if parent.tree.childNodes[1]?.any place.tree.sameAs then some .value else none
      | some .incDecStmt => some .address
      | some .exprList => listedSlotKind? parent
      | _ => none

-- Whether the value of a symbol may stand where a type is asked for. Functions count by what
-- they return when they are called without arguments.
def suits (m : Model) (accepted : Ty) (address : Bool) (s : Symbol) : Bool :=
  match s.kind with
  | .var | .param | .field => m.assignable s.ty accepted
  | .const => !address && m.assignable s.ty accepted
  | .func | .method =>
      !address && s.signatures.any fun g =>
        g.params.isEmpty &&
          match g.results with
          | [result] => m.assignable result accepted
          | _ => false
  | _ => false

-- The names that suit, of those that are visible. Predeclared ones are left out: they are
-- written in place.
def namesFor (d : Document) (place : Place) (accepted : Ty) (address : Bool) : List String :=
  if accepted.isInvalid then []
  else
    ((d.visibleAt place.tree.start).map d.model.symbol).filterMap fun s =>
      let predeclared := s.isBuiltin && s.package.isEmpty
      if !isHidden s && !predeclared && suits d.model accepted address s then some s.name else none

def slotOf (d : Document) (kind : SlotKind) (place : Place) (accepted : Ty) (input : Input) : InputSlot where
  kind
  accepts := .ofTy d.model accepted
  resources := (d.model.resourceNameKind? accepted).map fun kind =>
    ⟨kind, if kind.isSpriteScoped then d.spriteAt? place else none⟩
  input
  names := namesFor d place accepted (kind == .address)
  span := d.span place.tree.range

def valueSlot? (d : Document) (place : Place) : Option InputSlot :=
  (Input.ofExpr? d place.tree).map fun input =>
    let accepted := (d.expected? place.tree <|> d.type? place.tree).getD .invalid
    slotOf d .value place accepted input

def addressSlot? (d : Document) (place : Place) : Option InputSlot := do
  let t := place.tree.unparen
  if !t.isA .nameRef then none
  else
    let s := d.model.symbol (← d.used? (← t.ident?))
    if s.kind.isVariable then
      return slotOf d .address place s.ty (.predefined (.ofTy d.model s.ty) s.name)
    else none

def slotAt? (d : Document) (place : Place) : Option InputSlot :=
  (slotKind? place).bind fun
    | .value => valueSlot? d place
    | .address => addressSlot? d place

-- Takes the slots of the places in turn, leaving out those that overlap one before them.
def takeSlots (d : Document) : List (Text.ByteRange × InputSlot) → List Place → List InputSlot
  | taken, [] => taken.reverse.map (·.2)
  | taken, place :: rest =>
      let range := place.tree.range
      if taken.any fun (other, _) => other.start < range.stop && range.start < other.stop then
        takeSlots d taken rest
      else
        match slotAt? d place with
        | some slot => takeSlots d ((range, slot) :: taken) rest
        | none => takeSlots d taken rest

-- The slots of a document by place. None lies in another one.
def inputSlots (p : Program) (path : String) : Except RequestError (List InputSlot) := do
  let d ← Document.open? p path
  return (takeSlots d [] d.file.tree.places).mergeSort InputSlot.le

end SpriteScript.Editor
