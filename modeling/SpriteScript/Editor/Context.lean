import SpriteScript.Editor.Document
import SpriteScript.Text.Word

-- What a cursor is in the middle of. The search goes outwards from the word at the cursor; the
-- innermost construct that is open there counts.
namespace SpriteScript.Editor

-- What is asked for at a cursor.
structure Wanted where
  -- a candidate has one of these types; no types mean that any will do
  types : List Ty := []
  -- symbols that the statement assigns, which are no candidates
  targets : List SymbolId := []
  -- the construct, from which the calls around it are found
  anchor : Option Place := none
deriving Inhabited

-- The constructs with an expression at the cursor.
inductive ExprRole where
  | callArgument | assigned | declared | returned | switchCase | selectCase
deriving DecidableEq, Repr, Inhabited

inductive MemberBase where
  | package (path : String)
  | value (ty : Ty)
deriving Repr, Inhabited

inductive Context where
  | comment
  -- `quoted` says that the quotes are there already
  | importPath (quoted : Bool)
  | member (base : Option MemberBase)
  -- a key of a literal for a struct; `present` are the keys that it has
  | structKey (struct : NamedId) (present : List String)
  | string (wanted : Wanted)
  | expr (role : ExprRole) (wanted : Wanted)
  | general (anchor : Place) (startsLine : Bool)
deriving Inhabited

namespace Context

-- The name of the context in exchanged data.
def key : Context → String
  | comment => "comment"
  | importPath _ => "import"
  | member _ => "dot"
  | structKey .. => "structLiteral"
  | string _ => "stringLiteral"
  | expr .callArgument _ => "call"
  | expr .assigned _ => "assignOrDefine"
  | expr .declared _ => "decl"
  | expr .returned _ => "return"
  | expr .switchCase _ => "switchCase"
  | expr .selectCase _ => "select"
  | general .. => "general"

end Context

-- Types asked for

-- Adds a type that is not among the others yet.
def addType (types : List Ty) (ty : Ty) : List Ty :=
  if ty.isInvalid || types.contains ty then types else types ++ [ty]

def addTypes (types : List Ty) (more : List Ty) : List Ty := more.foldl addType types

-- The types of the parameter with the given number, over all overloads of a function.
def paramTypes (d : Document) (callee : Tree) (index : Nat) : List Ty :=
  match d.calleeSymbol? callee with
  | some s => addTypes [] ((d.model.symbol s).signatures.filterMap (·.param? index))
  | none =>
      match d.type? callee with
      | some (.func params variadic results) =>
          addTypes [] (({ params, variadic, results } : Signature).param? index).toList
      | _ => []

-- Contexts of tokens

-- Whether an offset at a text token lies before its closing quote.
def insideText (t : Token) (offset : Nat) : Bool :=
  let closed :=
    match t.kind with
    | .rawStr => 2 ≤ t.text.utf8ByteSize && t.text.toList.getLast? == some '\x60'
    | _ => Token.isTerminatedString t.text
  if closed then offset < t.stop else offset ≤ t.stop

def textContext (d : Document) (p : TokenPlace) : Context :=
  if p.around.any (·.isA .importSpec) then .importPath true
  else
    match p.parent?.filter (·.isA .literal) with
    | none => .string {}
    | some literal =>
        let types := addTypes [] ((d.type? literal.tree).toList ++ (d.expected? literal.tree).toList)
        let asked :=
          match literal.parentOf? .argList with
          | none => []
          | some list =>
              match (list.parent?.filter (·.tree.isCall)).bind (·.tree.expr?) with
              | none => []
              | some callee =>
                  let index := (list.tree.childNodes.findIdx? literal.tree.sameAs).getD 0
                  paramTypes d callee index
        .string { types := addTypes types asked, anchor := some literal }

def memberContext (d : Document) (dot : TokenPlace) : Context :=
  match (dot.parent?.filter (·.isA .selectorExpr)).bind (·.tree.expr?) with
  | none => .member none
  | some base =>
      let package? := do
        let s := d.model.symbol (← d.used? (← if base.isA .nameRef then base.ident? else none))
        if s.kind == .package then some s.package else none
      match package? with
      | some path => .member (some (.package path))
      | none => .member ((d.type? base).map .value)

-- Contexts of nodes. They are none where the cursor is not in the part of the node that asks
-- for an expression.

def commasBefore (list? : Option Tree) (offset : Nat) : Nat :=
  match list? with
  | some list => ((list.commas).filter (·.stop ≤ offset)).length
  | none => 0

def callContext? (d : Document) (list : Place) (offset : Nat) : Option Context := do
  let call ← list.parent?
  let callee ← if call.tree.isCall then call.tree.expr? else none
  let started :=
    match list.tree.tokenOf? .lParen with
    | some paren => paren.stop ≤ offset
    | none => callee.stop < offset
  let ended := (list.tree.tokenOf? .rParen).any (·.offset < offset)
  if !started || ended then none
  else
    let types := paramTypes d callee (commasBefore (some list.tree) offset)
    return .expr .callArgument { types, anchor := some call }

-- A key that is written before its colon ends the list of keys at the cursor.
def structContext? (d : Document) (body : Place) (offset : Nat) : Option Context := do
  let literal ← body.parentOf? .compositeLit
  let id ← (← d.type? literal.tree).named?
  if offset ≤ body.tree.start || !(d.model.namedType id).isStruct then none
  else
    let elements := body.tree.childrenOf .keyedElement
    let inValue := elements.any fun e =>
      (e.tokenOf? .colon).any fun colon => e.range.touches offset && colon.stop ≤ offset
    if inValue then none
    else return .structKey id (elements.filterMap fun e => e.childNodes.head?.map Tree.text)

-- The symbol of the first name in a node.
def firstSymbol? (d : Document) (t : Tree) : Option SymbolId :=
  (t.tokens.find? (·.kind == .ident)).bind d.bound?

def assignContext? (d : Document) (stmt : Place) (offset : Nat) : Option Context := do
  let op ← stmt.tree.childTokens.find? fun t => t.kind == .colonEq ||
    [.eq, .plusEq, .minusEq, .starEq, .slashEq, .percentEq].contains t.kind
  let lists := stmt.tree.childrenOf .exprList
  let left := (← lists.head?).childNodes
  if offset < op.stop then none
  else
    let targets := (left.filter (·.isA .nameRef)).filterMap (firstSymbol? d)
    let types :=
      if stmt.isA .assignStmt then
        addTypes [] ((left[commasBefore lists[1]? offset]?).bind d.type?).toList
      else []
    return .expr .assigned { types, targets, anchor := some stmt }

def declContext? (d : Document) (spec : Place) (offset : Nat) : Option Context := do
  let eq ← spec.tree.tokenOf? .eq
  if offset < eq.stop then none
  else
    let names := spec.tree.names
    let hasType := spec.tree.childNodes.any fun n => !(n.isA .name) && !(n.isA .exprList)
    let types :=
      if hasType then
        let s? := (names[commasBefore (spec.tree.child? .exprList) offset]?).bind (firstSymbol? d)
        addTypes [] (s?.map fun s => (d.model.symbol s).ty).toList
      else []
    return .expr .declared { types, targets := names.filterMap (firstSymbol? d), anchor := some spec }

-- What the function around a place returns.
def resultsAround? (d : Document) (place : Place) : Option (List Ty) := do
  let func ← place.chain.find? fun t =>
    t.isA .funcDecl || t.isA .funcLit || t.isA .lambdaExpr
  if func.isA .funcDecl then
    let s ← (← func.name?) |> firstSymbol? d
    return ((d.model.symbol s).signatures.head?.map (·.results)).getD []
  else
    match (d.type? func).map d.model.underlying with
    | some (.func _ _ results) => return results
    | _ => return []

def returnContext? (d : Document) (stmt : Place) (offset : Nat) : Option Context := do
  let keyword ← stmt.tree.tokenOf? .returnKw
  if offset < keyword.stop then none
  else
    let results ← resultsAround? d stmt
    let types := addTypes [] (results[commasBefore (stmt.tree.child? .exprList) offset]?).toList
    return .expr .returned { types, anchor := some stmt }

-- Whether the offset lies between `case` and the colon.
def inClauseHead (clause : Tree) (offset : Nat) : Bool :=
  (clause.tokenOf? .caseKw).any fun keyword =>
    keyword.stop ≤ offset && (clause.tokenOf? .colon).all (offset ≤ ·.offset)

def caseContext? (d : Document) (clause : Place) (offset : Nat) : Option Context := do
  let switch ← clause.parentOf? .switchStmt
  if !inClauseHead clause.tree offset then none
  else
    let types :=
      match switch.tree.expr? with
      | some tag => addTypes [] (d.type? tag).toList
      | none => [.basic .bool]
    return .expr .switchCase { types, anchor := some clause }

def selectContext? (clause : Place) (offset : Nat) : Option Context :=
  if inClauseHead clause.tree offset then some (.expr .selectCase { anchor := some clause }) else none

def nodeContext? (d : Document) (place : Place) (offset : Nat) : Option Context :=
  match place.tree.kind? with
  | some .argList => callContext? d place offset
  | some .litBody => structContext? d place offset
  | some .assignStmt | some .defineStmt => assignContext? d place offset
  | some .varSpec | some .constSpec => declContext? d place offset
  | some .returnStmt => returnContext? d place offset
  | some .caseClause => caseContext? d place offset
  | some .commClause => selectContext? place offset
  | some .importDecl | some .importSpec => some (.importPath false)
  | _ => none

-- Nodes behind which the surroundings have no say.
def isBoundary (t : Tree) : Bool :=
  t.isA .block || t.isA .funcDecl || t.isA .funcLit || t.isA .lambdaExpr || t.isA .sourceFile

-- The innermost context of the nodes around a place.
def contextAround? (d : Document) (offset : Nat) : List Place → Option Context
  | [] => none
  | place :: rest =>
      if isBoundary place.tree then none
      else (nodeContext? d place offset).or (contextAround? d offset rest)

-- The text between two offsets.
def textBetween (d : Document) (start stop : Nat) : List Char :=
  let behind := (Text.splitAtByte d.file.text.toList start).2
  (Text.splitAtByte behind (stop - start)).1

-- A function at the start of a statement with blanks behind it, and no argument yet.
def commandContext? (d : Document) (before : TokenPlace) (offset : Nat) : Option Context := do
  let gap := textBetween d before.token.stop offset
  if before.token.kind != .ident || gap.isEmpty || gap.any fun c => c != ' ' && c != '\t' then none
  else
    let name ← before.parent?
    let callee := (name.parentOf? .selectorExpr).getD name
    if (callee.parentOf? .exprStmt).isNone || !callee.tree.isExpr then none
    else
      let s ← d.calleeSymbol? callee.tree
      if (d.model.symbol s).kind.isCallable then
        return .expr .callArgument { types := paramTypes d callee.tree 0, anchor := some callee }
      else none

-- Whether only blanks stand between the start of the line and the word at the cursor.
def startsLine (d : Document) (offset wordStart : Nat) : Bool :=
  (d.file.lines.lineRange? (d.file.lines.position offset).line).any fun line =>
    line.start ≤ wordStart && (textBetween d line.start wordStart).all Text.isBlank

-- The context at the token to the left of the cursor, if that is a comment or a text.
def leftContext? (d : Document) (left? : Option TokenPlace) (offset : Nat) : Option Context := do
  let left ← left?
  if offset ≤ left.token.offset then none
  else if left.token.kind.isComment then some .comment
  else if (left.token.kind == .str || left.token.kind == .rawStr) && insideText left.token offset then
    some (textContext d left)
  else none

def contextOf (d : Document) (offset : Nat) : Context :=
  let root := d.file.tree
  let leaves := root.leaves
  match leftContext? d (TokenPlace.leftOf? leaves offset) offset with
  | some context => context
  | none =>
      let word := Text.wordRangeBefore d.file.text.toList offset
      let before? := TokenPlace.before? leaves word.start
      match before?.filter (·.token.kind == .dot) with
      | some dot => memberContext d dot
      | none =>
          let token? := if word.isEmpty then before? else TokenPlace.rightOf? leaves word.start
          let start := (token?.bind (·.parent?)).getD ⟨root, []⟩
          let command? := if word.isEmpty then before?.bind (commandContext? d · offset) else none
          ((contextAround? d offset start.outward).or command?).getD
            (.general start (startsLine d offset word.start))

-- The context at a position, unless its line is not there.
def contextAt? (p : Program) (path : String) (position : Text.Position) :
    Except RequestError (Option Context) := do
  let d ← Document.open? p path
  return (d.offset? position).map (contextOf d)

end SpriteScript.Editor
