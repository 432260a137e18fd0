import SpriteScript.Syntax.Parser.Rules

-- Types and signatures.
namespace SpriteScript.Syntax.Rules

-- A parameter is a name, a type, or a name and a type. A name alone counts as a name when a
-- comma or the end of the list follows.
def param (g : Rules) : Action Unit :=
  node .param do
    let named := (← isAt .ident) &&
      (← second?).any fun k => k == .comma || k == .rParen || k == .ellipsis || typeStart.contains k
    if named then
      name "parameter name"
    discard <| eat .ellipsis
    if ← isAtAny typeStart then
      g.type
    else if !named then
      fault (.expected "parameter")

def paramList (g : Rules) : Action Unit :=
  node .paramList do
    bump
    g.commaList .rParen g.param
    discard <| expect .rParen "')'"

def signature (g : Rules) : Action Unit := do
  if ← isAt .lParen then
    g.paramList
  else
    fault (.expected "'('")
  if ← isAt .lParen then
    node .result g.paramList
  else if ← isAtAny typeStart then
    node .result g.type

-- Names with commas before them.
def moreNames (g : Rules) (what : String) : Action Unit :=
  repeatWhile g.fuel do
    if ← eat .comma then
      name what
      return true
    else
      return false

-- A field without a name of its own is embedded: it is a type name, and nothing follows it.
def fieldDecl (g : Rules) : Action Unit :=
  node .fieldDecl do
    let embedded := (← isAt .star) || ((← isAt .ident) &&
      (← second?).any [.dot, .newline, .semicolon, .rBrace].contains)
    if embedded then
      g.type
    else
      name "field name"
      g.moreNames "field name"
      g.type

def methodSpec (g : Rules) : Action Unit :=
  node .methodSpec do
    name "method name"
    g.signature

-- The members between the braces of a struct or an interface.
def typeBody (g : Rules) (what : String) (member : Action Unit) : Action Unit := do
  bump
  if ← expect .lBrace "'\x7b'" then
    g.separators
    g.members .rBrace (.expected what) [.rBrace] do
      member
      g.statementEnd
      g.separators
    discard <| expect .rBrace "'\x7d'"

def typeRule (g : Rules) : Action Unit := do
  match ← kind? with
  | some .ident =>
      node .typeRef do
        bump
        if (← isAt .dot) && (← second?) == some .ident then
          bump
          bump
  | some .star => node .pointerType (do bump; g.type)
  | some .lBracket =>
      node .sliceType do
        bump
        discard <| expect .rBracket "']'"
        g.type
  | some .mapKw =>
      node .mapType do
        bump
        discard <| expect .lBracket "'['"
        g.type
        discard <| expect .rBracket "']'"
        g.type
  | some .chanKw => node .chanType (do bump; g.type)
  | some .funcKw => node .funcType (do bump; g.signature)
  | some .structKw => node .structType (g.typeBody "field" g.fieldDecl)
  | some .interfaceKw => node .interfaceType (g.typeBody "method" g.methodSpec)
  | _ => fault (.expected "type")

end SpriteScript.Syntax.Rules
