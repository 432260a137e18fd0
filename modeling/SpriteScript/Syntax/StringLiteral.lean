import SpriteScript.Token.Lexer

-- What the text of a string literal stands for.
namespace SpriteScript.Syntax

-- A backslash gives the next character, four of which have a meaning of their own; one at the
-- very end stands for itself.
def unescape : List Char → List Char
  | [] => []
  | ['\\'] => ['\\']
  | '\\' :: c :: rest =>
      let meant :=
        match c with
        | 'n' => '\n'
        | 't' => '\t'
        | 'r' => '\r'
        | '0' => '\x00'
        | other => other
      meant :: unescape rest
  | c :: rest => c :: unescape rest

def dropLastIf (c : Char) (cs : List Char) : List Char :=
  if cs.getLast? = some c then cs.dropLast else cs

-- Raw and quoted literals; either may lack its closing quote.
def unquote? (text : String) : Option String :=
  match text.toList with
  | '\x60' :: body => some (String.ofList (dropLastIf '\x60' body))
  | '"' :: body =>
      let body := if Token.isTerminatedString text then body.dropLast else body
      some (String.ofList (unescape body))
  | _ => none

end SpriteScript.Syntax
