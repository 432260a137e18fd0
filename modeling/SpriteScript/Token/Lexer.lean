import SpriteScript.Text.CharClass
import SpriteScript.Text.Measure
import SpriteScript.Token.Basic

-- Cutting a text into tokens. Every character belongs to exactly one token, and of the tokens
-- that could start at a place the longest is taken.
namespace SpriteScript.Token

-- How many characters at the front satisfy `p`.
def runLength (p : Char → Bool) : List Char → Nat
  | [] => 0
  | c :: cs => if p c then runLength p cs + 1 else 0

-- An exponent, `e` and at least one digit with or without a sign, or nothing.
def exponentLength : List Char → Nat
  | e :: cs =>
      if e == 'e' || e == 'E' then
        match cs with
        | sign :: digits =>
            if sign == '+' || sign == '-' then
              match runLength Char.isDigit digits with
              | 0 => 0
              | n => n + 2
            else
              match runLength Char.isDigit cs with
              | 0 => 0
              | n => n + 1
        | [] => 0
      else 0
  | [] => 0

-- The digits behind a decimal point, and the exponent.
def fractionLength (cs : List Char) : Nat :=
  let digits := runLength Char.isDigit cs
  digits + exponentLength (cs.drop digits)

def hexLength : List Char → Nat
  | '0' :: x :: cs =>
      if x == 'x' || x == 'X' then
        match runLength Text.isHexDigit cs with
        | 0 => 0
        | n => n + 2
      else 0
  | _ => 0

-- A number that starts with a digit. `2.` is a number of its own, whatever follows.
def scanNumber (cs : List Char) : TokenKind × Nat :=
  match hexLength cs with
  | 0 =>
      let digits := runLength Char.isDigit cs
      match cs.drop digits with
      | '.' :: rest => (.float, digits + 1 + fractionLength rest)
      | rest =>
          match exponentLength rest with
          | 0 => (.int, digits)
          | n => (.float, digits + n)
  | n => (.int, n)

-- The inside of a string and its closing quote, if it has one. A string ends with its line; a
-- backslash takes the next character with it, but not the end of the line.
def stringLength : List Char → Nat
  | '"' :: _ => 1
  | '\n' :: _ => 0
  | ['\\'] => 0
  | '\\' :: '\n' :: _ => 0
  | '\\' :: _ :: cs => stringLength cs + 2
  | _ :: cs => stringLength cs + 1
  | [] => 0

-- Characters up to and including the closing backtick, if there is one.
def rawStringLength? : List Char → Option Nat
  | [] => none
  | '\x60' :: _ => some 1
  | _ :: cs => (rawStringLength? cs).map (· + 1)

-- A block comment is no comment here but an error. It ends before the slash of its `*/`, which
-- is then a token of its own.
def blockErrorLength : List Char → Nat
  | [] => 0
  | '*' :: '/' :: _ => 1
  | _ :: cs => blockErrorLength cs + 1

def scanPunct : List Char → TokenKind × Nat
  | '.' :: '.' :: '.' :: _ => (.ellipsis, 3)
  | ':' :: '=' :: _ => (.colonEq, 2)
  | '=' :: '>' :: _ => (.fatArrow, 2)
  | '=' :: '=' :: _ => (.eqEq, 2)
  | '<' :: '-' :: _ => (.arrow, 2)
  | '<' :: '<' :: _ => (.shl, 2)
  | '<' :: '=' :: _ => (.ltEq, 2)
  | '>' :: '>' :: _ => (.shr, 2)
  | '>' :: '=' :: _ => (.gtEq, 2)
  | '&' :: '&' :: _ => (.ampAmp, 2)
  | '|' :: '|' :: _ => (.pipePipe, 2)
  | '!' :: '=' :: _ => (.bangEq, 2)
  | '+' :: '+' :: _ => (.plusPlus, 2)
  | '+' :: '=' :: _ => (.plusEq, 2)
  | '-' :: '-' :: _ => (.minusMinus, 2)
  | '-' :: '=' :: _ => (.minusEq, 2)
  | '*' :: '=' :: _ => (.starEq, 2)
  | '/' :: '=' :: _ => (.slashEq, 2)
  | '%' :: '=' :: _ => (.percentEq, 2)
  | '\x7b' :: _ => (.lBrace, 1)
  | '\x7d' :: _ => (.rBrace, 1)
  | '[' :: _ => (.lBracket, 1)
  | ']' :: _ => (.rBracket, 1)
  | '(' :: _ => (.lParen, 1)
  | ')' :: _ => (.rParen, 1)
  | ';' :: _ => (.semicolon, 1)
  | ':' :: _ => (.colon, 1)
  | ',' :: _ => (.comma, 1)
  | '.' :: _ => (.dot, 1)
  | '=' :: _ => (.eq, 1)
  | '+' :: _ => (.plus, 1)
  | '-' :: _ => (.minus, 1)
  | '*' :: _ => (.star, 1)
  | '/' :: _ => (.slash, 1)
  | '%' :: _ => (.percent, 1)
  | '&' :: _ => (.amp, 1)
  | '|' :: _ => (.pipe, 1)
  | '^' :: _ => (.caret, 1)
  | '!' :: _ => (.bang, 1)
  | '<' :: _ => (.lt, 1)
  | '>' :: _ => (.gt, 1)
  | _ => (.error, 1)

def isSpace (c : Char) : Bool := c == ' ' || c == '\t' || c == '\r' || c == '\x0c'

-- A word is a keyword only if the first byte behind it already shows that the word is over.
def scanWord (cs : List Char) : TokenKind × Nat :=
  let n := runLength Text.isIdentPart cs
  let keyword? := TokenKind.ofKeyword? (String.ofList (cs.take n))
  let isOver := (cs.drop n).head?.all fun c => !Text.startsLikeIdentPart c
  ((keyword?.filter fun _ => isOver).getD .ident, n)

-- The kind of the first token of `c :: cs` and how many characters of `cs` belong to it.
def scan (c : Char) (cs : List Char) : TokenKind × Nat :=
  let whole (found : TokenKind × Nat) := (found.1, found.2 - 1)
  if isSpace c then (.whitespace, runLength isSpace cs)
  else if c == '\n' then (.newline, 0)
  else if Text.isIdentStart c then whole (scanWord (c :: cs))
  else if c.isDigit then whole (scanNumber (c :: cs))
  else if c == '"' then (.str, stringLength cs)
  else if c == '\x60' then
    match rawStringLength? cs with
    | some n => (.rawStr, n)
    | none => (.error, cs.length)
  else
    match c, cs with
    | '/', '/' :: rest => (.lineComment, runLength (· != '\n') rest + 1)
    | '/', '*' :: rest => (.error, blockErrorLength rest + 1)
    | '.', d :: rest =>
        if d.isDigit then (.float, fractionLength (d :: rest)) else whole (scanPunct (c :: cs))
    | _, _ => whole (scanPunct (c :: cs))

-- The tokens of the text `cs`, whose first byte has the given offset.
def lex (offset : Nat) : List Char → List Token
  | [] => []
  | c :: cs =>
      let (kind, more) := scan c cs
      let lexeme := c :: cs.take more
      ⟨kind, String.ofList lexeme, offset⟩ :: lex (offset + Text.byteLength lexeme) (cs.drop more)
termination_by cs => cs.length
decreasing_by
  simp only [List.length_drop, List.length_cons]
  omega

def tokenize (text : String) : List Token := lex 0 text.toList

-- Whether the text of a `str` token has its closing quote: the last character is a quote, and
-- an even number of backslashes stands before it.
def isTerminatedString (text : String) : Bool :=
  match text.toList.reverse with
  | '"' :: before@(_ :: _) => (before.takeWhile (· == '\\')).length % 2 == 0
  | _ => false

end SpriteScript.Token
