-- The kinds of tokens of a source file.
namespace SpriteScript

inductive TokenKind where
  -- blanks and comments
  | whitespace | newline | lineComment
  -- names and literals; a `str` may lack its closing quote
  | ident | int | float | str | rawStr
  -- punctuation
  | lBrace | rBrace | lBracket | rBracket | lParen | rParen | semicolon | colon | comma | dot
  | ellipsis | eq | colonEq | fatArrow | arrow | plus | minus | star | slash | percent | amp
  | pipe | caret | shl | shr | ampAmp | pipePipe | bang | eqEq | bangEq | lt | ltEq | gt | gtEq
  | plusPlus | minusMinus | plusEq | minusEq | starEq | slashEq | percentEq
  -- reserved words
  | breakKw | caseKw | chanKw | constKw | continueKw | defaultKw | elseKw | forKw | funcKw
  | ifKw | importKw | interfaceKw | mapKw | packageKw | rangeKw | returnKw | selectKw
  | structKw | switchKw | typeKw | varKw
  -- a character that starts no token, or an unfinished one
  | error
deriving DecidableEq, Repr, Inhabited, Hashable

namespace TokenKind

-- The reserved words, in alphabetical order.
def keywords : List (String × TokenKind) := [
  ("break", .breakKw), ("case", .caseKw), ("chan", .chanKw), ("const", .constKw),
  ("continue", .continueKw), ("default", .defaultKw), ("else", .elseKw), ("for", .forKw),
  ("func", .funcKw), ("if", .ifKw), ("import", .importKw), ("interface", .interfaceKw),
  ("map", .mapKw), ("package", .packageKw), ("range", .rangeKw), ("return", .returnKw),
  ("select", .selectKw), ("struct", .structKw), ("switch", .switchKw), ("type", .typeKw),
  ("var", .varKw)]

def ofKeyword? (word : String) : Option TokenKind := (keywords.find? (·.1 == word)).map (·.2)

-- Tokens that the tree keeps and the grammar skips.
def isTrivia : TokenKind → Bool
  | whitespace | newline | lineComment => true
  | _ => false

def isComment : TokenKind → Bool
  | lineComment => true
  | _ => false

def isKeyword (k : TokenKind) : Bool := keywords.any (·.2 == k)

def isLiteral : TokenKind → Bool
  | int | float | str | rawStr => true
  | _ => false

-- The punctuation, with its spelling.
def punctuation : List (String × TokenKind) := [
  ("\x7b", .lBrace), ("\x7d", .rBrace), ("[", .lBracket), ("]", .rBracket), ("(", .lParen),
  (")", .rParen), (";", .semicolon), (":", .colon), (",", .comma), (".", .dot),
  ("...", .ellipsis), ("=", .eq), (":=", .colonEq), ("=>", .fatArrow), ("<-", .arrow),
  ("+", .plus), ("-", .minus), ("*", .star), ("/", .slash), ("%", .percent), ("&", .amp),
  ("|", .pipe), ("^", .caret), ("<<", .shl), (">>", .shr), ("&&", .ampAmp), ("||", .pipePipe),
  ("!", .bang), ("==", .eqEq), ("!=", .bangEq), ("<", .lt), ("<=", .ltEq), (">", .gt),
  (">=", .gtEq), ("++", .plusPlus), ("--", .minusMinus), ("+=", .plusEq), ("-=", .minusEq),
  ("*=", .starEq), ("/=", .slashEq), ("%=", .percentEq)]

def isPunct (k : TokenKind) : Bool := punctuation.any (·.2 == k)

-- Whether a line feed behind this token ends the statement.
def endsStatement : TokenKind → Bool
  | ident | int | float | str | rawStr | breakKw | continueKw | returnKw
  | rParen | rBracket | rBrace | plusPlus | minusMinus => true
  | _ => false

-- The name under which a kind is reported, also in messages.
def label : TokenKind → String
  | whitespace => "WHITESPACE"
  | newline => "NEWLINE"
  | lineComment => "LINE_COMMENT"
  | ident => "IDENT"
  | int => "INT"
  | float => "FLOAT"
  | str => "STRING"
  | rawStr => "RAW_STRING"
  | lBrace => "L_BRACE"
  | rBrace => "R_BRACE"
  | lBracket => "L_BRACKET"
  | rBracket => "R_BRACKET"
  | lParen => "L_PAREN"
  | rParen => "R_PAREN"
  | semicolon => "SEMICOLON"
  | colon => "COLON"
  | comma => "COMMA"
  | dot => "DOT"
  | ellipsis => "ELLIPSIS"
  | eq => "EQ"
  | colonEq => "COLON_EQ"
  | fatArrow => "FAT_ARROW"
  | arrow => "ARROW"
  | plus => "PLUS"
  | minus => "MINUS"
  | star => "STAR"
  | slash => "SLASH"
  | percent => "PERCENT"
  | amp => "AMP"
  | pipe => "PIPE"
  | caret => "CARET"
  | shl => "SHL"
  | shr => "SHR"
  | ampAmp => "AMP_AMP"
  | pipePipe => "PIPE_PIPE"
  | bang => "BANG"
  | eqEq => "EQ_EQ"
  | bangEq => "BANG_EQ"
  | lt => "LT"
  | ltEq => "LT_EQ"
  | gt => "GT"
  | gtEq => "GT_EQ"
  | plusPlus => "PLUS_PLUS"
  | minusMinus => "MINUS_MINUS"
  | plusEq => "PLUS_EQ"
  | minusEq => "MINUS_EQ"
  | starEq => "STAR_EQ"
  | slashEq => "SLASH_EQ"
  | percentEq => "PERCENT_EQ"
  | breakKw => "BREAK_KW"
  | caseKw => "CASE_KW"
  | chanKw => "CHAN_KW"
  | constKw => "CONST_KW"
  | continueKw => "CONTINUE_KW"
  | defaultKw => "DEFAULT_KW"
  | elseKw => "ELSE_KW"
  | forKw => "FOR_KW"
  | funcKw => "FUNC_KW"
  | ifKw => "IF_KW"
  | importKw => "IMPORT_KW"
  | interfaceKw => "INTERFACE_KW"
  | mapKw => "MAP_KW"
  | packageKw => "PACKAGE_KW"
  | rangeKw => "RANGE_KW"
  | returnKw => "RETURN_KW"
  | selectKw => "SELECT_KW"
  | structKw => "STRUCT_KW"
  | switchKw => "SWITCH_KW"
  | typeKw => "TYPE_KW"
  | varKw => "VAR_KW"
  | error => "ERROR"

end TokenKind

-- A token: its kind, its text and the offset of its first byte.
structure Token where
  kind : TokenKind
  text : String
  offset : Nat
deriving DecidableEq, Repr, Inhabited

namespace Token

def stop (t : Token) : Nat := t.offset + t.text.utf8ByteSize

end Token

end SpriteScript
