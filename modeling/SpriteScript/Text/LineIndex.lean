import SpriteScript.Text.Measure
import SpriteScript.Text.Position

-- The lines of a text, and the two ways between byte offsets and positions.
namespace SpriteScript.Text

-- One line: the offset of its first byte and its characters without the line feed.
structure Line where
  start : Nat
  chars : List Char
deriving DecidableEq, Repr, Inhabited

namespace Line

def stop (l : Line) : Nat := l.start + byteLength l.chars

-- UTF-16 units of the characters that end within the first `limit` bytes.
def unitsBefore : List Char → Nat → Nat
  | [], _ => 0
  | c :: cs, limit =>
      if c.utf8Size ≤ limit then utf16Size c + unitsBefore cs (limit - c.utf8Size) else 0

-- Bytes of the characters that end within the first `limit` UTF-16 units.
def bytesBefore : List Char → Nat → Nat
  | [], _ => 0
  | c :: cs, limit =>
      if utf16Size c ≤ limit then c.utf8Size + bytesBefore cs (limit - utf16Size c) else 0

def columnAt (l : Line) (offset : Nat) : Nat := unitsBefore l.chars (offset - l.start)

def offsetAt (l : Line) (column : Nat) : Nat := l.start + bytesBefore l.chars column

-- What an editor shows of the line: a carriage return before the line feed is left out.
def shown (l : Line) : List Char :=
  if l.chars.getLast? = some '\r' then l.chars.dropLast else l.chars

end Line

-- Cuts `chars` at the line feeds. `pending` holds the current line so far, newest first.
def splitLines (start : Nat) (pending : List Char) : List Char → List Line
  | [] => [⟨start, pending.reverse⟩]
  | '\n' :: rest =>
      ⟨start, pending.reverse⟩ :: splitLines (start + byteLength pending + 1) [] rest
  | c :: rest => splitLines start (c :: pending) rest

structure LineIndex where
  text : String
  lines : Array Line
deriving Repr, Inhabited

namespace LineIndex

def ofText (text : String) : LineIndex := ⟨text, (splitLines 0 [] text.toList).toArray⟩

def length (ix : LineIndex) : Nat := ix.text.utf8ByteSize

def lineCount (ix : LineIndex) : Nat := ix.lines.size

def lineRange? (ix : LineIndex) (line : Nat) : Option ByteRange :=
  ix.lines[line]?.map fun l => ⟨l.start, l.start + byteLength l.shown⟩

def lineText? (ix : LineIndex) (line : Nat) : Option String :=
  ix.lines[line]?.map fun l => String.ofList l.shown

-- The last line of `line :: rest` that starts at or before the offset; `number` is that of `line`.
def locate (offset : Nat) : Nat → Line → List Line → Position
  | number, line, [] => ⟨number, line.columnAt offset⟩
  | number, line, next :: rest =>
      if next.start ≤ offset then locate offset (number + 1) next rest
      else ⟨number, line.columnAt offset⟩

-- An offset inside a character goes to the start of it, one behind the text to its end.
def position (ix : LineIndex) (offset : Nat) : Position :=
  match ix.lines.toList with
  | [] => ⟨0, 0⟩
  | line :: rest => locate offset 0 line rest

-- A column inside a surrogate pair goes to its start, one behind the line to its end, and a
-- line that is not there to the end of the text.
def offset (ix : LineIndex) (p : Position) : Nat :=
  match ix.lines[p.line]? with
  | some line => line.offsetAt p.column
  | none => ix.length

def span (ix : LineIndex) (r : ByteRange) : Span := ⟨ix.position r.start, ix.position r.stop⟩

def range (ix : LineIndex) (s : Span) : ByteRange :=
  let start := ix.offset s.start
  ⟨start, max (ix.offset s.stop) start⟩

end LineIndex

end SpriteScript.Text
