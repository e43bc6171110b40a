import ClassVeil.Text.Utf8

/-!
# A place in a JSON text

Errors name a line and a column. Lines start at one; the column counts the bytes of the line that
have been consumed, so the byte behind a line feed is preceded by column zero.

## Main definitions

* `Position`: line and column.
* `Cursor`: the rest of a text and the position of its start.
* `Cursor.peekPosition`: the position when the next byte is counted as well.
-/

namespace ClassVeil

namespace Json

/-- A line, counted from one, and the bytes of it before a place. -/
structure Position where
  line : Nat
  column : Nat
deriving DecidableEq, Repr

/-- The position behind at most `n` bytes of a text. -/
def Position.afterBytes : Position → Nat → List Char → Position
  | pos, _, [] => pos
  | pos, n, c :: rest =>
    if n = 0 then pos
    else if c = '\n' then Position.afterBytes ⟨pos.line + 1, 0⟩ (n - 1) rest
    else
      let w := Utf8.width c
      Position.afterBytes ⟨pos.line, pos.column + min w n⟩ (n - w) rest

/-- The position behind one character. -/
def Position.after (pos : Position) (c : Char) : Position :=
  if c = '\n' then ⟨pos.line + 1, 0⟩ else ⟨pos.line, pos.column + Utf8.width c⟩

/-- The rest of a text and where it starts. -/
structure Cursor where
  rest : List Char
  position : Position
deriving Repr

namespace Cursor

/-- The start of a text. -/
def ofChars (text : List Char) : Cursor := ⟨text, 1, 0⟩

/-- The position when the next byte is counted as well. -/
def peekPosition (c : Cursor) : Position := c.position.afterBytes 1 c.rest

/-- The next character, not consumed. -/
def peek? (c : Cursor) : Option Char := c.rest.head?

/-- The cursor behind the next character. -/
def advance (c : Cursor) : Cursor :=
  match c.rest with
  | [] => c
  | x :: rest => ⟨rest, c.position.after x⟩

/-- The blanks between tokens: space, tab, line feed and carriage return. -/
def isSpace (x : Char) : Bool := x == ' ' || x == '\n' || x == '\t' || x == '\r'

/-- The cursor behind the characters for which a predicate holds. -/
def skipWhile (p : Char → Bool) (c : Cursor) : Cursor :=
  ⟨c.rest.dropWhile p, (c.rest.takeWhile p).foldl Position.after c.position⟩

/-- The cursor behind blanks. -/
def skipSpace (c : Cursor) : Cursor := c.skipWhile isSpace

end Cursor

end Json

end ClassVeil
