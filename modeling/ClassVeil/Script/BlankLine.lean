import ClassVeil.Script.Node
import ClassVeil.Text.Blank
import ClassVeil.Text.Utf8

/-!
# Blank lines

The tree of a script knows nothing of blank lines, so printing would lose them. They are therefore
turned into comments before the script is read, and the comments back into blank lines after it has
been printed. Only blank lines between items count: one inside an item or a comment may belong to
a text, and those at the end mean nothing.

A mark that comes to stand behind something on a line of the printed text stays there.

## Main definitions

* `Line`, `linesOf`: the lines of a source with their places.
* `markBlankLines`: a source with its blank lines marked, if there are any.
* `restoreBlankLines`: a text with the marks taken out.
-/

namespace ClassVeil

namespace Script

/-- The comment that stands for a blank line. -/
def blankMark : List Char := "// __RANDOMIZER_EMPTY_LINE__".toList

/-- A line without the characters that end it, and the place of its first byte. -/
structure Line where
  start : Nat
  text : List Char
deriving DecidableEq, Repr

/-- A text without the line feeds and carriage returns at its end. -/
def trimLineEnd (text : List Char) : List Char :=
  (text.reverse.dropWhile fun c => c = '\n' || c = '\r').reverse

/-- The pieces of a text that end with a line feed, and what is left behind the last one. -/
def splitLines : List Char → List (List Char)
  | [] => []
  | c :: rest =>
    if c = '\n' then [c] :: splitLines rest
    else
      match splitLines rest with
      | [] => [[c]]
      | line :: lines => (c :: line) :: lines

/-- The lines that begin at a place. -/
def placeLines : (pos : Nat) → List (List Char) → List Line
  | _, [] => []
  | pos, line :: rest => ⟨pos, trimLineEnd line⟩ :: placeLines (pos + Utf8.size line) rest

/-- The lines of a source. -/
def linesOf (source : List Char) : List Line := placeLines 0 (splitLines source)

/-- A line with nothing but blanks. -/
def Line.isBlank (line : Line) : Bool := line.text.all Text.isBlank

/-- A line that begins in one of several spans. -/
def Line.beginsIn (spans : List Span) (line : Line) : Bool :=
  spans.any fun s => s.lo ≤ line.start && line.start < s.hi

/-- A blank line that is marked; `spans` are those of the items and comments. -/
def Line.isMarked (spans : List Span) (line : Line) : Bool :=
  line.isBlank && !line.beginsIn spans

/-- The texts of lines, with marks in place of blank lines that another line follows. -/
def markLines (spans : List Span) : List Line → List (List Char)
  | [] => []
  | line :: rest =>
    (if line.isMarked spans && !rest.all Line.isBlank then blankMark else line.text) ::
      markLines spans rest

/-- Lines with a line feed between them. -/
def joinLines : List (List Char) → List Char
  | [] => []
  | [line] => line
  | line :: rest => line ++ '\n' :: joinLines rest

/-- Whether a line is marked. -/
def hasMarks (spans : List Span) : List Line → Bool
  | [] => false
  | line :: rest => (line.isMarked spans && !rest.all Line.isBlank) || hasMarks spans rest

/-- A source with its blank lines marked, if there are any. -/
def markBlankLines (spans : List Span) (source : List Char) : Option (List Char) :=
  let lines := linesOf source
  if hasMarks spans lines then some (joinLines (markLines spans lines)) else none

/-- A line without the line feed at its end, or the carriage return and line feed. -/
def chomp (line : List Char) : List Char :=
  match line.reverse with
  | '\n' :: '\r' :: rest => rest.reverse
  | '\n' :: rest => rest.reverse
  | _ => line

/-- A line, or a blank one if it is nothing but a mark. -/
def restoreLine (line : List Char) : List Char := if Text.trim line = blankMark then [] else line

/-- A text with the marks taken out and without a line feed at its end. -/
def restoreBlankLines (text : List Char) : List Char :=
  joinLines ((splitLines text).map fun line => restoreLine (chomp line))

end Script

end ClassVeil
