import ClassVeil.Script.Comment

/-!
# Pages

A script is printed by a list of marks, which are executed one after the other on a page. The page
indents every line that is begun by a mark; line breaks inside a text, as in templates and between
tags, are not followed by any indentation.

Comments are put in where a mark asks for those of a place. Several marks can ask for the same
place; the first one gets the comments. Those that trail a place can be held back for a while, so
that they come to stand behind a semicolon.

## Main definitions

* `Mark`: what can be done to a page.
* `Page`: the text so far, and what is needed to go on.
* `Page.text`: the text of the page that a list of marks makes.
-/

namespace ClassVeil

namespace Script

/-- What can be done to a page. -/
inductive Mark where
  | text (s : List Char)
  /-- Ends the line, unless nothing has been put on it yet. -/
  | line
  | indent
  | dedent
  /-- The comments that lead to a place. -/
  | leading (pos : Nat)
  /-- The comments that trail a place, each behind a space if `spaced`. -/
  | trailing (pos : Nat) (spaced : Bool)
  /-- Holds back the comments that trail a place, until they are released. -/
  | hold (pos : Nat)
  | release
  /-- Ends the line if there are comments that lead to a place. -/
  | lineIfLed (pos : Nat)
  /-- One text if a line ends in the comments that lead to a place, and another one if not. -/
  | guard (pos : Nat) (broken whole : List Char)
deriving Repr

/-- A page that is being filled. -/
structure Page where
  /-- The text so far, last character first. -/
  reversed : List Char := []
  /-- A line has begun and nothing has been put on it. -/
  fresh : Bool := true
  depth : Nat := 0
  /-- All comments, and those that are not on the page yet. -/
  comments : Comments
  waiting : Comments
  /-- The places whose trailing comments are held back. -/
  held : List Nat := []

namespace Page

/-- Puts a text on the page; at the start of a line it is indented. -/
def write (s : List Char) (p : Page) : Page :=
  if s.isEmpty then p
  else
    let blanks := if p.fresh then List.replicate (4 * p.depth) ' ' else []
    { p with reversed := s.reverse ++ blanks ++ p.reversed, fresh := false }

/-- Ends the line, unless nothing has been put on it yet. -/
def endLine (p : Page) : Page :=
  if p.fresh then p else { p with reversed := '\n' :: p.reversed, fresh := true }

/-- Puts a comment on the page. -/
def putComment (spaced : Bool) (p : Page) (c : Comment) : Page :=
  let p := (if spaced then p.write [' '] else p).write c.text
  if c.isLine then p.endLine else p.write [' ']

/-- Puts the comments that trail a place on the page, unless they are held back. -/
def putTrailing (pos : Nat) (spaced : Bool) (p : Page) : Page :=
  if p.held.contains pos then p
  else
    match p.waiting.trailingAt pos with
    | [] => p
    | cs => cs.foldl (putComment spaced) { p with waiting := p.waiting.dropTrailing pos }

/-- A comment in which a line ends. -/
def breaksLine (c : Comment) : Bool := c.isLine || c.text.any isLineBreak

/-- The page after a mark. -/
def put (p : Page) : Mark → Page
  | .text s => p.write s
  | .line => p.endLine
  | .indent => { p with depth := p.depth + 1 }
  | .dedent => { p with depth := p.depth - 1 }
  | .leading pos =>
    match p.waiting.leadingAt pos with
    | [] => p
    | cs => cs.foldl (putComment false) { p with waiting := p.waiting.dropLeading pos }
  | .trailing pos spaced => p.putTrailing pos spaced
  | .hold pos => { p with held := pos :: p.held }
  | .release => { p with held := p.held.drop 1 }
  | .lineIfLed pos => if (p.comments.leadingAt pos).isEmpty then p else p.endLine
  | .guard pos broken whole =>
    p.write (if (p.comments.leadingAt pos).any breaksLine then broken else whole)

/-- The text of the page that a list of marks makes. -/
def text (comments : Comments) (marks : List Mark) : List Char :=
  (marks.foldl put { comments, waiting := comments }).reversed.reverse

end Page

end Script

end ClassVeil
