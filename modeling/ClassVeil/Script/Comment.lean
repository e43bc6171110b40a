import ClassVeil.Script.Node
import ClassVeil.Script.Token
import ClassVeil.Text.Utf8

/-!
# Comments

Comments are not in the tree of a script. Each is kept beside it, with the place in the source
that it belongs to: it leads to the token that begins there, or trails the token that ends there.

A comment that lasts to the end of the line trails the token before it, if it begins on the line on
which that token ends; one behind an operator is the exception. A comment with an end of its own
trails only tokens of certain kinds, such as names and literals, but it is never parted from a
semicolon behind it. All other comments lead to the token behind them.

## Main definitions

* `Comment`, `Comments`: a comment, and all comments of a script with their places.
* `Pending`: a comment whose place is not known before the token behind it is.
* `skipGap`: the blanks and comments at the start of a text.
-/

namespace ClassVeil

namespace Script

/-- A comment with its marks; one that begins with two slashes lasts to the end of the line. -/
structure Comment where
  span : Span
  isLine : Bool
  text : List Char
deriving DecidableEq, Repr

/-- Comments in the order of the source, each with the place that it belongs to. -/
structure Comments where
  leading : List (Nat × Comment) := []
  trailing : List (Nat × Comment) := []
deriving DecidableEq, Repr

/-- A comment, and whether it leads to the token behind it. -/
structure Pending where
  comment : Comment
  leads : Bool
deriving DecidableEq, Repr

namespace Comments

/-- The comments that lead to a place. -/
def leadingAt (cs : Comments) (pos : Nat) : List Comment :=
  (cs.leading.filter fun c => c.1 = pos).map Prod.snd

/-- The comments that trail a place. -/
def trailingAt (cs : Comments) (pos : Nat) : List Comment :=
  (cs.trailing.filter fun c => c.1 = pos).map Prod.snd

/-- The comments without those that lead to a place. -/
def dropLeading (cs : Comments) (pos : Nat) : Comments :=
  { cs with leading := cs.leading.filter fun c => c.1 ≠ pos }

/-- The comments without those that trail a place. -/
def dropTrailing (cs : Comments) (pos : Nat) : Comments :=
  { cs with trailing := cs.trailing.filter fun c => c.1 ≠ pos }

/-- The comments with those of a gap between a token that ends at `before` and one that begins at
    `behind`. -/
def settle (cs : Comments) (before behind : Nat) (gap : List Pending) : Comments :=
  if gap.isEmpty then cs
  else
    { leading := cs.leading ++
        (gap.filter fun p => p.leads).map fun p => (behind, p.comment)
      trailing := cs.trailing ++
        (gap.filter fun p => !p.leads).map fun p => (before, p.comment) }

/-- The comments with all those of the gap before the end of the source. They trail the last
    token, or lead to the start of a source without tokens. -/
def settleEnd (cs : Comments) (last : Option Nat) (gap : List Pending) : Comments :=
  match last with
  | some pos => { cs with trailing := cs.trailing ++ gap.map fun p => (pos, p.comment) }
  | none => { cs with leading := cs.leading ++ gap.map fun p => (0, p.comment) }

/-- The spans of all comments. -/
def spans (cs : Comments) : List Span :=
  (cs.leading ++ cs.trailing).map fun c => c.2.span

end Comments

/-- The blanks and comments between two tokens, and what stands behind. -/
structure Gap where
  pending : List Pending
  /-- A line ends in the gap. -/
  newline : Bool
  rest : List Char
  /-- The place of `rest` in the source. -/
  pos : Nat

/-- The inside of a comment up to the two characters that end it. -/
def commentBody : List Char → Option (List Char)
  | [] => none
  | '*' :: '/' :: _ => some []
  | c :: rest => (commentBody rest).map (c :: ·)

/-- The comment at the start of a text; `none` if there is none, or if it has no end. -/
def comment? (pos : Nat) (text : List Char) : Option Comment :=
  match text with
  | '/' :: '/' :: _ =>
    let line := lineOf text
    some ⟨⟨pos, pos + Utf8.size line⟩, true, line⟩
  | '/' :: '*' :: rest =>
    (commentBody rest).map fun body =>
      let all := '/' :: '*' :: body ++ ['*', '/']
      ⟨⟨pos, pos + Utf8.size all⟩, false, all⟩
  | _ => none

/-- Whether a comment leads to the token behind it. `before` is the token before the gap,
    `newline` tells whether a line has ended in the gap, and `behind` is the text behind the
    comment. -/
def leads (before : Option Token) (newline : Bool) (c : Comment) (behind : List Char) : Bool :=
  match before with
  | none => true
  | some token =>
    if c.isLine then newline || token.isBinarySign
    else (newline || !token.takesComment) && (behind.dropWhile isSpace).head? ≠ some ';'

/-- The blanks and comments at the start of a text. -/
def skipGap (before : Option Token) : (fuel : Nat) → (newline : Bool) → (pos : Nat) →
    (text : List Char) → Gap
  | 0, newline, pos, text => ⟨[], newline, text, pos⟩
  | _ + 1, newline, pos, [] => ⟨[], newline, [], pos⟩
  | fuel + 1, newline, pos, c :: rest =>
    if isSpace c then skipGap before fuel (newline || isLineBreak c) (pos + Utf8.width c) rest
    else
      match comment? pos (c :: rest) with
      | none => ⟨[], newline, c :: rest, pos⟩
      | some comment =>
        let behind := (c :: rest).drop comment.text.length
        let broken := newline || comment.text.any isLineBreak
        let gap := skipGap before fuel broken comment.span.hi behind
        { gap with pending := ⟨comment, leads before newline comment behind⟩ :: gap.pending }

end Script

end ClassVeil
