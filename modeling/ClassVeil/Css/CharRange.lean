import ClassVeil.Css.Phrase

/-!
# Ranges of characters

A range of characters is written as `u+` with a code point, with two code points and a hyphen
between them, or with question marks for digits that may be anything. The division into tokens
knows nothing about ranges, so a range is several tokens that stand side by side.

## Main definitions

* `isCharRange`: whether a text is a range behind its letter.
* `readCharRange?`: a range that begins here, and the rest.
-/

namespace ClassVeil

namespace Css

/-- Hexadecimal digits, of which there are one to six. -/
def isCodePoint (digits : List Char) : Bool :=
  digits.all isHexDigit && 1 ≤ digits.length && digits.length ≤ 6

/-- Whether a text is a range behind its letter. Question marks are the last digits of the only
    code point. -/
def isCharRange : List Char → Bool
  | '+' :: text =>
    let digits := text.takeWhile isHexDigit
    match text.dropWhile isHexDigit with
    | [] => isCodePoint digits
    | '-' :: last => isCodePoint digits && isCodePoint last
    | marks => marks.all (· == '?') && digits.length + marks.length ≤ 6
  | _ => false

/-- The question marks that begin here, and the rest. -/
def splitMarks (cs : List Component) : List Char × List Component :=
  let mark (c : Component) : Bool := c.isDelim '?'
  ((cs.takeWhile mark).map fun _ => '?', cs.dropWhile mark)

/-- The text behind the letter of a range, and the rest. -/
def rangeText (cs : List Component) : List Char × List Component :=
  match cs with
  | .token (.dimension raw _ spelling) :: rest =>
    let (marks, rest) := splitMarks rest
    (raw ++ spelling ++ marks, rest)
  | .token (.number raw) :: .token (.number last) :: rest => (raw ++ last, rest)
  | .token (.number raw) :: .token (.dimension last _ spelling) :: rest =>
    (raw ++ last ++ spelling, rest)
  | .token (.number raw) :: rest =>
    let (marks, rest) := splitMarks rest
    (raw ++ marks, rest)
  | .token (.delim '+') :: .token (.ident name _) :: rest =>
    let (marks, rest) := splitMarks rest
    ('+' :: name ++ marks, rest)
  | .token (.delim '+') :: rest =>
    let (marks, rest) := splitMarks rest
    ('+' :: marks, rest)
  | _ => ([], cs)

/-- Behind the letter, something that only a range can begin with. -/
def startsCharRange : List Component → Bool
  | .token (.dimension ..) :: _ | .token (.number _) :: _ | .token (.delim '+') :: _ => true
  | _ => false

/-- A range behind its letter, which is a small one, and the rest. -/
def readCharRange? (cs : List Component) : Option (Phrase × List Component) :=
  let (text, rest) := rangeText cs
  if isCharRange text then some ([word ('u' :: text)], rest) else none

end Css

end ClassVeil
