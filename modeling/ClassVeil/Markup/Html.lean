import ClassVeil.Text.Blank

/-!
# Start tags in HTML

Only start tags hold class attributes, so a document is divided into texts, comments, start tags
and raw contents, and nothing else is told apart: an end tag or a declaration is text. The division
loses nothing; putting the segments back together yields the document.

The scanner has fuel for every character of the document and one more. That this is enough, and that
a document can be divided in no other way, is proved where the division is described without the
scanner.

## Main definitions

* `Item`, `Ending`, `StartTag`: the parts of a start tag.
* `Segment`: the parts of a document.
* `segments`: the division of a document.
* `Segment.toChars`, `write`: putting it back together.
-/

namespace ClassVeil

namespace Html

/-- What is around the value of an attribute. -/
inductive Quoting where
  | double
  | single
  | bare
deriving DecidableEq, Repr

/-- The quotation mark at each end of a value. -/
def Quoting.mark : Quoting → List Char
  | double => ['"']
  | single => ['\'']
  | bare => []

/-- A part of a start tag behind its name. -/
inductive Item where
  /-- A blank, a slash, or an equals sign without a name. -/
  | filler (c : Char)
  /-- An attribute without a value. -/
  | flag (name : List Char)
  /-- An attribute with a value; `link` is the equals sign and the blanks around it. -/
  | valued (name link : List Char) (quoting : Quoting) (value : List Char)
deriving DecidableEq, Repr

/-- The end of a start tag. -/
inductive Ending where
  | closed
  /-- The document ends. -/
  | cut
  /-- The value of an attribute begins with a quotation mark that has no counterpart, so the rest
      of the document belongs to it. -/
  | openQuote (name link rest : List Char)
deriving DecidableEq, Repr

/-- A start tag. -/
structure StartTag where
  name : List Char
  items : List Item
  ending : Ending
deriving DecidableEq, Repr

/-- A part of a document. -/
inductive Segment where
  | text (chars : List Char)
  | comment (chars : List Char)
  | tag (tag : StartTag)
  /-- The contents of an element that holds no markup. -/
  | raw (chars : List Char)
deriving DecidableEq, Repr

/-! ### Writing -/

/-- A part of a start tag as a text. -/
def Item.toChars : Item → List Char
  | filler c => [c]
  | flag name => name
  | valued name link quoting value => name ++ link ++ quoting.mark ++ value ++ quoting.mark

/-- The end of a start tag as a text. -/
def Ending.toChars : Ending → List Char
  | closed => ['>']
  | cut => []
  | openQuote name link rest => name ++ link ++ rest

/-- A start tag as a text. -/
def StartTag.toChars (t : StartTag) : List Char :=
  '<' :: t.name ++ t.items.flatMap Item.toChars ++ t.ending.toChars

/-- A segment as a text. -/
def Segment.toChars : Segment → List Char
  | text chars | comment chars | raw chars => chars
  | tag t => t.toChars

/-- The document that is made of some segments. -/
def write (segments : List Segment) : List Char := segments.flatMap Segment.toChars

/-! ### Reading -/

/-- Characters of the names of elements. -/
def isNameChar (c : Char) : Bool := c.isAlphanum || c == '-'

/-- Characters of the names of attributes. -/
def isAttributeChar (c : Char) : Bool :=
  !(Text.isAsciiBlank c || c == '=' || c == '>' || c == '/')

/-- Characters of a value without quotation marks. -/
def isBareChar (c : Char) : Bool := !(Text.isAsciiBlank c || c == '>')

/-- The first characters for which a predicate holds, and the rest. -/
def splitWhile (p : Char → Bool) (text : List Char) : List Char × List Char :=
  (text.takeWhile p, text.dropWhile p)

/-- What comes before the first occurrence of a character, and what comes behind it. -/
def splitAt? (c : Char) : List Char → Option (List Char × List Char)
  | [] => none
  | d :: rest =>
    if d = c then some ([], rest)
    else (splitAt? c rest).map fun (before, behind) => (d :: before, behind)

/-- The equals sign that links a value to a name, with the blanks around it. -/
def splitLink? (text : List Char) : Option (List Char × List Char) :=
  match splitWhile Text.isAsciiBlank text with
  | (before, '=' :: rest) =>
    let (behind, rest) := splitWhile Text.isAsciiBlank rest
    some (before ++ '=' :: behind, rest)
  | _ => none

/-- The parts of a start tag from some place behind its name on, its end, and the rest of the
    document. -/
def readItems : (fuel : Nat) → List Char → List Item × Ending × List Char
  | 0, text => ([], .cut, text)
  | _ + 1, [] => ([], .cut, [])
  | fuel + 1, c :: rest =>
    if c = '>' then ([], .closed, rest)
    else if !isAttributeChar c then
      let (items, ending, rest) := readItems fuel rest
      (.filler c :: items, ending, rest)
    else
      let (name, rest) := splitWhile isAttributeChar (c :: rest)
      match splitLink? rest with
      | none =>
        let (items, ending, rest) := readItems fuel rest
        (.flag name :: items, ending, rest)
      | some (link, rest) =>
        match rest with
        | '"' :: inner =>
          match splitAt? '"' inner with
          | none => ([], .openQuote name link rest, [])
          | some (value, rest) =>
            let (items, ending, rest) := readItems fuel rest
            (.valued name link .double value :: items, ending, rest)
        | '\'' :: inner =>
          match splitAt? '\'' inner with
          | none => ([], .openQuote name link rest, [])
          | some (value, rest) =>
            let (items, ending, rest) := readItems fuel rest
            (.valued name link .single value :: items, ending, rest)
        | _ =>
          let (value, rest) := splitWhile isBareChar rest
          let (items, ending, rest) := readItems fuel rest
          (.valued name link .bare value :: items, ending, rest)

/-- The start of a text up to and with the first `-->`, or all of it; and the rest. -/
def splitComment : List Char → List Char × List Char
  | [] => ([], [])
  | '-' :: '-' :: '>' :: rest => (['-', '-', '>'], rest)
  | c :: rest =>
    let (comment, rest) := splitComment rest
    (c :: comment, rest)

/-- The elements whose contents hold no markup. -/
def rawElements : List (List Char) :=
  ["script", "style", "textarea", "title"].map String.toList

/-- A word in small letters opens the text, whatever the case of its ASCII letters is. -/
def opensWith : (word text : List Char) → Bool
  | [], _ => true
  | _ :: _, [] => false
  | w :: ws, c :: rest => w == c.toLower && opensWith ws rest

/-- The contents of a raw element: everything before the first place that looks like its end tag,
    and the rest. -/
def splitRaw (name : List Char) : List Char → List Char × List Char
  | [] => ([], [])
  | c :: rest =>
    if opensWith ('<' :: '/' :: name) (c :: rest) then ([], c :: rest)
    else
      let (contents, rest) := splitRaw name rest
      (c :: contents, rest)

/-- The contents that belong to a start tag which has just been read, as a segment. -/
def readRaw (name text : List Char) : List Segment × List Char :=
  let name := name.map Char.toLower
  if name ∈ rawElements then
    let (contents, rest) := splitRaw name text
    ([.raw contents], rest)
  else ([], text)

/-- The segment that begins with `<`, with the raw contents that belong to it; and the rest. -/
def readAngle (fuel : Nat) (rest : List Char) : List Segment × List Char :=
  match rest with
  | '!' :: '-' :: '-' :: _ =>
    let (comment, rest) := splitComment ('<' :: rest)
    ([.comment comment], rest)
  | c :: _ =>
    if c.isAlpha then
      let (name, rest) := splitWhile isNameChar rest
      let (items, ending, rest) := readItems fuel rest
      let (raw, rest) := readRaw name rest
      (.tag ⟨name, items, ending⟩ :: raw, rest)
    else ([.text ['<']], rest)
  | [] => ([.text ['<']], rest)

/-- The division of the rest of a document. -/
def segmentsFrom : (fuel : Nat) → List Char → List Segment
  | 0, _ => []
  | _ + 1, [] => []
  | fuel + 1, '<' :: rest =>
    let (found, rest) := readAngle fuel rest
    found ++ segmentsFrom fuel rest
  | fuel + 1, c :: rest =>
    let (text, rest) := splitWhile (· != '<') (c :: rest)
    .text text :: segmentsFrom fuel rest

/-- The division of a document. -/
def segments (source : List Char) : List Segment := segmentsFrom (source.length + 1) source

end Html

end ClassVeil
