/-!
# Blank characters and words

Class attributes hold words set apart by blanks. A blank is a character with the Unicode property
`White_Space`; the markup scanner in addition knows the five blanks of ASCII alone, which end
attribute names and unquoted values.

The two notions differ. A character like U+00A0 sets words apart and is no blank to the scanner, so
it can stand inside of an unquoted value, and a value can then hold two words without a blank that
the scanner knows.

## Main definitions

* `isBlank`: the Unicode property `White_Space`.
* `isAsciiBlank`: space, tab, line feed, form feed and carriage return.
* `words`: the maximal runs of characters that are not blank.
* `trim`: a text without the blanks at its two ends.
-/

namespace ClassVeil

namespace Text

/-- The Unicode property `White_Space`: 25 code points. -/
def isBlank (c : Char) : Bool :=
  let n := c.toNat
  (9 ≤ n && n ≤ 13) || n == 0x20 || n == 0x85 || n == 0xA0 || n == 0x1680 ||
    (0x2000 ≤ n && n ≤ 0x200A) || n == 0x2028 || n == 0x2029 || n == 0x202F || n == 0x205F ||
    n == 0x3000

/-- Space, tab, line feed, form feed and carriage return; the vertical tab is not among them. -/
def isAsciiBlank (c : Char) : Bool :=
  c == ' ' || c == '\t' || c == '\n' || c == '\x0c' || c == '\r'

/-- The maximal runs of characters that are not blank, in order. -/
def words : List Char → List (List Char)
  | [] => []
  | c :: rest =>
    if isBlank c then words rest
    else
      match rest with
      | [] => [[c]]
      | d :: _ =>
        if isBlank d then [c] :: words rest
        else
          match words rest with
          | [] => [[c]]
          | w :: ws => (c :: w) :: ws

/-- A text without the blanks at its two ends. -/
def trim (s : List Char) : List Char :=
  ((s.dropWhile isBlank).reverse.dropWhile isBlank).reverse

/-- The pieces between the occurrences of a separator; there is always one more piece than
    there are separators. -/
def pieces (sep : Char) : List Char → List (List Char)
  | [] => [[]]
  | c :: rest =>
    if c = sep then [] :: pieces sep rest
    else
      match pieces sep rest with
      | [] => [[c]]
      | p :: ps => (c :: p) :: ps

end Text

end ClassVeil
