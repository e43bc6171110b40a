import ClassVeil.Text.Utf8

/-!
# Identifiers of stylesheets

An identifier is a name in which any character may be written as an escape: a backslash and the
character, or a backslash and up to six hexadecimal digits with a blank that ends them. Reading
yields the name that is meant, writing yields one spelling of it.

## Main definitions

* `isNameStart`, `isNameChar`: characters that need no escape.
* `startsIdent`: whether an identifier begins here.
* `readEscape`: an escape behind its backslash.
* `readName`: the longest name that begins here.
* `writeIdent`: the spelling of a name as an identifier.
-/

namespace ClassVeil

namespace Css

/-- The character that stands for what cannot be represented. -/
def replacement : Char := Char.ofNat 0xFFFD

/-- A line feed; other line ends have been replaced by it before. -/
def isNewline (c : Char) : Bool := c == '\n'

/-- The blanks between tokens. -/
def isSpace (c : Char) : Bool := c == ' ' || c == '\t' || c == '\n'

/-- Letters, `_` and everything beyond ASCII. -/
def isNameStart (c : Char) : Bool := c.isAlpha || c == '_' || 0x80 ≤ c.toNat

/-- Characters that may stand in a name without an escape. -/
def isNameChar (c : Char) : Bool := isNameStart c || c.isDigit || c == '-'

/-- A hexadecimal digit. -/
def isHexDigit (c : Char) : Bool :=
  c.isDigit || ('a' ≤ c && c ≤ 'f') || ('A' ≤ c && c ≤ 'F')

/-- The value of a hexadecimal digit. -/
def hexValue (c : Char) : Nat :=
  if c.isDigit then c.toNat - 48
  else if 'a' ≤ c then c.toNat - 87
  else c.toNat - 55

/-- A backslash that begins an escape: anything but a line feed may follow. -/
def startsEscape : List Char → Bool
  | '\\' :: c :: _ => !isNewline c
  | _ => false

/-- An identifier begins here. -/
def startsIdent : List Char → Bool
  | '-' :: c :: rest => isNameStart c || c == '-' || startsEscape (c :: rest)
  | '\\' :: rest => startsEscape ('\\' :: rest)
  | c :: _ => isNameStart c && c != '-'
  | [] => false

/-- The hexadecimal digits that begin here, at most `n` of them, and the rest. -/
def splitHex : (n : Nat) → List Char → List Char × List Char
  | 0, text => ([], text)
  | _, [] => ([], [])
  | n + 1, c :: rest =>
    if isHexDigit c then
      let (digits, rest) := splitHex n rest
      (c :: digits, rest)
    else ([], c :: rest)

/-- The character with a code point; zero, surrogates and what is no code point at all have none. -/
def charOfCode (n : Nat) : Char :=
  if n = 0 || (0xD800 ≤ n && n < 0xE000) || 0x110000 ≤ n then replacement else Char.ofNat n

/-- An escape behind its backslash: the character that is meant, the spelling, and the rest. -/
def readEscape : List Char → Char × List Char × List Char
  | [] => (replacement, [], [])
  | c :: rest =>
    if isHexDigit c then
      let (digits, rest) := splitHex 6 (c :: rest)
      let code := digits.foldl (fun n d => n * 16 + hexValue d) 0
      match rest with
      | d :: behind =>
        if isSpace d then (charOfCode code, digits ++ [d], behind)
        else (charOfCode code, digits, rest)
      | [] => (charOfCode code, digits, [])
    else (c, [c], rest)

/-- The name that begins here, its spelling, and the rest. -/
def readName : (fuel : Nat) → List Char → List Char × List Char × List Char
  | 0, text => ([], [], text)
  | _, [] => ([], [], [])
  | fuel + 1, c :: rest =>
    if isNameChar c then
      let (name, raw, rest) := readName fuel rest
      (c :: name, c :: raw, rest)
    else if startsEscape (c :: rest) then
      let (d, spelling, rest) := readEscape rest
      let (name, raw, rest) := readName fuel rest
      (d :: name, c :: spelling ++ raw, rest)
    else ([], [], c :: rest)

/-- A character as a backslash, its code point and the blank that ends the digits. -/
def escapeCode (c : Char) : List Char := '\\' :: Nat.toDigits 16 c.toNat ++ [' ']

/-- The spelling of a character inside an identifier. -/
def writeNameChar (c : Char) : List Char :=
  if c = '\x00' then [replacement]
  else if c.toNat < 0x20 || c == '\x7f' then escapeCode c
  else if isNameChar c then [c]
  else ['\\', c]

/-- The spelling of a name as an identifier. A digit must not come first, nor behind a leading
    hyphen, and a hyphen must not be alone. -/
def writeIdent : List Char → List Char
  | ['-'] => escapeCode '-'
  | '-' :: c :: rest =>
    if c.isDigit then '-' :: escapeCode c ++ rest.flatMap writeNameChar
    else ('-' :: c :: rest).flatMap writeNameChar
  | c :: rest =>
    if c.isDigit then escapeCode c ++ rest.flatMap writeNameChar
    else (c :: rest).flatMap writeNameChar
  | [] => []

end Css

end ClassVeil
