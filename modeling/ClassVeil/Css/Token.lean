import ClassVeil.Css.Ident

/-!
# Tokens of stylesheets

A stylesheet is divided into tokens, each of which remembers how it was spelled. Comments vanish.
Functions and brackets are then matched, which makes a tree: a bracket that is never closed ends
with the text, and one that was never opened is a token like any other.

## Main definitions

* `Token`, `Token.raw`: tokens and their spelling.
* `tokens`: the tokens of a text.
* `Component`: a token, a function or a bracket with what is in it.
* `components`: the tree of a text.
-/

namespace ClassVeil

namespace Css

/-- The three kinds of brackets. -/
inductive Bracket where
  | round
  | square
  | curly
deriving DecidableEq, Repr

/-- The opening character. -/
def Bracket.opening : Bracket → Char
  | round => '('
  | square => '['
  | curly => '\x7b'

/-- The closing character. -/
def Bracket.closing : Bracket → Char
  | round => ')'
  | square => ']'
  | curly => '\x7d'

/-- A token. Names are given as they are meant, and `raw` is the spelling. -/
inductive Token where
  | space (raw : List Char)
  | ident (name raw : List Char)
  /-- A name with an opening bracket behind it; `raw` is the name alone. -/
  | function (name raw : List Char)
  /-- A name with an at sign before it; `raw` is the name alone. -/
  | atWord (name raw : List Char)
  | hash (name raw : List Char)
  | string (value raw : List Char)
  | badString (raw : List Char)
  /-- An address without quotation marks; `head` is the spelling of the name before it. -/
  | url (address head raw : List Char)
  | badUrl (raw : List Char)
  | number (raw : List Char)
  | percentage (raw : List Char)
  /-- A number with a unit; `raw` and `spelling` are what they look like. -/
  | dimension (raw unit spelling : List Char)
  | opening (bracket : Bracket)
  | closing (bracket : Bracket)
  /-- `<!--` or `-->`. -/
  | commentMark (raw : List Char)
  | delim (c : Char)
deriving DecidableEq, Repr

/-- The spelling of a token. -/
def Token.raw : Token → List Char
  | space raw | ident _ raw | string _ raw | badString raw | badUrl raw | number raw |
    commentMark raw => raw
  | url _ head raw => head ++ '(' :: raw ++ [')']
  | function _ raw => raw ++ ['(']
  | atWord _ raw => '@' :: raw
  | hash _ raw => '#' :: raw
  | percentage raw => raw ++ ['%']
  | dimension raw _ spelling => raw ++ spelling
  | opening bracket => [bracket.opening]
  | closing bracket => [bracket.closing]
  | delim c => [c]

/-- The text without a byte order mark, with one kind of line end, and without NUL. -/
def normalizeText (text : List Char) : List Char :=
  let rec lines : List Char → List Char
    | [] => []
    | '\r' :: '\n' :: rest => '\n' :: lines rest
    | c :: rest =>
      (if c = '\r' || c = '\x0c' then '\n' else if c = '\x00' then replacement else c) :: lines rest
  match text with
  | c :: rest => if c.toNat = 0xFEFF then lines rest else lines (c :: rest)
  | [] => []

/-- The rest behind a comment whose opening has been read. -/
def skipComment : List Char → List Char
  | [] => []
  | '*' :: '/' :: rest => rest
  | _ :: rest => skipComment rest

/-- A string whose opening quotation mark has been read: its value, its spelling with the closing
    mark, whether a line feed broke it off, and the rest. -/
def readString (mark : Char) : (fuel : Nat) → List Char → List Char × List Char × Bool × List Char
  | 0, text => ([], [], false, text)
  | _, [] => ([], [], false, [])
  | fuel + 1, c :: rest =>
    if c = mark then ([], [c], false, rest)
    else if isNewline c then ([], [], true, c :: rest)
    else if c = '\\' then
      match rest with
      | [] => ([], [c], false, [])
      | d :: behind =>
        if isNewline d then
          let (value, raw, broken, rest) := readString mark fuel behind
          (value, c :: d :: raw, broken, rest)
        else
          let (e, spelling, rest) := readEscape rest
          let (value, raw, broken, rest) := readString mark fuel rest
          (e :: value, c :: spelling ++ raw, broken, rest)
    else
      let (value, raw, broken, rest) := readString mark fuel rest
      (c :: value, c :: raw, broken, rest)

/-- An address that is none, up to its closing bracket: the spelling, and the rest. -/
def readBadUrl : (fuel : Nat) → List Char → List Char × List Char
  | 0, text => ([], text)
  | _, [] => ([], [])
  | fuel + 1, c :: rest =>
    if c = ')' then ([c], rest)
    else if startsEscape (c :: rest) then
      let (_, spelling, rest) := readEscape rest
      let (raw, rest) := readBadUrl fuel rest
      (c :: spelling ++ raw, rest)
    else
      let (raw, rest) := readBadUrl fuel rest
      (c :: raw, rest)

/-- Characters that an address without quotation marks cannot have. -/
def breaksUrl (c : Char) : Bool :=
  c == '"' || c == '\'' || c == '(' || c == '\\' || c.toNat < 0x20 || c == '\x7f'

/-- An address without quotation marks, from its first character on: what it is, if it is one, its
    spelling, with the closing bracket if it is none, and the rest. -/
def readUrl : (fuel : Nat) → List Char → Option (List Char) × List Char × List Char
  | 0, text => (some [], [], text)
  | _, [] => (some [], [], [])
  | fuel + 1, c :: rest =>
    if c = ')' then (some [], [], rest)
    else if isSpace c then
      let blanks := (c :: rest).takeWhile isSpace
      match rest.dropWhile isSpace with
      | [] => (some [], blanks, [])
      | ')' :: behind => (some [], blanks, behind)
      | _ =>
        let (raw, rest) := readBadUrl fuel rest
        (none, c :: raw, rest)
    else if startsEscape (c :: rest) then
      let (d, spelling, rest) := readEscape rest
      let (address, raw, rest) := readUrl fuel rest
      (address.map (d :: ·), c :: spelling ++ raw, rest)
    else if breaksUrl c then
      let (raw, rest) := readBadUrl fuel rest
      (none, c :: raw, rest)
    else
      let (address, raw, rest) := readUrl fuel rest
      (address.map (c :: ·), c :: raw, rest)

/-- A number begins here. -/
def startsNumber : List Char → Bool
  | '+' :: '.' :: c :: _ | '-' :: '.' :: c :: _ => c.isDigit
  | '+' :: c :: _ | '-' :: c :: _ | '.' :: c :: _ => c.isDigit
  | c :: _ => c.isDigit
  | [] => false

/-- The digits that begin here, and the rest. -/
def splitDigits (text : List Char) : List Char × List Char :=
  (text.takeWhile Char.isDigit, text.dropWhile Char.isDigit)

/-- A full stop with digits behind it, or nothing; and the rest. -/
def splitFraction (text : List Char) : List Char × List Char :=
  match text with
  | '.' :: c :: rest =>
    if c.isDigit then
      let (digits, rest) := splitDigits (c :: rest)
      ('.' :: digits, rest)
    else ([], text)
  | _ => ([], text)

/-- An exponent, or nothing; and the rest. -/
def splitExponent (text : List Char) : List Char × List Char :=
  match text with
  | e :: s :: c :: rest =>
    if (e = 'e' || e = 'E') && s.isDigit then
      let (digits, rest) := splitDigits (s :: c :: rest)
      (e :: digits, rest)
    else if (e = 'e' || e = 'E') && (s = '+' || s = '-') && c.isDigit then
      let (digits, rest) := splitDigits (c :: rest)
      (e :: s :: digits, rest)
    else ([], text)
  | [e, s] => if (e = 'e' || e = 'E') && s.isDigit then ([e, s], []) else ([], text)
  | _ => ([], text)

/-- The spelling of the number that begins here, and the rest. -/
def splitNumber (text : List Char) : List Char × List Char :=
  let (sign, rest) := match text with
    | '+' :: rest => (['+'], rest)
    | '-' :: rest => (['-'], rest)
    | _ => ([], text)
  let (digits, rest) := splitDigits rest
  let (fraction, rest) := splitFraction rest
  let (exponent, rest) := splitExponent rest
  (sign ++ digits ++ fraction ++ exponent, rest)

/-- The token that begins with a number. -/
def readNumeric (fuel : Nat) (text : List Char) : Token × List Char :=
  let (raw, rest) := splitNumber text
  if startsIdent rest then
    let (unit, spelling, rest) := readName fuel rest
    (.dimension raw unit spelling, rest)
  else
    match rest with
    | '%' :: behind => (.percentage raw, behind)
    | _ => (.number raw, rest)

/-- The token that begins with an identifier. -/
def readIdentLike (fuel : Nat) (text : List Char) : Token × List Char :=
  let (name, raw, rest) := readName fuel text
  match rest with
  | '(' :: inner =>
    if name.map Char.toLower = "url".toList then
      let start := inner.dropWhile isSpace
      match start with
      | '"' :: _ | '\'' :: _ => (.function name raw, inner)
      | _ =>
        let blanks := inner.takeWhile isSpace
        match readUrl fuel start with
        | (some address, spelling, rest) => (.url address raw (blanks ++ spelling), rest)
        | (none, spelling, rest) => (.badUrl (raw ++ '(' :: blanks ++ spelling), rest)
    else (.function name raw, inner)
  | _ => (.ident name raw, rest)

/-- The first character of a text may stand in a name. -/
def startsName : List Char → Bool
  | c :: rest => isNameChar c || startsEscape (c :: rest)
  | [] => false

/-- The token that begins here, for a text that is not empty and begins with no comment. -/
def readToken (fuel : Nat) (c : Char) (rest : List Char) : Token × List Char :=
  let text := c :: rest
  if isSpace c then (.space (text.takeWhile isSpace), text.dropWhile isSpace)
  else if c = '"' || c = '\'' then
    let (value, raw, broken, rest) := readString c fuel rest
    (if broken then .badString (c :: raw) else .string value (c :: raw), rest)
  else if c = '#' && startsName rest then
    let (name, raw, rest) := readName fuel rest
    (.hash name raw, rest)
  else if c = '@' && startsIdent rest then
    let (name, raw, rest) := readName fuel rest
    (.atWord name raw, rest)
  else if startsNumber text then readNumeric fuel text
  else if "-->".toList.isPrefixOf text then (.commentMark "-->".toList, text.drop 3)
  else if "<!--".toList.isPrefixOf text then (.commentMark "<!--".toList, text.drop 4)
  else if startsIdent text then readIdentLike fuel text
  else if c = '(' then (.opening .round, rest)
  else if c = '[' then (.opening .square, rest)
  else if c = '\x7b' then (.opening .curly, rest)
  else if c = ')' then (.closing .round, rest)
  else if c = ']' then (.closing .square, rest)
  else if c = '\x7d' then (.closing .curly, rest)
  else (.delim c, rest)

/-- The tokens of a normalised text. -/
def tokensFrom : (fuel : Nat) → List Char → List Token
  | 0, _ => []
  | _, [] => []
  | fuel + 1, '/' :: '*' :: rest => tokensFrom fuel (skipComment rest)
  | fuel + 1, c :: rest =>
    let (token, rest) := readToken (fuel + 1) c rest
    token :: tokensFrom fuel rest

/-- The tokens of a text. -/
def tokens (text : List Char) : List Token :=
  let text := normalizeText text
  tokensFrom (text.length + 1) text

/-! ### Matched brackets -/

/-- A token, or a function or bracket with what is in it. -/
inductive Component where
  | token (t : Token)
  | function (name raw : List Char) (contents : List Component)
  | bracket (bracket : Bracket) (contents : List Component)
deriving Repr

/-- The components up to the bracket that closes them, or to the end; and the tokens behind. -/
def componentsFrom : (fuel : Nat) → Option Bracket → List Token → List Component × List Token
  | 0, _, rest => ([], rest)
  | _, _, [] => ([], [])
  | fuel + 1, closer, t :: rest =>
    match t with
    | .closing b =>
      if some b = closer then ([], rest)
      else
        let (others, rest) := componentsFrom fuel closer rest
        (.token t :: others, rest)
    | .opening b =>
      let (contents, rest) := componentsFrom fuel (some b) rest
      let (others, rest) := componentsFrom fuel closer rest
      (.bracket b contents :: others, rest)
    | .function name raw =>
      let (contents, rest) := componentsFrom fuel (some .round) rest
      let (others, rest) := componentsFrom fuel closer rest
      (.function name raw contents :: others, rest)
    | _ =>
      let (others, rest) := componentsFrom fuel closer rest
      (.token t :: others, rest)

/-- The tree of a text. -/
def components (text : List Char) : List Component :=
  let ts := tokens text
  (componentsFrom (ts.length + 1) none ts).1

namespace Component

/-- A blank. -/
def isSpace : Component → Bool
  | token (.space _) => true
  | _ => false

/-- A given delimiter. -/
def isDelim (c : Char) : Component → Bool
  | token (.delim d) => d == c
  | _ => false

/-- An identifier with a given name, whatever the case of its letters is. -/
def isWord (word : String) : Component → Bool
  | token (.ident name _) => name.map Char.toLower == word.toList
  | _ => false

/-- A bracket of curly braces. -/
def isCurly : Component → Bool
  | bracket .curly _ => true
  | _ => false

end Component

/-- Components without the blanks in front. -/
def skipSpaces (cs : List Component) : List Component := cs.dropWhile Component.isSpace

/-- Components without the blanks at the end. -/
def dropEndSpaces (cs : List Component) : List Component :=
  (cs.reverse.dropWhile Component.isSpace).reverse

/-- Components without the blanks at both ends. -/
def trimSpaces (cs : List Component) : List Component := dropEndSpaces (skipSpaces cs)

/-- The pieces between the components for which a predicate holds. -/
def splitOn (p : Component → Bool) : List Component → List (List Component)
  | [] => [[]]
  | c :: rest =>
    if p c then [] :: splitOn p rest
    else
      match splitOn p rest with
      | [] => [[c]]
      | piece :: others => (c :: piece) :: others

end Css

end ClassVeil
