import ClassVeil.Script.Letter
import ClassVeil.Script.Reference
import ClassVeil.Text.Blank

/-!
# Tokens of scripts

What a stretch of source means depends on where it stands: a slash divides or begins a regular
expression, and between the tags of an element almost everything is text. The reader says which
mode of scanning it needs, and scans a token again if it finds out late. In every mode a token is
scanned by itself: what stands before it, and the blanks and comments behind it, do not matter.

Scanning cannot fail. A text that is no token gives a bad one, which no rule of the grammar takes.

## Main definitions

* `Token`, `Lexeme`: a token, and the stretch of source it was scanned from.
* `Mode`: the ways of scanning.
* `scanWith`: the token at the start of a text.
* `unescape`: the text that a spelling with backslashes stands for.
-/

namespace ClassVeil

namespace Script

/-- A token of a script. -/
inductive Token where
  /-- A name or keyword; `plain` tells that it is spelled without escapes. -/
  | word (name : String) (plain : Bool)
  /-- The name of a private member, with its number sign. -/
  | hidden (name : String)
  | sign (text : String)
  | number (raw : String)
  | text (raw : List Char) (value : Option (List Char))
  | regex (raw : String)
  /-- A fixed piece of a template; `last` tells that the template ends behind it. -/
  | piece (raw : List Char) (last : Bool)
  /-- Text between tags. -/
  | markup (raw : String)
  /-- The end of the source. -/
  | done
  | bad
deriving DecidableEq, Repr

/-- A token, the characters it was scanned from, and those behind. -/
structure Lexeme where
  token : Token
  taken : List Char
  rest : List Char

/-- The ways of scanning. -/
inductive Mode where
  /-- As usual. -/
  | plain
  /-- A greater-than sign with what belongs to it; elsewhere it stands alone. -/
  | greater
  /-- A single character, so that two less-than signs come apart. -/
  | single
  /-- A regular expression. -/
  | regex
  /-- A piece of a template, from behind the backtick or brace. -/
  | piece
  /-- Text between tags. -/
  | markup
  /-- A name in a tag, which may contain hyphens. -/
  | tagName
  /-- The value of an attribute, in which backslashes mean nothing. -/
  | attributeValue
deriving DecidableEq, Repr

/-! ## Characters -/

/-- Line feed, carriage return and the line and paragraph separators. -/
def isLineBreak (c : Char) : Bool :=
  c == '\n' || c == '\r' || c.toNat == 0x2028 || c.toNat == 0x2029

/-- The blanks between tokens: all blank characters, the space without a width and the byte order
    mark. -/
def isSpace (c : Char) : Bool := Text.isBlank c || c.toNat == 0x200B || c.toNat == 0xFEFF

/-- A text up to its first line break. -/
def lineOf (text : List Char) : List Char := text.takeWhile fun c => !isLineBreak c

/-- The value of a hexadecimal digit. -/
def hexValue? (c : Char) : Option Nat :=
  if c.isDigit then some (c.toNat - 48)
  else if 'a' ≤ c.toLower && c.toLower ≤ 'f' then some (c.toLower.toNat - 87)
  else none

/-! ## Escapes -/

/-- The number of a code point in braces or of four digits, and the text behind it. -/
def unicodeEscape? : List Char → Option (Nat × List Char)
  | '\x7b' :: text =>
    let digits := text.takeWhile fun c => c ≠ '\x7d'
    match digitsValue? 16 digits, text.drop digits.length with
    | some n, _ :: rest => if n < 0x110000 then some (n, rest) else none
    | _, _ => none
  | a :: b :: c :: d :: rest => (digitsValue? 16 [a, b, c, d]).map fun n => (n, rest)
  | _ => none

/-- The code unit of a letter that means a control character behind a backslash. -/
def controlOf? : Char → Option Nat
  | 'n' => some 10
  | 't' => some 9
  | 'r' => some 13
  | 'b' => some 8
  | 'v' => some 11
  | 'f' => some 12
  | _ => none

/-- An octal digit. -/
def isOctal (c : Char) : Bool := '0' ≤ c && c ≤ '7'

/-- The octal number below 256 at the start of a text, and the text behind it. -/
def octalEscape (text : List Char) : Nat × List Char :=
  let most := if text.head?.any fun c => c ≤ '3' then 3 else 2
  let digits := (text.take most).takeWhile isOctal
  ((digitsValue? 8 digits).getD 0, text.drop digits.length)

/-- The two halves of a pair of surrogates are spelled in the same way: where the escape `text` of a
    first half has another escape behind it, both or none are in braces. -/
def agreesWithNext (n : Nat) (text rest : List Char) : Bool :=
  match rest with
  | '\\' :: 'u' :: next =>
    !(0xD800 ≤ n && n < 0xDC00) || (text.head? = some '\x7b') = (next.head? = some '\x7b')
  | _ => true

/-- The code units and code points that a spelling stands for. A backslash before a digit means
    something only if `loose` is on, but for a zero that stands alone. -/
def escapedUnits (loose : Bool) : (fuel : Nat) → List Char → Option (List Nat)
  | 0, _ => none
  | _, [] => some []
  | fuel + 1, '\\' :: 'u' :: text =>
    match unicodeEscape? text with
    | some (n, rest) =>
      if agreesWithNext n text rest then (escapedUnits loose fuel rest).map (n :: ·) else none
    | none => none
  | fuel + 1, '\\' :: 'x' :: a :: b :: rest =>
    match digitsValue? 16 [a, b] with
    | some n => (escapedUnits loose fuel rest).map (n :: ·)
    | none => none
  | fuel + 1, '\\' :: '\r' :: '\n' :: rest => escapedUnits loose fuel rest
  | fuel + 1, '\\' :: c :: rest =>
    if isLineBreak c then escapedUnits loose fuel rest
    else if c = '0' && !(rest.head?.any Char.isDigit) then
      (escapedUnits loose fuel rest).map (0 :: ·)
    else if c = 'x' || (c.isDigit && !loose) then none
    else if isOctal c then
      let (n, rest) := octalEscape (c :: rest)
      (escapedUnits loose fuel rest).map (n :: ·)
    else (escapedUnits loose fuel rest).map ((controlOf? c).getD c.toNat :: ·)
  | fuel + 1, c :: rest => (escapedUnits loose fuel rest).map (c.toNat :: ·)

/-- The characters of code units, with pairs of surrogates joined; a lone one has none. -/
def joinUnits : List Nat → Option (List Char)
  | [] => some []
  | n :: rest =>
    if 0xD800 ≤ n && n < 0xDC00 then
      match rest with
      | m :: rest =>
        if 0xDC00 ≤ m && m < 0xE000 then
          (joinUnits rest).map (Char.ofNat (0x10000 + (n - 0xD800) * 1024 + (m - 0xDC00)) :: ·)
        else none
      | [] => none
    else if 0xDC00 ≤ n && n < 0xE000 then none
    else (joinUnits rest).map (Char.ofNat n :: ·)

/-- The code units that a spelling with backslashes stands for, if it is well-formed. -/
def unescape (loose : Bool) (raw : List Char) : Option (List Nat) :=
  escapedUnits loose (raw.length + 1) raw

/-! ## Words -/

/-- The words that are no names. -/
def reservedWords : List String :=
  ["break", "case", "catch", "class", "const", "continue", "debugger", "default", "delete", "do",
    "else", "enum", "export", "extends", "false", "finally", "for", "function", "if", "import",
    "in", "instanceof", "new", "null", "return", "super", "switch", "this", "throw", "true", "try",
    "typeof", "var", "void", "while", "with"]

/-- The words that are no names because a module is strict. -/
def strictWords : List String :=
  ["await", "implements", "interface", "let", "package", "private", "protected", "public",
    "static", "yield"]

/-- The words that have a meaning of their own in some places only. -/
def contextualWords : List String :=
  ["abstract", "accessor", "any", "as", "asserts", "assert", "async", "bigint", "boolean",
    "constructor", "declare", "enum", "from", "get", "global", "implements", "infer", "interface",
    "intrinsic", "is", "keyof", "meta", "namespace", "never", "number", "object", "of", "out",
    "override", "package", "private", "protected", "public", "readonly", "require", "satisfies",
    "set", "static", "string", "symbol", "target", "type", "undefined", "unique", "unknown",
    "using"]

/-- A word that can be a name. -/
def isName (strict : Bool) (word : String) : Bool :=
  !(reservedWords.contains word || word == "await" || (strict && strictWords.contains word))

/-! ## Names -/

/-- A name, whose characters may be spelled as escapes: the name and its spelling. -/
def scanName (begins : Char → Bool) : (fuel : Nat) → List Char → List Char × List Char
  | 0, _ => ([], [])
  | fuel + 1, '\\' :: 'u' :: text =>
    match unicodeEscape? text with
    | some (n, rest) =>
      if begins (Char.ofNat n) then
        let (name, raw) := scanName continuesName fuel rest
        (Char.ofNat n :: name, '\\' :: 'u' :: text.take (text.length - rest.length) ++ raw)
      else ([], [])
    | none => ([], [])
  | fuel + 1, c :: rest =>
    if begins c then
      let (name, raw) := scanName continuesName fuel rest
      (c :: name, c :: raw)
    else ([], [])
  | _, [] => ([], [])

/-- The lexeme that takes the given characters. -/
def lexeme (token : Token) (taken text : List Char) : Lexeme :=
  ⟨token, taken, text.drop taken.length⟩

/-- A lexeme that no rule takes. -/
def badLexeme (text : List Char) : Lexeme := lexeme .bad (text.take 1) text

/-- A text as far as it could spell a name. -/
def nameRun (text : List Char) : List Char :=
  text.takeWhile fun c => continuesName c || c == '\\' || c == '\x7b' || c == '\x7d'

/-- The name at the start of a text. A word that is no name cannot be spelled with escapes, and one
    with a meaning in some places is what it is spelled. -/
def scanWord (text : List Char) : Lexeme :=
  match scanName beginsName ((nameRun text).length + 1) text with
  | ([], _) => badLexeme text
  | (name, raw) =>
    let word := String.ofList name
    if name = raw then lexeme (.word word true) raw text
    else if reservedWords.contains word then badLexeme text
    else if contextualWords.contains word then lexeme (.word (String.ofList raw) false) raw text
    else lexeme (.word word false) raw text

/-! ## Numbers -/

/-- Digits that are set apart by single low lines at most. -/
def validDigits (digits : List Char) : Bool :=
  (Text.pieces '_' digits).all fun piece => !piece.isEmpty

/-- The digits and low lines at the start of a text. -/
def digitRun (isDigit : Char → Bool) (text : List Char) : List Char :=
  text.takeWhile fun c => isDigit c || c == '_'

/-- The digits of a base other than ten, by the letter that announces it. -/
def baseDigit? (mark : Char) : Option (Char → Bool) :=
  match mark.toLower with
  | 'x' => some fun c => (hexValue? c).isSome
  | 'o' => some fun c => '0' ≤ c && c ≤ '7'
  | 'b' => some fun c => c == '0' || c == '1'
  | _ => none

/-- The exponent at the start of a text, and whether it is well-formed; there need be none. -/
def scanExponent : List Char → List Char × Bool
  | e :: rest =>
    if e = 'e' || e = 'E' then
      let mark := if rest.head? = some '+' || rest.head? = some '-' then rest.take 1 else []
      let digits := digitRun Char.isDigit (rest.drop mark.length)
      (e :: mark ++ digits, validDigits digits)
    else ([], true)
  | [] => ([], true)

/-- A number with a zero in front that means nothing, or that announces octal digits. -/
def isLegacyNumber : List Char → Bool
  | '0' :: c :: _ => c.isDigit
  | _ => false

/-- A decimal number: its spelling, and whether it is well-formed. One with a zero in front and
    only octal digits is whole. -/
def scanDecimal (text : List Char) : List Char × Bool :=
  let whole := digitRun Char.isDigit text
  if isLegacyNumber whole && whole.all isOctal then (whole, true) else
  let wholeOk :=
    whole.isEmpty || (validDigits whole && !(whole.contains '_' && whole.head? = some '0'))
  match text.drop whole.length with
  | 'n' :: _ => (whole ++ ['n'], wholeOk && !whole.isEmpty && !isLegacyNumber whole)
  | '.' :: rest =>
    let part := digitRun Char.isDigit rest
    let (exponent, ok) := scanExponent (rest.drop part.length)
    (whole ++ '.' :: part ++ exponent, wholeOk && ok && (part.isEmpty || validDigits part))
  | rest =>
    let (exponent, ok) := scanExponent rest
    (whole ++ exponent, wholeOk && ok)

/-- A number of base sixteen, eight or two: its spelling, and whether it is well-formed. -/
def scanBased (isDigit : Char → Bool) (text : List Char) : List Char × Bool :=
  let digits := digitRun isDigit (text.drop 2)
  let mark := if (text.drop (2 + digits.length)).head? = some 'n' then ['n'] else []
  (text.take 2 ++ digits ++ mark, validDigits digits)

/-- The number at the start of a text; no name may follow at once. -/
def scanNumber (text : List Char) : Lexeme :=
  let based := match text with
    | '0' :: mark :: _ => baseDigit? mark
    | _ => none
  let (raw, ok) := match based with
    | some isDigit => scanBased isDigit text
    | none => scanDecimal text
  if ok && !((text.drop raw.length).head?.any continuesName) then
    lexeme (.number (String.ofList raw)) raw text
  else badLexeme text

/-! ## Texts, templates and regular expressions -/

/-- A text in quotes up to the quote, if that comes before the end of the line. -/
def quotedBody (quote : Char) : List Char → Option (List Char)
  | [] => none
  | '\\' :: '\r' :: '\n' :: rest => (quotedBody quote rest).map ('\\' :: '\r' :: '\n' :: ·)
  | '\\' :: c :: rest => (quotedBody quote rest).map ('\\' :: c :: ·)
  | c :: rest =>
    if c = quote then some []
    else if c = '\n' || c = '\r' then none
    else (quotedBody quote rest).map (c :: ·)

/-- The text in quotes at the start of a text. -/
def scanText (quote : Char) (text : List Char) : Lexeme :=
  match quotedBody quote (text.drop 1) with
  | none => badLexeme text
  | some body =>
    match unescape true body with
    | none => badLexeme text
    | some units =>
      let raw := quote :: body ++ [quote]
      lexeme (.text raw (joinUnits units)) raw text

/-- A piece of a template up to what ends it, and whether that is the end of the template. -/
def pieceBody : List Char → Option (List Char × Bool)
  | [] => none
  | '\\' :: c :: rest => (pieceBody rest).map fun (body, last) => ('\\' :: c :: body, last)
  | '\x60' :: _ => some ([], true)
  | '$' :: '\x7b' :: _ => some ([], false)
  | c :: rest => (pieceBody rest).map fun (body, last) => (c :: body, last)

/-- The piece of a template at the start of a text, with what ends it. -/
def scanPiece (text : List Char) : Lexeme :=
  match pieceBody text with
  | none => badLexeme text
  | some (body, last) =>
    lexeme (.piece body last) (body ++ if last then ['\x60'] else ['$', '\x7b']) text

/-- A regular expression up to the slash that ends it; slashes in brackets do not. -/
def regexBody (bracket : Bool) : List Char → Option (List Char)
  | [] => none
  | '\\' :: c :: rest =>
    if isLineBreak c then none else (regexBody bracket rest).map ('\\' :: c :: ·)
  | c :: rest =>
    if isLineBreak c then none
    else if c = '/' && !bracket then some []
    else (regexBody (c = '[' || (bracket && c ≠ ']')) rest).map (c :: ·)

/-- Different flags of regular expressions. -/
def validFlags (flags : List Char) : Bool :=
  flags.all (fun c => "dgimsuvy".toList.contains c) && flags.eraseDups.length == flags.length

/-- The regular expression at the start of a text; with a star in front it would be a comment. -/
def scanRegex (text : List Char) : Lexeme :=
  match regexBody false (text.drop 1) with
  | none | some ('*' :: _) => badLexeme text
  | some body =>
    let flags := (text.drop (body.length + 2)).takeWhile continuesName
    let raw := '/' :: body ++ '/' :: flags
    if validFlags flags then lexeme (.regex (String.ofList raw)) raw text else badLexeme text

/-! ## Signs -/

/-- The signs, longer ones before those they begin with. -/
def signs : List String :=
  ["...", "===", "!==", "**=", "<<=", "&&=", "||=", "??=", "=>", "==", "!=", "<=", "&&", "||",
    "??", "++", "--", "+=", "-=", "*=", "/=", "%=", "&=", "|=", "^=", "<<", "**", "\x7b", "\x7d",
    "(", ")", "[", "]", ";", ",", "<", ">", "+", "-", "*", "/", "%", "&", "|", "^", "!", "~", "?",
    ":", "=", ".", "\x60"]

/-- The signs that begin with a greater-than sign. -/
def greaterSigns : List String := [">>>=", ">>>", ">>=", ">>", ">=", ">"]

/-- The first of several signs that a text starts with. -/
def scanSign (signs : List String) (text : List Char) : Lexeme :=
  match signs.find? fun sign => sign.toList.isPrefixOf text with
  | some sign => lexeme (.sign sign) sign.toList text
  | none => badLexeme text

/-- A question mark and a dot make one sign, unless a digit follows. -/
def scanQuestion (text : List Char) : Lexeme :=
  match text with
  | '?' :: '.' :: rest =>
    if rest.head?.any Char.isDigit then lexeme (.sign "?") ['?'] text
    else lexeme (.sign "?.") ['?', '.'] text
  | _ => scanSign signs text

/-! ## Modes -/

/-- The token at the start of a text, as usual. -/
def scanPlain (text : List Char) : Lexeme :=
  match text with
  | [] => ⟨.done, [], []⟩
  | c :: rest =>
    if beginsName c || c = '\\' then scanWord text
    else if c.isDigit || (c = '.' && rest.head?.any Char.isDigit) then scanNumber text
    else if c = '"' || c = '\x27' then scanText c text
    else if c = '?' then scanQuestion text
    else if c = '/' && rest.head? = some '*' then badLexeme text
    else if c = '#' then
      match scanWord rest with
      | ⟨.word name _, taken, rest⟩ => ⟨.hidden ("#" ++ name), c :: taken, rest⟩
      | _ => badLexeme text
    else scanSign signs text

/-- The text between tags at the start of a text, if there is any, or what ends it; a greater-than
    sign or a closing brace is no text. -/
def scanMarkup (text : List Char) : Lexeme :=
  let run := text.takeWhile fun c => !(c == '<' || c == '>' || c == '\x7b' || c == '\x7d')
  match run, text.drop run.length with
  | _, [] => badLexeme text
  | [], c :: _ =>
    if c = '<' || c = '\x7b' then lexeme (.sign c.toString) [c] text else badLexeme text
  | run, c :: _ =>
    if c = '<' || c = '\x7b' then lexeme (.markup (String.ofList run)) run text else badLexeme text

/-- The name in a tag at the start of a text. -/
def scanTagName (text : List Char) : Lexeme :=
  if text.head?.any beginsName then
    let name := text.takeWhile fun c => continuesName c || c == '-'
    lexeme (.word (String.ofList name) true) name text
  else scanPlain text

/-- The value of an attribute at the start of a text. -/
def scanAttributeValue (text : List Char) : Lexeme :=
  match text with
  | [] => scanPlain text
  | c :: rest =>
    if c = '"' || c = '\x27' then
      let body := rest.takeWhile fun d => d ≠ c
      if body.length < rest.length then
        lexeme (.text (c :: body ++ [c]) (some (decodeReferences body))) (c :: body ++ [c]) text
      else badLexeme text
    else scanPlain text

/-- The token at the start of a text in some mode. -/
def scanWith (mode : Mode) (text : List Char) : Lexeme :=
  match mode with
  | .plain => scanPlain text
  | .greater => scanSign greaterSigns text
  | .single => match text with
    | [] => scanPlain text
    | c :: _ => lexeme (.sign c.toString) [c] text
  | .regex => scanRegex text
  | .piece => scanPiece text
  | .markup => scanMarkup text
  | .tagName => scanTagName text
  | .attributeValue => scanAttributeValue text

namespace Token

/-- A sign that joins two operands. -/
def isBinarySign : Token → Bool
  | sign s =>
    ["==", "!=", "===", "!==", "<", "<=", ">", ">=", "<<", ">>", ">>>", "+", "-", "*", "/", "%",
      "|", "^", "&", "||", "&&", "**", "??"].contains s
  | _ => false

/-- A comment in one line behind such a token belongs to the token and not to the next one: names,
    literals and the ends of statements and blocks. -/
def takesComment : Token → Bool
  | word w _ => contextualWords.contains w || isName true w
  | sign s => ["\x7b", "\x7d", ";"].contains s
  | number _ | text .. | regex _ | markup _ | hidden _ => true
  | piece .. | done | bad => false

end Token

end Script

end ClassVeil
