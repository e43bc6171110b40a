import ClassVeil.Css.CharRange
import ClassVeil.Decimal.Nearest

/-!
# Values of declarations

A value is a sequence of words, numbers, texts and functions. The small style spells numbers as
short as it can and leaves out the blank between two parts where they stay apart without it. A
value with anything else in it is kept the way it was spelled.

## Main definitions

* `shortNumber`, `shortColor`, `shortString`: the shortest spellings.
* `Value`, `joinValues`: a part of a value, and the blanks between two parts.
* `readValues?`: the parts of a value, if all of it is understood.
* `valuePhrase`: the printed forms of a value.
-/

namespace ClassVeil

namespace Css

/-! ### Spellings -/

/-- The number that decimal digits denote. -/
def digitsToNat (digits : List Char) : Nat :=
  digits.foldl (fun n d => n * 10 + (d.toNat - 48)) 0

/-- The sign of a number, the digits of its decimal and their place. -/
def splitDecimal (raw : List Char) : Bool × Nat × Int :=
  let (negative, rest) := match raw with
    | '+' :: rest => (false, rest)
    | '-' :: rest => (true, rest)
    | _ => (false, raw)
  let (whole, rest) := splitDigits rest
  let (fraction, rest) := match rest with
    | '.' :: rest => splitDigits rest
    | _ => ([], rest)
  let exponent : Int := match rest with
    | _ :: '-' :: digits => -digitsToNat digits
    | _ :: '+' :: digits => digitsToNat digits
    | _ :: digits => digitsToNat digits
    | [] => 0
  (negative, digitsToNat (whole ++ fraction), exponent - fraction.length)

/-- A text without the zeros at its end, and how many they were. -/
def dropEndZeros (digits : List Char) : List Char × Nat :=
  let kept := digits.reverse.dropWhile (· == '0')
  (kept.reverse, digits.length - kept.length)

/-- A positive number without an exponent in its shortest form: the zero before the point is
    dropped, and three zeros or more at either end become an exponent. -/
def shorten (plain : List Char) : List Char :=
  let text := match plain with
    | '0' :: '.' :: rest => '.' :: rest
    | _ => plain
  match text with
  | '.' :: '0' :: '0' :: '0' :: rest =>
    let zeros := 3 + (rest.takeWhile (· == '0')).length
    let rest := rest.dropWhile (· == '0')
    rest ++ ['e', '-'] ++ Nat.toDigits 10 (rest.length + zeros)
  | _ =>
    let (kept, zeros) := dropEndZeros text
    if 3 ≤ zeros then kept ++ 'e' :: Nat.toDigits 10 zeros else text

/-- The point with three zeros behind it stays in a negative number. -/
def shortenNegative (plain : List Char) : List Char :=
  match plain with
  | '0' :: '.' :: rest => '-' :: '.' :: rest
  | _ => '-' :: shorten plain

/-- The shortest spelling of the binary fraction nearest to a number. -/
def shortNumber (raw : List Char) : List Char :=
  let (negative, digits, place) := splitDecimal raw
  match Decimal.Binary.ofDecimal? digits place with
  | none => if negative then "-inf".toList else "inf".toList
  | some b => if negative then shortenNegative b.plain else shorten b.plain

/-- The least and the greatest integer that are kept. -/
def integerBound : Nat := Nat.pow 2 63

/-- An integer as it is kept: the nearest binary fraction, held between the bounds. -/
def integerValue (raw : List Char) : Int :=
  let (negative, digits, place) := splitDecimal raw
  let size := match Decimal.Binary.ofDecimal? digits place with
    | none => integerBound
    | some b => b.whole
  if negative then -(min size integerBound : Nat) else (min size (integerBound - 1) : Nat)

/-- The spelling of an integer as it is kept. -/
def integerText (raw : List Char) : List Char := (toString (integerValue raw)).toList

/-- A number without point and exponent. -/
def isInteger (raw : List Char) : Bool :=
  !(raw.contains '.' || raw.contains 'e' || raw.contains 'E')

/-- The shortest spelling of a color behind its number sign: doubled digits are halved, and full
    opacity goes without saying. -/
def shortColor (raw : List Char) : List Char :=
  match raw with
  | [a, b, c, d, e, f] => if a = b ∧ c = d ∧ e = f then [a, c, e] else raw
  | [a, b, c, d, e, f, g, h] =>
    if a = b ∧ c = d ∧ e = f then
      if g = 'f' ∧ h = 'f' then [a, c, e]
      else if g = h then [a, c, e, g]
      else raw
    else raw
  | _ => raw

/-- A character inside a string, behind a backslash if it is the given quotation mark. -/
def shortStringChar (mark c : Char) : List Char :=
  if c = '\x00' then [replacement]
  else if c.toNat < 0x20 || c == '\x7f' then escapeCode c
  else if c = '\\' || c = mark then ['\\', c]
  else [c]

/-- The shortest spelling of a string: the quotation mark is the one that it has fewer of. -/
def shortString (value : List Char) : List Char :=
  let mark := if value.count '\'' < value.count '"' then '\'' else '"'
  mark :: value.flatMap (shortStringChar mark) ++ [mark]

/-! ### Parts of values -/

/-- What the blanks behind a part of a value depend on. -/
inductive ValueKind where
  /-- A comma. -/
  | comma
  /-- A slash. -/
  | slash
  /-- Strings, addresses, functions, brackets and percentages end by themselves. -/
  | closed
  | number
  | other
deriving DecidableEq, Repr

/-- A part of a value. -/
structure Value where
  phrase : Phrase
  kind : ValueKind
  /-- The small style needs no blank before it. -/
  opens : Bool := false
deriving Repr

/-- The blank between two parts of a value. -/
def separator (a b : Value) : Phrase :=
  match a.kind, b.kind with
  | .closed, .slash => [.gap]
  | _, .comma | .number, .slash | .other, .slash => []
  | .comma, _ | .slash, _ | .closed, _ => [.gap]
  | _, _ => if b.opens then [.gap] else [.space]

/-- The parts of a value with the blanks between them. -/
def joinValues : List Value → Phrase
  | [] => []
  | [a] => a.phrase
  | a :: b :: rest => a.phrase ++ separator a b ++ joinValues (b :: rest)

/-- A number. -/
def numberPiece (raw : List Char) : Piece := .word raw (shortNumber raw)

/-- The units that are known. -/
def knownUnits : List (List Char) :=
  ["em", "rem", "ex", "rex", "cap", "rcap", "ch", "rch", "ic", "ric", "lh", "rlh", "vw", "svw",
    "lvw", "dvw", "vh", "svh", "lvh", "dvh", "vi", "svi", "lvi", "dvi", "vb", "svb", "lvb", "dvb",
    "vmin", "svmin", "lvmin", "dvmin", "vmax", "svmax", "lvmax", "dvmax", "cqw", "cqh", "cqi",
    "cqb", "cqmin", "cqmax", "cm", "mm", "q", "in", "pc", "pt", "px", "mozmm", "deg", "grad",
    "rad", "turn", "s", "ms", "hz", "khz", "dpi", "dpcm", "dppx", "x", "fr"].map String.toList

/-- A unit; one that is not known has small letters. -/
def unitPiece (unit : List Char) : Piece :=
  let lower := unit.map Char.toLower
  if knownUnits.contains lower then softIdent unit else identPiece lower

/-- A number with its unit. -/
def dimensionPhrase (raw unit : List Char) : Phrase := [numberPiece raw, unitPiece unit]

/-- A percentage. -/
def percentagePhrase (raw : List Char) : Phrase := [numberPiece raw, word ['%']]

/-- The shortest spelling of a number begins with a full stop. -/
def startsWithPoint (raw : List Char) : Bool := (shortNumber raw).head? == some '.'

/-- A string in both spellings. -/
def stringPiece (value raw : List Char) : Piece := .word raw (shortString value)

/-- A character of an address: what would end it is put behind a backslash. -/
def addressChar (c : Char) : List Char :=
  if c == ' ' || c == '"' || c == '\'' || c == '(' || c == ')' || c == '\\' then ['\\', c]
  else if c.toNat < 0x20 || c == '\x7f' then escapeCode c
  else [c]

/-- An address without quotation marks. -/
def addressPhrase (address : List Char) : Phrase :=
  [word ("url(".toList ++ address.flatMap addressChar ++ [')'])]

/-- A number as a part of a value. -/
def numberValue (raw : List Char) : Value := ⟨[numberPiece raw], .number, startsWithPoint raw⟩

/-- A single token as a part of a value. -/
def tokenValue? : Token → Option Value
  | .ident name _ => some ⟨[valueIdent name], .other, false⟩
  | .string value raw => some ⟨[stringPiece value raw], .closed, true⟩
  | .url address _ _ => some ⟨addressPhrase address, .closed, false⟩
  | .hash name raw =>
    if name.all isHexDigit then some ⟨[.word ('#' :: raw) ('#' :: shortColor name)], .other, true⟩
    else none
  | .number raw =>
    if isInteger raw then some ⟨[word (integerText raw)], .number, false⟩
    else some (numberValue raw)
  | .percentage raw => some ⟨percentagePhrase raw, .closed, startsWithPoint raw⟩
  | .dimension raw unit _ => some ⟨dimensionPhrase raw unit, .other, startsWithPoint raw⟩
  | .delim ',' => some ⟨words ",", .comma, false⟩
  | .delim '/' => some ⟨words "/", .slash, false⟩
  | .delim ';' => some ⟨words ";", .slash, false⟩
  | _ => none

/-- Functions with one computation, and with any number of them. -/
def oneSum : List (List Char) :=
  ["calc", "-webkit-calc", "-moz-calc", "sin", "cos", "tan", "asin", "acos", "atan", "sqrt", "exp",
    "abs", "sign"].map String.toList

/-- The numbers of computations that a function takes, if it takes any. -/
def sumCount? (name : List Char) : Option (Nat → Bool) :=
  let is (names : List String) : Bool := (names.map String.toList).contains name
  if oneSum.contains name then some fun n => n = 1
  else if is ["min", "max", "hypot"] then some fun n => 1 ≤ n
  else if is ["clamp"] then some fun n => n = 3
  else if is ["mod", "rem", "atan2", "pow", "round"] then some fun n => n = 2
  else if is ["log"] then some fun n => n = 1 || n = 2
  else none

/-- Functions that compute. -/
def isMath (name : List Char) : Bool := (sumCount? name).isSome

/-- Functions that stand for something that is not known before the page is shown. -/
def isVariable (name : List Char) : Bool :=
  (["var", "env", "constant"].map String.toList).contains name

/-- The spelling of an operator inside a computation: a sum needs its blanks. -/
def operatorPhrase? (c : Component) : Option Phrase :=
  if c.isDelim '+' then some [.space, word ['+'], .space]
  else if c.isDelim '-' then some [.space, word ['-'], .space]
  else if c.isDelim '*' then some [.gap, word ['*'], .gap]
  else if c.isDelim '/' then some [.gap, word ['/'], .gap]
  else none

/-! ### Colors -/

/-- What a coordinate of a color can be besides a computation. -/
structure Coordinate where
  number : Bool
  percentage : Bool
  angle : Bool

/-- The three coordinates of the colors that a function names, and whether commas may stand between
    them. -/
def coordinates? (name : List Char) : Option (List Coordinate × Bool) :=
  let is (names : List String) : Bool := (names.map String.toList).contains name
  let hue : Coordinate := ⟨true, false, true⟩
  let part : Coordinate := ⟨false, true, false⟩
  let either : Coordinate := ⟨true, true, false⟩
  if is ["rgb", "rgba"] then some ([either, either, either], true)
  else if is ["hsl", "hsla"] then some ([hue, part, part], true)
  else if is ["hwb"] then some ([hue, part, part], false)
  else if is ["lab", "oklab"] then some ([either, either, either], false)
  else if is ["lch", "oklch"] then some ([either, either, hue], false)
  else none

/-- Whether a component fits a coordinate; the word `none` does not if there are commas. -/
def Coordinate.fits (k : Coordinate) (commas : Bool) : Component → Bool
  | .token (.number _) => k.number
  | .token (.percentage _) => k.percentage
  | .token (.dimension _ unit _) =>
    k.angle && (["deg", "grad", "rad", "turn"].map String.toList).contains (unit.map Char.toLower)
  | .token (.ident name _) => !commas && name.map Char.toLower = "none".toList
  | .function name _ _ => isMath (name.map Char.toLower)
  | _ => false

/-- Whether a component stands for any number of coordinates. -/
def isVariableComponent : Component → Bool
  | .function name _ _ => isVariable (name.map Char.toLower)
  | _ => false

/-- Whether components are coordinates of a color, with or without commas, and its opacity behind a
    slash or a last comma. `unknown` tells that something before stands for any number of them. -/
def areCoordinates (commas unknown : Bool) : List Coordinate → List Component → Bool
  | [], [] => true
  | [], c :: rest =>
    if c.isDelim '/' || (commas && c.isDelim ',') then
      let opacity : Coordinate := ⟨true, true, false⟩
      match rest with
      | [] => unknown
      | [d] => isVariableComponent d || opacity.fits commas d
      | _ => rest.all isVariableComponent
    else false
  | k :: ks, cs =>
    match cs with
    | c :: rest =>
      if isVariableComponent c then
        let rest := rest.dropWhile isVariableComponent
        if commas && rest.head?.any (Component.isDelim ',') && !ks.isEmpty then
          areCoordinates commas true ks (rest.drop 1)
        else areCoordinates commas true ks rest
      else if k.fits commas c then
        if commas && rest.head?.any (Component.isDelim ',') && !ks.isEmpty then
          areCoordinates commas unknown ks (rest.drop 1)
        else areCoordinates commas unknown ks rest
      else unknown && areCoordinates commas unknown ks (c :: rest)
    | [] => unknown

/-- Whether components without blanks are the contents of a function, as far as it names a color.
    A color can be derived from another one behind the word `from`. -/
def isColor (name : List Char) (cs : List Component) : Bool :=
  match coordinates? name with
  | none => true
  | some (ks, legacy) =>
    let cs := match cs with
      | c :: base :: rest => if c.isWord "from" && !isVariableComponent base then rest else cs
      | _ => cs
    let behind := match cs with
      | c :: rest => if isVariableComponent c then rest.dropWhile isVariableComponent else rest
      | [] => []
    areCoordinates (legacy && behind.head?.any (Component.isDelim ',')) false ks cs

/-! ### Values -/

mutual

/-- A component as a part of a value. A function with contents that do not fit it keeps their
    spelling. -/
def readValue? : (fuel : Nat) → Component → Option Value
  | 0, _ => none
  | _ + 1, .token t => tokenValue? t
  | fuel + 1, .function name _ contents =>
    let lower := name.map Char.toLower
    if lower = "url".toList || lower = "src".toList then
      (readAddress? fuel (trimSpaces contents)).map fun p =>
        ⟨softIdent name :: inRound p, .closed, false⟩
    else
      let inner := match sumCount? lower with
        | some fits => readSums? fuel lower fits (splitOn (Component.isDelim ',') contents)
        | none =>
          if isColor lower (contents.filter fun c => !c.isSpace) then
            (readValues? fuel contents).map joinValues
          else none
      some ⟨nameIdent name :: inRound (inner.getD (rawList contents)), .closed, false⟩
  | fuel + 1, .bracket .square contents =>
    some ⟨word ['['] :: joinValues (readLoosely fuel contents) ++ [word [']']], .closed, true⟩
  | _ + 1, .bracket .curly contents => some ⟨rawComponent (.bracket .curly contents), .closed, true⟩
  | _ + 1, .bracket .round _ => none

/-- The contents of a function that is an address: a text and what modifies it. -/
def readAddress? : (fuel : Nat) → List Component → Option Phrase
  | 0, _ => none
  | fuel + 1, cs =>
    match cs with
    | .token (.string value raw) :: rest => do
      let ps ← readModifiers? fuel (skipSpaces rest)
      return stringPiece value raw :: (if ps.isEmpty then [] else .gap :: joinWith [.space] ps)
    | cs => (readModifiers? fuel cs).map (joinWith [.space])

/-- Words and functions that modify an address. -/
def readModifiers? : (fuel : Nat) → List Component → Option (List Phrase)
  | 0, _ => none
  | _ + 1, [] => some []
  | fuel + 1, c :: rest => do
    let v ← readValue? fuel c
    let ps ← readModifiers? fuel (skipSpaces rest)
    match c with
    | .token (.ident ..) | .function .. => return v.phrase :: ps
    | _ => none

/-- Components as the parts of a value. -/
def readValues? : (fuel : Nat) → List Component → Option (List Value)
  | 0, _ => none
  | _ + 1, [] => some []
  | fuel + 1, c :: rest =>
    if c.isSpace then readValues? fuel rest
    else if c.isWord "u" && startsCharRange rest then do
      let (p, rest) ← readCharRange? rest
      let vs ← readValues? fuel rest
      return ⟨p, .other, false⟩ :: vs
    else do
      let v ← readValue? fuel c
      let vs ← readValues? fuel rest
      return v :: vs

/-- Components as the parts of a value; what is not understood is kept the way it was spelled. -/
def readLoosely : (fuel : Nat) → List Component → List Value
  | 0, _ => []
  | _ + 1, [] => []
  | fuel + 1, c :: rest =>
    if c.isSpace then readLoosely fuel rest
    else
      let v := match c with
        | .bracket .curly _ => none
        | c => readValue? fuel c
      v.getD ⟨rawComponent c, .other, false⟩ :: readLoosely fuel rest

/-- The contents of a function that computes, as many computations as fit it; rounding may have a
    word in front of them. -/
def readSums? : (fuel : Nat) → (name : List Char) → (fits : Nat → Bool) → List (List Component) →
    Option Phrase
  | 0, _, _, _ => none
  | fuel + 1, name, fits, pieces => do
    let (lead, pieces) : Phrase × List (List Component) := match pieces with
      | first :: rest =>
        match trimSpaces first with
        | [.token (.ident strategy _)] =>
          if name = "round".toList then ([identPiece strategy, word [','], .gap], rest)
          else ([], pieces)
        | _ => ([], pieces)
      | [] => ([], [])
    if fits pieces.length then do
      let sums ← readSumList? fuel pieces
      return lead ++ sums
    else none

/-- Computations, with commas between them. -/
def readSumList? : (fuel : Nat) → List (List Component) → Option Phrase
  | 0, _ => none
  | _ + 1, [] => some []
  | fuel + 1, [sum] => readSum? fuel (trimSpaces sum)
  | fuel + 1, sum :: rest => do
    let p ← readSum? fuel (trimSpaces sum)
    let q ← readSumList? fuel rest
    return p ++ [word [','], .gap] ++ q

/-- A computation: operands with operators between them. -/
def readSum? : (fuel : Nat) → List Component → Option Phrase
  | 0, _ => none
  | _ + 1, [] => none
  | fuel + 1, c :: rest => do
    let p ← readOperand? fuel c
    match skipSpaces rest with
    | [] => return p
    | op :: rest => do
      let o ← operatorPhrase? op
      let q ← readSum? fuel (skipSpaces rest)
      return p ++ o ++ q

/-- An operand of a computation. -/
def readOperand? : (fuel : Nat) → Component → Option Phrase
  | 0, _ => none
  | fuel + 1, .bracket .round contents => (readSum? fuel (trimSpaces contents)).map inRound
  | _ + 1, .token (.number raw) => some [numberPiece raw]
  | fuel + 1, c => do
    let v ← readValue? fuel c
    match c with
    | .token (.ident ..) | .token (.percentage _) | .token (.dimension ..) | .function .. =>
      return v.phrase
    | _ => none

end

mutual

/-- The number of components, those inside included. -/
def componentSize : Component → Nat
  | .token _ => 1
  | .function _ _ contents => 1 + componentsSize contents
  | .bracket _ contents => 1 + componentsSize contents

/-- The number of components in a list, those inside included. -/
def componentsSize : List Component → Nat
  | [] => 0
  | c :: rest => componentSize c + componentsSize rest

end

/-- As much fuel as reading some components can take: three steps into each of them. -/
def fuelFor (cs : List Component) : Nat := 4 * componentsSize cs + 8

/-- The printed forms of a value: parts, or all of it the way it was spelled. -/
def valuePhrase (cs : List Component) : Phrase :=
  match readValues? (fuelFor cs) cs with
  | some values => joinValues values
  | none => rawList (trimSpaces cs)

end Css

end ClassVeil
