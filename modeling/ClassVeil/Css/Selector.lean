import ClassVeil.Css.Value

/-!
# Selectors

A complex selector is a row of compound selectors with combinators between them. In a compound
selector only the classes matter; a type, an attribute or a pseudo-class is kept as a phrase.

A class remembers besides its name how the source spells it. Printing goes by the name; the spelling
tells a class of the source from one that has been put in its place.

## Main definitions

* `Subclass`, `Compound`, `Part`, `Complex`: the parts of selectors.
* `Complex.phrase`: a selector as a phrase.
* `readSelectors?`: a list of selectors.
* `readRelatives?`: a list of selectors that are seen from the surrounding rule.
-/

namespace ClassVeil

namespace Css

/-- What narrows a compound selector down. -/
inductive Subclass where
  /-- A class. `raw`, the way it is spelled in the source with its escapes, is missing if the class
      has been renamed. -/
  | className (name : List Char) (raw : Option (List Char))
  /-- A name, an attribute or a pseudo-class. -/
  | other (phrase : Phrase)
deriving DecidableEq, Repr

/-- Conditions on one element. -/
structure Compound where
  /-- The selector `&`, which stands for the surrounding rule. -/
  nesting : Bool
  tag : Option Phrase
  subclasses : List Subclass
deriving DecidableEq, Repr

/-- How one element stands to another. -/
inductive Combinator where
  | descendant
  | child
  | next
  | later
  | column
deriving DecidableEq, Repr

/-- A part of a complex selector. -/
inductive Part where
  | compound (c : Compound)
  | combinator (c : Combinator)
deriving DecidableEq, Repr

/-- Compound selectors with combinators between them. -/
abbrev Complex := List Part

/-! ### Printing -/

/-- A subclass selector as a phrase. A class is spelled anew from its name, whatever its spelling
    was in the source. -/
def Subclass.phrase : Subclass → Phrase
  | className name _ => [word ('.' :: writeIdent name)]
  | other p => p

/-- A compound selector as a phrase. -/
def Compound.phrase (c : Compound) : Phrase :=
  (if c.nesting then words "&" else []) ++ c.tag.getD [] ++ c.subclasses.flatMap Subclass.phrase

/-- The sign of a combinator. -/
def Combinator.sign : Combinator → String
  | descendant => " "
  | child => ">"
  | next => "+"
  | later => "~"
  | column => "||"

/-- A combinator as a phrase. -/
def Combinator.phrase : Combinator → Phrase
  | descendant => [.space]
  | c => .gap :: words c.sign ++ [.gap]

/-- A part of a complex selector as a phrase. -/
def Part.phrase : Part → Phrase
  | compound c => c.phrase
  | combinator c => c.phrase

/-- A complex selector as a phrase. -/
def Complex.phrase (c : Complex) : Phrase := c.flatMap Part.phrase

/-! ### Reading -/

/-- The name of an element, or `*` for any. -/
def tagName? : Component → Option Phrase
  | .token (.ident name _) => some [softIdent name]
  | .token (.delim '*') => some (words "*")
  | _ => none

/-- A type selector, with or without a namespace, and the rest. -/
def readTag? (cs : List Component) : Option (Phrase × List Component) :=
  match cs with
  | bar :: c :: rest =>
    if bar.isDelim '|' then (tagName? c).map fun p => (words "|" ++ p, rest)
    else do
      let p ← tagName? bar
      match c :: rest with
      | c :: d :: behind =>
        if c.isDelim '|' then
          match tagName? d with
          | some q => return (p ++ words "|" ++ q, behind)
          | none => return (p, c :: rest)
        else return (p, c :: rest)
      | _ => return (p, c :: rest)
  | [c] => (tagName? c).map (·, [])
  | [] => none

/-- The sign that relates an attribute to its value, and the rest. -/
def readMatcher? (cs : List Component) : Option (Phrase × List Component) :=
  match cs with
  | c :: d :: rest =>
    if c.isDelim '=' then some (words "=", d :: rest)
    else if d.isDelim '=' then
      match c with
      | .token (.delim x) =>
        if x ∈ ['~', '|', '^', '$', '*'] then some ([word [x, '=']], rest) else none
      | _ => none
    else none
  | _ => none

/-- The value of an attribute, what sets it apart from a modifier, and the rest. -/
def readAttributeValue? (cs : List Component) : Option (Phrase × Piece × List Component) :=
  match skipSpaces cs with
  | .token (.string value raw) :: rest => some ([stringPiece value raw], .gap, rest)
  | .token (.ident name _) :: rest => some ([identPiece name], .space, rest)
  | _ => none

/-- The name of an attribute, with or without a namespace, and the rest. -/
def readAttributeName? (cs : List Component) : Option (Phrase × List Component) :=
  match cs with
  | .token (.ident a _) :: bar :: .token (.ident b rawB) :: rest =>
    if bar.isDelim '|' then some ([identPiece a, word ['|'], identPiece b], rest)
    else some ([identPiece a], bar :: .token (.ident b rawB) :: rest)
  | star :: bar :: .token (.ident b rawB) :: rest =>
    if star.isDelim '*' && bar.isDelim '|' then some ([word ['*', '|'], identPiece b], rest)
    else match star with
      | .token (.ident a _) => some ([identPiece a], bar :: .token (.ident b rawB) :: rest)
      | _ => none
  | .token (.ident a _) :: rest => some ([identPiece a], rest)
  | bar :: .token (.ident b _) :: rest =>
    if bar.isDelim '|' then some ([word ['|'], identPiece b], rest) else none
  | _ => none

/-- What is inside an attribute selector. -/
def readAttribute? (cs : List Component) : Option Phrase := do
  let (name, rest) ← readAttributeName? (trimSpaces cs)
  match skipSpaces rest with
  | [] => return name
  | rest => do
    let (sign, rest) ← readMatcher? rest
    let (value, apart, rest) ← readAttributeValue? rest
    match trimSpaces rest with
    | [] => return name ++ sign ++ value
    | [.token (.ident m _)] => return name ++ sign ++ value ++ [apart, softIdent m]
    | _ => none

/-- The spelling of components. -/
def rawText (cs : List Component) : List Char := (rawList cs).print .wide

/-- The number that a text of digits is, if it is one. -/
def digits? (text : List Char) : Option Nat :=
  if !text.isEmpty && text.all Char.isDigit then some (digitsToNat text) else none

/-- A number behind a sign and blanks, up to blanks at the end. -/
def readOffset? (text : List Char) : Option Int :=
  match text with
  | sign :: rest =>
    let digits := ((rest.dropWhile isSpace).reverse.dropWhile isSpace).reverse
    if sign = '+' then (digits? digits).map fun n => (n : Int)
    else if sign = '-' then (digits? digits).map fun n => -(n : Int)
    else none
  | [] => none

/-- The numbers `a` and `b` of `an+b`, without blanks in front; either can be missing. -/
def readNth? (text : List Char) : Option (Option Int × Option Int) :=
  let (sign, rest) : Int × List Char := match text with
    | '+' :: rest => (1, rest)
    | '-' :: rest => (-1, rest)
    | _ => (1, text)
  let (size, rest) := splitDigits rest
  match rest with
  | c :: rest =>
    if c = 'n' || c = 'N' then
      let a := sign * if size.isEmpty then 1 else (digitsToNat size : Int)
      match rest.dropWhile isSpace with
      | [] => some (some a, none)
      | rest => (readOffset? rest).map fun b => (some a, some b)
    else if isSpace c && (rest.all isSpace) then (digits? size).map fun n => (none, some (sign * n))
    else none
  | [] => (digits? size).map fun n => (none, some (sign * n))

/-- The shortest spelling of `an+b`. -/
def writeNth (a b : Option Int) : List Char :=
  let step := match a with
    | some 1 => ['n']
    | some (-1) => ['-', 'n']
    | some n => (toString n).toList ++ ['n']
    | none => []
  let offset := match b with
    | some n => (if 0 ≤ n && a.isSome then ['+'] else []) ++ (toString n).toList
    | none => []
  step ++ offset

/-- Every how many elements, and which of them: `odd`, `even`, or `an+b`. -/
def nthPhrase? (cs : List Component) : Option Phrase :=
  match trimSpaces cs with
  | [.token (.ident name raw)] =>
    if name.map Char.toLower = "odd".toList || name.map Char.toLower = "even".toList then
      some [identPiece name]
    else (readNth? raw).map fun (a, b) => [word (writeNth a b)]
  | cs => (readNth? (rawText cs)).map fun (a, b) => [word (writeNth a b)]

/-- Identifiers and, if `texts` is on, strings, with commas between them; and the rest. -/
def readNames? (texts : Bool) : (fuel : Nat) → List Component → Option (Phrase × List Component)
  | 0, _ => none
  | fuel + 1, cs => do
    let (p, rest) : Piece × List Component ← match skipSpaces cs with
      | .token (.ident name _) :: rest => some (identPiece name, rest)
      | .token (.string value raw) :: rest =>
        if texts then some (stringPiece value raw, rest) else none
      | _ => none
    match skipSpaces rest with
    | c :: behind =>
      if c.isDelim ',' then do
        let (q, rest) ← readNames? texts fuel behind
        return (p :: word [','] :: .gap :: q, rest)
      else return ([p], c :: behind)
    | [] => return ([p], [])

/-- Identifiers with blanks between them, and the rest. -/
def readParts : List Component → Phrase × List Component
  | [] => ([], [])
  | c :: rest =>
    match c with
    | .token (.space _) => readParts rest
    | .token (.ident name _) =>
      let (p, rest) := readParts rest
      (identPiece name :: (if p.isEmpty then [] else .space :: p), rest)
    | c => ([], c :: rest)

/-- The combinator that begins here, if one does, and the rest. -/
def readSign? (cs : List Component) : Option (Combinator × List Component) :=
  match cs with
  | c :: rest =>
    if c.isDelim '>' then some (.child, rest)
    else if c.isDelim '+' then some (.next, rest)
    else if c.isDelim '~' then some (.later, rest)
    else if c.isDelim '|' then
      match rest with
      | d :: behind => if d.isDelim '|' then some (.column, behind) else none
      | [] => none
    else none
  | [] => none

/-- How a pseudo-class or a pseudo-element reads its argument. -/
inductive PseudoArgument where
  | selectors
  /-- Selectors of which each may be anything. -/
  | forgiving
  /-- The same, seen from the surrounding element. -/
  | relative
  | compound
  | compounds
  | languages
  /-- Which element; `of` tells that selectors may follow. -/
  | nth (of : Bool)
  | name
  | names
  | anything
deriving DecidableEq, Repr

/-- The argument of a pseudo-class. -/
def classArgument (name : List Char) : PseudoArgument :=
  let is (names : List String) : Bool := (names.map String.toList).contains name
  if is ["not"] then .selectors
  else if is ["is", "where", "matches"] then .forgiving
  else if is ["has"] then .relative
  else if is ["host", "host-context"] then .compound
  else if is ["-moz-any", "-webkit-any", "current", "past", "future"] then .compounds
  else if is ["lang"] then .languages
  else if is ["nth-child", "nth-last-child"] then .nth true
  else if is ["nth-of-type", "nth-last-of-type", "nth-col", "nth-last-col"] then .nth false
  else if is ["dir"] then .name
  else .anything

/-- The argument of a pseudo-element. -/
def elementArgument (name : List Char) : PseudoArgument :=
  let is (names : List String) : Bool := (names.map String.toList).contains name
  if is ["slotted", "cue", "cue-region"] then .compound
  else if is ["part"] then .names
  else if is ["highlight"] then .name
  else .anything

/-- Selectors that may be anything: the separator has a blank only in front of those that are
    understood. -/
def joinForgiving : List (Phrase × Bool) → Phrase
  | [] => []
  | [(p, _)] => p
  | (p, _) :: (q, good) :: rest =>
    p ++ word [','] :: (if good then [.gap] else []) ++ joinForgiving ((q, good) :: rest)

mutual

/-- The argument of a pseudo-class, and what is left over behind it. -/
def readArgument? : (fuel : Nat) → PseudoArgument → List Component →
    Option (Phrase × List Component)
  | 0, _, _ => none
  | fuel + 1, argument, cs =>
    match argument with
    | .selectors => (readList? fuel (splitOn (Component.isDelim ',') cs)).map (·, [])
    | .forgiving =>
      some (joinForgiving (readForgiving fuel (splitOn (Component.isDelim ',') cs)), [])
    | .relative =>
      some (joinForgiving (readForgivingRelatives fuel (splitOn (Component.isDelim ',') cs)), [])
    | .compound => (readCompound? fuel (skipSpaces cs)).map fun (c, rest) => (c.phrase, rest)
    | .compounds => readCompounds? fuel cs
    | .languages => readNames? true fuel cs
    | .name =>
      match skipSpaces cs with
      | .token (.ident name _) :: rest => some ([identPiece name], rest)
      | _ => none
    | .names =>
      match skipSpaces cs with
      | .token (.ident name raw) :: rest => some (readParts (.token (.ident name raw) :: rest))
      | _ => none
    | .nth allowed =>
      match cs.span fun c => !(allowed && c.isWord "of") with
      | (nth, []) => (nthPhrase? nth).map (·, [])
      | (nth, _ :: list) => do
        let p ← nthPhrase? nth
        let q ← readList? fuel (splitOn (Component.isDelim ',') list)
        return (p ++ [.space, word ['o', 'f'], .space] ++ q, [])
    | .anything => none

/-- A pseudo-class or a pseudo-element behind its colons, and the rest. An argument that does not
    fit is kept the way it was spelled; nothing may be left over behind one that does. -/
def readPseudo? (argument : List Char → PseudoArgument) : (fuel : Nat) → List Component →
    Option (Phrase × List Component)
  | 0, _ => none
  | _ + 1, .token (.ident name _) :: rest => some ([softIdent name], rest)
  | fuel + 1, .function name _ contents :: rest =>
    let lower := name.map Char.toLower
    match readArgument? fuel (argument lower) contents with
    | some (p, behind) =>
      if (skipSpaces behind).isEmpty then some (identPiece lower :: inRound p, rest) else none
    | none => some (identPiece lower :: inRound (rawList contents), rest)
  | _ + 1, _ => none

/-- The pseudo-classes and pseudo-elements behind a pseudo-element, and the rest. -/
def readPseudos? : (fuel : Nat) → List Component → Option (List Subclass × List Component)
  | 0, _ => none
  | fuel + 1, cs =>
    match cs with
    | .token (.delim ':') :: .token (.delim ':') :: rest => do
      let (p, rest) ← readPseudo? elementArgument fuel rest
      let (others, rest) ← readPseudos? fuel rest
      return (.other (words "::" ++ p) :: others, rest)
    | .token (.delim ':') :: rest => do
      let (p, rest) ← readPseudo? classArgument fuel rest
      let (others, rest) ← readPseudos? fuel rest
      return (.other (words ":" ++ p) :: others, rest)
    | cs => some ([], cs)

/-- The subclass selectors that begin here, and the rest. Behind a pseudo-element there are only
    pseudo-classes and pseudo-elements. -/
def readSubclasses? : (fuel : Nat) → List Component → Option (List Subclass × List Component)
  | 0, _ => none
  | _ + 1, [] => some ([], [])
  | fuel + 1, c :: rest =>
    match c with
    | .token (.delim '.') =>
      match rest with
      | .token (.ident name raw) :: rest => do
        let (others, rest) ← readSubclasses? fuel rest
        return (.className name (some raw) :: others, rest)
      | _ => none
    | .token (.hash name raw) =>
      if startsIdent raw then do
        let (others, rest) ← readSubclasses? fuel rest
        return (.other [word ['#'], identPiece name] :: others, rest)
      else none
    | .bracket .square contents => do
      let p ← readAttribute? contents
      let (others, rest) ← readSubclasses? fuel rest
      return (.other (word ['['] :: p ++ [word [']']]) :: others, rest)
    | .token (.delim ':') =>
      if rest.head?.any (Component.isDelim ':') then readPseudos? fuel (c :: rest)
      else do
        let (p, rest) ← readPseudo? classArgument fuel rest
        let (others, rest) ← readSubclasses? fuel rest
        return (.other (words ":" ++ p) :: others, rest)
    | _ => some ([], c :: rest)

/-- Compound selectors with commas between them, and the rest. -/
def readCompounds? : (fuel : Nat) → List Component → Option (Phrase × List Component)
  | 0, _ => none
  | fuel + 1, cs => do
    let (c, rest) ← readCompound? fuel (skipSpaces cs)
    match skipSpaces rest with
    | d :: behind =>
      if d.isDelim ',' then do
        let (q, rest) ← readCompounds? fuel behind
        return (c.phrase ++ word [','] :: .gap :: q, rest)
      else return (c.phrase, d :: behind)
    | [] => return (c.phrase, [])

/-- The compound selector that begins here, and the rest. -/
def readCompound? : (fuel : Nat) → List Component → Option (Compound × List Component)
  | 0, _ => none
  | fuel + 1, cs => do
    let (nesting, rest) := match cs with
      | c :: rest => if c.isDelim '&' then (true, rest) else (false, cs)
      | [] => (false, [])
    let (tag, rest) := match readTag? rest with
      | some (p, rest) => (some p, rest)
      | none => (none, rest)
    let (subclasses, rest) ← readSubclasses? fuel rest
    if nesting || tag.isSome || !subclasses.isEmpty then return (⟨nesting, tag, subclasses⟩, rest)
    else none

/-- The complex selector that these components are. -/
def readComplex? : (fuel : Nat) → List Component → Option Complex
  | 0, _ => none
  | fuel + 1, cs => do
    let (c, rest) ← readCompound? fuel cs
    match skipSpaces rest with
    | [] => return [.compound c]
    | behind =>
      match readSign? behind with
      | some (sign, behind) => do
        let others ← readComplex? fuel (skipSpaces behind)
        return .compound c :: .combinator sign :: others
      | none => do
        let others ← readComplex? fuel behind
        return .compound c :: .combinator .descendant :: others

/-- Complex selectors as one phrase. -/
def readList? : (fuel : Nat) → List (List Component) → Option Phrase
  | 0, _ => none
  | _ + 1, [] => some []
  | fuel + 1, [cs] => (readComplex? fuel (trimSpaces cs)).map Complex.phrase
  | fuel + 1, cs :: rest => do
    let c ← readComplex? fuel (trimSpaces cs)
    let p ← readList? fuel rest
    return c.phrase ++ [word [','], .gap] ++ p

/-- Selectors of which each may be anything, and whether they are understood. -/
def readForgiving : (fuel : Nat) → List (List Component) → List (Phrase × Bool)
  | 0, _ => []
  | _ + 1, [] => []
  | fuel + 1, cs :: rest =>
    (match readComplex? fuel (trimSpaces cs) with
      | some c => (c.phrase, true)
      | none => (rawList cs, false)) :: readForgiving fuel rest

/-- The same for selectors that may begin with a combinator. -/
def readForgivingRelatives : (fuel : Nat) → List (List Component) → List (Phrase × Bool)
  | 0, _ => []
  | _ + 1, [] => []
  | fuel + 1, cs :: rest =>
    (match readRelative? fuel (trimSpaces cs) with
      | some p => (p, true)
      | none => (rawList cs, false)) :: readForgivingRelatives fuel rest

/-- A selector that may begin with a combinator. -/
def readRelative? : (fuel : Nat) → List Component → Option Phrase
  | 0, _ => none
  | fuel + 1, cs =>
    match readSign? cs with
    | some (sign, behind) =>
      (readComplex? fuel (skipSpaces behind)).map fun c => words sign.sign ++ .gap :: c.phrase
    | none => (readComplex? fuel cs).map Complex.phrase

end

/-- The complex selectors that these components are, with commas between them. -/
def readSelectors? (fuel : Nat) (cs : List Component) : Option (List Complex) :=
  (splitOn (Component.isDelim ',') cs).mapM fun piece => readComplex? fuel (trimSpaces piece)

/-- Selectors that are seen from the surrounding rule, as one phrase. -/
def readRelatives? (fuel : Nat) (cs : List Component) : Option Phrase :=
  ((splitOn (Component.isDelim ',') cs).mapM fun piece =>
    readRelative? fuel (trimSpaces piece)).map joinCommas

end Css

end ClassVeil
