import ClassVeil.Css.Selector

/-!
# Conditions of at-rules

Media, support and container queries are made of features in brackets, joined by `and` or `or` or
denied by `not`. They differ in what a feature is. A part of a query that is neither a condition
nor a feature may be anything that brackets hold together.

## Main definitions

* `Declared`, `declarationPhrase`: declarations, which are features too.
* `readCondition?`: a condition over some kind of feature.
* `mediaFeature?`, `supportsFeature?`: features.
* `readMedia?`, `readSupports?`, `readContainer?`: queries.
-/

namespace ClassVeil

namespace Css

/-- A phrase, and whether it needs a blank before it. -/
structure Prelude where
  phrase : Phrase
  needsSpace : Bool
deriving DecidableEq, Repr

/-- The blank before a prelude, and the prelude. -/
def Prelude.lead (p : Prelude) : Phrase := (if p.needsSpace then .space else .gap) :: p.phrase

/-- A word with blanks around it. -/
def apart (w : String) : Phrase := .space :: words w ++ [.space]

/-! ### Conditions -/

/-- What the parts of a condition are. -/
structure Features where
  /-- A feature without its brackets. -/
  feature : List Component → Option Phrase
  /-- A feature that is written as a function. -/
  function : Component → Option Phrase

mutual

/-- A part of a condition: a bracket with a condition or a feature in it, or a function. What is
    in the bracket may also be something unknown, which is set apart. -/
def readTerm? (features : Features) : (fuel : Nat) → Component → Option Prelude
  | 0, _ => none
  | fuel + 1, .bracket .round contents =>
    match readCondition? features true fuel (trimSpaces contents) with
    | some p => some ⟨inRound p.phrase, false⟩
    | none =>
      match features.feature (trimSpaces contents) with
      | some p => some ⟨inRound p, false⟩
      | none => some ⟨rawComponent (.bracket .round contents), true⟩
  | _ + 1, c => (features.function c).map (⟨·, true⟩)

/-- A condition: terms with one of the words `and` and, if it is allowed, `or` between them, or a
    denied term. -/
def readCondition? (features : Features) (allowsOr : Bool) : (fuel : Nat) → List Component →
    Option Prelude
  | 0, _ => none
  | _ + 1, [] => none
  | fuel + 1, c :: rest =>
    if c.isWord "not" then
      match skipSpaces rest with
      | [term] => (readTerm? features fuel term).map fun p =>
          ⟨words "not" ++ .space :: p.phrase, true⟩
      | _ => none
    else do
      let p ← readTerm? features fuel c
      match skipSpaces rest with
      | [] => return p
      | conj :: rest =>
        if conj.isWord "and" then do
          let q ← readTerms? features "and" fuel (conj :: rest)
          return ⟨p.phrase ++ q, p.needsSpace⟩
        else if allowsOr && conj.isWord "or" then do
          let q ← readTerms? features "or" fuel (conj :: rest)
          return ⟨p.phrase ++ q, p.needsSpace⟩
        else none

/-- The terms behind the first one, each with the same word before it. -/
def readTerms? (features : Features) (conj : String) : (fuel : Nat) → List Component →
    Option Phrase
  | 0, _ => none
  | _ + 1, [] => some []
  | fuel + 1, c :: rest =>
    if c.isWord conj then
      match skipSpaces rest with
      | term :: rest => do
        let p ← readTerm? features fuel term
        let q ← readTerms? features conj fuel (skipSpaces rest)
        return .gap :: words conj ++ .space :: p.phrase ++ q
      | [] => none
    else none

end

/-! ### Features of media and containers -/

/-- A value that a feature is compared with, and the name it may be instead. -/
structure FeatureValue where
  phrase : Phrase
  isName : Bool

/-- The value that begins here, and the rest: a number, a ratio, a length, a word or a
    computation. -/
def readFeatureValue? (cs : List Component) : Option (FeatureValue × List Component) :=
  match skipSpaces cs with
  | .token (.number raw) :: rest =>
    match skipSpaces rest with
    | slash :: behind =>
      if slash.isDelim '/' then
        match skipSpaces behind with
        | .token (.number last) :: rest =>
          some (⟨[numberPiece raw, word ['/'], numberPiece last], false⟩, rest)
        | _ => none
      else some (⟨[numberPiece raw], false⟩, rest)
    | [] => some (⟨[numberPiece raw], false⟩, [])
  | .token (.dimension raw unit _) :: rest => some (⟨dimensionPhrase raw unit, false⟩, rest)
  | .token (.ident name _) :: rest => some (⟨[nameIdent name], true⟩, rest)
  | .function name raw contents :: rest =>
    if isMath (name.map Char.toLower) then
      let c : Component := .function name raw contents
      (readValue? (fuelFor [c]) c).map fun v => (⟨v.phrase, false⟩, rest)
    else none
  | _ => none

/-- The sign of comparison that begins here, and the rest. -/
def readComparison? (cs : List Component) : Option (String × List Component) :=
  match skipSpaces cs with
  | c :: rest =>
    let equals := rest.head?.any (Component.isDelim '=')
    if c.isDelim '<' then some (if equals then ("<=", rest.drop 1) else ("<", rest))
    else if c.isDelim '>' then some (if equals then (">=", rest.drop 1) else (">", rest))
    else if c.isDelim '=' then some ("=", rest)
    else none
  | [] => none

/-- A sign of comparison with its blanks. -/
def comparison (sign : String) : Phrase := .gap :: words sign ++ [.gap]

/-- Two signs of comparison that point in one direction. -/
def sameDirection (a b : String) : Bool :=
  (a.startsWith "<" && b.startsWith "<") || (a.startsWith ">" && b.startsWith ">")

/-- A feature of a medium or a container: a name, a name with a value, a comparison of two values,
    or of two values with the name between them. -/
def mediaFeature? (cs : List Component) : Option Phrase := do
  let (left, rest) ← readFeatureValue? cs
  match skipSpaces rest with
  | [] => if left.isName then some left.phrase else none
  | c :: behind =>
    if c.isDelim ':' then
      match readFeatureValue? behind with
      | some (value, rest) =>
        if left.isName && (skipSpaces rest).isEmpty then
          some (left.phrase ++ [word [':'], .gap] ++ value.phrase)
        else none
      | none => none
    else do
      let (sign, rest) ← readComparison? rest
      let (middle, rest) ← readFeatureValue? rest
      if (skipSpaces rest).isEmpty then
        return left.phrase ++ comparison sign ++ middle.phrase
      else do
        let (next, rest) ← readComparison? rest
        let (right, rest) ← readFeatureValue? rest
        if (skipSpaces rest).isEmpty && middle.isName && sameDirection sign next then
          return left.phrase ++ comparison sign ++ middle.phrase ++ comparison next ++ right.phrase
        else none

/-! ### Declarations and other features of support -/

/-- Components without the mark `!important` at their end, and whether it was there. -/
def splitImportant (cs : List Component) : List Component × Bool :=
  match (dropEndSpaces cs).reverse with
  | w :: rest =>
    if w.isWord "important" then
      match rest.dropWhile Component.isSpace with
      | mark :: before => if mark.isDelim '!' then (before.reverse, true) else (cs, false)
      | [] => (cs, false)
    else (cs, false)
  | [] => (cs, false)

/-- A declaration with a name and the components behind its colon. The value of a property that a
    project makes up is kept the way it was spelled. -/
def declarationPhrase (name : List Char) (cs : List Component) : Phrase :=
  let (cs, important) := splitImportant cs
  let mark : Phrase := if important then words "!important" else []
  let value : Phrase :=
    if isDashed name then
      match trimSpaces cs with
      | [] => .space :: mark
      | cs => .gap :: rawList cs ++ mark
    else .gap :: valuePhrase cs ++ (if important then .gap :: mark else [])
  nameIdent name :: word [':'] :: value

/-- A declaration as a feature. -/
def supportsFeature? (cs : List Component) : Option Phrase :=
  match cs with
  | .token (.ident name _) :: rest =>
    match skipSpaces rest with
    | c :: behind => if c.isDelim ':' then some (declarationPhrase name behind) else none
    | [] => none
  | _ => none

/-- A function as a feature: a selector, or something unknown. -/
def supportsFunction? : Component → Option Phrase
  | .function name raw contents =>
    if name.map Char.toLower = "selector".toList then
      match readComplex? (fuelFor contents) (trimSpaces contents) with
      | some c => some (softIdent name :: inRound c.phrase)
      | none => some (rawComponent (.function name raw contents))
    else some (rawComponent (.function name raw contents))
  | _ => none

/-- A function that is kept the way it was spelled. -/
def anyFunction? : Component → Option Phrase
  | .function name raw contents => some (rawComponent (.function name raw contents))
  | _ => none

/-! ### Queries -/

/-- Media and containers. -/
def mediaFeatures : Features := ⟨mediaFeature?, anyFunction?⟩

/-- Support of declarations and selectors. -/
def supportsFeatures : Features := ⟨supportsFeature?, supportsFunction?⟩

/-- Words that are no medium. -/
def isReserved (name : List Char) : Bool :=
  (["not", "and", "or", "only", "layer"].map String.toList).contains (name.map Char.toLower)

/-- A medium, with a condition behind it or without. -/
def readMedium? (cs : List Component) : Option Phrase :=
  match skipSpaces cs with
  | .token (.ident name _) :: rest =>
    if isReserved name then none
    else
      match skipSpaces rest with
      | [] => some [softIdent name]
      | conj :: rest =>
        if conj.isWord "and" then
          let condition := skipSpaces rest
          (readCondition? mediaFeatures false (fuelFor condition) condition).map fun p =>
            softIdent name :: apart "and" ++ p.phrase
        else none
  | _ => none

/-- One media query: a medium, a condition, or both. -/
def readMediaQuery? (cs : List Component) : Option Prelude :=
  let medium := match cs with
    | .token (.ident name raw) :: rest =>
      let c : Component := .token (.ident name raw)
      if c.isWord "not" || c.isWord "only" then
        (readMedium? rest).map ([softIdent name, .space] ++ ·)
      else readMedium? cs
    | _ => none
  match medium with
  | some p => some ⟨p, true⟩
  | none => readCondition? mediaFeatures true (fuelFor cs) cs

/-- Media queries with commas between them. -/
def readMedia? (cs : List Component) : Option Prelude := do
  let queries ← (splitOn (Component.isDelim ',') cs).mapM fun q => readMediaQuery? (trimSpaces q)
  match queries with
  | q :: _ => return ⟨joinCommas (queries.map Prelude.phrase), q.needsSpace⟩
  | [] => none

/-- A support query. -/
def readSupports? (cs : List Component) : Option Prelude :=
  readCondition? supportsFeatures true (fuelFor cs) (trimSpaces cs)

/-- A container query, with the name of the container or without. -/
def readContainer? (cs : List Component) : Option Prelude :=
  let query (cs : List Component) : Option Prelude :=
    readCondition? mediaFeatures true (fuelFor cs) cs
  match trimSpaces cs with
  | .token (.ident name raw) :: rest =>
    let c : Component := .token (.ident name raw)
    if c.isWord "not" then query (c :: rest)
    else (query (skipSpaces rest)).map fun p => ⟨identPiece name :: .space :: p.phrase, true⟩
  | cs => query cs

end Css

end ClassVeil
