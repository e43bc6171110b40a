import ClassVeil.Css.Query

/-!
# At-rules

What follows the name of an at-rule depends on the name, and so do what its block holds and whether
it has one. Some at-rules are known only inside others. What follows in an unexpected way is kept
the way it was spelled, and so is everything in an at-rule that is not known.

## Main definitions

* `Place`: where an at-rule stands.
* `BlockKind`, `blockKind?`: what the block of an at-rule holds.
* `Ending`: what ends an at-rule, besides its block.
* `readPrelude?`: what follows the name of an at-rule.
* `atHead`: the name of an at-rule and what follows, as a phrase.
-/

namespace ClassVeil

namespace Css

/-- Where a part of a stylesheet stands. -/
structure Place where
  inRule : Bool
  inPage : Bool
  inFontValues : Bool
deriving DecidableEq, Repr

/-- Outside of everything. -/
def Place.outside : Place := ⟨false, false, false⟩

/-- What the block of an at-rule holds. -/
inductive BlockKind where
  | rules
  /-- Declarations and rules, like the block of a rule. -/
  | items
  | declarations
  | keyframes
deriving DecidableEq, Repr

/-- What comes behind the prelude of an at-rule. -/
inductive Ending where
  | block
  | semicolon
  | endOfText
deriving DecidableEq, Repr

/-- A name is one of the given ones. -/
def isOneOf (names : List String) (name : List Char) : Bool :=
  (names.map String.toList).contains name

/-- The names of animations. -/
def isKeyframes (name : List Char) : Bool :=
  isOneOf ["keyframes", "-webkit-keyframes", "-moz-keyframes", "-o-keyframes", "-ms-keyframes"] name

/-- The boxes in the margin of a page. -/
def marginBoxes : List String :=
  ["top-left-corner", "top-left", "top-center", "top-right", "top-right-corner",
    "bottom-left-corner", "bottom-left", "bottom-center", "bottom-right", "bottom-right-corner",
    "left-top", "left-middle", "left-bottom", "right-top", "right-middle", "right-bottom"]

/-- The features of a font that get names of their own. -/
def fontValues : List String :=
  ["stylistic", "historical-forms", "styleset", "character-variant", "swash", "ornaments",
    "annotation"]

/-- At-rules that have declarations in their block and nothing before it. -/
def isBare (place : Place) (name : List Char) : Bool :=
  isOneOf ["font-face", "viewport", "-ms-viewport", "-o-viewport"] name ||
    (place.inPage && isOneOf marginBoxes name) || (place.inFontValues && isOneOf fontValues name)

/-- What the block of an at-rule with a given name, in small letters, holds, if that is known. -/
def blockKind? (place : Place) (name : List Char) : Option BlockKind :=
  if isKeyframes name then some .keyframes
  else if isBare place name || isOneOf ["page", "property", "counter-style", "color-profile",
    "font-palette-values", "font-feature-values"] name then some .declarations
  else if isOneOf ["media", "supports", "container"] name then
    some (if place.inRule then .items else .rules)
  else if isOneOf ["nest"] name then some .items
  else if isOneOf ["layer", "starting-style", "scope", "document", "-moz-document"] name then
    some .rules
  else none

/-- Where the block of an at-rule stands. -/
def Place.inside (place : Place) (name : List Char) : Place :=
  { place with
    inPage := place.inPage || isOneOf ["page"] name
    inFontValues := place.inFontValues || isOneOf ["font-feature-values"] name }

/-! ### Layers -/

/-- The name of a layer, identifiers with full stops behind them, and the rest. -/
def readLayerName : List Component → List Phrase × List Component
  | .token (.ident name _) :: c :: rest =>
    let (names, behind) :=
      if c.isDelim '.' then readLayerName rest
      else readLayerName (c :: rest)
    ([identPiece name] :: names, behind)
  | [.token (.ident name _)] => ([[identPiece name]], [])
  | cs => ([], cs)
termination_by cs => cs.length

/-- The name of a layer, if nothing is left over. -/
def readLayerName? (cs : List Component) : Option Phrase :=
  match readLayerName (trimSpaces cs) with
  | (names, []) => if names.isEmpty then none else some (joinWith [word ['.']] names)
  | _ => none

/-- Names of layers; the commas between them may be missing. -/
def readLayers? : (fuel : Nat) → List Component → Option (List Phrase)
  | 0, _ => none
  | fuel + 1, cs =>
    match skipSpaces cs with
    | [] => some []
    | cs => do
      let (names, rest) := readLayerName cs
      if names.isEmpty then none
      else
        let rest := match skipSpaces rest with
          | c :: behind => if c.isDelim ',' then behind else c :: behind
          | [] => []
        let others ← readLayers? fuel rest
        return joinWith [word ['.']] names :: others

/-! ### Pages -/

/-- The pseudo-classes of a page. -/
def readPagePseudos? : List Component → Option Phrase
  | [] => some []
  | c :: .token (.ident name _) :: rest =>
    if c.isDelim ':' then
      (readPagePseudos? rest).map ([word [':'], softIdent name] ++ ·)
    else none
  | _ => none

/-- The selector of a page: a name, pseudo-classes, or both. -/
def readPage? (cs : List Component) : Option Prelude :=
  match cs with
  | .token (.ident name _) :: rest =>
    (readPagePseudos? rest).map fun p => ⟨identPiece name :: p, true⟩
  | [] => none
  | _ => (readPagePseudos? cs).map (⟨·, false⟩)

/-- The selectors of pages with commas between them. -/
def readPages? (cs : List Component) : Option Prelude := do
  let pages ← (splitOn (Component.isDelim ',') cs).mapM fun piece => readPage? (trimSpaces piece)
  match pages with
  | p :: _ => return ⟨joinCommas (pages.map Prelude.phrase), p.needsSpace⟩
  | [] => none

/-! ### Other stylesheets and vocabularies -/

/-- The address of another stylesheet or of a vocabulary; an address without quotation marks, or
    with a function around it, needs a blank before it. -/
def readSource? (c : Component) : Option Prelude :=
  match c with
  | .token (.string value raw) => some ⟨[stringPiece value raw], false⟩
  | .token (.url address _ _) => some ⟨addressPhrase address, true⟩
  | .function name _ _ =>
    if isOneOf ["url", "src"] (name.map Char.toLower) then
      (readValue? (fuelFor [c]) c).map fun v => ⟨v.phrase, true⟩
    else none
  | _ => none

/-- The layer that an imported stylesheet goes into, what sets it apart from the rest, and the
    rest. -/
def readImportLayer (cs : List Component) : Phrase × Piece × List Component :=
  match cs with
  | .token (.ident name _) :: rest =>
    if name.map Char.toLower = "layer".toList then
      ([.gap, identPiece name], .space, skipSpaces rest)
    else ([], .gap, cs)
  | .function name _ contents :: rest =>
    if name.map Char.toLower = "layer".toList then
      let argument : Phrase := match readLayerName? contents with
        | some p => inRound p
        | none => if (skipSpaces contents).isEmpty then [] else inRound (rawList contents)
      (.gap :: softIdent name :: argument, .gap, skipSpaces rest)
    else ([], .gap, cs)
  | _ => ([], .gap, cs)

/-- What must be supported for an imported stylesheet to count, and the rest. -/
def readImportSupports? (cs : List Component) : Option (Phrase × List Component) :=
  match cs with
  | .function name _ contents :: rest =>
    if name.map Char.toLower = "supports".toList then
      let inner := trimSpaces contents
      let argument := match readCondition? supportsFeatures true (fuelFor inner) inner with
        | some p => p.phrase
        | none => (supportsFeature? inner).getD (rawList contents)
      some (softIdent name :: inRound argument, skipSpaces rest)
    else none
  | _ => none

/-- An imported stylesheet: where it goes and when it counts. -/
def readImport? (cs : List Component) : Option Prelude :=
  match cs with
  | c :: rest => do
    let p ← readSource? c
    let (layer, blank, rest) := readImportLayer (skipSpaces rest)
    let (supports, behind) := match readImportSupports? rest with
      | some (q, rest) => (blank :: q, rest)
      | none => ([], rest)
    if behind.isEmpty then return ⟨p.phrase ++ layer ++ supports, p.needsSpace⟩
    else do
      let q ← readMedia? behind
      let blank := if supports.isEmpty then blank else .gap
      return ⟨p.phrase ++ layer ++ supports ++ blank :: q.phrase, p.needsSpace⟩
  | [] => none

/-- A vocabulary, with the prefix that stands for it or without. -/
def readNamespace? (cs : List Component) : Option Prelude :=
  match cs with
  | [c] => readSource? c
  | .token (.ident name _) :: rest =>
    match skipSpaces rest with
    | [c] => (readSource? c).map fun p =>
        ⟨[identPiece name, if p.needsSpace then .space else .gap] ++ p.phrase, true⟩
    | _ => none
  | _ => none

/-! ### Names -/

/-- A single identifier; `made` tells that it has to be made up by the project. -/
def readIdent? (made : Bool) (cs : List Component) : Option Prelude :=
  match cs with
  | [.token (.ident name _)] =>
    if isDashed name || !made then some ⟨[valueIdent name], true⟩ else none
  | _ => none

/-- The name of an animation: an identifier or a string. -/
def readAnimation? (cs : List Component) : Option Prelude :=
  match cs with
  | [.token (.string value raw)] => some ⟨[stringPiece value raw], false⟩
  | [.token (.ident name _)] => some ⟨[identPiece name], true⟩
  | _ => none

/-- The encoding of a stylesheet. -/
def readCharset? (cs : List Component) : Option Prelude :=
  match cs with
  | [.token (.string _ raw)] => some ⟨[word raw], true⟩
  | _ => none

/-- The name of a family of fonts: a string, or identifiers with blanks between them. -/
def readFamily? (cs : List Component) : Option Prelude :=
  match cs with
  | [.token (.string value raw)] => some ⟨[stringPiece value raw], false⟩
  | [] => none
  | cs =>
    match readParts cs with
    | (p, []) => some ⟨p, true⟩
    | _ => none

/-- Families of fonts with commas between them. -/
def readFamilies? (cs : List Component) : Option Prelude := do
  let families ← (splitOn (Component.isDelim ',') cs).mapM fun f => readFamily? (trimSpaces f)
  match families with
  | f :: _ => return ⟨joinCommas (families.map Prelude.phrase), f.needsSpace⟩
  | [] => none

/-! ### Other preludes -/

/-- The addresses and functions that tell to which documents rules apply. -/
def readDocuments? (cs : List Component) : Option Prelude := do
  let parts ← (splitOn (Component.isDelim ',') cs).mapM fun piece =>
    match trimSpaces piece with
    | [.token (.url address _ _)] => some (addressPhrase address)
    | [.function name raw contents] =>
      let c : Component := .function name raw contents
      (readValue? (fuelFor [c]) c).map Value.phrase
    | _ => none
  return ⟨joinCommas parts, true⟩

/-- A name for media queries, or for `true` or `false`. -/
def readCustomMedia? (cs : List Component) : Option Prelude :=
  match cs with
  | .token (.ident name _) :: rest =>
    if isDashed name then
      match skipSpaces rest with
      | [.token (.ident word _)] =>
        if isOneOf ["true", "false"] (word.map Char.toLower) then
          some ⟨[dashedPiece name, .space, identPiece word], true⟩
        else
          (readMedia? (skipSpaces rest)).map fun p =>
            ⟨dashedPiece name :: .space :: p.phrase, true⟩
      | cs => (readMedia? cs).map fun p => ⟨dashedPiece name :: .space :: p.phrase, true⟩
    else none
  | _ => none

/-- Selectors on one line. -/
def readSelectorLine? (cs : List Component) : Option Prelude :=
  (readSelectors? (fuelFor cs) cs).map fun list => ⟨joinCommas (list.map Complex.phrase), true⟩

/-- The selectors between which rules apply. -/
def readScope? (cs : List Component) : Option Prelude :=
  let edge (contents : List Component) : Phrase :=
    let pieces := splitOn (Component.isDelim ',') contents
    inRound (joinForgiving (readForgiving (fuelFor contents) pieces))
  let limit? (cs : List Component) : Option Phrase :=
    match cs with
    | c :: rest =>
      match skipSpaces rest with
      | [.bracket .round contents] =>
        if c.isWord "to" then some (words "to" ++ .space :: edge contents) else none
      | _ => none
    | [] => none
  match cs with
  | .bracket .round contents :: rest =>
    match skipSpaces rest with
    | [] => some ⟨edge contents, false⟩
    | rest => (limit? rest).map fun p => ⟨edge contents ++ .space :: p, false⟩
  | cs => (limit? cs).map (⟨·, true⟩)

/-- What follows the name of an at-rule, without blanks at its ends; the name is in small letters.
    An at-rule without a block ends with a semicolon. -/
def readPrelude? (name : List Char) (ending : Ending) (cs : List Component) : Option Prelude :=
  let is (names : List String) : Bool := isOneOf names name
  if is ["layer"] then do
    let names ← readLayers? (fuelFor cs) cs
    if names.length ≤ 1 || ending = .semicolon then return ⟨joinCommas names, true⟩ else none
  else if ending = .semicolon then
    if is ["import"] then readImport? cs
    else if is ["namespace"] then readNamespace? cs
    else if is ["charset"] then readCharset? cs
    else if is ["custom-media"] then readCustomMedia? cs
    else none
  else if ending = .block then
    if is ["media"] then readMedia? cs
    else if is ["supports"] then readSupports? cs
    else if is ["container"] then readContainer? cs
    else if is ["page"] then readPages? cs
    else if is ["counter-style"] then readIdent? false cs
    else if is ["color-profile"] then
      if cs.all (Component.isWord "device-cmyk") then readIdent? false cs else readIdent? true cs
    else if is ["property", "font-palette-values"] then readIdent? true cs
    else if is ["font-feature-values"] then readFamilies? cs
    else if is ["document", "-moz-document"] then readDocuments? cs
    else if is ["nest"] then readSelectorLine? cs
    else if is ["scope"] then readScope? cs
    else if isKeyframes name then readAnimation? cs
    else none
  else none

/-- At-rules that may have nothing between their name and their block. -/
def allowsNothing (place : Place) (name : List Char) : Bool :=
  isBare place name || isOneOf ["media", "layer", "page", "starting-style", "scope"] name

/-- The name of an at-rule and what follows, up to a block if there is one. -/
def atHead (place : Place) (name : List Char) (ending : Ending) (cs : List Component) : Phrase :=
  let lower := name.map Char.toLower
  let start : Phrase := [word ['@'], nameIdent name]
  let inner := trimSpaces cs
  if inner.isEmpty then
    start ++ if ending = .block && allowsNothing place lower then [] else rawList cs
  else
    match readPrelude? lower ending inner with
    | some p => start ++ p.lead ++ if ending = .block then [.gap] else []
    | none => start ++ rawList cs

end Css

end ClassVeil
