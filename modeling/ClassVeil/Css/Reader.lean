import ClassVeil.Css.AtRule
import ClassVeil.Css.Tree

/-!
# Reading stylesheets

Every text is a stylesheet: what is wrong in it is kept the way it was spelled, and reading goes on
behind it. The block of a rule holds declarations and rules; the rules are moved behind the
declarations.

## Main definitions

* `readRules?`: the rules of a stylesheet or of an at-rule.
* `readBlock`: the block of a rule.
* `readStylesheet`: a stylesheet.
-/

namespace ClassVeil

namespace Css

/-- A semicolon. -/
def Component.isSemicolon (c : Component) : Bool := c.isDelim ';'

/-- The beginning or the end of a comment of another language. -/
def Component.isCommentMark : Component → Bool
  | .token (.commentMark _) => true
  | _ => false

/-- Components up to the first one for which a predicate holds, and from there on. -/
def splitBefore (p : Component → Bool) (cs : List Component) : List Component × List Component :=
  (cs.takeWhile fun c => !p c, cs.dropWhile fun c => !p c)

/-- A declaration that ends with these components, if they are one. -/
def readDeclaration? (cs : List Component) : Option Node :=
  match cs with
  | .token (.ident name _) :: rest =>
    match skipSpaces rest with
    | c :: value =>
      if c.isDelim ':' then some (.declaration (declarationPhrase name value)) else none
    | [] => none
  | _ => none

/-- A declaration, or something that is none. -/
def declarationOrInvalid (cs : List Component) : Node :=
  (readDeclaration? cs).getD (.invalid (rawList cs))

/-- The steps that an animation names: `from`, `to` and percentages. -/
def readSteps? (cs : List Component) : Option Phrase :=
  ((splitOn (Component.isDelim ',') cs).mapM fun piece =>
    match trimSpaces piece with
    | [.token (.ident name _)] =>
      if isOneOf ["from", "to"] (name.map Char.toLower) then some [softIdent name] else none
    | [.token (.percentage raw)] => some (percentagePhrase raw)
    | _ => none).map joinCommas

/-- What stands before the block of a rule; in another rule it is seen from there. -/
def ruleHead (place : Place) (cs : List Component) : RuleHead :=
  if place.inRule then
    match readRelatives? (fuelFor cs) cs with
    | some p => .relative p
    | none => .invalid (rawList cs)
  else
    match readSelectors? (fuelFor cs) cs with
    | some list => .selectors list
    | none => .invalid (rawList cs)

/-- A rule in the block of another rule begins with a sign. -/
def startsNestedRule (c : Component) : Bool :=
  match c with
  | .token (.hash ..) | .bracket .square _ => true
  | .token (.delim d) => ['&', '.', ':', '>', '+', '~', '#'].contains d
  | _ => false

/-- Declarations before rules. -/
def sortItems (items : List (Bool × Node)) : List Node :=
  let (rules, declarations) := items.partition Prod.fst
  declarations.map Prod.snd ++ rules.map Prod.snd

mutual

/-- An at-rule behind its name, and what follows it. -/
def readAtRule : (fuel : Nat) → Place → (name : List Char) → List Component →
    Node × List Component
  | 0, _, _, cs => (.invalid [], cs)
  | fuel + 1, place, name, cs =>
    match splitBefore (fun c => c.isSemicolon || c.isCurly) cs with
    | (prelude, .bracket b contents :: rest) =>
      let lower := name.map Char.toLower
      let inside := place.inside lower
      let block? := match blockKind? place lower with
        | some .keyframes => some (readKeyframes fuel inside contents)
        | some .declarations => some (readDeclarations fuel inside contents)
        | some .items => some (readBlock fuel inside contents)
        | some .rules => readRules? fuel inside false contents
        | none => none
      let head := atHead place name .block prelude
      match block? with
      | some block => (.atRule head block, rest)
      | none => (.verbatim (head ++ rawComponent (.bracket b contents)), rest)
    | (prelude, []) => (.atStatement (atHead place name .endOfText prelude), [])
    | (prelude, _ :: rest) => (.atStatement (atHead place name .semicolon prelude), rest)

/-- Rules. Marks of comments count for nothing at the top; elsewhere they can only begin the head
    of a rule. -/
def readRules? : (fuel : Nat) → Place → (top : Bool) → List Component → Option (List Node)
  | 0, _, _, _ => some []
  | _ + 1, _, _, [] => some []
  | fuel + 1, place, top, c :: rest =>
    match c with
    | .token (.space _) => readRules? fuel place top rest
    | .token (.atWord name _) =>
      let (node, rest) := readAtRule fuel place name rest
      (readRules? fuel place top rest).map (node :: ·)
    | _ =>
      if top && c.isCommentMark then readRules? fuel place top rest
      else
        match splitBefore Component.isCurly (c :: rest) with
        | (head, .bracket _ contents :: rest) =>
          let block := readBlock fuel place contents
          (readRules? fuel place top rest).map (.rule (ruleHead place head) block :: ·)
        | (all, _) => if c.isCommentMark then none else some [.invalid (rawList all)]

/-- The declarations and then the rules in the block of a rule. -/
def readBlock : (fuel : Nat) → Place → List Component → List Node
  | 0, _, _ => []
  | fuel + 1, place, cs => sortItems (readItems fuel { place with inRule := true } cs)

/-- The items in the block of a rule, and whether they are rules. -/
def readItems : (fuel : Nat) → Place → List Component → List (Bool × Node)
  | 0, _, _ => []
  | _ + 1, _, [] => []
  | fuel + 1, place, c :: rest =>
    match c with
    | .token (.space _) => readItems fuel place rest
    | .token (.atWord name _) =>
      let (node, rest) := readAtRule fuel place name rest
      (true, node) :: readItems fuel place rest
    | .token (.ident ..) =>
      let (item, rest) := splitBefore Component.isSemicolon (c :: rest)
      (false, declarationOrInvalid item) :: readItems fuel place rest
    | _ =>
      if c.isSemicolon then readItems fuel place rest
      else if startsNestedRule c then
        match splitBefore Component.isCurly (c :: rest) with
        | (head, .bracket _ contents :: rest) =>
          (true, .rule (ruleHead place head) (readBlock fuel place contents)) ::
            readItems fuel place rest
        | (all, _) => [(true, .invalid (rawList all))]
      else
        let (item, rest) := splitBefore Component.isSemicolon (c :: rest)
        (false, .invalid (rawList item)) :: readItems fuel place rest

/-- Declarations, with at-rules between them. -/
def readDeclarations : (fuel : Nat) → Place → List Component → List Node
  | 0, _, _ => []
  | _ + 1, _, [] => []
  | fuel + 1, place, c :: rest =>
    match c with
    | .token (.space _) => readDeclarations fuel place rest
    | .token (.atWord name _) =>
      let (node, rest) := readAtRule fuel place name rest
      node :: readDeclarations fuel place rest
    | _ =>
      if c.isSemicolon then readDeclarations fuel place rest
      else
        let (item, rest) := splitBefore Component.isSemicolon (c :: rest)
        declarationOrInvalid item :: readDeclarations fuel place rest

/-- The steps of an animation. What names no step loses its block. -/
def readKeyframes : (fuel : Nat) → Place → List Component → List Node
  | 0, _, _ => []
  | _ + 1, _, [] => []
  | fuel + 1, place, c :: rest =>
    match c with
    | .token (.space _) => readKeyframes fuel place rest
    | .token (.atWord name _) =>
      let (node, rest) := readAtRule fuel place name rest
      node :: readKeyframes fuel place rest
    | _ =>
      match splitBefore Component.isCurly (c :: rest) with
      | (head, .bracket _ contents :: rest) =>
        let node := match readSteps? head with
          | some steps => .keyframe steps (readBlock fuel place contents)
          | none => .invalid (rawList head)
        node :: readKeyframes fuel place rest
      | (all, _) => [.invalid (rawList all)]

end

/-- The tree of a text. -/
def readStylesheet (source : List Char) : Stylesheet :=
  let cs := components source
  (readRules? (fuelFor cs) .outside true cs).getD []

end Css

end ClassVeil
