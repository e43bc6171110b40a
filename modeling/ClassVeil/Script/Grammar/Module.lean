import ClassVeil.Script.Grammar.Declaration

/-!
# Imports and exports

A module names what it takes from other modules and what it gives to them.

## Main definitions

* `importRule`, `exportRule`: the two kinds of items that only a module has.
* `itemRule`: any item of a module.
-/

namespace ClassVeil

namespace Script

variable (self : Rules)

/-! ## Names in braces -/

/-- A name that is imported or exported, and the other name it gets; `ofType` tells that it is
    marked as the name of a type. -/
def specifierOf (lo : Nat) (ofType : Bool) (names : List Node) : Parse Node :=
  finish .specifier lo [if ofType then "type " else ""] names

/-- The other name of something that is imported or exported, if it has one. -/
def otherName (importing : Bool) : Parse (List Node) := do
  if ← eatWord "as" then return [← if importing then boundName else wordOrText] else return []

/-- The rest of a specifier behind the word `type`, when another word is at hand. The word `as` may
    be the name itself, or stand between two names. -/
def typeSpecifier (importing : Bool) (lo : Nat) (first : Node) : Parse (Bool × Node) := do
  let second ← anyName
  if nameWords second ≠ ["as"] then
    return (true, ← specifierOf lo true (second :: (← otherName importing)))
  else if !isWordToken (← token) then return (true, ← specifierOf lo true [second])
  else
    let third ← anyName
    if nameWords third = ["as"] && isWordToken (← token) then
      let fourth ← if importing then boundName else anyName
      return (true, ← specifierOf lo true [second, fourth])
    else return (false, ← specifierOf lo false [first, third])

/-- A name that is imported or exported, perhaps under another one. Where all names are those of
    types, none is marked as such. -/
def specifier (importing typesOnly : Bool) : Parse Node := do
  let lo ← here
  let first ← wordOrText
  if (← hasTypes) && nameWords first = ["type"] && isWordToken (← token) then
    let (ofType, node) ← typeSpecifier importing lo first
    require !(ofType && typesOnly)
    return node
  else
    let other ← otherName importing
    require (!importing || isPlainName first || !other.isEmpty)
    specifierOf lo false (first :: other)

/-- The names in braces. -/
def specifiers (importing typesOnly : Bool) : Parse (List Node) := do
  expect "\x7b"
  commaList "\x7d" (specifier importing typesOnly)

/-- A specifier of something that has a name in this module. -/
def isOwn (c : Context) : Node → Bool
  | .form .specifier _ _ (.form .name _ [text] _ :: _) => isName c.strict text
  | _ => false

/-! ## Modules that are mentioned -/

/-- The attributes of a module that is mentioned, or nothing. -/
def moduleAttributes : Parse Node := do
  if (← eatWord "with") || (!(← onNewLine) && (← eatWord "assert")) then objectLiteral self
  else return .absent

/-- The module that is mentioned behind `from`, with its attributes. -/
def fromModule : Parse (List Node) := do
  expectWord "from"
  let source ← textLiteral
  return [source, ← moduleAttributes self]

/-! ## Imports -/

/-- All names of a module under a single one. -/
def starSpecifier : Parse Node := do
  let lo ← here
  expect "*"
  expectWord "as"
  finish .specifier lo ["* as "] [← boundName]

/-- Another name for a module or a part of one. -/
def importAlias (lo : Nat) (before : String) : Parse Node := do
  let own ← boundName
  expect "="
  if (← atWord "require") && (← nextIs fun t => t = .sign "(") then
    advance
    expect "("
    let source ← textLiteral
    expect ")"
    semicolon
    finish .importAlias lo [before, "require"] [own, source]
  else
    let target ← dottedName
    semicolon
    finish .importAlias lo [before, ""] [own, target]

/-- Whether a name for the default of a module is behind the word at hand. -/
def defaultFollows : Parse Bool :=
  couldRead do
    advance
    if ← atWord "from" then
      advance
      require (← atWord "from")
    else require (← atName)

/-- The word that says how a module is imported, with a space, or nothing. -/
def importWord : Parse String := do
  let star := nextIs fun t => t = .sign "*"
  if (← hasTypes) && (← atWord "type") &&
      ((← defaultFollows) || (← star) || (← nextIs fun t => t = .sign "\x7b")) then
    advance
    return "type "
  else if (← atWord "source") && (← defaultFollows) then
    advance
    return "source "
  else if (← atWord "defer") && (← star) then
    advance
    return "defer "
  else return ""

/-- What is taken from a module, up to where the module is mentioned: a name for its default, a
    name for all of it, and names in braces. -/
def importClause (typesOnly : Bool) : Parse (List Node) := do
  let first ← if ← atName then boundName else pure .absent
  let more ← if first.isAbsent then pure true else eat ","
  if more && (← atSign "*") then return [first, ← starSpecifier, .group []]
  else if first.isAbsent || (more && (← atSign "\x7b")) then
    return [first, .absent, .group (← specifiers true typesOnly)]
  else return [first, .absent, .group []]

/-- What a module takes from others. -/
def importRule : Parse Node := do
  let lo ← here
  expectWord "import"
  match ← token with
  | .text .. =>
    let source ← textLiteral
    let attributes ← moduleAttributes self
    semicolon
    finish .importing lo [""] [.absent, .absent, .group [], source, attributes]
  | _ =>
    let word ← importWord
    if (← hasTypes) && (← atName) && (← nextIs fun t => t = .sign "=") then
      importAlias lo ("import " ++ word)
    else
      let clause ← importClause (word = "type ")
      let source ← fromModule self
      semicolon
      finish .importing lo [word] (clause ++ source)

/-! ## Exports -/

/-- What is exported by default. -/
def exportDefault (lo : Nat) : Parse Node := do
  expectWord "default"
  let inner ← here
  let typed ← hasTypes
  if ← atFunction then
    finish .exportDefault lo [""] [← functionDeclaration self inner "" true]
  else if ← atWord "class" then
    finish .exportDefault lo [""] [← classDeclaration self inner "" false true]
  else if typed && (← atWord "abstract") && (← nextIs fun t => t = .word "class" true) then
    advance
    finish .exportDefault lo [""] [← classDeclaration self inner "" true true]
  else if typed && (← atWord "interface") && (← nameIsNext) then
    finish .exportDefault lo [""] [← interfaceDeclaration self inner ""]
  else
    let value ← self .expression
    semicolon
    finish .exportDefault lo [";"] [value]

/-- All names of a module, perhaps under a single one. -/
def exportAll (lo : Nat) (before : String) : Parse Node := do
  expect "*"
  let under ← if ← eatWord "as" then wordOrText else pure .absent
  let source ← fromModule self
  semicolon
  finish .exportAll lo [before] (under :: source)

/-- Names that are exported, of this module or another one. -/
def exportNames (lo : Nat) (before : String) : Parse Node := do
  let names ← specifiers false (before ≠ "")
  let source ← if ← atWord "from" then fromModule self else pure [.absent, .absent]
  let c ← context
  require (source.any (!·.isAbsent) || names.all (isOwn c))
  semicolon
  finish .exportNames lo [before] (.group names :: source)

/-- What a module gives to others in a way that only types allow, if it is at hand. -/
def typedExport? (lo : Nat) : Parse (Option Node) := do
  if !(← hasTypes) then return none
  else if ← eat "=" then
    let value ← self .expression
    semicolon
    return some (← finish .exportValue lo [] [value])
  else if ← eatWord "as" then
    expectWord "namespace"
    let own ← freeName
    semicolon
    return some (← finish .exportGlobal lo [] [own])
  else if ← eatWord "import" then return some (← importAlias lo "export import ")
  else if (← atWord "type") && (← nextIs fun t => t = .sign "\x7b" || t = .sign "*") then
    advance
    if ← atSign "*" then return some (← exportAll self lo "type ")
    else return some (← exportNames self lo "type ")
  else return none

/-- What a module gives to others. -/
def exportRule : Parse Node := do
  let lo ← here
  expectWord "export"
  if ← atWord "default" then exportDefault self lo
  else if ← atSign "*" then exportAll self lo ""
  else if ← atSign "\x7b" then exportNames self lo ""
  else
    match ← typedExport? self lo with
    | some node => return node
    | none =>
      let inner ← here
      match ← declaration? self true inner with
      | some node => finish .exportDeclaration lo [] [node]
      | none => fail

/-! ## Items -/

/-- Any item of a module. -/
def itemRule : Parse Node := do
  if ← atWord "export" then exportRule self
  else if (← atWord "import") && !(← nextIs fun t => t = .sign "(" || t = .sign ".") then
    importRule self
  else self (.statement false)

end Script

end ClassVeil
