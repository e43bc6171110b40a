import ClassVeil.Script.Grammar.Statement

/-!
# Declarations

Declarations stand where a list of statements stands, and not as the body of a loop or choice.
Those of types have no meaning when a script runs; `declare` says that something is defined
elsewhere.

## Main definitions

* `declaration?`: a declaration, if one is at hand.
* `statementRule`: any statement.
-/

namespace ClassVeil

namespace Script

variable (self : Rules)

/-- The declaration of a function; a default export need not have a name. -/
def functionDeclaration (lo : Nat) (before : String) (nameless : Bool) : Parse Node := do
  let (async, generator) ← functionWords
  let name ← ownName
  require (nameless || !name.isAbsent)
  let parts ← functionParts self (functionContext async generator) (functionBody self)
  finish .functionDeclaration lo [before, functionHead async generator] (name :: parts)

/-- The declaration of a class; a default export need not have a name. -/
def classDeclaration (lo : Nat) (before : String) (isAbstract nameless : Bool) : Parse Node := do
  expectWord "class"
  let parts ← classParts self isAbstract
  require (nameless || !parts.head?.any Node.isAbsent)
  let head := if isAbstract then "abstract class" else "class"
  finish .classDeclaration lo [before ++ head] parts

/-- The declaration of the members that an object has. -/
def interfaceDeclaration (lo : Nat) (before : String) : Parse Node := do
  expectWord "interface"
  let name ← freeName
  require (isFreeType name)
  let types ← typeParametersOf self ["in", "out"]
  let bases ← heritages self "extends"
  finish .interfaceDeclaration lo [before]
    [name, types, .group bases, .group (← typeMembers self)]

/-- A name for a type. -/
def typeAlias (lo : Nat) (before : String) : Parse Node := do
  expectWord "type"
  let name ← freeName
  let types ← typeParametersOf self ["in", "out"]
  expect "="
  let type ← self .type
  semicolon
  finish .typeAlias lo [before] [name, types, type]

/-- A word, or a text in place of one. -/
def wordOrText : Parse Node := do
  match ← token with
  | .text .. => textLiteral
  | _ => anyName

/-- A member of an enumeration, which can have a value. -/
def enumMember : Parse Node := do
  let lo ← here
  let key ← wordOrText
  finish .enumMember lo [] [key, ← initializer self]

/-- The declaration of names for values. -/
def enumeration (lo : Nat) (before : String) : Parse Node := do
  expectWord "enum"
  let name ← freeName
  expect "\x7b"
  finish .enumeration lo [before] (name :: (← commaList "\x7d" (enumMember self)))

/-- The items of a module in braces. -/
def moduleBody : Parse Node := do
  expect "\x7b"
  let items ← within (fun c => { ambient := c.ambient, strict := c.strict }) <| many do
    if ← eat "\x7d" then return none
    return some (← self .item)
  return .group items

/-- The declaration of a part of a module with a name. -/
def namespaceDeclaration (lo : Nat) (before : String) : Parse Node := do
  advance
  let name ← dottedName
  finish .moduleDeclaration lo [before ++ "namespace"] [name, ← moduleBody self]

/-- The declaration of another module with a text in place of a name; what is in it can be
    missing. -/
def moduleDeclaration (lo : Nat) (before : String) : Parse Node := do
  advance
  let name ← textLiteral
  let body ← if ← atSign "\x7b" then moduleBody self else do
    semicolon
    pure .absent
  finish .moduleDeclaration lo [before ++ "module"] [name, body]

/-- The declaration of what is outside of all modules. -/
def globalDeclaration (lo : Nat) (before : String) : Parse Node := do
  advance
  finish .moduleDeclaration lo [before ++ "global"] [.absent, ← moduleBody self]

/-- A declaration that is also there without types. -/
def commonDeclaration? (lo : Nat) (before : String) : Parse (Option Node) := do
  if ← atFunction then return some (← functionDeclaration self lo before false)
  else if ← atWord "class" then return some (← classDeclaration self lo before false false)
  else if (← hasTypes) && (← atWord "const") && (← nextIs fun t => t = .word "enum" true) then
    advance
    return some (← enumeration self lo (before ++ "const "))
  else
    match ← variableWord? with
    | some word => return some (← bindings self lo before word)
    | none => return none

/-- A text in quotes. -/
def isTextToken : Token → Bool
  | .text .. => true
  | _ => false

/-- A declaration of types. If `loose` is on, a line can end behind its first word, which then
    cannot be anything else. -/
def typeDeclaration? (loose : Bool) (lo : Nat) (before : String) : Parse (Option Node) := do
  let c ← context
  let follows (p : Token → Bool) := if loose then nextIs p else followedBy p
  if (← atWord "interface") && (← follows (isNameToken c)) then
    return some (← interfaceDeclaration self lo before)
  else if (← atWord "type") && (← follows (isNameToken c)) then
    return some (← typeAlias self lo before)
  else if ← atWord "enum" then return some (← enumeration self lo before)
  else if (← atWord "abstract") && (← follows fun t => t = .word "class" true) then
    advance
    return some (← classDeclaration self lo before true false)
  else if (← atWord "namespace") && (← nextIs (isNameToken c)) then
    return some (← namespaceDeclaration self lo before)
  else if (← atWord "module") && (← nextIs (isNameToken c)) then
    return some (← namespaceDeclaration self lo before)
  else if (← atWord "module") && (← nextIs isTextToken) then
    return some (← moduleDeclaration self lo before)
  else if (← atWord "global") && (← follows fun t => t = .sign "\x7b") then
    return some (← globalDeclaration self lo before)
  else return none

/-- Any declaration behind the words in front of it. -/
def declarationOf? (loose : Bool) (lo : Nat) (before : String) : Parse (Option Node) := do
  match ← commonDeclaration? self lo before with
  | some node => return some node
  | none => if ← hasTypes then typeDeclaration? self loose lo before else return none

/-- A declaration, if one is at hand. -/
def declaration? (loose : Bool) (lo : Nat) : Parse (Option Node) := do
  match ← declarationOf? self loose lo "" with
  | some node => return some node
  | none =>
    if (← hasTypes) && (← atWord "declare") && (← followedBy isWordToken) then
      advance
      match ← within (fun c => { c with ambient := true })
          (declarationOf? self true lo "declare ") with
      | some node => return some node
      | none => fail
    else return none

/-- Any statement; where only a `single` one can stand, declarations cannot. -/
def statementRule (single : Bool) : Parse Node := do
  let lo ← here
  match ← token with
  | .sign "\x7b" => self .block
  | .sign ";" => advance; finish .emptyStatement lo [] []
  | t =>
    let word := match t with | .word w true => w | _ => ""
    if controlWords.contains word then controlStatement self lo word
    else if single then
      require !(["function", "class", "const"].contains word)
      if ← atFunction then functionDeclaration self lo "" false
      else
        require !((← atWord "let") && (← nextIs beginsBinding))
        plainStatement self lo
    else
      match ← declaration? self false lo with
      | some node => return node
      | none => plainStatement self lo

end Script

end ClassVeil
