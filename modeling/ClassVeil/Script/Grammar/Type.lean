import ClassVeil.Script.Grammar.Pattern

/-!
# Types

Types stand behind colons, in angle brackets and in declarations of their own. They contain no
classes, so all of them are forms.

## Main definitions

* `typeArguments`, `typeParametersOf`: lists in angle brackets.
* `heritages`: the types that a class or interface is made from.
* `typeMembers`: the members of an object type or interface.
* `simpleType`, `typeRule`: a type without operators, and any type.
* `resultType`: what a function says about its result.
-/

namespace ClassVeil

namespace Script

variable (self : Rules)

/-- The sign that opens a list in angle brackets, also if it touches another one. -/
def openAngle : Parse Unit := do
  if (← atSign "<<") || (← atSign "<=") then rescan .single
  expect "<"

/-- Whether a list in angle brackets could begin here. -/
def atAngle : Parse Bool := return (← hasTypes) && ((← atSign "<") || (← atSign "<<"))

/-- A list of types in angle brackets; it is not empty. -/
def typeArguments : Parse Node := do
  let lo ← here
  openAngle
  let types ← commaList ">" (within (fun c => { c with typeConditions := true }) (self .type))
  require (!types.isEmpty)
  finish .typeArguments lo [] types

/-- A list of types in angle brackets, or nothing. -/
def typeArguments? : Parse Node := do
  if ← atAngle then typeArguments self else return .absent

/-- Some words in the order of a list; none of them stands there twice. -/
def inOrder (order words : List String) : Parse (List String) := do
  require (words.eraseDups.length == words.length)
  return order.filter words.contains

/-- A type parameter, with its bound and its default. `marks` are the words that can stand in front
    of it. -/
def typeParameter (marks : List String) : Parse Node := do
  let lo ← here
  let words ← many (modifier? marks)
  require (words.idxOf "in" ≤ words.idxOf "out" || !words.contains "in")
  let name ← anyName
  let bound ← if ← eatWord "extends" then self .type else pure .absent
  let value ← if ← eat "=" then self .type else pure .absent
  finish .typeParameter lo (← inOrder marks words) [name, bound, value]

/-- Type parameters in angle brackets, or nothing. -/
def typeParametersOf (marks : List String) : Parse Node := do
  if ← atAngle then
    let lo ← here
    openAngle
    finish .typeParameters lo [] (← commaList ">" (typeParameter self marks))
  else return .absent

/-- The type parameters of a function, or nothing. -/
def typeParameters? : Parse Node := typeParametersOf self ["const"]

/-- What a function says about its result behind `sign`: a type, or a condition on a parameter. -/
def resultType (sign : String) : Parse Node := do
  expect sign
  let lo ← here
  let asserts ←
    if ← atWord "asserts" then followedBy isWordToken else pure false
  if asserts then advance
  let isCondition ←
    if (← atName) || (← atWord "this") then
      followedBy fun t => t = .word "is" true
    else pure false
  if isCondition then
    let subject ← wordText
    expectWord "is"
    let type ← self .type
    finish .predicate lo [if asserts then "asserts " else "", subject] [type]
  else if asserts then
    let subject ← wordText
    finish .predicate lo ["asserts ", subject] [.absent]
  else self .type

/-- What a function says about its result behind a colon, or nothing. -/
def resultType? : Parse Node := do
  if (← hasTypes) && (← atSign ":") then resultType self ":" else return .absent

/-- The type of a function, with the words in front of its parameters. -/
def functionType (words : List String) : Parse Node := do
  let lo ← here
  for word in words do expectWord word
  let types ← typeParameters? self
  let ps ← signatureParameters self
  let result ← resultType self "=>"
  finish .functionType lo words [types, .group ps, result]

/-- A name with parts set apart by dots. -/
def dottedText : Parse String := do
  let first ← wordText
  improve (fun text => do
    if ← eat "." then return some (text ++ "." ++ (← wordText)) else return none) first

/-- A name with parts set apart by dots as a node. -/
def dottedName : Parse Node := do
  let lo ← here
  let text ← dottedText
  return leaf .name (← spanFrom lo) text

/-- A name with type arguments, as behind `extends` and `implements`. -/
def heritage : Parse Node := do
  let lo ← here
  let name ← dottedName
  finish .heritage lo [] [name, ← typeArguments? self]

/-- The names with type arguments behind `word`, if that is at hand. -/
def heritages (word : String) : Parse (List Node) := do
  if (← hasTypes) && (← eatWord word) then
    let first ← heritage self
    let more ← many do
      if ← eat "," then return some (← heritage self) else return none
    return first :: more
  else return []

/-! ## Members -/

/-- The end of a member of a type. -/
def memberEnd : Parse Unit := do
  unless (← eat ";") || (← eat ",") do require ((← onNewLine) || (← atSign "\x7d"))

/-- The start of the name of a member. -/
def beginsKey : Token → Bool
  | .word .. | .text .. | .number _ | .hidden _ => true
  | .sign s => s = "["
  | _ => false

/-- One of several words, if the name of a member is behind it. -/
def accessor? (words : List String) : Parse (Option String) := do
  match ← token with
  | .word w true =>
    if words.contains w && (← nextIs beginsKey) then
      advance
      return some w
    else return none
  | _ => return none

/-- A parameter and a type in brackets, as in place of the name of a member. -/
def indexSignature (lo : Nat) (words : List String) : Parse Node := do
  expect "["
  let key ← freeName
  expect ":"
  let index ← self .type
  expect "]"
  let type ← typeAnnotation self
  memberEnd
  finish .indexSignature lo words [annotate key.span "" key index, type]

/-- Whether a parameter in brackets is at hand, and not an expression. -/
def atIndexSignature : Parse Bool :=
  couldRead do
    expect "["
    let _ ← nameText
    expect ":"

/-- A member of a type that is called, behind the words in front of its parameters. -/
def typeMethod (lo : Nat) (words : List String) (key : Node) (mark : String) : Parse Node := do
  let types ← typeParameters? self
  let ps ← signatureParameters self
  let result ← resultType? self
  memberEnd
  finish .typeMethod lo (mark :: words) [key, types, .group ps, result]

/-- A member of an object type or interface. -/
def typeMember : Parse Node := do
  let lo ← here
  if (← atSign "(") || (← atAngle) then typeMethod self lo [] .absent ""
  else if (← atWord "new") && (← nextIs fun t => t = .sign "(" || t = .sign "<") then
    advance
    typeMethod self lo ["new"] .absent ""
  else
    let readonly ← modifier? ["readonly"]
    if ← atIndexSignature then indexSignature self lo readonly.toList
    else
      let accessor ← if readonly.isNone then accessor? ["get", "set"] else pure none
      let key ← propertyKey self
      let mark := if ← eat "?" then "?" else ""
      if (← atSign "(") || (← atAngle) then
        require readonly.isNone
        typeMethod self lo accessor.toList key mark
      else
        let type ← typeAnnotation self
        memberEnd
        finish .typeProperty lo (mark :: readonly.toList) [key, type]

/-- The members of a type in braces. -/
def typeMembers : Parse (List Node) := do
  expect "\x7b"
  many do
    if ← eat "\x7d" then return none
    return some (← typeMember self)

/-! ## Types without operators -/

/-- A plus or minus sign in front of a word or sign of a mapped type, or nothing of it. -/
def mappedMark (word : Parse Bool) : Parse (Option String) := do
  let first ←
    if ← eat "+" then pure (some "+")
    else if ← eat "-" then pure (some "-")
    else pure none
  if ← word then return some (first.getD "")
  else
    require first.isNone
    return none

/-- A type with one member for each key of a type. -/
def mappedType : Parse Node := do
  let lo ← here
  expect "\x7b"
  let readonly ← mappedMark (eatWord "readonly")
  expect "["
  let key ← freeName
  expectWord "in"
  let keys ← self .type
  let renamed ← if ← eatWord "as" then self .type else pure .absent
  expect "]"
  let mark ← mappedMark (eat "?")
  let type ← typeAnnotation self
  let _ ← eat ";"
  expect "\x7d"
  finish .mappedType lo
    [(readonly.map (· ++ "readonly ")).getD "", (mark.map (· ++ "?")).getD ""]
    [key, keys, renamed, type]

/-- Whether a mapped type is at hand, and not an object type. -/
def atMappedType : Parse Bool :=
  couldRead do
    expect "\x7b"
    let _ ← mappedMark (eatWord "readonly")
    expect "["
    let _ ← nameText
    expectWord "in"

/-- An element of a tuple: a type, which can have a name, be optional or stand for many. -/
def tupleElement : Parse Node := do
  let lo ← here
  let dots ← eat "..."
  let named ← couldRead do
    let _ ← wordText
    let _ ← eat "?"
    expect ":"
  let node ←
    if named then
      let inner ← here
      let label ← anyName
      let mark := if ← eat "?" then "?" else ""
      expect ":"
      let type ← self .type
      finish .namedElement inner [mark] [label, type]
    else
      let inner ← here
      let type ← self .type
      if ← eat "?" then finish .optionalType inner [] [type] else pure type
  if dots then finish .restType lo [] [node] else return node

/-- A type that is a text with types in it. -/
def templateType : Parse Node := do
  let lo ← here
  require (← atSign "\x60")
  advanceIn .piece
  let parts ← many do
    match ← token with
    | .piece raw false =>
      advance
      let type ← self .type
      require (← atSign "\x7d")
      advanceIn .piece
      return some (raw, type)
    | _ => return none
  match ← token with
  | .piece raw true =>
    advance
    finish .templateType lo (parts.map (fun p => String.ofList p.1) ++ [String.ofList raw])
      (parts.map Prod.snd)
  | _ => fail

/-- A type taken from another module. -/
def importType (words : List String) : Parse Node := do
  let lo ← here
  for word in words do expectWord word
  expectWord "import"
  expect "("
  let source ← textLiteral
  expect ")"
  let name ← if ← eat "." then dottedText else pure ""
  let args ← typeArguments? self
  finish .importType lo (name :: words) [source, args]

/-- A name with type arguments. -/
def typeReference (words : List String) : Parse Node := do
  let lo ← here
  for word in words do expectWord word
  let name ← dottedName
  let args ← if ← onNewLine then pure .absent else typeArguments? self
  finish .typeReference lo words [name, args]

/-- A type without operators. -/
def simpleType : Parse Node := do
  let lo ← here
  match ← token with
  | .sign "(" =>
    advance
    let inner ← within (fun c => { c with typeConditions := true }) (self .type)
    expect ")"
    finish .parenType lo [] [inner]
  | .sign "[" =>
    advance
    finish .tupleType lo [] (← commaList "]"
      (within (fun c => { c with typeConditions := true }) (tupleElement self)))
  | .sign "\x7b" =>
    if ← atMappedType then mappedType self
    else
      finish .objectType lo []
        (← within (fun c => { c with typeConditions := true }) (typeMembers self))
  | .sign "\x60" => templateType self
  | .sign "-" =>
    advance
    match ← token with
    | .number raw => advance; return leaf .literal (← spanFrom lo) ("-" ++ raw)
    | _ => fail
  | .number raw => advance; return leaf .literal (← spanFrom lo) raw
  | .text .. => textLiteral
  | .word w true =>
    if w = "typeof" then
      if ← nextIs fun t => t = .word "import" true then importType self ["typeof"]
      else typeReference self ["typeof"]
    else if w = "import" then importType self []
    else if ["this", "void", "null", "true", "false"].contains w then
      advance
      return leaf .literal (← spanFrom lo) w
    else if isName false w || w = "await" then typeReference self []
    else fail
  | _ => fail

/-! ## Operators -/

/-- Brackets behind a type. -/
def typeSuffix (lo : Nat) (type : Node) : Parse (Option Node) := do
  if (← onNewLine) || !(← atSign "[") then return none
  advance
  if ← eat "]" then return some (← finish .arrayType lo [] [type])
  else
    let index ← self .type
    expect "]"
    return some (← finish .indexedType lo [] [type, index])

/-- A type that is found out, with the bound it has. -/
def inferredType (lo : Nat) : Parse Node := do
  expectWord "infer"
  let inner ← here
  let name ← anyName
  let bound ← optional do
    expectWord "extends"
    let bound ← within (fun c => { c with typeConditions := false }) (self .type)
    require (!(← context).typeConditions || !(← atSign "?"))
    return bound
  let param ← finish .typeParameter inner [] [name, bound.getD .absent, .absent]
  finish .operatorType lo ["infer"] [param]

/-- A word in front of a type. -/
def typeOperator : Parse Node := do
  let lo ← here
  match ← token with
  | .word w true =>
    if ["keyof", "unique", "readonly"].contains w then
      advance
      finish .operatorType lo [w] [← self .simpleType]
    else if w = "infer" then inferredType self lo
    else improve (typeSuffix self lo) (← simpleType self)
  | _ => improve (typeSuffix self lo) (← simpleType self)

/-- Types with a sign between them; the sign can also stand in front. -/
def typeChain (sign : String) (form : Form) (operand : Parse Node) : Parse Node := do
  let _ ← eat sign
  let lo ← here
  let first ← operand
  let more ← many do
    if ← eat sign then return some (← operand) else return none
  if more.isEmpty then return first else finish form lo [] (first :: more)

/-- The type of a function, if one is at hand. -/
def functionType? : Parse (Option Node) := do
  if (← atSign "(") || (← atAngle) then optional (functionType self [])
  else if ← atWord "new" then return some (← functionType self ["new"])
  else if (← atWord "abstract") && (← nextIs fun t => t = .word "new" true) then
    return some (← functionType self ["abstract", "new"])
  else return none

/-- Any type. -/
def typeRule : Parse Node := do
  let lo ← here
  match ← functionType? self with
  | some type => return type
  | none =>
    let type ← typeChain "|" .unionType (typeChain "&" .intersectionType (self .simpleType))
    if (← context).typeConditions && !(← onNewLine) && (← eatWord "extends") then
      let bound ← within (fun c => { c with typeConditions := false }) (self .type)
      expect "?"
      let yes ← self .type
      expect ":"
      let no ← self .type
      finish .conditionalType lo [] [type, bound, yes, no]
    else return type

end Script

end ClassVeil
