import ClassVeil.Script.Parse

/-!
# Patterns and parameters

A pattern takes a value apart and gives names to its parts. Where an assignment has a pattern, the
source reads like a literal up to the equals sign, so literals can be turned into patterns.

A name with a type stands where the name stands, and an array or object pattern that is a parameter
where the pattern and its type stand together; this is where comments are looked for.

## Main definitions

* `propertyKey`: the name of a member of an object.
* `bindingPattern`, `parameters`: patterns that introduce names.
* `asPattern`: a literal turned into a pattern.
* `claimPattern`: the same as a rule.
-/

namespace ClassVeil

namespace Script

variable (self : Rules)

/-- The name of a member: a word, a text, a number, or an expression in brackets. -/
def propertyKey : Parse Node := do
  let lo ← here
  match ← token with
  | .word .. => anyName
  | .text .. => textLiteral
  | .number _ => numberLiteral
  | .sign "[" =>
    advance
    let inner ← within (fun c => { c with allowIn := true }) (self .expression)
    expect "]"
    finish .computedKey lo [] [inner]
  | _ => fail

/-- An expression behind an equals sign, or nothing. -/
def initializer : Parse Node := do
  if ← eat "=" then self .expression else return .absent

/-- A type behind a colon, or nothing. -/
def typeAnnotation : Parse Node := do
  if (← hasTypes) && (← eat ":") then self .type else return .absent

/-- A pattern that has a default behind it if there is an equals sign. -/
def withDefault (form : Form) (lo : Nat) (pattern : Node) : Parse Node := do
  match ← initializer self with
  | .absent => return pattern
  | value => finish form lo [] [pattern, value]

/-- A pattern with the type or mark that belongs to it, if there is one. -/
def annotate (span : Span) (mark : String) (pattern type : Node) : Node :=
  if mark = "" && type.isAbsent then pattern
  else .form .annotated span [mark] [pattern, type]

/-- The rest of a list behind three dots; nothing may follow before the end. -/
def restPattern (close : String) : Parse Node := do
  let lo ← here
  expect "..."
  let pattern ← self .pattern
  let type ← if close = ")" then typeAnnotation self else pure .absent
  let node ← finish .restPattern lo [] [pattern, type]
  require (← atSign close)
  return node

/-- An element of an array pattern, or a hole, or the end. -/
def arrayPatternStep : Parse (Option Node) := do
  let lo ← here
  if ← eat "]" then return none
  else if ← eat "," then return some .absent
  else if ← atSign "..." then return some (← restPattern self "]")
  else
    let node ← withDefault self .defaulted lo (← self .pattern)
    unless ← atSign "]" do expect ","
    return some node

/-- A name, and no pattern with parts. -/
def isPlainName : Node → Bool
  | .form .name .. => true
  | _ => false

/-- A member of an object pattern. -/
def objectPatternMember : Parse Node := do
  let lo ← here
  if ← atSign "..." then
    let node ← restPattern self "\x7d"
    match node with
    | .form .restPattern _ _ (inner :: _) => require (isPlainName inner)
    | _ => fail
    return node
  else if (← nextIs fun t => t = .sign ":") || !(← atName) then
    let key ← propertyKey self
    expect ":"
    let valueLo ← here
    let value ← withDefault self .defaulted valueLo (← self .pattern)
    finish .pairPattern lo [] [key, value]
  else withDefault self .shorthandDefault lo (← boundName)

/-- A pattern that introduces names. -/
def bindingPattern : Parse Node := do
  let lo ← here
  if ← eat "[" then finish .arrayPattern lo [] (← many (arrayPatternStep self))
  else if ← eat "\x7b" then
    finish .objectPattern lo [] (← commaList "\x7d" (objectPatternMember self))
  else boundName

/-! ## Parameters -/

/-- What can stand behind a word that says something about a member, a parameter or a type. -/
def followsModifier : Token → Bool
  | .word .. | .text .. | .number _ | .hidden _ => true
  | .sign s => ["[", "\x7b", "*", "..."].contains s
  | _ => false

/-- One of several words, if it says something about what is behind it on the same line. -/
def modifier? (words : List String) : Parse (Option String) := do
  match ← token with
  | .word w true =>
    if words.contains w && (← followedBy followsModifier) then
      advance
      return some w
    else return none
  | _ => return none

/-- The words that say who may use a member. -/
def accessWords : List String := ["public", "private", "protected"]

/-- The words that turn a parameter of a constructor into a member, each at its place. -/
def parameterModifiers : Parse (List String) := do
  let access ← modifier? accessWords
  let override ← modifier? ["override"]
  let readonly ← modifier? ["readonly"]
  return access.toList ++ override.toList ++ readonly.toList

/-- A pattern with parts. -/
def isComposite : Node → Bool
  | .form .arrayPattern .. | .form .objectPattern .. => true
  | _ => false

/-- The pattern of a parameter with its type and default; `this` can have a type too if `takesThis`
    is on. What is only declared has no default, and neither has what can be left out. -/
def parameterPattern (takesThis : Bool) : Parse Node := do
  if ← atSign "..." then restPattern self ")"
  else
    let lo ← here
    let typed ← hasTypes
    let pattern ← if typed && takesThis && (← atWord "this") then anyName else self .pattern
    let mark ← if typed && (← eat "?") then pure "?" else pure ""
    let type ← typeAnnotation self
    let span ←
      if isComposite pattern && !type.isAbsent then spanFrom lo else pure pattern.span
    if ← atSign "=" then require (mark = "" && !(← context).ambient)
    withDefault self .defaulted lo (annotate span mark pattern type)

/-- A parameter that is a member too has a name or a default. -/
def canBeMember : Node → Bool
  | .form .annotated _ _ (inner :: _) => isPlainName inner
  | .form .defaulted .. => true
  | node => isPlainName node

/-- A parameter of a function. -/
def parameter : Parse Node := do
  let lo ← here
  let modifiers ←
    if (← context).memberParameters then parameterModifiers else pure []
  let pattern ← parameterPattern self true
  require (modifiers.isEmpty || canBeMember pattern)
  finish .parameter lo modifiers [pattern]

/-- Items in parentheses. -/
def parenthesizedList (item : Parse Node) : Parse (List Node) := do
  expect "("
  within (fun c => { c with allowIn := true, expectsColon := false }) (commaList ")" item)

/-- The parameters of a function in parentheses. -/
def parameters : Parse (List Node) :=
  within (fun c => { c with inParameters := true }) (parenthesizedList (parameter self))

/-- A pattern without a default. -/
def lacksDefault : Node → Bool
  | .form .defaulted .. => false
  | _ => true

/-- The parameters of something that has no body, as in the type of a function. -/
def signatureParameters : Parse (List Node) := do
  let ps ← parenthesizedList (parameterPattern self true)
  require (ps.all lacksDefault)
  return ps

/-! ## Literals as patterns -/

/-- Something that can be assigned to as a whole. -/
def isTarget (strict : Bool) : Node → Bool
  | .form .name _ words _ =>
    !(strict && (words.contains "eval" || words.contains "arguments"))
  | .form .member .. | .form .index .. => true
  | .form .assertion _ _ [_, inner] => isTarget strict inner
  | .paren _ inner => isTarget strict inner
  | .typed _ _ inner _ => isTarget strict inner
  | _ => false

/-- The elements of an array up to the last one that is there. -/
def dropHoles (ps : List Node) : List Node := (ps.reverse.dropWhile Node.isAbsent).reverse

variable (strict : Bool) (closed : List Nat)

mutual

/-- A literal as a pattern; `none` if it cannot be assigned to. `closed` are the places of literals
    that end with a spread and a comma. -/
def asPattern : Node → Option Node
  | .array span elements =>
    if closed.contains span.lo then none
    else (asElements elements).map fun ps => .form .arrayPattern span [] (dropHoles ps)
  | .object span members =>
    if closed.contains span.lo then none
    else (asMembers members).map (.form .objectPattern span [] ·)
  | .form .assignment span ["="] parts => some (.form .defaulted span [] parts)
  | .paren span inner => if isTarget strict inner then some (.paren span inner) else none
  | node => if isTarget strict node then some node else none

/-- The elements of an array literal as those of a pattern. -/
def asElements : List Node → Option (List Node)
  | [] => some []
  | .absent :: rest => (asElements rest).map (.absent :: ·)
  | .spread span inner :: rest =>
    match rest, asPattern inner with
    | [], some p => if lacksDefault p then some [.form .restPattern span [] [p, .absent]] else none
    | _, _ => none
  | node :: rest => do
    let p ← asPattern node
    let ps ← asElements rest
    return p :: ps

/-- The members of an object literal as those of a pattern. -/
def asMembers : List Node → Option (List Node)
  | [] => some []
  | .spread span inner :: rest =>
    match rest, asPattern inner with
    | [], some p => if lacksDefault p then some [.form .restPattern span [] [p, .absent]] else none
    | _, _ => none
  | .pair span key value :: rest => do
    let p ← asPattern value
    let ps ← asMembers rest
    return .form .pairPattern span [] [key, p] :: ps
  | .form .shorthandDefault span words parts :: rest =>
    (asMembers rest).map (.form .shorthandDefault span words parts :: ·)
  | .form .name span words parts :: rest =>
    (asMembers rest).map (.form .name span words parts :: ·)
  | _ => none

end

/-- Turns a literal into a pattern, which claims the members that only patterns can have. -/
def claimPattern (node : Node) : Parse Node := do
  match asPattern (← context).strict (← get).closed node with
  | none => fail
  | some pattern =>
    modify fun s =>
      { s with covers := s.covers.filter fun pos => !(node.span.lo ≤ pos && pos < node.span.hi) }
    return pattern

end Script

end ClassVeil
