import ClassVeil.Script.Grammar.Type

/-!
# Elements of markup

Between the tags of an element nearly everything is text, so what follows a tag cannot be scanned
before it is known where the tag stands. The rules here therefore stop at the sign that ends an
element, a fragment or an expression in braces, and leave it to their caller to move on.

## Main definitions

* `tagName`, `attributes`: the inside of a tag.
* `elementRule`: an element or fragment, up to the sign that ends it.
-/

namespace ClassVeil

namespace Script

variable (self : Rules)

/-- Takes a sign that has to be at hand, and scans the next token in a mode. -/
def expectIn (mode : Mode) (sign : String) : Parse Unit := do
  require (← atSign sign)
  advanceIn mode

/-- The span from a place to the end of the token at hand. -/
def spanThrough (lo : Nat) : Parse Span := return ⟨lo, (← get).stop⟩

/-- A word in a tag, which cannot be spelled with escapes. -/
def tagWord : Parse String := do
  match ← token with
  | .word name true => advance; return name
  | _ => fail

/-- The name of an element: names with dots or a colon between them. -/
def tagName : Parse Node := do
  let lo ← here
  let first ← tagWord
  let text ←
    if ← atSign ":" then do
      advanceIn .tagName
      pure (first ++ ":" ++ (← tagWord))
    else
      improve (fun text => do
        if ← atSign "." then
          advanceIn .tagName
          return some (text ++ "." ++ (← tagWord))
        else return none) first
  return leaf .name (← spanFrom lo) text

/-- The inside of braces that must not be empty, up to the closing brace. -/
def bracedExpression (lo : Nat) : Parse Node := do
  expect "\x7b"
  let expr ← within (fun c => { c with allowIn := true, expectsColon := false })
    (self .expressions)
  require (← atSign "\x7d")
  return .container (← spanThrough lo) expr

/-- The value of an attribute: a text, an expression in braces or an element. -/
def attributeValue : Parse Node := do
  let lo ← here
  match ← token with
  | .text .. => textLiteral
  | .sign "\x7b" =>
    let node ← bracedExpression self lo
    advance
    return node
  | .sign "<" =>
    let node ← self .element
    advance
    return node
  | _ => fail

/-- An attribute, or nothing at the end of the tag. -/
def attributeStep : Parse (Option Node) := do
  let lo ← here
  match ← token with
  | .word .. =>
    rescan .tagName
    let first ← tagWord
    let plain := !(← atSign ":")
    let name ←
      if plain then pure first
      else do
        advanceIn .tagName
        pure (first ++ ":" ++ (← tagWord))
    if ← atSign "=" then
      advanceIn .attributeValue
      let value ← attributeValue self
      return some (.attr (← spanFrom lo) name plain value)
    else return some (.attr (← spanFrom lo) name plain .absent)
  | .sign "\x7b" =>
    advance
    expect "..."
    let inner ← self .expression
    expect "\x7d"
    return some (← finish .spreadAttribute lo [] [inner])
  | _ => return none

/-- What stands between braces among the children of an element, up to the closing brace. -/
def childInBraces (lo : Nat) : Parse Node := do
  if ← nextIs fun t => t = .sign "\x7d" then
    advance
    return .container (← spanThrough lo) .absent
  else if ← nextIs fun t => t = .sign "..." then
    advance
    advance
    let inner ← self .expression
    require (← atSign "\x7d")
    return .form .spreadChild (← spanThrough lo) [] [inner]
  else bracedExpression self lo

/-- A child of an element, or nothing before its closing tag. -/
def childStep : Parse (Option Node) := do
  let lo ← here
  match ← token with
  | .markup raw =>
    advanceIn .markup
    return some (leaf .text (← spanFrom lo) raw)
  | .sign "\x7b" =>
    let node ← childInBraces self lo
    advanceIn .markup
    return some node
  | .sign "<" =>
    if ← nextIs fun t => t = .sign "/" then return none
    else
      let node ← self .element
      advanceIn .markup
      return some node
  | _ => fail

/-- The children of an element and the start of its closing tag. -/
def children : Parse (List Node) := do
  expectIn .markup ">"
  let nodes ← many (childStep self)
  expect "<"
  expectIn .tagName "/"
  return nodes

/-- The words of a name. -/
def nameWords : Node → List String
  | .form _ _ words _ => words
  | _ => []

/-- An element or fragment, up to the sign that ends it. -/
def elementRule : Parse Node := do
  let lo ← here
  expectIn .tagName "<"
  if ← atSign ">" then
    let nodes ← children self
    require (← atSign ">")
    return .form .fragment (← spanThrough lo) [] nodes
  else
    let name ← tagName
    let args ← typeArguments? self
    let attributes ← many (attributeStep self)
    if ← eat "/" then
      require (← atSign ">")
      return .form .emptyElement (← spanThrough lo) [] [name, args, .group attributes]
    else
      let nodes ← children self
      let closing ← tagName
      require (nameWords closing = nameWords name && (← atSign ">"))
      return .form .element (← spanThrough lo) []
        [name, args, .group attributes, .group nodes, closing]

end Script

end ClassVeil
