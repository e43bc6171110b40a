import ClassVeil.Script.Grammar.Type

/-!
# Functions

Functions are written in many ways, which share their parts: type parameters, parameters, the type
of the result, and a body. The parts are listed in this order.

## Main definitions

* `functionContext`: what holds inside a function.
* `functionParts`: the parts of a function behind its name.
* `arrowRule`: a function with an arrow.
-/

namespace ClassVeil

namespace Script

variable (self : Rules)

/-- The context inside a function. -/
def functionContext (async generator : Bool) (c : Context) : Context :=
  { inFunction := true, inAsync := async, inGenerator := generator, ambient := c.ambient
    strict := c.strict, hasTarget := true }

/-- The context inside a member with a body; `super` can only be called in some constructors. -/
def methodContext (async generator superCalls : Bool) (c : Context) : Context :=
  { functionContext async generator c with superMembers := true, superCalls }

/-- The text that makes a function or script strict. -/
def strictText : Token → Bool
  | .text raw _ => raw = "\"use strict\"".toList || raw = "\x27use strict\x27".toList
  | _ => false

/-- A block that is the body of a function, which it can make strict. -/
def bodyBlock : Parse Node := do
  let isStrict ← nextIs strictText
  within (fun c => { c with strict := c.strict || isStrict }) (self .block)

/-- The body of a function; with types it can be missing, and what is only declared has none. -/
def functionBody : Parse Node := do
  if ← atSign "\x7b" then
    require !(← context).ambient
    bodyBlock self
  else
    require (← hasTypes)
    semicolon
    return .absent

/-- A parameter without a default. -/
def isSimpleParameter : Node → Bool
  | .form .parameter _ _ [pattern] => lacksDefault pattern
  | _ => true

/-- A parameter that is only a name. -/
def isNameParameter : Node → Bool
  | .form .parameter _ _ [pattern] => isPlainName pattern
  | node => isPlainName node

/-- The texts at the start of a list of statements. -/
def directives : List Node → List (List Char)
  | .form .expressionStatement _ _ [.str _ _ (some raw)] :: rest => raw :: directives rest
  | _ => []

/-- Whether the body of a function makes it strict. -/
def isStrictBody : Node → Bool
  | .form .block _ _ items => (directives items).any fun raw => strictText (.text raw none)
  | _ => false

/-- The parameters of a function that its body makes strict are names, where there are no types. -/
def checkStrictBody (params : List Node) (body : Node) : Parse Unit := do
  require ((← hasTypes) || params.all isNameParameter || !isStrictBody body)

/-- The parts of a function behind its name, in the context that holds inside. Without a body the
    parameters have no defaults. -/
def functionParts (inside : Context → Context) (body : Parse Node) : Parse (List Node) :=
  within inside do
    let types ← typeParameters? self
    let ps ← parameters self
    let result ← resultType? self
    let inner ← body
    require (!inner.isAbsent || ps.all isSimpleParameter)
    checkStrictBody ps inner
    return [types, .group ps, result, inner]

/-- The words in front of the name of a function: whether it is asynchronous, and a generator. -/
def functionWords : Parse (Bool × Bool) := do
  let async ← eatWord "async"
  expectWord "function"
  return (async, ← eat "*")

/-- The words of a function as they are printed. -/
def functionHead (async generator : Bool) : String :=
  (if async then "async function" else "function") ++ if generator then "*" else ""

/-- Whether a function with its keyword is at hand. -/
def atFunction : Parse Bool := do
  if ← atWord "function" then return true
  else if ← atWord "async" then followedBy fun t => t = .word "function" true
  else return false

/-- The name of a function or class, which can be missing. -/
def ownName : Parse Node := do
  if ← atName then boundName else return .absent

/-- A function as a value; it need not have a name. -/
def functionValue : Parse Node := do
  let lo ← here
  let (async, generator) ← functionWords
  let name ← ownName
  let parts ← functionParts self (functionContext async generator) (bodyBlock self)
  finish .functionValue lo [functionHead async generator] (name :: parts)

/-! ## Arrows -/

/-- The parts of a function with an arrow in front of the arrow. -/
def arrowHead : Parse (List Node) := do
  let types ← typeParameters? self
  let ps ← parenthesizedList (parameterPattern self (!types.isAbsent))
  let result ← resultType? self
  require (!(← onNewLine) && (← atSign "=>"))
  return [types, .group ps, result]

/-- The only parameter of a function, without parentheses, in front of the arrow. -/
def bareHead : Parse (List Node) := do
  let param ← boundName
  require (!(← onNewLine) && (← atSign "=>"))
  return [.absent, .group [param], .absent]

/-- What stands behind an arrow: a block, or the expression that is the result. -/
def arrowBody (async : Bool) : Parse Node := do
  let inside (c : Context) : Context :=
    { functionContext async false c with
      superMembers := c.superMembers, superCalls := c.superCalls, hasTarget := c.hasTarget
      inField := c.inField }
  if ← atSign "\x7b" then within inside (bodyBlock self)
  else
    within (fun c => { inside c with allowIn := c.allowIn, expectsColon := c.expectsColon })
      (self .expression)

/-- The type of the result of a function could also be what stands behind the colon of a choice. -/
def isAmbiguous : List Node → Bool
  | [types, _, result] => types.isAbsent && !result.isAbsent
  | _ => false

/-- A function with an arrow. Where a colon has to follow, one in front of the type of the result
    is not taken for it if another one is there. -/
def arrowRule : Parse Node := do
  let lo ← here
  let async ← (do
    if ← atWord "async" then
      return (← nameFollows) || (← followedBy fun t => t = .sign "(" || t = .sign "<")
    else return false)
  if async then advance
  let parts ← if (← atSign "(") || (← atAngle) then arrowHead self else bareHead
  expect "=>"
  let body ← arrowBody self async
  match parts with
  | [_, .group ps, _] => checkStrictBody ps body
  | _ => fail
  if (← context).expectsColon && isAmbiguous parts then require (← atSign ":")
  finish .arrow lo [if async then "async " else ""] (parts ++ [body])

end Script

end ClassVeil
