import ClassVeil.Script.Grammar.Expression

/-!
# Statements

A statement ends with a semicolon, which can be left out at the end of a line and before a closing
brace. Jumps must have a place to go to: a function to return from, a loop or switch to leave, a
loop to go on with, or a statement with the given label.

## Main definitions

* `bindings`: declarations of variables.
* `blockRule`: statements in braces.
* `controlStatement?`: statements that begin with a keyword of their own.
* `plainStatement`: labels and expressions.
-/

namespace ClassVeil

namespace Script

variable (self : Rules)

/-- Statements in braces. -/
def blockRule : Parse Node := do
  let lo ← here
  expect "\x7b"
  let items ← many do
    if ← eat "\x7d" then return none
    return some (← self (.statement false))
  finish .block lo [] items

/-- An expression in parentheses behind a keyword. -/
def condition : Parse Node := do
  expect "("
  let test ← self .expressions
  expect ")"
  return test

/-! ## Variables -/

/-- A pattern with the type behind it. -/
def typedPattern : Parse Node := do
  let pattern ← self .pattern
  if ← hasTypes then
    let _ ← eat "!"
  return annotate pattern.span "" pattern (← typeAnnotation self)

/-- A variable with its type and its value, both of which can be missing. -/
def declarator : Parse Node := do
  let lo ← here
  let target ← typedPattern self
  finish .declarator lo [] [target, ← initializer self]

/-- A variable that is a name. -/
def declaresName : Node → Bool
  | .form .declarator _ _ (.form .annotated _ _ (pattern :: _) :: _) => isPlainName pattern
  | .form .declarator _ _ (pattern :: _) => isPlainName pattern
  | _ => false

/-- A variable without a value. -/
def lacksValue : Node → Bool
  | .form .declarator _ _ [_, .absent] => true
  | _ => false

/-- The keywords of resources, which are given back at the end of a block. -/
def resourceWords : List String := ["using", "await using"]

/-- Whether variables have the values they need. Patterns with parts and resources need one, and so
    do constants if `constants` is on; resources are names. -/
def haveValues (word : String) (constants : Bool) (all : List Node) : Bool :=
  let resources := resourceWords.contains word
  let needed := resources || (constants && word = "const")
  all.all fun d =>
    (declaresName d || !resources) && (!lacksValue d || (declaresName d && !needed))

/-- The variables behind their keyword. -/
def declarators : Parse (List Node) := do
  let first ← declarator self
  let more ← many do
    if ← eat "," then return some (← declarator self) else return none
  return first :: more

/-- What can stand behind the word `let` that declares variables. -/
def beginsBinding : Token → Bool
  | .word w _ => w ≠ "in" && w ≠ "instanceof"
  | .sign s => s = "[" || s = "\x7b"
  | _ => false

/-- Whether the name of a resource is behind the word at hand. -/
def resourceFollows : Parse Bool := do
  return (← nameFollows) && !(← nextIs fun t => t = .word "of" true)

/-- Takes the keyword of a declaration of variables, if one is at hand. -/
def variableWord? : Parse (Option String) := do
  let typed ← hasTypes
  if (← eatWord "var") then return some "var"
  else if (← eatWord "const") then return some "const"
  else if (← atWord "let") && (← nextIs beginsBinding) then
    advance
    return some "let"
  else if typed && (← atWord "using") && (← resourceFollows) then
    advance
    return some "using"
  else if typed && (← context).inAsync && (← atWord "await") then
    optional do
      advance
      require (!(← onNewLine) && (← atWord "using") && (← resourceFollows))
      advance
      return "await using"
  else return none

/-- Declarations of variables as a statement, behind their keyword. -/
def bindings (lo : Nat) (before word : String) : Parse Node := do
  let all ← declarators self
  let c ← context
  require (c.ambient || haveValues word c.strict all)
  semicolon
  finish .bindings lo [before, word, ";"] all

/-! ## Loops -/

/-- The body of a loop. -/
def loopBody : Parse Node :=
  within (fun c => { c with breakable := true, continuable := true }) (self (.statement true))

/-- A part of the head of a loop that can be missing, up to a sign. -/
def headPart (sign : String) : Parse Node := do
  if ← eat sign then return .absent
  else
    let expr ← self .expressions
    expect sign
    return expr

/-- A loop that counts, behind its first part. -/
def countingLoop (lo : Nat) (init : Node) : Parse Node := do
  expect ";"
  let test ← headPart self ";"
  let update ← headPart self ")"
  finish .forStatement lo [] [init, test, update, ← loopBody self]

/-- A loop over the members of a value, behind the variable. -/
def memberLoop (lo : Nat) (waits : Bool) (target : Node) : Parse Node := do
  if ← eatWord "of" then
    let range ← self .expression
    expect ")"
    finish .forOf lo [if waits then " await" else ""] [target, range, ← loopBody self]
  else
    require !waits
    expectWord "in"
    let range ← self .expressions
    expect ")"
    finish .forIn lo [] [target, range, ← loopBody self]

/-- Whether the head of a loop over members goes on here. -/
def atMemberLoop : Parse Bool := return (← atWord "of") || (← atWord "in")

/-- A variable with a type. -/
def hasType : Node → Bool
  | .form .declarator _ _ (.form .annotated .. :: _) => true
  | _ => false

/-- Variables that can go through the members of a value: only one, and without a type. It has no
    value either, unless `valued` is on. A resource is a name. -/
def isLoopVariable (word : String) (valued : Bool) : List Node → Bool
  | [d] =>
    !hasType d && (valued || lacksValue d) && (declaresName d || !resourceWords.contains word)
  | _ => false

/-- A loop with a head in three parts, or over the members of a value. -/
def forLoop (lo : Nat) : Parse Node := do
  expectWord "for"
  let waits ← if (← context).inAsync then eatWord "await" else pure false
  expect "("
  let inner ← here
  let node ←
    if ← atSign ";" then countingLoop self lo .absent
    else
      match ← variableWord? with
      | some word =>
        let all ← within (fun c => { c with allowIn := false }) (declarators self)
        let target ← finish .bindings inner ["", word, ""] all
        if ← atMemberLoop then
          let keys ← atWord "in"
          require (isLoopVariable word (keys && !(← context).strict) all)
          require !(keys && resourceWords.contains word)
          memberLoop self lo waits target
        else
          require (!waits && haveValues word false all)
          countingLoop self lo target
      | none =>
        let init ← within (fun c => { c with allowIn := false }) (self .expressions)
        if ← atMemberLoop then memberLoop self lo waits (← claimPattern init)
        else
          require !waits
          countingLoop self lo init
  return node

/-! ## Choices -/

/-- A statement, and another one for when the condition does not hold. -/
def ifStatement (lo : Nat) : Parse Node := do
  expectWord "if"
  let test ← condition self
  let yes ← self (.statement true)
  let no ← if ← eatWord "else" then self (.statement true) else pure .absent
  finish .ifStatement lo [] [test, yes, no]

/-- A case of a switch, or the end of the switch. -/
def caseStep : Parse (Option Node) := do
  let lo ← here
  if ← eat "\x7d" then return none
  else
    let test ←
      if ← eatWord "default" then pure .absent
      else do
        expectWord "case"
        self .expressions
    expect ":"
    let body ← many do
      if (← atWord "case") || (← atWord "default") || (← atSign "\x7d") then return none
      return some (← self (.statement false))
    return some (← finish .switchCase lo [] [test, .group body])

/-- The case for when no other one applies; there can only be one. -/
def isDefault : Node → Bool
  | .form .switchCase _ _ (.absent :: _) => true
  | _ => false

/-- A choice between several cases. -/
def switchStatement (lo : Nat) : Parse Node := do
  expectWord "switch"
  let value ← condition self
  expect "\x7b"
  let cases ← within (fun c => { c with breakable := true }) (many (caseStep self))
  require ((cases.filter isDefault).length < 2)
  finish .switchStatement lo [] [value, .group cases]

/-- What is done with an error, which can have a name. -/
def catchClause : Parse Node := do
  let lo ← here
  expectWord "catch"
  let param ←
    if ← eat "(" then do
      let pattern ← self .pattern
      let type ← typeAnnotation self
      expect ")"
      pure (annotate pattern.span "" pattern type)
    else pure .absent
  finish .catchClause lo [] [param, ← self .block]

/-- A block whose errors are caught, or after which something is done in any case. -/
def tryStatement (lo : Nat) : Parse Node := do
  expectWord "try"
  let body ← self .block
  let handler ← if ← atWord "catch" then catchClause self else pure .absent
  let last ← if ← eatWord "finally" then self .block else pure .absent
  require (!handler.isAbsent || !last.isAbsent)
  finish .tryStatement lo [] [body, handler, last]

/-! ## Jumps -/

/-- Whether a statement ends before the token at hand. -/
def atEnd : Parse Bool :=
  return (← onNewLine) || (← atSign ";") || (← atSign "\x7d") || (← token) = .done

/-- A jump to the end or the start of a loop, or to the end of a statement with a label. -/
def loopJump (lo : Nat) (word : String) : Parse Node := do
  expectWord word
  let c ← context
  if ← atEnd then
    require (if word = "break" then c.breakable else c.continuable)
    semicolon
    finish .jump lo [word] []
  else
    let label ← freeName
    require ((nameWords label).all c.labels.contains)
    require (word = "break" || c.continuable)
    semicolon
    finish .loopJump lo [word] [label]

/-- A jump out of a function, with a value or without. -/
def returnJump (lo : Nat) : Parse Node := do
  expectWord "return"
  require (← context).inFunction
  let parts ← if ← atEnd then pure [] else pure [← self .expressions]
  semicolon
  finish .jump lo ["return"] parts

/-- A jump to where errors are caught. -/
def throwJump (lo : Nat) : Parse Node := do
  expectWord "throw"
  require !(← onNewLine)
  let value ← self .expressions
  semicolon
  finish .jump lo ["throw"] [value]

/-! ## All together -/

/-- A statement that begins with the given keyword. -/
def controlStatement (lo : Nat) (word : String) : Parse Node := do
  match word with
  | "var" =>
    expectWord "var"
    bindings self lo "" "var"
  | "if" => ifStatement self lo
  | "for" => forLoop self lo
  | "while" =>
    expectWord "while"
    let test ← condition self
    finish .whileStatement lo [] [test, ← loopBody self]
  | "with" =>
    expectWord "with"
    require !(← context).strict
    let value ← condition self
    finish .withStatement lo [] [value, ← self (.statement true)]
  | "do" =>
    expectWord "do"
    let body ← loopBody self
    expectWord "while"
    let test ← condition self
    let _ ← eat ";"
    finish .doWhile lo [] [test, body]
  | "switch" => switchStatement self lo
  | "try" => tryStatement self lo
  | "break" | "continue" => loopJump lo word
  | "return" => returnJump self lo
  | "throw" => throwJump self lo
  | "debugger" =>
    expectWord "debugger"
    semicolon
    finish .jump lo ["debugger"] []
  | _ => fail

/-- The keywords of `controlStatement`. -/
def controlWords : List String :=
  ["var", "if", "for", "while", "do", "switch", "try", "break", "continue", "return", "throw",
    "debugger", "with"]

/-- A statement that is an expression. -/
def expressionStatement (lo : Nat) : Parse Node := do
  let expr ← self .expressions
  semicolon
  finish .expressionStatement lo [] [expr]

/-- What stands behind a label: a statement or a function, but no generator. -/
def labelledBody : Parse Node := do
  if ← atWord "function" then
    require !(← nextIs fun t => t = .sign "*")
    self (.statement false)
  else self (.statement true)

/-- A statement with a label, or one that is an expression. -/
def plainStatement (lo : Nat) : Parse Node := do
  if (← atName) && (← nextIs fun t => t = .sign ":") then
    let label ← freeName
    expect ":"
    require (!(nameWords label).any (← context).labels.contains)
    let body ← within (fun c => { c with labels := nameWords label ++ c.labels })
      (labelledBody self)
    finish .labelled lo [] [label, body]
  else expressionStatement self lo

end Script

end ClassVeil
