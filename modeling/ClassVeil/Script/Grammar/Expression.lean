import ClassVeil.Script.Grammar.Class
import ClassVeil.Script.Grammar.Markup

/-!
# Expressions

Operators bind more or less tightly. An operand is read together with everything behind it that
binds more tightly than the operator in front of it; its power is a number that grows with the
tightness.

A chain begins with a question mark and a dot. What follows in it belongs to the chain and is not
an ordinary member or call, because it may not be evaluated.

## Main definitions

* `primary`, `calleeRule`: expressions without operators.
* `unaryRule`, `operandRule`, `conditionalRule`: operators with one, two and three operands.
* `expressionRule`, `expressionsRule`: any expression, and several with commas between them.
-/

namespace ClassVeil

namespace Script

variable (self : Rules)

/-! ## Without operators -/

/-- An expression in parentheses. -/
def parenthesized : Parse Node := do
  let lo ← here
  expect "("
  let inner ← within (fun c => { c with allowIn := true, expectsColon := false })
    (self .expressions)
  expect ")"
  return .paren (← spanFrom lo) inner

/-- An element as an expression. -/
def elementValue : Parse Node := do
  require (← get).dialect.markup
  let node ← self .element
  advance
  return node

/-- A word that stands for a value of its own. -/
def wordLiteral (word : String) : Parse Node := do
  let lo ← here
  expectWord word
  return leaf .literal (← spanFrom lo) word

/-- A call that loads a module. -/
def isImportCall : Node → Bool
  | .call _ (.form .literal ..) _ _ => true
  | _ => false

/-- What can be a new object: a class with its arguments. -/
def construction : Parse Node := do
  let lo ← here
  expectWord "new"
  if ← eat "." then
    require (← context).hasTarget
    expectWord "target"
    return leaf .literal (← spanFrom lo) "new.target"
  else
    let base ← self (.callee false)
    require (!isImportCall base)
    let types ← if ← atAngle then optional (typeArguments self) else pure none
    let args ← if ← atSign "(" then pure (.group (← argumentList self)) else pure .absent
    finish .construction lo [] [base, types.getD .absent, args]

/-- A call that loads a module, behind the words `text`. -/
def importCall (lo : Nat) (text : String) : Parse Node := do
  let callee := leaf .literal (← spanFrom lo) text
  let args ← argumentList self
  require (args.length == 1 || args.length == 2)
  return .call (← spanFrom lo) callee .absent args

/-- What begins with the word `import`: something about the module, or a call that loads one. -/
def importValue : Parse Node := do
  let lo ← here
  expectWord "import"
  if ← eat "." then
    if ← eatWord "meta" then return leaf .literal (← spanFrom lo) "import.meta"
    else if ← eatWord "source" then importCall self lo "import.source"
    else
      expectWord "defer"
      importCall self lo "import.defer"
  else importCall self lo "import"

/-- What begins with the word `super`; with types it is not looked at what is around it. -/
def superValue : Parse Node := do
  let node ← wordLiteral "super"
  let c ← context
  let typed ← hasTypes
  if ← atSign "(" then require (typed || c.superCalls)
  else require ((typed || c.superMembers) && ((← atSign ".") || (← atSign "[")))
  return node

/-- The name of a private member. -/
def hiddenName : Parse Node := do
  let lo ← here
  match ← token with
  | .hidden text =>
    advance
    return leaf .name (← spanFrom lo) text
  | _ => fail

/-- An expression that begins with a word. -/
def wordExpression (word : String) : Parse Node := do
  if ← atFunction then functionValue self
  else if ["this", "null", "true", "false"].contains word then wordLiteral word
  else if word = "class" then classValue self
  else if word = "new" then construction self
  else if word = "import" then importValue self
  else if word = "super" then superValue
  else name

/-- An expression that is not made of others by operators, members or calls. -/
def primary : Parse Node := do
  if (← atSign "/") || (← atSign "/=") then rescan .regex
  let lo ← here
  match ← token with
  | .word word true => wordExpression self word
  | .word _ false => name
  | .number _ => numberLiteral
  | .regex raw => advance; return leaf .literal (← spanFrom lo) raw
  | .text .. => textLiteral
  | .hidden _ => hiddenName
  | .sign "(" => parenthesized self
  | .sign "[" => arrayLiteral self
  | .sign "\x7b" => objectLiteral self
  | .sign "\x60" => templateLiteral self true
  | _ => fail

/-! ## Members and calls -/

/-- An expression that is part of a chain. -/
def inChain : Node → Bool
  | .form .chainMember .. | .form .chainIndex .. | .form .chainCall .. => true
  | .typed _ .nonNull inner _ => inChain inner
  | _ => false

/-- The name of a member behind a dot. -/
def memberName : Parse Node := do
  match ← token with
  | .hidden _ => hiddenName
  | _ => anyName

/-- An index in brackets. -/
def bracketed : Parse Node := do
  expect "["
  let index ← within (fun c => { c with allowIn := true, expectsColon := false })
    (self .expressions)
  expect "]"
  return index

/-- A link of a chain behind `mark`, which is empty but for the first link. -/
def chainLink (lo : Nat) (mark : String) (node : Node) : Parse Node := do
  if ← atSign "[" then finish .chainIndex lo [mark] [node, ← bracketed self]
  else if (← atSign "(") || (← atAngle) then
    let _ ← typeArguments? self
    finish .chainCall lo [mark] (node :: (← argumentList self))
  else finish .chainMember lo [mark] [node, ← memberName]

/-- Tokens behind a list of types in angle brackets that tell that it was none. -/
def continuesComparison (t : Token) : Bool :=
  match t with
  | .sign s =>
    ["[", "\x7b", "<", "+", "-", "!", "~", "/", "++", "--", ">"].contains s
  | .word w _ => w != "in" && w != "instanceof" && w != "as" && w != "satisfies"
  | .done => false
  | _ => true

/-- Types in angle brackets behind an expression, if that is what they are. -/
def callTypes : Parse (Option Node) := do
  if ← atAngle then
    optional do
      let types ← typeArguments self
      require ((← atSign "(") || (← atSign "\x60") || (← onNewLine)
        || !continuesComparison (← token))
      return types
  else return none

/-- A member, call or mark behind an expression. -/
def suffix (lo : Nat) (calls : Bool) (node : Node) : Parse (Option Node) := do
  let chain := inChain node
  match ← token with
  | .sign "." =>
    advance
    if chain then return some (← chainLink self lo "" node)
    else return some (← finish .member lo [] [node, ← memberName])
  | .sign "?." =>
    require calls
    advance
    return some (← chainLink self lo "?." node)
  | .sign "[" =>
    if chain then return some (← chainLink self lo "" node)
    else return some (← finish .index lo [] [node, ← bracketed self])
  | .sign "(" =>
    if !calls then return none
    else if chain then return some (← chainLink self lo "" node)
    else
      let args ← argumentList self
      return some (.call (← spanFrom lo) node .absent args)
  | .sign "\x60" =>
    require (!chain)
    let text ← templateLiteral self false
    return some (← finish .tagged lo [] [node, .absent, text])
  | .sign "!" =>
    if (← hasTypes) && !(← onNewLine) then
      advance
      return some (.typed (← spanFrom lo) .nonNull node .absent)
    else return none
  | _ =>
    if !calls then return none
    match ← callTypes self with
    | none => return none
    | some types =>
      if ← atSign "(" then
        let args ← argumentList self
        return some (.call (← spanFrom lo) node types args)
      else if ← atSign "\x60" then
        let text ← templateLiteral self false
        return some (← finish .tagged lo [] [node, types, text])
      else return some (← finish .instantiation lo [] [node, types])

/-- What can be called or have members, with the members and calls behind it; an element has none
    of these. -/
def calleeRule (calls : Bool) : Parse Node := do
  let lo ← here
  if calls && (← atSign "<") then elementValue self
  else improve (suffix self lo calls) (← primary self)

/-! ## One operand -/

/-- The signs and words in front of an operand. -/
def unaryMark? : Token → Option String
  | .sign s => if ["!", "~", "+", "-"].contains s then some s else none
  | .word w true => if ["delete", "void", "typeof"].contains w then some w else none
  | _ => none

/-- A name by itself, which cannot be deleted where the rules are strict. -/
def isBareName : Node → Bool
  | .form .name .. => true
  | .paren _ inner => isBareName inner
  | _ => false

/-- A type in angle brackets in front of an operand. The comments between the two count twice. -/
def assertion : Parse Node := do
  let lo ← here
  expect "<"
  let constant ← eatWord "const"
  let type ← if constant then pure .absent else self .type
  expect ">"
  modify fun s => { s with gap := s.gap ++ s.gap }
  let inner ← self .unary
  if constant then return .typed (← spanFrom lo) .constant inner .absent
  else finish .assertion lo [] [type, inner]

/-- An operand with what stands in front of and behind it. -/
def unaryRule : Parse Node := do
  let lo ← here
  match unaryMark? (← token) with
  | some mark =>
    advance
    let inner ← self .unary
    require (mark ≠ "delete" || !(← context).strict || !isBareName inner)
    finish .unary lo [mark] [inner]
  | none =>
    if (← atSign "++") || (← atSign "--") then
      let mark := if ← eat "++" then "++" else "--"
      if mark = "--" then advance
      let inner ← self .unary
      require (isTarget (← context).strict inner)
      finish .updateBefore lo [mark] [inner]
    else if (← atWord "await") && (← context).inAsync then
      require !(← context).inParameters
      advance
      finish .awaiting lo [] [← self .unary]
    else if (← hasTypes) && !(← get).dialect.markup && (← atSign "<") then assertion self
    else
      let inner ← self (.callee true)
      if (← onNewLine) || !((← atSign "++") || (← atSign "--")) then return inner
      require (isTarget (← context).strict inner)
      let mark := if ← eat "++" then "++" else "--"
      if mark = "--" then advance
      finish .updateAfter lo [mark] [inner]

/-! ## Two operands -/

/-- The signs between two operands, by their power. -/
def binaryPowers : List (String × Nat) :=
  [("??", 1), ("||", 1), ("&&", 2), ("|", 3), ("^", 4), ("&", 5), ("==", 6), ("!=", 6),
    ("===", 6), ("!==", 6), ("<", 7), ("<=", 7), (">", 7), (">=", 7), ("instanceof", 7),
    ("in", 7), ("<<", 8), (">>", 8), (">>>", 8), ("+", 9), ("-", 9), ("*", 10), ("/", 10),
    ("%", 10), ("**", 11)]

/-- The sign or word between two operands that a token is, with its power. -/
def binarySign? (allowIn : Bool) (t : Token) : Option (String × Nat) :=
  let named := match t with
    | .sign s => some s
    | .word w true => if w = "instanceof" || (w = "in" && allowIn) then some w else none
    | _ => none
  named.bind fun s => (binaryPowers.lookup s).map fun power => (s, power)

/-- The operator that a sign or word stands for. -/
def BinaryOp.ofSign : String → BinaryOp
  | "&&" => .and
  | "||" => .or
  | "??" => .nullish
  | "+" => .add
  | s => .other s

/-- An operator that chooses one of two truth values. -/
def isLogical : Node → Bool
  | .binary _ .and _ _ | .binary _ .or _ _ => true
  | _ => false

/-- An operator that replaces a missing value. -/
def isNullish : Node → Bool
  | .binary _ .nullish _ _ => true
  | _ => false

/-- An operand that cannot stand in front of a power. -/
def isUnary : Node → Bool
  | .form .unary .. | .form .awaiting .. | .form .assertion .. => true
  | _ => false

/-- Operators that can stand beside each other without parentheses. -/
def canCombine (op : BinaryOp) (left right : Node) : Bool :=
  match op with
  | .nullish => !isLogical left && !isLogical right
  | .and | .or => !isNullish left && !isNullish right
  | .other "**" => !isUnary left
  | _ => true

/-- A word about the type of an expression, and the type. -/
def typing (lo : Nat) (left : Node) : Parse Node := do
  if ← eatWord "as" then
    if ← eatWord "const" then return .typed (← spanFrom lo) .constant left .absent
    else
      let type ← self .type
      return .typed (← spanFrom lo) .cast left type
  else
    expectWord "satisfies"
    let type ← self .type
    return .typed (← spanFrom lo) .satisfying left type

/-- An operator and a second operand behind a first one, if the operator binds more tightly than
    those in front. -/
def operandStep (lo power : Nat) (left : Node) : Parse (Option Node) := do
  if ← atSign ">" then rescan .greater
  match binarySign? (← context).allowIn (← token) with
  | some (sign, tightness) =>
    if tightness ≤ power then return none
    advance
    let right ← self (.operand (if sign = "**" then tightness - 1 else tightness))
    let op := BinaryOp.ofSign sign
    require (canCombine op left right)
    return some (.binary (← spanFrom lo) op left right)
  | none =>
    if power < 7 && (← hasTypes) && !(← onNewLine) && ((← atWord "as") || (← atWord "satisfies"))
    then return some (← typing self lo left)
    else return none

/-- An operand with the operators behind it that bind more tightly than `power`. -/
def operandRule (power : Nat) : Parse Node := do
  let lo ← here
  improve (operandStep self lo power) (← self .unary)

/-! ## Choices and assignments -/

/-- A choice between two expressions, or an operand. -/
def conditionalRule : Parse Node := do
  let lo ← here
  let test ← self (.operand 0)
  if ← eat "?" then
    let yes ← within (fun c => { c with allowIn := true, expectsColon := true }) (self .expression)
    expect ":"
    let no ← within (fun c => { c with expectsColon := false }) (self .expression)
    return .conditional (← spanFrom lo) test yes no
  else return test

/-- The signs that assign the result of an operator. -/
def assignmentSigns : List String :=
  ["+=", "-=", "*=", "/=", "%=", "**=", "<<=", ">>=", ">>>=", "&=", "^=", "|=", "&&=", "||=",
    "??="]

/-- A value that a generator hands out. -/
def yielding : Parse Node := do
  let lo ← here
  require !(← context).inParameters
  expectWord "yield"
  let all ← if ← onNewLine then pure false else eat "*"
  if all then finish .yielding lo ["yield*"] [← self .expression]
  else if ← onNewLine then finish .yielding lo ["yield"] []
  else
    match ← optional (self .expression) with
    | some value => finish .yielding lo ["yield"] [value]
    | none => finish .yielding lo ["yield"] []

/-- An expression that could be the parameters of a function in front of the type of its result. -/
def looksLikeParameters : Node → Bool
  | .paren .. => true
  | .call _ (.form .name _ ["async"] _) _ _ => true
  | _ => false

/-- Whether what has been read as an expression is the start of a function with an arrow. -/
def atArrow (left : Node) : Parse Bool := do
  if ← atSign "=>" then return true
  else if ← atSign ":" then
    return (← hasTypes) && looksLikeParameters left
  else
    return isBareName left && (← atName) && !(← onNewLine)

/-- A choice or operand, with what is assigned to it. -/
def assignmentBehind (lo : Nat) (left : Node) : Parse Node := do
  match ← token with
  | .sign "=" =>
    let target ← claimPattern left
    advance
    finish .assignment lo ["="] [target, ← self .expression]
  | .sign s =>
    if assignmentSigns.contains s then
      require (isTarget (← context).strict left)
      advance
      finish .assignment lo [s] [left, ← self .expression]
    else return left
  | _ => return left

/-- Whether type parameters could be at hand. They look like the tag of an element, which is one if
    no function follows. -/
def atTypeParameters : Parse Bool := return (← atAngle) && (← nextIs isWordToken)

/-- One expression. The parameters of a function with an arrow mostly read like an expression, and
    are read again when the arrow comes into sight. -/
def expressionRule : Parse Node := do
  let lo ← here
  let generic ← if ← atTypeParameters then optional (arrowRule self) else pure none
  match generic with
  | some node => return node
  | none =>
    if (← atWord "yield") && (← context).inGenerator then yielding self
    else
      let before ← get
      match ← optional (conditionalRule self) with
      | none => arrowRule self
      | some left =>
        if ← atArrow left then
          let after ← get
          set before
          match ← optional (arrowRule self) with
          | some node => return node
          | none => set after
        assignmentBehind self lo left

/-- Expressions with commas between them, or a single one. -/
def expressionsRule : Parse Node := do
  let lo ← here
  let first ← self .expression
  let more ← many do
    if ← eat "," then return some (← self .expression) else return none
  if more.isEmpty then return first else return .sequence (← spanFrom lo) (first :: more)

end Script

end ClassVeil
