import ClassVeil.Script.Grammar.Function

/-!
# Literals

Arrays, objects and templates are written as the list of their parts.

## Main definitions

* `arrayLiteral`, `objectLiteral`, `templateLiteral`.
* `argumentList`: the arguments of a call, which may be spread like elements of an array.
-/

namespace ClassVeil

namespace Script

variable (self : Rules)

/-- An expression, or several ones spread out of one. -/
def spreadable : Parse Node := do
  let lo ← here
  if ← eat "..." then
    let inner ← self .expression
    return .spread (← spanFrom lo) inner
  else self .expression

/-- The arguments of a call in parentheses. -/
def argumentList : Parse (List Node) := do
  expect "("
  within (fun c => { c with allowIn := true, expectsColon := false })
    (commaList ")" (spreadable self))

/-- An element of an array, or a hole, or the end. -/
def arrayStep : Parse (Option Node) := do
  if ← eat "]" then return none
  else if ← eat "," then return some .absent
  else
    let node ← spreadable self
    unless ← atSign "]" do expect ","
    return some node

/-- Remembers the place of a literal with the given parts if the last of them is a spread and a
    comma has been taken behind it. -/
def noteClosed (lo : Nat) (parts : List Node) : Parse Unit := do
  match parts.getLast? with
  | some (.spread span _) =>
    modify fun s =>
      { s with closed := if span.hi < s.lastComma then lo :: s.closed else s.closed }
  | _ => return ()

/-- An array with its elements. -/
def arrayLiteral : Parse Node := do
  let lo ← here
  expect "["
  let elements ← within (fun c => { c with allowIn := true, expectsColon := false })
    (many (arrayStep self))
  noteClosed lo elements
  return .array (← spanFrom lo) elements

/-- What can stand behind the word `async` in front of a member. -/
def beginsMember (t : Token) : Bool := beginsKey t || t = .sign "*"

/-- A parameter that says which type `this` has. -/
def isThisParameter : Node → Bool
  | .form .parameter _ _ [.form .annotated _ _ (.form .name _ ["this"] _ :: _)] => true
  | .form .parameter _ _ [.form .name _ ["this"] _] => true
  | _ => false

/-- A parameter that stands for many. -/
def isRestParameter : Node → Bool
  | .form .parameter _ _ [.form .restPattern ..] => true
  | _ => false

/-- The parts of an accessor have the right number of parameters, not counting `this`. -/
def accessorFits (kind : Option String) (parts : List Node) : Bool :=
  match kind, parts with
  | some "get", [_, .group ps, _, _] => ps.all isThisParameter
  | some "set", [_, .group ps, _, _] =>
    (ps.filter fun p => !isThisParameter p).length == 1 && !ps.head?.any isRestParameter
  | _, _ => true

/-- A member of an object that has a body, behind its name and the words in front of that. -/
def objectMethod (lo : Nat) (words : String) (kind : Option String) (async generator : Bool)
    (key : Node) : Parse Node := do
  let parts ← functionParts self (methodContext async generator false) (bodyBlock self)
  require (accessorFits kind parts)
  finish (if kind = some "set" then .objectSetter else .objectMethod) lo [words] (key :: parts)

/-- A member of an object that is a name, or a name with a default for a pattern. -/
def shorthand (lo : Nat) : Parse Node := do
  let node ← name
  if ← eat "=" then
    let value ← self .expression
    modify fun s => { s with covers := lo :: s.covers }
    finish .shorthandDefault lo [] [node, value]
  else return node

/-- What can stand behind a member that is only a name. -/
def endsShorthand (t : Token) : Bool := [.sign ",", .sign "\x7d", .sign "="].contains t

/-- A member of an object. -/
def objectMember : Parse Node := do
  let lo ← here
  if ← atSign "..." then spreadable self
  else if (← atWord "async") && (← followedBy beginsMember) then
    advance
    let generator ← eat "*"
    let words := if generator then "async *" else "async "
    objectMethod self lo words none true generator (← propertyKey self)
  else if ← eat "*" then objectMethod self lo "*" none false true (← propertyKey self)
  else
    match ← accessor? ["get", "set"] with
    | some kind => objectMethod self lo (kind ++ " ") (some kind) false false (← propertyKey self)
    | none =>
      if (← atName) && (← nextIs endsShorthand) then shorthand self lo
      else
        let key ← propertyKey self
        if (← atSign "(") || (← atAngle) then objectMethod self lo "" none false false key
        else
          expect ":"
          let value ← self .expression
          return .pair (← spanFrom lo) key value

/-- An object with its members. -/
def objectLiteral : Parse Node := do
  let lo ← here
  expect "\x7b"
  let members ← within (fun c => { c with allowIn := true, expectsColon := false })
    (commaList "\x7d" (objectMember self))
  noteClosed lo members
  return .object (← spanFrom lo) members

/-- A piece of a template and the expression behind it, or nothing before the last piece. -/
def templateStep (strict : Bool) : Parse (Option (List Char × Node)) := do
  match ← token with
  | .piece raw last =>
    require (!strict || (unescape false raw).isSome)
    if last then return none
    else
      advance
      let expr ← within (fun c => { c with allowIn := true, expectsColon := false })
        (self .expressions)
      require (← atSign "\x7d")
      advanceIn .piece
      return some (raw, expr)
  | _ => fail

/-- A template; the escapes in it must mean something if `strict` is on. -/
def templateLiteral (strict : Bool) : Parse Node := do
  let lo ← here
  require (← atSign "\x60")
  advanceIn .piece
  let parts ← many (templateStep self strict)
  match ← token with
  | .piece raw true =>
    advance
    return .template (← spanFrom lo) (parts.map Prod.fst ++ [raw]) (parts.map Prod.snd)
  | _ => fail

end Script

end ClassVeil
