import ClassVeil.Script.Grammar.Literal

/-!
# Classes

A class has a name, a class that it extends, and members. Members carry words that say who may use
them and how. The source has these words in one of a few orders, and the tree in a fixed one.

A class is strict, whatever is around it.

## Main definitions

* `memberWords`: the words in front of a member.
* `classMember`: a member of a class.
* `classParts`: the parts of a class behind its keyword.
* `classValue`: a class as a value.
-/

namespace ClassVeil

namespace Script

variable (self : Rules)

/-! ## Words in front of a member -/

/-- The words in front of a member, in the order in which they are kept. -/
def memberModifiers : List String :=
  ["declare", "public", "private", "protected", "static", "abstract", "override", "readonly",
    "accessor"]

/-- The words that are there, in the order in which they are kept, each with a space. -/
def sortedWords (words : List String) : String :=
  String.join ((memberModifiers.filter words.contains).map (· ++ " "))

/-- A token that shows the word in front of it to be the name of a member. -/
def endsKey (typed : Bool) : Token → Bool
  | .sign s => ["(", "=", "\x7d", ";"].contains s || (typed && ["<", "!", ":", "?"].contains s)
  | .done => true
  | _ => false

/-- Takes a word if it is not the name of a member itself. If `sameLine` is on, it is one at the
    end of a line. -/
def memberWord (word : String) (sameLine : Bool) : Parse Bool := do
  if !(← atWord word) then return false
  let typed ← hasTypes
  let named ← couldRead do
    advance
    require ((sameLine && (← onNewLine)) || endsKey typed (← token))
  if named then return false
  advance
  return true

/-- Whether a word can stand behind others in front of a member. -/
def fitsBehind (c : Context) (before : List String) (word : String) : Bool :=
  !before.contains word &&
    match word with
    | "abstract" => c.abstractClass && !(before.contains "override" || before.contains "readonly")
    | "override" => c.derivedClass && !(before.contains "readonly" || before.contains "declare")
    | "static" => !(before.contains "override" || before.contains "readonly")
    | _ => true

/-- One more word behind others in front of a member. -/
def laterWord (before : List String) : Parse (Option (List String)) := do
  match ← modifier? ["abstract", "readonly", "override", "static"] with
  | none => return none
  | some word =>
    require (fitsBehind (← context) before word)
    return some (before ++ [word])

/-- The words in front of a member; without types there is only one. -/
def memberWords : Parse (List String) := do
  let only (b : Bool) (word : String) := if b then [word] else []
  if ← hasTypes then
    let first := only (← memberWord "declare" true) "declare"
    let access ← modifier? accessWords
    let second := only (first.isEmpty && (← memberWord "declare" true)) "declare"
    let shared := only (← memberWord "static" false) "static"
    let words ← improve laterWord (first ++ access.toList ++ second ++ shared)
    return words ++ only (← memberWord "accessor" true) "accessor"
  else return only (← memberWord "static" false) "static"

/-! ## Members -/

/-- The name of a private member. -/
def isHidden : Node → Bool
  | .form .name _ [text] _ => text.toList.head? = some '#'
  | _ => false

/-- The name of a member, which may be a private one. -/
def memberKey : Parse Node := do
  let lo ← here
  match ← token with
  | .hidden name =>
    require (name ≠ "#constructor")
    advance
    return leaf .name (← spanFrom lo) name
  | _ => propertyKey self

/-- A member that holds a value. -/
def classProperty (lo : Nat) (words : List String) (key : Node) (mark : String) : Parse Node := do
  let definite ← if (← hasTypes) && mark = "" then eat "!" else pure false
  let type ← typeAnnotation self
  let value ← within (fun c => { methodContext false false false c with inField := true })
    (initializer self)
  require (!words.contains "abstract" || value.isAbsent)
  semicolon
  let mark := if definite && !type.isAbsent then "!" else mark
  finish .classProperty lo [sortedWords words, mark] [key, value, type]

/-- A member that is called. -/
def classMethod (lo : Nat) (words : List String) (kind : Option String) (async generator : Bool)
    (key : Node) (mark : String) : Parse Node := do
  let parts ← functionParts self (methodContext async generator false) (functionBody self)
  require (accessorFits kind parts)
  require (!words.contains "abstract" || parts.getLast?.any Node.isAbsent)
  let before := sortedWords words ++ (if async then "async " else "") ++
    (if generator then "*" else "") ++ (kind.map (· ++ " ")).getD ""
  finish .classMethod lo [before, mark] (key :: parts)

/-- Whether a key is `constructor`, as a name or as a text. -/
def isConstructorKey : Node → Bool
  | .form .name _ ["constructor"] _ => true
  | .str _ (some text) _ => text = "constructor".toList
  | _ => false

/-- The member that makes new objects, behind its name. It has no types of its own. -/
def classConstructor (lo : Nat) (words : List String) : Parse Node := do
  let typed ← hasTypes
  require (!(typed && words.contains "static"))
  require !(words.contains "override" || words.contains "abstract")
  let inside (c : Context) : Context :=
    { methodContext false false c.derivedClass c with memberParameters := typed }
  let parts ← functionParts self inside (functionBody self)
  match parts with
  | [.absent, params, .absent, body] =>
    finish .classConstructor lo [sortedWords (words.erase "static")] [params, body]
  | _ => fail

/-- A member with a key, behind the words in front of it. -/
def keyedMember (lo : Nat) (words : List String) : Parse Node := do
  let called := !words.contains "accessor"
  let async ← if called && (← atWord "async") then followedBy beginsMember else pure false
  if async then advance
  let generator ← if called then eat "*" else pure false
  let kind ← if async || generator || !called then pure none else accessor? ["get", "set"]
  let key ← memberKey self
  let mark := if (← hasTypes) && (← eat "?") then "?" else ""
  require (!isHidden key || !called || !accessWords.any words.contains)
  if called && ((← atSign "(") || (← atAngle)) then
    require !(words.contains "declare" || words.contains "readonly")
    if isConstructorKey key then
      require (!async && !generator && kind.isNone && mark = "")
      classConstructor self lo words
    else classMethod self lo words kind async generator key mark
  else
    require (!async && !generator && kind.isNone && !isConstructorKey key)
    classProperty self lo words key mark

/-- Statements that are executed when a class is made. -/
def staticBlock (lo : Nat) : Parse Node := do
  let body ← within (fun c =>
    { methodContext c.inAsync false false c with inFunction := false }) (self .block)
  finish .staticBlock lo [] [body]

/-- A member of a class, or the end of the class. -/
def classMember : Parse (Option Node) := do
  let lo ← here
  if ← eat "\x7d" then return none
  else if ← eat ";" then return some (← finish .emptyStatement lo [] [])
  else
    let words ← memberWords
    if words = ["static"] && (← atSign "\x7b") then return some (← staticBlock self lo)
    else if (← hasTypes) && words.all ["declare", "static", "readonly"].contains &&
        (← atIndexSignature) then
      return some (← indexSignature self lo (["static", "readonly"].filter words.contains))
    else return some (← keyedMember self lo words)

/-! ## Classes -/

/-- A class that is named behind `extends`, up to its type arguments. -/
def extended : Parse (Node × Node) := do
  if ← eatWord "extends" then
    let base ← self (.callee true)
    let args ← typeArguments? self
    return (base, args)
  else return (.absent, .absent)

/-- A constructor with a body; there can only be one. -/
def isConstructor : Node → Bool
  | .form .classConstructor _ _ [_, body] => !body.isAbsent
  | _ => false

/-- The names of types that no class or interface can have. -/
def builtinTypes : List String :=
  ["any", "bigint", "boolean", "intrinsic", "never", "null", "number", "object", "string", "symbol",
    "unknown", "void"]

/-- A name that is not that of a type of the language. -/
def isFreeType : Node → Bool
  | .form .name _ [text] _ => !builtinTypes.contains text
  | _ => true

/-- The parts of a class behind its keyword: the name, the members, the class it extends and its
    type arguments, the type parameters, and the types it implements. -/
def classParts (isAbstract : Bool) : Parse (List Node) :=
  within (fun c => { c with strict := true }) do
    let name ← ownName
    require (!(← hasTypes) || isFreeType name)
    let types ← typeParametersOf self ["const", "in", "out"]
    let (base, args) ← extended self
    let promised ← heritages self "implements"
    expect "\x7b"
    let members ← within (fun c =>
      { c with abstractClass := isAbstract, derivedClass := !base.isAbsent })
      (many (classMember self))
    require ((members.filter isConstructor).length < 2)
    return [name, .group members, base, args, types, .group promised]

/-- A class as a value. -/
def classValue : Parse Node := do
  let lo ← here
  expectWord "class"
  finish .classValue lo ["class"] (← classParts self false)

end Script

end ClassVeil
