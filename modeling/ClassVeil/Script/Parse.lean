import ClassVeil.Script.Comment

/-!
# Reading tokens

A rule of the grammar reads tokens from the front of what is left of the source. It may look at
the token at hand, move on, or fail; a choice between rules starts the second where the first did.
What is read goes into a state that also remembers what the rules around have said: whether there
is a function to return from, a loop to leave, and so on.

The grammar is recursive. A rule that needs another one asks for it by a `Goal`; `Rules` answers
with the rules one level down, so that the depth of the recursion is a number known beforehand.

## Main definitions

* `Dialect`: which extensions of the language are on.
* `Context`: what the rules around have said.
* `State`, `Parse`: the state of reading, and a rule.
* `advance`, `rescan`: the next token, and the token at hand scanned in another way.
* `Goal`, `Rules`: the rules by name.
-/

namespace ClassVeil

namespace Script

/-- The extensions of the language: types, and elements of markup. -/
structure Dialect where
  types : Bool
  markup : Bool
deriving DecidableEq, Repr

/-- What the rules around the one at hand have said. -/
structure Context where
  /-- The word `in` is an operator. -/
  allowIn : Bool := true
  /-- There is a function to return from. -/
  inFunction : Bool := false
  /-- The word `await` waits. -/
  inAsync : Bool := true
  /-- The word `yield` hands out a value. -/
  inGenerator : Bool := false
  /-- There is a loop or switch to leave. -/
  breakable : Bool := false
  /-- There is a loop to go on with. -/
  continuable : Bool := false
  /-- The labels of the statements around. -/
  labels : List String := []
  /-- Things are declared only and defined elsewhere. -/
  ambient : Bool := false
  /-- The word `extends` begins a condition on types. -/
  typeConditions : Bool := true
  /-- A colon has to follow, because a question mark stands in front. -/
  expectsColon : Bool := false
  /-- The word `super` stands for members of the class that is extended. -/
  superMembers : Bool := false
  /-- The word `super` stands for the constructor of the class that is extended. -/
  superCalls : Bool := false
  /-- Some words, numbers and texts that were once allowed are not. -/
  strict : Bool := true
  /-- There is a function or class whose target `new.target` is. -/
  hasTarget : Bool := false
  /-- The value of a member of a class is read, which has no arguments. -/
  inField : Bool := false
  /-- Parameters of a function are read, in which nothing is waited for or handed out. -/
  inParameters : Bool := false
  /-- Parameters of a constructor are read, which can be members too. -/
  memberParameters : Bool := false
  /-- A class is read that may have members without a body. -/
  abstractClass : Bool := false
  /-- A class is read that extends another one. -/
  derivedClass : Bool := false
deriving DecidableEq, Repr

/-- The state of reading: the token at hand, its surroundings, and what has been found. -/
structure State where
  dialect : Dialect
  /-- More than there are characters in the source: a bound on the length of lists. -/
  budget : Nat
  context : Context := {}
  token : Token := .bad
  /-- A line ends between the token before and the one at hand. -/
  newline : Bool := true
  /-- The comments between the token before and the one at hand. -/
  gap : List Pending := []
  /-- The source from the token at hand on, and the place of that token. -/
  text : List Char
  start : Nat := 0
  /-- The source behind the token at hand, and its place. -/
  rest : List Char
  stop : Nat := 0
  /-- The token before the one at hand, and where it ends. -/
  last : Option Token := none
  lastEnd : Nat := 0
  /-- The place behind the last comma that has been taken. -/
  lastComma : Nat := 0
  comments : Comments := {}
  /-- The places of members that only a pattern can have, and no pattern has claimed yet. -/
  covers : List Nat := []
  /-- The places of literals that end with a spread and a comma, which no pattern can. -/
  closed : List Nat := []
deriving DecidableEq, Repr

/-- A rule: it may fail, and then counts as not having been tried. -/
abbrev Parse := StateT State Option

/-- Marks that begin or end a comment in documents, and must not stand in a module. -/
def isDocumentMark (atStart : Bool) (text : List Char) : Bool :=
  "<!--".toList.isPrefixOf text || (atStart && "-->".toList.isPrefixOf text)

/-- A word spelled with escapes that is no name in a context. -/
def isDisguised (c : Context) : Token → Bool
  | .word w false => c.strict && (strictWords.contains w || w == "await")
  | _ => false

/-- The state with the next token scanned from a text at a place. -/
def State.scan (mode : Mode) (pos : Nat) (text : List Char) (s : State) : State :=
  let gap : Gap := match mode with
    | .piece | .markup => ⟨[], false, text, pos⟩
    | _ => skipGap s.last s.budget false pos text
  let lex :=
    if mode = .plain && isDocumentMark (gap.newline || s.last.isNone) gap.rest then
      badLexeme gap.rest
    else scanWith mode gap.rest
  { s with
    token := if isDisguised s.context lex.token then .bad else lex.token
    newline := gap.newline, gap := gap.pending
    text := gap.rest, start := gap.pos
    rest := lex.rest, stop := gap.pos + Utf8.size lex.taken }

/-- The state before a source is read. -/
def State.begin (dialect : Dialect) (pos : Nat) (text : List Char) : State :=
  State.scan .plain pos text
    { dialect, budget := text.length + 2, context := { strict := !dialect.types }
      text, rest := text }

/-- A rule that fails. -/
def fail {α : Type} : Parse α := fun _ => none

/-- Fails unless something holds. -/
def require (b : Bool) : Parse Unit := if b then pure () else fail

/-- Moves on to the next token, and gives the comments before the one at hand their places. -/
def advanceIn (mode : Mode) : Parse Unit := do
  let s ← get
  require (s.token ≠ .bad)
  set <| State.scan mode s.stop s.rest
    { s with
      comments := s.comments.settle s.lastEnd s.start s.gap
      last := some s.token, lastEnd := s.stop
      lastComma := if s.token = .sign "," then s.stop else s.lastComma }

/-- Moves on to the next token, scanned as usual. -/
def advance : Parse Unit := advanceIn .plain

/-- Scans the token at hand again in another mode. -/
def rescan (mode : Mode) : Parse Unit :=
  modify fun s =>
    let lex := scanWith mode s.text
    { s with token := lex.token, rest := lex.rest, stop := s.start + Utf8.size lex.taken }

/-! ## Looking at tokens -/

/-- The token at hand. -/
def token : Parse Token := return (← get).token

/-- The place of the token at hand. -/
def here : Parse Nat := return (← get).start

/-- The span from a place to the end of the token before the one at hand. -/
def spanFrom (lo : Nat) : Parse Span := return ⟨lo, (← get).lastEnd⟩

/-- Whether a line ends before the token at hand. -/
def onNewLine : Parse Bool := return (← get).newline

/-- Whether types are part of the language. -/
def hasTypes : Parse Bool := return (← get).dialect.types

/-- The context of the token at hand. -/
def context : Parse Context := return (← get).context

/-- Whether the token at hand is the given sign. -/
def atSign (sign : String) : Parse Bool := return (← token) = .sign sign

/-- Whether the token at hand is the given word. -/
def atWord (word : String) : Parse Bool := return (← token) = .word word true

/-- Takes a sign if it is at hand. -/
def eat (sign : String) : Parse Bool := do
  if ← atSign sign then advance; return true else return false

/-- Takes a word if it is at hand. -/
def eatWord (word : String) : Parse Bool := do
  if ← atWord word then advance; return true else return false

/-- Takes a sign that has to be at hand. -/
def expect (sign : String) : Parse Unit := do require (← eat sign)

/-- Takes a word that has to be at hand. -/
def expectWord (word : String) : Parse Unit := do require (← eatWord word)

/-- What a rule would read; nothing is taken. -/
def ahead {α : Type} (rule : Parse α) : Parse (Option α) := fun s => some ((rule s).map Prod.fst, s)

/-- Whether a rule could be read; nothing is taken. -/
def couldRead {α : Type} (rule : Parse α) : Parse Bool := return (← ahead rule).isSome

/-- What a rule reads, if it does not fail. -/
def optional {α : Type} (rule : Parse α) : Parse (Option α) := fun s =>
  match rule s with
  | some (a, s) => some (some a, s)
  | none => some (none, s)

/-- Whether the token behind the one at hand is on the same line and satisfies a predicate. -/
def followedBy (p : Token → Bool) : Parse Bool :=
  couldRead do
    advance
    require (!(← onNewLine) && p (← token))

/-- Whether the token behind the one at hand satisfies a predicate. -/
def nextIs (p : Token → Bool) : Parse Bool :=
  couldRead do
    advance
    require (p (← token))

/-- A rule in a changed context. -/
def within {α : Type} (change : Context → Context) (rule : Parse α) : Parse α := do
  let before ← context
  modify fun s => { s with context := change s.context }
  let a ← rule
  modify fun s => { s with context := before }
  return a

/-! ## Repetition -/

/-- The results of a step, repeated until it has none. -/
def repeated {α : Type} (step : Parse (Option α)) : (fuel : Nat) → Parse (List α)
  | 0 => fail
  | fuel + 1 => do
    match ← step with
    | none => return []
    | some a => return a :: (← repeated step fuel)

/-- The results of a step, repeated until it has none; every step takes a token. -/
def many {α : Type} (step : Parse (Option α)) : Parse (List α) := do
  repeated step (← get).budget

/-- A result improved by a step until that has nothing to add. -/
def improved {α : Type} (step : α → Parse (Option α)) : (fuel : Nat) → α → Parse α
  | 0, _ => fail
  | fuel + 1, a => do
    match ← step a with
    | none => return a
    | some b => improved step fuel b

/-- A result improved by a step until that has nothing to add; every step takes a token. -/
def improve {α : Type} (step : α → Parse (Option α)) (a : α) : Parse α := do
  improved step (← get).budget a

/-- Items with commas between them, up to a sign that is taken too. A comma may also stand before
    that sign. -/
def commaList (close : String) (item : Parse Node) : Parse (List Node) :=
  many do
    if ← eat close then return none
    let node ← item
    unless ← atSign close do expect ","
    return some node

/-- The end of a statement: a semicolon, or a place where one can be left out. -/
def semicolon : Parse Unit := do
  unless ← eat ";" do
    require ((← onNewLine) || (← token) = .done || (← atSign "\x7d"))

/-! ## Names -/

/-- A name that can be used but need not be bindable. -/
def nameText? (c : Context) : Token → Option String
  | .word name _ => if isName c.strict name then some name else none
  | _ => none

/-- Whether a token is a name. -/
def isNameToken (c : Context) (t : Token) : Bool := (nameText? c t).isSome

/-- Whether a name is at hand. -/
def atName : Parse Bool := return isNameToken (← context) (← token)

/-- Whether a name is behind the token at hand. -/
def nameIsNext : Parse Bool := do nextIs (isNameToken (← context))

/-- Whether a name is behind the token at hand, on the same line. -/
def nameFollows : Parse Bool := do followedBy (isNameToken (← context))

/-- Whether a token is a word of any kind. -/
def isWordToken : Token → Bool
  | .word .. => true
  | _ => false

/-- The text of a name. -/
def nameText : Parse String := do
  match nameText? (← context) (← token) with
  | some name => advance; return name
  | none => fail

/-- The text of a name that is bound; two names with a meaning of their own cannot be. -/
def boundText : Parse String := do
  let name ← nameText
  require (!(← context).strict || (name ≠ "eval" && name ≠ "arguments"))
  return name

/-- The text of any word. -/
def wordText : Parse String := do
  match ← token with
  | .word name _ => advance; return name
  | _ => fail

/-- A node for a single word or literal. -/
def leaf (form : Form) (span : Span) (text : String) : Node := .form form span [text] []

/-- A name as an expression. -/
def name : Parse Node := do
  let lo ← here
  let text ← nameText
  require !((← context).inField && text = "arguments")
  return leaf .name (← spanFrom lo) text

/-- A name that need not be bindable. -/
def freeName : Parse Node := do
  let lo ← here
  let text ← nameText
  return leaf .name (← spanFrom lo) text

/-- A name that is bound. -/
def boundName : Parse Node := do
  let lo ← here
  let text ← boundText
  return leaf .name (← spanFrom lo) text

/-- Any word as a name, as behind a dot. -/
def anyName : Parse Node := do
  let lo ← here
  let text ← wordText
  return leaf .name (← spanFrom lo) text

/-- A text in quotes. -/
def textLiteral : Parse Node := do
  match ← get with
  | { token := .text raw value, start, stop, .. } =>
    require (!(← context).strict || (unescape false raw).isSome)
    advance
    return .str ⟨start, stop⟩ value (some raw)
  | _ => fail

/-- A number. -/
def numberLiteral : Parse Node := do
  let lo ← here
  match ← token with
  | .number raw =>
    require (!(← context).strict || !isLegacyNumber raw.toList)
    advance
    return leaf .literal (← spanFrom lo) raw
  | _ => fail

/-- A node of a form from a place to the end of what has been read. -/
def finish (form : Form) (lo : Nat) (words : List String) (parts : List Node) : Parse Node := do
  return .form form (← spanFrom lo) words parts

/-! ## Rules by name -/

/-- The recursive rules of the grammar. -/
inductive Goal where
  /-- Expressions with commas between them. -/
  | expressions
  /-- One expression. -/
  | expression
  /-- An operand with the operators that bind more tightly than the given ones. -/
  | operand (power : Nat)
  | unary
  /-- What can be called or have members, and whether calls belong to it. -/
  | callee (calls : Bool)
  | pattern
  /-- An element of markup, up to the sign that ends it. -/
  | element
  /-- A statement; declarations are statements only where `single` is off. -/
  | statement (single : Bool)
  /-- An item of a module. -/
  | item
  | block
  | type
  /-- A type without operators. -/
  | simpleType
deriving DecidableEq, Repr

/-- The recursive rules one level down. -/
abbrev Rules := Goal → Parse Node

end Script

end ClassVeil
