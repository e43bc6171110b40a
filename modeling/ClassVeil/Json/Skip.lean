import ClassVeil.Json.Number
import ClassVeil.Json.Text

/-!
# Skipping a JSON value

The value of an unknown key is not looked at, but it has to be one. The brackets that are open are
kept on a stack, so a value may be nested as deep as it likes.

## Main definitions

* `expectWord`: the rest of `null`, `true` or `false`.
* `skipValue`: the cursor behind a value.
-/

namespace ClassVeil

namespace Json

/-- The cursor behind the given characters. -/
def expectWord : List Char → Cursor → Except Error Cursor
  | [], c => .ok c
  | x :: word, c =>
    match c.peek? with
    | none => c.fail .endInValue
    | some y => if x = y then expectWord word c.advance else c.advance.fail .expectedIdent

/-- A bracket that is open. -/
inductive Frame where
  | list
  | object
deriving DecidableEq, Repr

/-- The character that closes a frame. -/
def Frame.closing : Frame → Char
  | list => ']'
  | object => '\x7d'

/-- The error when a frame goes on without a comma. -/
def Frame.expected : Frame → Cause
  | list => .expectedListCommaOrEnd
  | object => .expectedObjectCommaOrEnd

/-- The error when the text ends inside a frame. -/
def Frame.unclosed : Frame → Cause
  | list => .endInList
  | object => .endInObject

/-- Where a skipped value stands. -/
inductive Phase where
  /-- A value starts. -/
  | value
  /-- An item of the innermost frame starts. -/
  | item
  /-- The innermost frame has just been opened. -/
  | opened
  /-- An item of the innermost frame has just ended. -/
  | behind
deriving DecidableEq, Repr

/-- The cursor behind a value that is no list and no object; the second part tells which of the
    two starts instead. -/
def skipScalar (c : Cursor) : Except Error (Cursor × Option Frame) :=
  match c.peek? with
  | none => c.failNext .endInValue
  | some x =>
    if x = 'n' then return (← expectWord "ull".toList c.advance, none)
    else if x = 't' then return (← expectWord "rue".toList c.advance, none)
    else if x = 'f' then return (← expectWord "alse".toList c.advance, none)
    else if x = '-' then return (← skipNumber c.advance, none)
    else if x.isDigit then return (← skipNumber c, none)
    else if x = '"' then return (← skipString c.advance, none)
    else if x = '[' then return (c.advance, some .list)
    else if x = '\x7b' then return (c.advance, some .object)
    else c.failNext .expectedValue

/-- The cursor behind a key and its colon. -/
def skipKey (c : Cursor) : Except Error Cursor := do
  let c := c.skipSpace
  match c.peek? with
  | none => c.failNext .endInObject
  | some x =>
    if x ≠ '"' then c.failNext .keyMustBeString
    else
      let c ← skipString c.advance
      let c := c.skipSpace
      match c.peek? with
      | none => c.failNext .endInObject
      | some y => if y = ':' then .ok c.advance else c.failNext .expectedColon

/-- The cursor behind the value that is under way; every step but those from `item` to `value`
    consumes a character. -/
def skipFrom : Nat → Phase → List Frame → Cursor → Except Error Cursor
  | 0, _, _, c => .ok c
  | fuel + 1, .value, frames, c => do
    let (c, inner) ← skipScalar c.skipSpace
    match inner, frames with
    | some frame, _ => skipFrom fuel .opened (frame :: frames) c
    | none, [] => .ok c
    | none, _ :: _ => skipFrom fuel .behind frames c
  | _ + 1, _, [], c => .ok c
  | fuel + 1, .item, frame :: frames, c => do
    let c ← if frame = .object then skipKey c else pure c
    skipFrom fuel .value (frame :: frames) c
  | fuel + 1, phase, frame :: frames, c =>
    let c := c.skipSpace
    match c.peek? with
    | none => c.failNext frame.unclosed
    | some x =>
      if x = ',' ∧ phase = .behind then skipFrom fuel .item (frame :: frames) c.advance
      else if x = frame.closing then
        if frames = [] then .ok c.advance else skipFrom fuel .behind frames c.advance
      else if phase = .behind then c.failNext frame.expected
      else skipFrom fuel .item (frame :: frames) c

/-- The cursor behind a value. -/
def skipValue (c : Cursor) : Except Error Cursor :=
  skipFrom (3 * c.rest.length + 3) .value [] c

end Json

end ClassVeil
