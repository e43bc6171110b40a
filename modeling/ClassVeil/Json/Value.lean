import ClassVeil.Json.Skip

/-!
# Reading values of a known kind

Every place of a configuration or of a map file asks for one kind of value. A reader skips
blanks, looks at the next character and either reads the value or tells what it found instead;
the value that is found is read first, so an error inside it comes before the error about it.

## Main definitions

* `mismatch`: the error about the value that starts here.
* `readText`, `readNatural`, `readNull`: values of one kind.
* `readKey?`, `readColon`, `endObject`: the punctuation of objects.
* `readItem?`, `endList`: the punctuation of lists.
-/

namespace ClassVeil

namespace Json

/-- The error about the value that starts here, where another kind is expected. -/
def mismatch {α : Type} (expected : String) (c : Cursor) : Except Error α :=
  let wrong (found : Found) (c : Cursor) : Except Error α := c.fail (.invalidType found expected)
  match c.peek? with
  | none => c.failNext .expectedValue
  | some x =>
    if x = 'n' then expectWord "ull".toList c.advance >>= wrong .null
    else if x = 't' then expectWord "rue".toList c.advance >>= wrong (.boolean true)
    else if x = 'f' then expectWord "alse".toList c.advance >>= wrong (.boolean false)
    else if x = '-' then
      readNumber false c.advance >>= fun (n, c) => wrong n.found c
    else if x.isDigit then readNumber true c >>= fun (n, c) => wrong n.found c
    else if x = '"' then readString c.advance >>= fun (s, c) => wrong (.string s) c
    else if x = '[' then wrong .sequence c
    else if x = '\x7b' then wrong .map c
    else c.failNext .expectedValue

/-- A reader of values behind blanks; a text that ends here has no value. -/
def withValue {α : Type} (c : Cursor) (read : Char → Cursor → Except Error α) : Except Error α :=
  let c := c.skipSpace
  match c.peek? with
  | none => c.failNext .endInValue
  | some x => read x c

/-- A string; `expected` names what the place asks for. -/
def readText (expected : String) (c : Cursor) : Result String :=
  withValue c fun x c => if x = '"' then readString c.advance else mismatch expected c

/-- A number that has to be an integer below 2⁶⁴. -/
def asNatural (expected : String) : Number → Cursor → Result Nat
  | .natural n, c => .ok (n, c)
  | .negative n, c => c.fail (.invalidValue (Number.negative n).found expected)
  | .real f, c => c.fail (.invalidType (Number.real f).found expected)

/-- An integer below 2⁶⁴. -/
def readNatural (expected : String) (c : Cursor) : Result Nat :=
  withValue c fun x c =>
    if x = '-' then readNumber false c.advance >>= fun (n, c) => asNatural expected n c
    else if x.isDigit then readNumber true c >>= fun (n, c) => asNatural expected n c
    else mismatch expected c

/-- `null`; `expected` names what the place asks for. -/
def readNull (expected : String) (c : Cursor) : Except Error Cursor :=
  withValue c fun x c =>
    if x = 'n' then expectWord "ull".toList c.advance else mismatch expected c

/-- The colon behind a key. -/
def readColon (c : Cursor) : Except Error Cursor :=
  let c := c.skipSpace
  match c.peek? with
  | none => c.failNext .endInObject
  | some x => if x = ':' then .ok c.advance else c.failNext .expectedColon

/-- The next key of an object, or nothing if its end comes next; `first` when no key has been
    read. -/
def readKey? (first : Bool) (c : Cursor) :
    Except Error (Option String × Cursor) := do
  let c := c.skipSpace
  match c.peek? with
  | none => c.failNext .endInObject
  | some x =>
    if x = '\x7d' then .ok (none, c)
    else if first then
      if x = '"' then
        let (key, c) ← readString c.advance
        .ok (some key, c)
      else c.failNext .keyMustBeString
    else if x = ',' then
      let c := c.advance.skipSpace
      match c.peek? with
      | none => c.failNext .endInValue
      | some y =>
        if y = '"' then
          let (key, c) ← readString c.advance
          .ok (some key, c)
        else if y = '\x7d' then c.failNext .trailingComma
        else c.failNext .keyMustBeString
    else c.failNext .expectedObjectCommaOrEnd

/-- The end of an object. -/
def endObject (c : Cursor) : Except Error Cursor :=
  let c := c.skipSpace
  match c.peek? with
  | none => c.failNext .endInObject
  | some x =>
    if x = '\x7d' then .ok c.advance
    else if x = ',' then c.failNext .trailingComma
    else c.failNext .trailingCharacters

/-- Whether a list goes on, and the cursor before its next item. -/
def readItem? (first : Bool) (c : Cursor) : Result Bool :=
  let c := c.skipSpace
  match c.peek? with
  | none => c.failNext .endInList
  | some x =>
    if x = ']' then .ok (false, c)
    else if first then .ok (true, c)
    else if x = ',' then
      let c := c.advance.skipSpace
      match c.peek? with
      | none => c.failNext .endInValue
      | some y => if y = ']' then c.failNext .trailingComma else .ok (true, c)
    else c.failNext .expectedListCommaOrEnd

/-- The end of a list. -/
def endList (c : Cursor) : Except Error Cursor :=
  let c := c.skipSpace
  match c.peek? with
  | none => c.failNext .endInList
  | some x =>
    if x = ']' then .ok c.advance
    else if x = ',' then
      let c := c.advance.skipSpace
      if c.at ']' then c.failNext .trailingComma else c.failNext .trailingCharacters
    else c.failNext .trailingCharacters

/-- The end of a text: nothing but blanks may follow its value. -/
def endText (c : Cursor) : Except Error Unit :=
  let c := c.skipSpace
  match c.peek? with
  | none => .ok ()
  | some _ => c.failNext .trailingCharacters

end Json

end ClassVeil
