import ClassVeil.Config.Basic
import ClassVeil.Json.Value

/-!
# Configuration as JSON

The settings are an object with a key for each of them, or a list of their values in a fixed order.
What is left out has its default and unknown keys are skipped, but a setting must not be given
twice.

## Main definitions

* `Config.read`: the settings of a JSON text.
* `Config.readValid`: the same, refusing ids that are too short.
-/

namespace ClassVeil

namespace Config

open Json

/-- A setting. -/
inductive Field where
  | mapPath
  | idLength
  | idMode
  | collisionPolicy
  | flushDebounceMs
deriving DecidableEq, Repr

namespace Field

/-- The settings, in the order in which a list gives them. -/
def all : List Field := [mapPath, idLength, idMode, collisionPolicy, flushDebounceMs]

/-- The key of a setting. -/
def key : Field → String
  | mapPath => "mapPath"
  | idLength => "idLength"
  | idMode => "idMode"
  | collisionPolicy => "collisionPolicy"
  | flushDebounceMs => "flushDebounceMs"

/-- The setting with a key. -/
def ofKey? (key : String) : Option Field := all.find? (·.key = key)

end Field

/-- One of two names, which begins here as a string. -/
def readName {α : Type} (first second : String × α) (c : Cursor) : Result α :=
  match readText "variant identifier" c with
  | .error e => .error e
  | .ok (name, c) =>
    if name = first.1 then .ok (first.2, c)
    else if name = second.1 then .ok (second.2, c)
    else c.fail (.unknownVariant name first.1 second.1)

/-- One of two names: a string, or an object that sends the name to `null`. -/
def readChoice {α : Type} (first second : String × α) (c : Cursor) : Except Error (α × Cursor) :=
  let c := c.skipSpace
  match c.peek? with
  | none => c.failNext .endInValue
  | some x =>
    if x = '"' then readName first second c
    else if x ≠ '\x7b' then c.failNext .expectedValue
    else do
      let (choice, c) ← readName first second c.advance
      let c ← readColon c
      let c ← readNull "unit" c
      let c := c.skipSpace
      match c.peek? with
      | none => c.fail .endInObject
      | some y => if y = '\x7d' then .ok (choice, c.advance) else c.fail .expectedValue

/-- A number, or `null` for none. -/
def readOptional (c : Cursor) : Result (Option Nat) :=
  let c := c.skipSpace
  if c.at 'n' then (expectWord "ull".toList c.advance).map (none, ·)
  else (readNatural "u64" c).map fun (n, c) => (some n, c)

/-- The settings with the value of one setting read into them. -/
def readField (config : Config) (field : Field) (c : Cursor) : Result Config :=
  match field with
  | .mapPath => (readText "path string" c).map fun (v, c) => ({ config with mapPath := v }, c)
  | .idLength => (readNatural "usize" c).map fun (v, c) => ({ config with idLength := v }, c)
  | .idMode => (readChoice ("random", IdMode.random) ("stable", IdMode.stable) c).map
      fun (v, c) => ({ config with idMode := v }, c)
  | .collisionPolicy =>
    (readChoice ("regenerate", CollisionPolicy.regenerate) ("allow", CollisionPolicy.allow) c).map
      fun (v, c) => ({ config with collisionPolicy := v }, c)
  | .flushDebounceMs => (readOptional c).map fun (v, c) => ({ config with flushDebounceMs := v }, c)

/-- The error about a setting that is given twice. It concerns the object as a whole, so it is
    noticed behind the blanks that follow the key, and behind the object if that ends there. -/
def failTwice {α : Type} (field : Field) (c : Cursor) : Except Error α :=
  let c := c.skipSpace
  (if c.at '\x7d' then c.advance else c).fail (.duplicateField field.key)

/-- The entries of an object whose opening bracket has been read. -/
def readEntries : Nat → Bool → List Field → Config → Cursor → Result Config
  | 0, _, _, config, c => .ok (config, c)
  | fuel + 1, first, seen, config, c =>
    match readKey? first c with
    | .error e => .error e
    | .ok (none, c) => .ok (config, c)
    | .ok (some key, c) =>
      match Field.ofKey? key with
      | none =>
        match readColon c >>= skipValue with
        | .error e => .error e
        | .ok c => readEntries fuel false seen config c
      | some field =>
        if field ∈ seen then failTwice field c
        else
          match readColon c >>= readField config field with
          | .error e => .error e
          | .ok (config, c) => readEntries fuel false (field :: seen) config c

/-- The items of a list whose opening bracket has been read, for the settings still to come. -/
def readItems : List Field → Bool → Config → Cursor → Result Config
  | [], _, config, c => .ok (config, c)
  | field :: fields, first, config, c =>
    match readItem? first c with
    | .error e => .error e
    | .ok (false, c) => .ok (config, c)
    | .ok (true, c) =>
      match readField config field c with
      | .error e => .error e
      | .ok (config, c) => readItems fields false config c

/-- The settings of a JSON text. -/
def read (text : List Char) : Except Error Config := do
  let c := (Cursor.ofChars text).skipSpace
  match c.peek? with
  | none => c.failNext .endInValue
  | some x =>
    if x = '\x7b' then
      let (config, c) ← readEntries (text.length + 1) true [] {} c.advance
      let c ← endObject c
      endText c
      return config
    else if x = '[' then
      let (config, c) ← readItems Field.all true {} c.advance
      let c ← endList c
      endText c
      return config
    else mismatch "struct RandomizerConfig" c

/-- The settings of a JSON text, unless they ask for ids that are too short. -/
def readValid (text : List Char) : Except Error Config := do
  let config ← read text
  if config.isValid then return config
  else throw ⟨.rejected (invalidIdLength config.idLength), none⟩

end Config

end ClassVeil
