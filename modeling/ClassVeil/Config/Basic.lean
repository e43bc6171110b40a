/-!
# Configuration

A project says where its class map is kept, how long ids are and how they are made, what happens
when two classes get the same id, and whether the map is written after each change or only after a
quiet period.

## Main definitions

* `Config`: the settings, with their defaults.
* `Config.isValid`: ids must not be too short to be told apart.
* `TransformOptions.ofConfig`: what the settings mean for the renaming of classes in markup.
-/

namespace ClassVeil

/-- How ids are made. -/
inductive IdMode where
  | random
  | stable
deriving DecidableEq, Repr

/-- What happens when a candidate is the id of another class. -/
inductive CollisionPolicy where
  | regenerate
  | allow
deriving DecidableEq, Repr

/-- The settings of a project. -/
structure Config where
  mapPath : String := ".next/class-map.json"
  idLength : Nat := 8
  idMode : IdMode := .random
  collisionPolicy : CollisionPolicy := .regenerate
  flushDebounceMs : Option Nat := none
deriving DecidableEq, Repr

namespace Config

/-- The shortest ids that are allowed. -/
def minIdLength : Nat := 4

/-- Ids are long enough. -/
def isValid (c : Config) : Bool := minIdLength ≤ c.idLength

end Config

/-- The setting that a length of ids violates. -/
def invalidIdLength (length : Nat) : String :=
  "invalid idLength " ++ toString length ++ ": must be at least " ++ toString Config.minIdLength

/-- How the classes of markup are renamed. -/
structure TransformOptions where
  classAttributes : List String := ["className"]
  flushAfterTransform : Bool := true
deriving DecidableEq, Repr

/-- The map is written after each renaming unless a quiet period is set. -/
def TransformOptions.ofConfig (c : Config) : TransformOptions :=
  ⟨["className"], c.flushDebounceMs.isNone⟩

end ClassVeil
