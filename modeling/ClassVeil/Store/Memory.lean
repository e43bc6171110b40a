import ClassVeil.ClassMap
import ClassVeil.Config.Basic
import ClassVeil.Id.Basic

/-!
# The assignment of ids

A class gets its id when it is first asked for, and keeps it. Under the policy `regenerate` a
candidate that another class has is turned down, but only so many times: the last candidate is
taken as it is.

So ids are distinct only as long as the last candidate is not needed, and theorems about distinct
ids say when that is. The ids in use are kept in a list of their own besides the map; that the two
agree is an invariant.

## Main definitions

* `Naming`: the policy and the generator.
* `Memory`: the map, the ids in use, and counters that tell how much of the map has been written.
* `freshId`: the id for a new class.
* `Memory.getOrCreate`: the id of a class, new or old.
-/

namespace ClassVeil

/-- How new ids are found. -/
structure Naming where
  policy : CollisionPolicy
  generate : Id.Generator

/-- How many candidates are drawn for one class at most. -/
def maxAttempts : Nat := 64

/-- What a store remembers. -/
structure Memory where
  map : ClassMap := []
  /-- The ids in use. -/
  assigned : List String := []
  /-- The number of changes to the map. -/
  generation : Nat := 0
  /-- The number of changes that have been written. -/
  flushedGeneration : Nat := 0
  /-- The time of the last change. -/
  lastMutation : Option Nat := none
  /-- The number of candidates that have been drawn. -/
  drawn : Nat := 0
  /-- The present time. -/
  now : Nat := 0
deriving Repr

/-- A candidate for the attempt `maxAttempts - left - 1` and later ones, until one is good or none
    is left; with it the number of candidates drawn. -/
def freshIdFrom (naming : Naming) (assigned : List String) (name : String) :
    (left drawn : Nat) → String × Nat
  | 0, drawn => (naming.generate name (maxAttempts - 1) drawn, drawn + 1)
  | left + 1, drawn =>
    let candidate := naming.generate name (maxAttempts - 1 - (left + 1)) drawn
    if naming.policy = .allow ∨ candidate ∉ assigned then (candidate, drawn + 1)
    else freshIdFrom naming assigned name left (drawn + 1)

/-- The id for a new class, and the number of candidates drawn so far. -/
def freshId (naming : Naming) (assigned : List String) (name : String) (drawn : Nat) :
    String × Nat :=
  freshIdFrom naming assigned name (maxAttempts - 1) drawn

namespace Memory

/-- The id of a class that has one. -/
def get? (m : Memory) (name : String) : Option String := m.map.get? name

/-- The id of a class, which gets one if it has none. -/
def getOrCreate (naming : Naming) (m : Memory) (name : String) : String × Memory :=
  match m.get? name with
  | some id => (id, m)
  | none =>
    let (id, drawn) := freshId naming m.assigned name m.drawn
    (id, { m with
      map := m.map.insert name id
      assigned := id :: m.assigned
      generation := m.generation + 1
      lastMutation := some m.now
      drawn })

/-- The ids of several classes, asked for one after the other. -/
def getOrCreateAll (naming : Naming) : Memory → List String → List String × Memory
  | m, [] => ([], m)
  | m, name :: rest =>
    let (id, m) := getOrCreate naming m name
    let (ids, m) := getOrCreateAll naming m rest
    (id :: ids, m)

/-- There are changes that have not been written. -/
def isDirty (m : Memory) : Bool := m.generation != m.flushedGeneration

/-- The memory when the changes up to a generation have been written. -/
def markFlushed (m : Memory) (generation : Nat) : Memory :=
  if m.flushedGeneration < generation then { m with flushedGeneration := generation } else m

end Memory

end ClassVeil
