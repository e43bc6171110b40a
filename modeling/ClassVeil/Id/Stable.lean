import ClassVeil.Hash.Blake3
import ClassVeil.Id.Basic
import ClassVeil.Text.Utf8

/-!
# Stable ids

A stable id depends on nothing but the class and the attempt, so separate builds agree on it. The
two are hashed, and the hash yields letters.

## Main definitions

* `seed`: the bytes that are hashed, the class and behind it a positive attempt.
* `ofStream`: the id, over any function that makes streams out of seeds.
* `stableId`: the id that BLAKE3 makes.
* `stable`: the generator of these ids.
-/

namespace ClassVeil

namespace Id

/-- The four bytes of a number below 2³², the least first. -/
def littleEndian (n : Nat) : List UInt8 :=
  [n.toUInt8, (n / 256).toUInt8, (n / 65536).toUInt8, (n / 16777216).toUInt8]

/-- The bytes that are hashed. The first attempt hashes the class alone. -/
def seed (name : String) (attempt : Nat) : List UInt8 :=
  Utf8.encode name.toList ++ if attempt = 0 then [] else littleEndian attempt

/-- The id of a class, over any function that makes streams out of seeds. -/
def ofStream (stream : List UInt8 → Nat → UInt8) (length : Nat) (name : String) (attempt : Nat) :
    String :=
  String.ofList (lettersOf (stream (seed name attempt)) length)

/-- The stream that BLAKE3 makes out of a seed. -/
def blake3 (bytes : List UInt8) : Nat → UInt8 :=
  let x := Blake3.xof bytes
  x.byte

/-- The stable id of a class. -/
def stableId (length : Nat) (name : String) (attempt : Nat) : String :=
  ofStream blake3 length name attempt

/-- The generator of stable ids. -/
def stable (length : Nat) : Generator := fun name attempt _ => stableId length name attempt

end Id

end ClassVeil
