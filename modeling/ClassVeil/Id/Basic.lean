/-!
# Ids

An id is a word of ASCII letters, so it needs no escaping in a selector and no quoting in markup.
Ids come from a generator, which is asked for a candidate of a class and the number of candidates
that were turned down before.

A generator is a function. The one that draws at random is given its stream beforehand and takes the
candidate whose number is the number of candidates before it, so that random ids are as repeatable
in a proof as stable ones.

## Main definitions

* `alphabet`: the 52 letters.
* `letter?`: the letter that a byte stands for; 48 bytes stand for none, so all letters are
  equally likely.
* `ByteStream.sample?`, `lettersOf`: the first letters in a stream of bytes.
* `Generator`: a source of candidates.
* `random`: the generator that draws from a stream.
-/

namespace ClassVeil

namespace Id

/-- The letters of ids, small ones first. -/
def alphabet : List Char :=
  "abcdefghijklmnopqrstuvwxyzABCDEFGHIJKLMNOPQRSTUVWXYZ".toList

/-- The letter that a byte stands for. 256 = 4 · 52 + 48, so the 48 greatest bytes are turned
    down and every letter has four bytes. -/
def letter? (b : UInt8) : Option Char :=
  if b < 208 then alphabet[b.toNat % 52]? else none

/-- A stream of bytes, which has no end. -/
abbrev ByteStream := Nat → UInt8

/-- The letters for which the bytes from `pos` on stand, until there are `need` of them. A stream
    with fewer letters is searched without end, and there is no answer. -/
def ByteStream.sample? (stream : ByteStream) (pos need : Nat) : Option (List Char) :=
  match need with
  | 0 => some []
  | need + 1 =>
    match letter? (stream pos) with
    | some c => do return c :: (← stream |>.sample? (pos + 1) need)
    | none => stream |>.sample? (pos + 1) (need + 1)
partial_fixpoint

/-- The first `n` letters in a stream of bytes. Where the search for them has no end nobody ever
    gets to see a value; here some word of that length stands for it. -/
def lettersOf (stream : Nat → UInt8) (n : Nat) : List Char :=
  match ByteStream.sample? stream 0 n with
  | some word => word
  | none => List.replicate n 'a'

/-- A source of candidates: what it offers for a class when `attempt` candidates have been turned
    down for it and `drawn` candidates have been offered in all. -/
abbrev Generator := (name : String) → (attempt drawn : Nat) → String

/-- The generator that offers the words of a stream, whatever the class is. -/
def random (stream : Nat → String) : Generator := fun _ _ drawn => stream drawn

end Id

end ClassVeil
