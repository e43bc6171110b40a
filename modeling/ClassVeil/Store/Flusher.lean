import ClassVeil.Store.Basic

/-!
# The debounced flusher

When ids are assigned in quick succession, one write at the end is enough. A flusher watches a
store from the background and writes it once it has been left alone for a quiet period. Stopping
the flusher writes what is left.

A round decides by two things: whether there is something to be written, and how long ago the last
id was assigned. Time is a number that is given from outside, and nothing here waits.

## Main definitions

* `Flusher`, `Flusher.ofConfig`: a flusher and its quiet period.
* `Flusher.isRested`, `Flusher.isDue`: the decision to write.
* `Flusher.tick`: one round of the background.
* `Flusher.stop`: the final write.
-/

namespace ClassVeil

/-- A flusher at work. -/
structure Flusher where
  /-- How long a store has to be left alone before it is written. -/
  quiet : Nat
  /-- The last failure of the background that nobody has taken. -/
  lastError : Option StoreError := none
deriving DecidableEq, Repr

namespace Flusher

/-- The flusher that a configuration asks for. -/
def ofConfig (c : Config) : Option Flusher := c.flushDebounceMs.map fun quiet => { quiet }

/-- The store has been left alone for the quiet period. -/
def isRested (f : Flusher) (s : Store) : Bool :=
  match s.memory.lastMutation with
  | some time => f.quiet ≤ s.memory.now - time
  | none => false

/-- The store has unwritten ids and has been left alone for the quiet period. -/
def isDue (f : Flusher) (s : Store) : Bool := s.isDirty && f.isRested s

/-- One round of the background: a write if one is due; its failure is kept. -/
def tick (f : Flusher) (s : Store) (fs : FileSystem) : Flusher × Store × FileSystem :=
  if f.isDue s then
    match s.flush fs with
    | (none, s, fs) => (f, s, fs)
    | (some e, s, fs) => ({ f with lastError := some e }, s, fs)
  else (f, s, fs)

/-- The last failure of the background, which is then forgotten. -/
def takeError (f : Flusher) : Option StoreError × Flusher :=
  (f.lastError, { f with lastError := none })

/-- The end of a flusher, when its background has come to rest: what is left is written, and only
    the failure of this last write counts. -/
def stop (_f : Flusher) (s : Store) (fs : FileSystem) : Option StoreError × Store × FileSystem :=
  s.flushIfDirty fs

end Flusher

end ClassVeil
