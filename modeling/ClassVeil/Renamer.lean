import ClassVeil.Store.Memory
import ClassVeil.Text.Blank

/-!
# Renaming the classes of an attribute

A class attribute is a list of words. Renaming puts the id of each word in its place and sets the
ids apart by single spaces. A text without words is left alone, so that nothing but class names
changes.

A renamer belongs to one file. It knows the classes that it has met there, and asks the memory of
the store, which all files share, for those it has not.

## Main definitions

* `Replacement`: a renaming of texts that carries a state along.
* `Renamer`, `Renamer.mapClass`: the classes met so far, and the id of one more.
* `renameClasses`: the renaming of a whole attribute.
* `renameFragment`: the renaming of a part of one, which may have to stay apart from its
  neighbours.
-/

namespace ClassVeil

/-- A renaming of texts that carries a state along; `none` leaves a text alone. -/
abbrev Replacement (σ : Type) := List Char → σ → Option (List Char) × σ

/-- The memory of the store, and the classes met in one file with their ids. -/
structure Renamer where
  memory : Memory
  seen : ClassMap := []

/-- Texts set apart by single spaces. -/
def joinWords : List (List Char) → List Char
  | [] => []
  | [word] => word
  | word :: rest => word ++ ' ' :: joinWords rest

/-- A single space if the text has a character at this end and that is blank. -/
def edge (c : Option Char) : List Char := if c.any Text.isBlank then [' '] else []

namespace Renamer

variable (naming : Naming)

/-- The id of a class. -/
def mapClass (name : String) (r : Renamer) : String × Renamer :=
  match r.seen.get? name with
  | some id => (id, r)
  | none =>
    let (id, memory) := r.memory.getOrCreate naming name
    (id, ⟨memory, r.seen.insert name id⟩)

/-- The ids of several classes, asked for one after the other. -/
def mapClasses : List (List Char) → Renamer → List (List Char) × Renamer
  | [], r => ([], r)
  | word :: rest, r =>
    let (id, r) := mapClass naming (String.ofList word) r
    let (ids, r) := mapClasses rest r
    (id.toList :: ids, r)

/-- The ids of the words of a text, if it has any. -/
def renameClasses : Replacement Renamer := fun text r =>
  match Text.words text with
  | [] => (none, r)
  | words =>
    let (ids, r) := mapClasses naming words r
    (some (joinWords ids), r)

/-- The same with a space at each end where the text has a blank. -/
def renameFragment : Replacement Renamer := fun text r =>
  match renameClasses naming text r with
  | (none, r) => (none, r)
  | (some ids, r) => (some (edge text.head? ++ ids ++ edge text.getLast?), r)

end Renamer

end ClassVeil
