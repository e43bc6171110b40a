import ClassVeil.ClassMap
import ClassVeil.Selector.Escape

/-!
# The reverse index

A stylesheet names classes by selectors. The index sends the selector of each class of a map to
the selector of its id. Escaping is injective, so no two classes share a selector.

A selector can be spelled in many ways, and the index has only the one that escaping gives. It is
asked with that one, made from the name of a class, so the spelling in the stylesheet does not come
in.

## Main definitions

* `ReverseIndex`: the pairs of selectors.
* `ReverseIndex.ofMap`, `ReverseIndex.lookup`: the index of a map, and looking a selector up.
-/

namespace ClassVeil

/-- Pairs of the selector of a class and the selector of its id. -/
structure ReverseIndex where
  selectors : ClassMap
deriving DecidableEq, Repr

namespace ReverseIndex

/-- The index of a map. -/
def ofMap (m : ClassMap) : ReverseIndex :=
  ⟨ClassMap.ofPairs (m.map fun (name, id) => (Selector.ofClass name, "." ++ id))⟩

/-- The selector of the id, given the selector of a class. -/
def lookup (index : ReverseIndex) (selector : String) : Option String :=
  index.selectors.get? selector

/-- The number of selectors. -/
def size (index : ReverseIndex) : Nat := index.selectors.length

/-- There is no selector. -/
def isEmpty (index : ReverseIndex) : Bool := index.selectors.isEmpty

end ReverseIndex

end ClassVeil
