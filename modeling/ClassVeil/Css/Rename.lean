import ClassVeil.Css.Index
import ClassVeil.Css.Tree

/-!
# Renaming the classes of a stylesheet

The class of a rule is renamed when its whole selector is a single class that the map knows: the
class becomes its id. A class beside anything else is left alone, because the rule then depends
on more than one name.

The map is asked for the name of the class, so it does not matter how the source spells it, with
escapes or without. The id has no spelling of its own, since it is not in the source; a class that
is left alone keeps the one that it has.

## Main definitions

* `singleClass?`: the class that a list of selectors consists of.
* `classSelector`: the selector that consists of one class.
* `renameHead`: what stands before a block, with its class renamed.
* `renameWithMap`: a stylesheet with its classes renamed, and the number of rules that changed.
-/

namespace ClassVeil

namespace Css

/-- The class that a list of selectors consists of, if it is nothing but one class. -/
def singleClass? : List Complex → Option (List Char)
  | [[.compound ⟨false, none, [.className name _]⟩]] => some name
  | _ => none

/-- The selectors that consist of one class. -/
def classSelector (name : List Char) (raw : Option (List Char)) : List Complex :=
  [[.compound ⟨false, none, [.className name raw]⟩]]

/-- The name that the index gives to a class; the selector of an id begins with a full stop. -/
def rename? (index : ReverseIndex) (name : List Char) : Option (List Char) :=
  (index.lookup (Selector.ofClass (String.ofList name))).map fun target => target.toList.drop 1

/-- What stands before the block of a rule, with its class renamed; and the number of changes. The
    spelling that the class had in the source goes with its name. -/
def renameHead (index : ReverseIndex) (head : RuleHead) : RuleHead × Nat :=
  match head with
  | .selectors list =>
    match (singleClass? list).bind (rename? index) with
    | some id => (.selectors (classSelector id none), 1)
    | none => (head, 0)
  | .relative _ | .invalid _ => (head, 0)

mutual

/-- A part of a stylesheet with its classes renamed, and the number of rules that changed. -/
def renameNode (index : ReverseIndex) : Node → Node × Nat
  | .rule head block =>
    let (head, n) := renameHead index head
    let (block, m) := renameNodes index block
    (.rule head block, n + m)
  | .keyframe steps block =>
    let (block, m) := renameNodes index block
    (.keyframe steps block, m)
  | .atRule head block =>
    let (block, m) := renameNodes index block
    (.atRule head block, m)
  | .atStatement head => (.atStatement head, 0)
  | .verbatim p => (.verbatim p, 0)
  | .declaration p => (.declaration p, 0)
  | .invalid p => (.invalid p, 0)

/-- Parts of a stylesheet with their classes renamed, and the number of rules that changed. -/
def renameNodes (index : ReverseIndex) : List Node → List Node × Nat
  | [] => ([], 0)
  | node :: rest =>
    let (node, n) := renameNode index node
    let (rest, m) := renameNodes index rest
    (node :: rest, n + m)

end

/-- A stylesheet with its classes renamed by a map, and the number of rules that changed. -/
def renameWithMap (map : ClassMap) (sheet : Stylesheet) : Stylesheet × Nat :=
  let index := ReverseIndex.ofMap map
  if index.isEmpty then (sheet, 0) else renameNodes index sheet

end Css

end ClassVeil
