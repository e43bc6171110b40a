import ClassVeil.Css.Rename
import ClassVeil.Proofs.Css.Index
import Mathlib.Algebra.GroupWithZero.Nat

/-!
# The heads of the rules

The renaming of a stylesheet looks at one thing only, what stands before the block of a rule. The
heads of all rules, listed in the order of the source and at any depth, are therefore a view of the
stylesheet on which the renaming is a plain map: the rule in some place of the list before is the
rule in the same place after.

The renaming goes through the tree once, and what it does to a head does not depend on any other
one. So the tree that it answers is the old one with something done to each head (`mapHeads`), and
the number that it answers is a sum over the heads.

All inductions over a stylesheet are here, in pairs, one over its parts and one over lists of them.
Three kinds of parts have a block and must be gone into, and the others hold no rule. Whoever needs
to know what a renaming does uses the equation `renameWithMap_eq` and the list of heads, and does
not see the tree any more.

Whether a map has any pairs makes a difference to the code, which does not look at the stylesheet if
it has none. It makes no difference to the result, since an empty index renames no head.

## Main definitions

* `heads`: What stands before the blocks of the rules of a stylesheet.
* `mapHeads`: A stylesheet with something done to each of its heads, and to nothing else.
* `classHead`: What stands there if the rule is about one class.

## Theorems

* `heads_mapHeads`: What is done to the heads is done to the list of heads.
* `renameNodes_eq`: Renaming the parts of a stylesheet renames each head.
* `renameWithMap_eq`: The same for a map, the empty one included.
* `renameHead_classHead`: The rule of a class becomes the rule of its id, or stays.
-/

namespace ClassVeil

namespace Css

mutual

/-- The heads of the rules in a part of a stylesheet. -/
def nodeHeads : Node → List RuleHead
  | .rule head block => head :: heads block
  | .keyframe _ block => heads block
  | .atRule _ block => heads block
  | .atStatement _ | .verbatim _ | .declaration _ | .invalid _ => []

/-- The heads of the rules of a stylesheet, in the order of the source and at any depth. -/
def heads : List Node → List RuleHead
  | [] => []
  | node :: rest => nodeHeads node ++ heads rest

end

mutual

/-- A part of a stylesheet with something done to the head of each rule. -/
def mapNodeHeads (f : RuleHead → RuleHead) : Node → Node
  | .rule head block => .rule (f head) (mapHeads f block)
  | .keyframe steps block => .keyframe steps (mapHeads f block)
  | .atRule head block => .atRule head (mapHeads f block)
  | .atStatement head => .atStatement head
  | .verbatim phrase => .verbatim phrase
  | .declaration phrase => .declaration phrase
  | .invalid phrase => .invalid phrase

/-- A stylesheet with something done to the head of each rule, at any depth. -/
def mapHeads (f : RuleHead → RuleHead) : List Node → List Node
  | [] => []
  | node :: rest => mapNodeHeads f node :: mapHeads f rest

end

mutual

theorem nodeHeads_mapNodeHeads (f : RuleHead → RuleHead) (node : Node) :
    nodeHeads (mapNodeHeads f node) = (nodeHeads node).map f := by
  cases node with
  | rule head block =>
      rw [mapNodeHeads, nodeHeads, nodeHeads, List.map_cons, heads_mapHeads f block]
  | keyframe steps block => rw [mapNodeHeads, nodeHeads, nodeHeads, heads_mapHeads f block]
  | atRule head block => rw [mapNodeHeads, nodeHeads, nodeHeads, heads_mapHeads f block]
  | atStatement head => rfl
  | verbatim phrase => rfl
  | declaration phrase => rfl
  | invalid phrase => rfl

/-- What is done to the heads is done to the list of heads, and they keep their places. The order of
    the list is that in which the tree is gone through, so nothing has to be moved. -/
theorem heads_mapHeads (f : RuleHead → RuleHead) (nodes : List Node) :
    heads (mapHeads f nodes) = (heads nodes).map f := by
  cases nodes with
  | nil => rfl
  | cons node rest =>
      rw [mapHeads, heads, heads, List.map_append, nodeHeads_mapNodeHeads f node,
        heads_mapHeads f rest]

end

mutual

theorem mapNodeHeads_mapNodeHeads (g f : RuleHead → RuleHead) (node : Node) :
    mapNodeHeads g (mapNodeHeads f node) = mapNodeHeads (g ∘ f) node := by
  cases node with
  | rule head block =>
      rw [mapNodeHeads, mapNodeHeads, mapNodeHeads, mapHeads_mapHeads g f block]
      rfl
  | keyframe steps block =>
      rw [mapNodeHeads, mapNodeHeads, mapNodeHeads, mapHeads_mapHeads g f block]
  | atRule head block =>
      rw [mapNodeHeads, mapNodeHeads, mapNodeHeads, mapHeads_mapHeads g f block]
  | atStatement head => rfl
  | verbatim phrase => rfl
  | declaration phrase => rfl
  | invalid phrase => rfl

theorem mapHeads_mapHeads (g f : RuleHead → RuleHead) (nodes : List Node) :
    mapHeads g (mapHeads f nodes) = mapHeads (g ∘ f) nodes := by
  cases nodes with
  | nil => rfl
  | cons node rest =>
      rw [mapHeads, mapHeads, mapHeads, mapNodeHeads_mapNodeHeads g f node,
        mapHeads_mapHeads g f rest]

end

/-! ### Renaming -/

/-- The number of rules among some heads that an index renames. -/
def countRenamed (index : ReverseIndex) (list : List RuleHead) : Nat :=
  (list.map fun head => (renameHead index head).2).sum

theorem countRenamed_append (index : ReverseIndex) (list more : List RuleHead) :
    countRenamed index (list ++ more) = countRenamed index list + countRenamed index more := by
  rw [countRenamed, List.map_append, List.sum_append]
  rfl

mutual

theorem renameNode_eq (index : ReverseIndex) (node : Node) :
    renameNode index node = (mapNodeHeads (fun head => (renameHead index head).1) node,
      countRenamed index (nodeHeads node)) := by
  cases node with
  | rule head block => rw [renameNode, renameNodes_eq index block]; rfl
  | keyframe steps block => rw [renameNode, renameNodes_eq index block]; rfl
  | atRule head block => rw [renameNode, renameNodes_eq index block]; rfl
  | atStatement head => rfl
  | verbatim phrase => rfl
  | declaration phrase => rfl
  | invalid phrase => rfl

/-- Renaming the parts of a stylesheet renames each head, does nothing else, and counts the heads
    that were renamed. The recursion of the renaming is that of `mapHeads`, with the counts being
    added up on the way. -/
theorem renameNodes_eq (index : ReverseIndex) (nodes : List Node) :
    renameNodes index nodes = (mapHeads (fun head => (renameHead index head).1) nodes,
      countRenamed index (heads nodes)) := by
  cases nodes with
  | nil => rfl
  | cons node rest =>
      rw [renameNodes, renameNode_eq index node, renameNodes_eq index rest, heads,
        countRenamed_append]
      rfl

end

theorem rename?_ofMap (map : ClassMap) (hmap : map.names.Nodup) (name : List Char) :
    rename? (ReverseIndex.ofMap map) name
      = (map.get? (String.ofList name)).map String.toList := by
  rw [rename?, ReverseIndex.lookup_ofClass map hmap, Option.map_map]
  congr 1
  funext id
  simp only [Function.comp_apply, String.toList_append]
  rfl

/-- What stands before the block of a rule that is about one class; `raw` is the way in which the
    source spells the class, if it is there. -/
def classHead (name : List Char) (raw : Option (List Char)) : RuleHead :=
  .selectors (classSelector name raw)

/-- The rule of a class becomes the rule of its id, which is not spelled in the source. Without an
    id it stays as it is, spelling included. -/
theorem renameHead_classHead (map : ClassMap) (hmap : map.names.Nodup) (name : List Char)
    (raw : Option (List Char)) :
    (renameHead (ReverseIndex.ofMap map) (classHead name raw)).1
      = classHead (map.renamed name) (if String.ofList name ∈ map.names then none else raw) := by
  rw [classHead, classHead, renameHead, ClassMap.renamed]
  simp only [singleClass?, classSelector, Option.bind_some, rename?_ofMap map hmap]
  -- The index answers for the class what the map answers, and then gives it without the full stop.
  cases hid : map.get? (String.ofList name) with
  | none =>
      rw [if_neg ((map.get?_eq_none_iff _).mp hid)]
      rfl
  | some id =>
      rw [if_pos (map.mem_names_of_mem _ id (map.mem_of_get? _ id hid))]
      rfl

mutual

theorem mapNodeHeads_id (node : Node) : mapNodeHeads id node = node := by
  cases node with
  | rule head block => rw [mapNodeHeads, mapHeads_id block, id_eq]
  | keyframe steps block => rw [mapNodeHeads, mapHeads_id block]
  | atRule head block => rw [mapNodeHeads, mapHeads_id block]
  | atStatement head => rfl
  | verbatim phrase => rfl
  | declaration phrase => rfl
  | invalid phrase => rfl

theorem mapHeads_id (nodes : List Node) : mapHeads id nodes = nodes := by
  cases nodes with
  | nil => rfl
  | cons node rest => rw [mapHeads, mapNodeHeads_id node, mapHeads_id rest]

end

/-- An index without selectors renames no head. -/
theorem renameHead_of_isEmpty (index : ReverseIndex) (hempty : index.isEmpty = true)
    (head : RuleHead) : renameHead index head = (head, 0) := by
  have hnone : ∀ name, rename? index name = none := by
    intro name
    rw [ReverseIndex.isEmpty, List.isEmpty_iff] at hempty
    rw [rename?, ReverseIndex.lookup, hempty]
    rfl
  cases head with
  | selectors list =>
      rw [renameHead]
      cases singleClass? list with
      | none => rfl
      | some name => simp only [Option.bind_some, hnone]
  | relative phrase => rfl
  | invalid phrase => rfl

/-- A stylesheet renamed by a map. Without any pair the index is empty and the stylesheet is not
    looked at, which comes to the same. -/
theorem renameWithMap_eq (map : ClassMap) (sheet : Stylesheet) :
    renameWithMap map sheet
      = (mapHeads (fun head => (renameHead (ReverseIndex.ofMap map) head).1) sheet,
        countRenamed (ReverseIndex.ofMap map) (heads sheet)) := by
  rw [renameWithMap]
  -- With an empty index nothing is done and nothing counted, on both sides.
  by_cases hempty : (ReverseIndex.ofMap map).isEmpty = true
  · simp only [hempty, if_true, renameHead_of_isEmpty _ hempty, countRenamed, List.map_const',
      List.sum_replicate_nat, Nat.mul_zero]
    exact congrArg (fun nodes => (nodes, 0)) (mapHeads_id sheet).symm
  · simp only [hempty]
    exact renameNodes_eq _ sheet

/-- The heads of a renamed stylesheet. -/
theorem heads_renameWithMap (map : ClassMap) (sheet : Stylesheet) :
    heads (renameWithMap map sheet).1
      = (heads sheet).map (fun head => (renameHead (ReverseIndex.ofMap map) head).1) := by
  rw [renameWithMap_eq, heads_mapHeads]

end Css

end ClassVeil
