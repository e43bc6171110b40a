import ClassVeil.Proofs.Css.Heads
import Mathlib.Data.List.Forall2

/-!
# What the renaming of a stylesheet changes

A stylesheet falls into two parts: the heads of its rules, in the order of the source, and what is
left when these are taken out, which is the nesting of the rules and all that is no head (`shape`).
Together they make up the stylesheet again, so a change is described by what happens to either.
The renaming leaves the shape alone. Each head is dealt with by itself and once: one that is a
single class of the map becomes the id of that class, even if the id is a class of the map too, and
every other one stays.

A class in the tree has two sides, the name that was read and the way the source spells it, with
escapes or without. The map is asked for the name alone, so two spellings of one class fare alike.
What is put in its place is the id as a name and no spelling at all, since there is none in the
source; a class that stays keeps both.

## Main definitions

* `shape`: A stylesheet without the heads of its rules.
* `Affected`: A head that is a single class of the map.
* `Renames`: What becomes of a head.

## Theorems

* `eq_of_shape_eq`: Shape and heads make up the stylesheet.
* `renameHead_ofMap_cases`: What the renaming does to a head.
* `renames_unique`: There is only one thing that a head can become.
* `countRenamed_ofMap`: The number of renamed rules is the number of affected heads.
* `renameWithMap_exact`: The renamed stylesheet has the old shape, with each head renamed.
-/

namespace ClassVeil

namespace Css

/-! ### Shape and heads -/

/-- A stylesheet without the heads of its rules. -/
def shape (sheet : Stylesheet) : Stylesheet := mapHeads (fun _ => .selectors []) sheet

theorem shape_mapHeads (f : RuleHead → RuleHead) (sheet : Stylesheet) :
    shape (mapHeads f sheet) = shape sheet := mapHeads_mapHeads _ f sheet

theorem length_nodeHeads_eq (f : RuleHead → RuleHead) (node other : Node)
    (h : mapNodeHeads f node = mapNodeHeads f other) :
    (nodeHeads node).length = (nodeHeads other).length := by
  have hlength := congrArg (fun n => (nodeHeads n).length) h
  simpa only [nodeHeads_mapNodeHeads, List.length_map] using hlength

mutual

/-- A node is given by its heads and by what is left of it when these are mapped away. So two nodes
    that agree in both are the same, and a renaming is known if the heads are. -/
theorem node_eq_of_mapNodeHeads_eq (f : RuleHead → RuleHead) (node other : Node)
    (hshape : mapNodeHeads f node = mapNodeHeads f other)
    (hheads : nodeHeads node = nodeHeads other) : node = other := by
  cases node with
  | rule head block =>
      -- What is left when the heads are taken out tells which kind of part it was.
      cases other with
      | rule head' block' =>
          rw [mapNodeHeads, mapNodeHeads, Node.rule.injEq] at hshape
          rw [nodeHeads, nodeHeads, List.cons.injEq] at hheads
          rw [hheads.1, eq_of_mapHeads_eq f block block' hshape.2 hheads.2]
      | _ => simp only [mapNodeHeads, reduceCtorEq] at hshape
  | keyframe steps block =>
      cases other with
      | keyframe steps' block' =>
          rw [mapNodeHeads, mapNodeHeads, Node.keyframe.injEq] at hshape
          rw [nodeHeads, nodeHeads] at hheads
          rw [hshape.1, eq_of_mapHeads_eq f block block' hshape.2 hheads]
      | _ => simp only [mapNodeHeads, reduceCtorEq] at hshape
  | atRule head block =>
      cases other with
      | atRule head' block' =>
          rw [mapNodeHeads, mapNodeHeads, Node.atRule.injEq] at hshape
          rw [nodeHeads, nodeHeads] at hheads
          rw [hshape.1, eq_of_mapHeads_eq f block block' hshape.2 hheads]
      | _ => simp only [mapNodeHeads, reduceCtorEq] at hshape
  -- What holds no rule is kept by the shape as it is.
  | _ =>
      cases other with
      | rule head block => simp only [mapNodeHeads, reduceCtorEq] at hshape
      | keyframe steps block => simp only [mapNodeHeads, reduceCtorEq] at hshape
      | atRule head block => simp only [mapNodeHeads, reduceCtorEq] at hshape
      | _ => simpa only [mapNodeHeads] using hshape

/-- The same for a stylesheet: the heads are divided among its nodes as they are among those of the
    other one, since both have as many. -/
theorem eq_of_mapHeads_eq (f : RuleHead → RuleHead) (sheet other : List Node)
    (hshape : mapHeads f sheet = mapHeads f other) (hheads : heads sheet = heads other) :
    sheet = other := by
  cases sheet with
  | nil =>
      cases other with
      | nil => rfl
      | cons node rest => cases hshape
  | cons node rest =>
      cases other with
      | nil => cases hshape
      | cons node' rest' =>
          rw [mapHeads, mapHeads, List.cons.injEq] at hshape
          rw [heads, heads] at hheads
          -- The shapes agree, so there are as many heads in the first part on both sides.
          rcases List.append_inj hheads (length_nodeHeads_eq f node node' hshape.1) with
            ⟨hnode, hrest⟩
          rw [node_eq_of_mapNodeHeads_eq f node node' hshape.1 hnode,
            eq_of_mapHeads_eq f rest rest' hshape.2 hrest]

end

/-- Shape and heads make up the stylesheet: nothing else in it could differ. So a change is known
    entirely when it is known what has become of the two. -/
theorem eq_of_shape_eq (sheet other : Stylesheet) (hshape : shape sheet = shape other)
    (hheads : heads sheet = heads other) : sheet = other :=
  eq_of_mapHeads_eq _ sheet other hshape hheads

/-! ### What becomes of a head -/

/-- The class that a head consists of, if it is nothing but one class. -/
def class? : RuleHead → Option (List Char)
  | .selectors list => singleClass? list
  | .relative _ | .invalid _ => none

theorem class?_classHead (c : List Char) (raw : Option (List Char)) :
    class? (classHead c raw) = some c := rfl

/-- A head has a class to be renamed exactly if it is the selector of that class and nothing else,
    however the class is spelled. -/
theorem class?_eq_some_iff (head : RuleHead) (c : List Char) :
    class? head = some c ↔ ∃ raw, head = classHead c raw := by
  constructor
  · intro h
    cases head with
    | selectors list =>
        rw [class?, singleClass?.eq_def] at h
        split at h
        · next name raw =>
            rw [Option.some.inj h]
            exact ⟨raw, rfl⟩
        · cases h
    | relative phrase => cases h
    | invalid phrase => cases h
  · rintro ⟨raw, rfl⟩
    exact class?_classHead c raw

/-- A head that is a single class, spelled in whatever way, and the map knows it. -/
def Affected (map : ClassMap) (head : RuleHead) : Prop :=
  ∃ c raw, head = classHead c raw ∧ String.ofList c ∈ map.names

instance (map : ClassMap) : DecidablePred (Affected map) := fun head =>
  decidable_of_iff (∃ c ∈ class? head, String.ofList c ∈ map.names) <| by
    simp only [Affected, Option.mem_def, class?_eq_some_iff, exists_and_right]

/-- What becomes of a head: a single class of the map, whatever its spelling, becomes its id without
    any, and everything else stays as it is. -/
inductive Renames (map : ClassMap) : RuleHead → RuleHead → Prop
  | renamed (c : List Char) (raw : Option (List Char)) (id : String) :
      map.get? (String.ofList c) = some id →
      Renames map (classHead c raw) (classHead id.toList none)
  | kept (head : RuleHead) : ¬ Affected map head → Renames map head head

/-- There is only one thing that a head can become. The name decides, since two spellings of a class
    are asked for in the same way. -/
theorem renames_unique (map : ClassMap) (head a b : RuleHead) (ha : Renames map head a)
    (hb : Renames map head b) : a = b := by
  have hknown : ∀ c raw id, map.get? (String.ofList c) = some id →
      Affected map (classHead c raw) :=
    fun c raw id h => ⟨c, raw, rfl, map.mem_names_of_mem _ id (map.mem_of_get? _ id h)⟩
  cases ha with
  | renamed c raw id hid =>
      generalize hhead : classHead c raw = head at hb
      cases hb with
      | renamed c' raw' id' hid' =>
          have hc := (class?_eq_some_iff _ c').mpr ⟨raw', hhead⟩
          rw [class?_classHead, Option.some.injEq] at hc
          rw [hc, hid', Option.some.injEq] at hid
          rw [hid]
      -- A class of the map is affected, so it cannot be kept.
      | kept _ hnot => exact absurd (hhead ▸ hknown c raw id hid) hnot
  | kept _ hnot =>
      cases hb with
      | renamed c' raw' id' hid' => exact absurd (hknown c' raw' id' hid') hnot
      | kept _ _ => rfl

/-- What the renaming does to a head, and that it counts the heads it changes. A map asks the index
    in the same way for every spelling of a class. The cases are whether the head is one class, and
    whether the map has an id for it. -/
theorem renameHead_ofMap_cases (map : ClassMap) (hmap : map.names.Nodup) (head : RuleHead) :
    Renames map head (renameHead (ReverseIndex.ofMap map) head).1 ∧
      (renameHead (ReverseIndex.ofMap map) head).2 = if Affected map head then 1 else 0 := by
  -- Two of the three cases end with the head being kept.
  have hkept : ¬ Affected map head → renameHead (ReverseIndex.ofMap map) head = (head, 0) →
      Renames map head (renameHead (ReverseIndex.ofMap map) head).1 ∧
      (renameHead (ReverseIndex.ofMap map) head).2 = if Affected map head then 1 else 0 := by
    intro hnot heq
    rw [heq, if_neg hnot]
    exact ⟨.kept head hnot, rfl⟩
  cases hclass : class? head with
  | none =>
      refine hkept (fun ⟨c, raw, hc, _⟩ => ?_) ?_
      · rw [(class?_eq_some_iff head c).mpr ⟨raw, hc⟩] at hclass
        cases hclass
      · cases head with
        | selectors list =>
            rw [class?] at hclass
            simp only [renameHead, hclass, Option.bind_none]
        | relative phrase => rfl
        | invalid phrase => rfl
  | some c =>
      rcases (class?_eq_some_iff head c).mp hclass with ⟨raw, hhead⟩
      cases hid : map.get? (String.ofList c) with
      | none =>
          refine hkept (fun ⟨c', raw', hc', hmem⟩ => ?_) ?_
          · rw [(class?_eq_some_iff head c').mpr ⟨raw', hc'⟩, Option.some.injEq] at hclass
            exact (map.get?_eq_none_iff _).mp hid (hclass ▸ hmem)
          · simp only [hhead, classHead, classSelector, renameHead, singleClass?, Option.bind_some,
              rename?_ofMap map hmap, hid, Option.map_none]
      | some id =>
          have hmem := map.mem_names_of_mem _ id (map.mem_of_get? _ id hid)
          have heq : renameHead (ReverseIndex.ofMap map) head = (classHead id.toList none, 1) := by
            simp only [hhead, classHead, classSelector, renameHead, singleClass?, Option.bind_some,
              rename?_ofMap map hmap, hid, Option.map_some]
          rw [heq, if_pos ⟨c, raw, hhead, hmem⟩, hhead]
          exact ⟨.renamed c raw id hid, rfl⟩

/-- The number of renamed rules is the number of affected heads. Each head is counted once, even if
    several of the classes in it are renamed. -/
theorem countRenamed_ofMap (map : ClassMap) (hmap : map.names.Nodup) (list : List RuleHead) :
    countRenamed (ReverseIndex.ofMap map) list = list.countP fun head => Affected map head := by
  induction list with
  | nil => rfl
  | cons head rest ih =>
      rw [List.countP_cons, ← ih, countRenamed, List.map_cons, List.sum_cons,
        (renameHead_ofMap_cases map hmap head).2, Nat.add_comm]
      simp only [decide_eq_true_eq]
      rfl

/-! ### Stylesheets -/

theorem forall₂_renames (map : ClassMap) (hmap : map.names.Nodup) (list : List RuleHead) :
    List.Forall₂ (Renames map) list
      (list.map fun head => (renameHead (ReverseIndex.ofMap map) head).1) := by
  rw [List.forall₂_map_right_iff, List.forall₂_same]
  exact fun head _ => (renameHead_ofMap_cases map hmap head).1

theorem eq_of_forall₂_renames (map : ClassMap) (list a b : List RuleHead)
    (ha : List.Forall₂ (Renames map) list a) (hb : List.Forall₂ (Renames map) list b) : a = b := by
  induction ha generalizing b with
  | nil =>
      cases hb
      rfl
  | cons hhead _ ih =>
      cases hb with
      | cons hhead' hrest' => rw [renames_unique map _ _ _ hhead hhead', ih _ hrest']

/-- Renaming a stylesheet by a map is the one thing that leaves everything but the heads of the
    rules as it is, lets each head become what it has to, and counts the affected ones. The heads
    are those at any depth, in at-rules and in other rules, and each of them is renamed from what it
    was in the source: an id that is a class of the map itself is not renamed again.

    Spellings are part of the stylesheet. So a renamed class has lost the one that it had, which
    would be that of another name, and every class that is not renamed still has its own. If no rule
    is counted, the stylesheet is the old one. -/
theorem renameWithMap_exact (map : ClassMap) (hmap : map.names.Nodup) (sheet : Stylesheet) :
    (∀ (sheet' : Stylesheet) (rules : Nat), renameWithMap map sheet = (sheet', rules) ↔
      shape sheet' = shape sheet ∧
      List.Forall₂ (Renames map) (heads sheet) (heads sheet') ∧
      rules = (heads sheet).countP fun head => Affected map head) ∧
    ((renameWithMap map sheet).2 = 0 → (renameWithMap map sheet).1 = sheet) := by
  have hheads := forall₂_renames map hmap (heads sheet)
  rw [← heads_renameWithMap] at hheads
  have hshape : shape (renameWithMap map sheet).1 = shape sheet := by
    rw [renameWithMap_eq, shape_mapHeads]
  have hcount : (renameWithMap map sheet).2
      = (heads sheet).countP fun head => Affected map head := by
    rw [renameWithMap_eq, countRenamed_ofMap map hmap]
  refine ⟨fun sheet' rules => ⟨fun h => ?_, fun ⟨hshape', hheads', hrules⟩ => ?_⟩, fun hzero => ?_⟩
  · rw [h] at hheads hshape hcount
    exact ⟨hshape, hheads, hcount⟩
  -- A stylesheet with this shape and these heads is the one that the renaming answers.
  · have hsame := eq_of_shape_eq sheet' _ (hshape'.trans hshape.symm)
      (eq_of_forall₂_renames map _ _ _ hheads' hheads)
    rw [hsame, hrules, ← hcount]
  · -- No head is affected, so all of them stay.
    rw [hcount, List.countP_eq_zero] at hzero
    refine eq_of_shape_eq _ sheet hshape (eq_of_forall₂_renames map _ _ _ hheads ?_)
    rw [List.forall₂_same]
    exact fun head hhead => .kept head fun haffected =>
      hzero head hhead (decide_eq_true haffected)

/-- Two classes, each with the name of the other one for its id. -/
def swappedClasses : ClassMap := [("p:4", "m-2"), ("m-2", "p:4")]

/-- Rules for both classes, one inside of the other with an at-rule between them, and two rules
    that are about a class in another way. The first class is spelled with an escape, as it has to
    be, and the second one with an escape that it could do without. -/
def nestedRules : Stylesheet :=
  [.rule (classHead "p:4".toList (some "p\\:4".toList))
    [.declaration [], .atRule [] [.rule (classHead "m-2".toList (some "\\m-2".toList)) []],
      .rule (.relative []) []],
   .rule (.selectors
    [[.compound ⟨true, none, [.className "m-2".toList (some "\\m-2".toList)]⟩]]) []]

theorem renameWithMap_exact_nestedRules :
    swappedClasses.names.Nodup ∧ renameWithMap swappedClasses nestedRules
      = ([.rule (classHead "m-2".toList none)
          [.declaration [], .atRule [] [.rule (classHead "p:4".toList none) []],
            .rule (.relative []) []],
         .rule (.selectors
          [[.compound ⟨true, none, [.className "m-2".toList (some "\\m-2".toList)]⟩]]) []],
        2) := by
  have hmap : swappedClasses.names.Nodup := by decide
  refine ⟨hmap, ((renameWithMap_exact swappedClasses hmap nestedRules).1 _ 2).mpr
    ⟨rfl, ?_, by decide⟩⟩
  refine .cons (.renamed _ _ "m-2" rfl) (.cons (.renamed _ _ "p:4" rfl) (.cons (.kept _ ?_)
    (.cons (.kept _ ?_) .nil)))
  · decide
  · decide

end Css

end ClassVeil
