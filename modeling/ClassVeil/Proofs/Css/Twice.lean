import ClassVeil.Proofs.Css.Exact

/-!
# Renaming a stylesheet twice

A stylesheet may be renamed more than once on its way, and an id is a name like any other. A head
that was left alone the first time is left alone the second time, for it is the same head. One that
was renamed has become the head of an id, and whether it is renamed again is decided by the map: it
is exactly if this id is a class of the map as well. So where ids and classes are kept apart there
is nothing left to do, and the second renaming answers with the stylesheet that it was given.

Since the renaming is exact, there is no need to look into it here. The first time has turned each
head into what it has to become, the second time does so with the results, and what remains is to
tell from a head of the source whether both times concern it. The spelling plays no part in that: a
renamed class has none, and a class is asked for by its name.

## Main definitions

* `AffectedAgain`: A head that is renamed the first time and the second time.

## Theorems

* `affected_renamed_iff`: What is renamed the second time, told from the source.
* `countRenamed_renamed`: How many rules that are.
* `renameWithMap_of_not_affected`: A stylesheet without a class of the map stays as it is.
* `renameWithMap_twice`: What the second renaming does.
-/

namespace ClassVeil

namespace Css

/-- A head that is a single class of the map, and the id of this class is a class of the map too. It
    is a property of the source, though it tells what happens to the result. -/
def AffectedAgain (map : ClassMap) (head : RuleHead) : Prop :=
  ∃ c raw id, head = classHead c raw ∧ map.get? (String.ofList c) = some id ∧ id ∈ map.names

instance (map : ClassMap) : DecidablePred (AffectedAgain map) := fun head =>
  decidable_of_iff (∃ c ∈ class? head, ∃ id ∈ map.get? (String.ofList c), id ∈ map.names) <| by
    simp only [AffectedAgain, Option.mem_def, class?_eq_some_iff, exists_and_left, exists_and_right]

/-- The map is asked for the name, and the spelling does not matter. -/
theorem affected_classHead_iff (map : ClassMap) (c : List Char) (raw : Option (List Char)) :
    Affected map (classHead c raw) ↔ String.ofList c ∈ map.names := by
  constructor
  · rintro ⟨c', raw', hc', hmem⟩
    have hclass := (class?_eq_some_iff _ c').mpr ⟨raw', hc'⟩
    rw [class?_classHead, Option.some.injEq] at hclass
    rw [hclass]
    exact hmem
  · exact fun hmem => ⟨c, raw, rfl, hmem⟩

/-- A renamed head is affected the second time exactly if the id that it became is a class of the
    map. A head that was kept was not affected, and is not now. -/
theorem affected_renamed_iff (map : ClassMap) (head one : RuleHead) (h : Renames map head one) :
    Affected map one ↔ AffectedAgain map head := by
  cases h with
  | renamed c raw id hid =>
      rw [affected_classHead_iff, String.ofList_toList]
      refine ⟨fun hmem => ⟨c, raw, id, rfl, hid, hmem⟩, ?_⟩
      -- A head is one class only, so it is the same class that is spoken of.
      rintro ⟨c', raw', id', hc', hid', hmem⟩
      have hclass := (class?_eq_some_iff _ c').mpr ⟨raw', hc'⟩
      rw [class?_classHead, Option.some.injEq] at hclass
      rw [hclass, hid', Option.some.injEq] at hid
      rw [← hid]
      exact hmem
  | kept _ hnot =>
      refine ⟨fun haffected => absurd haffected hnot, ?_⟩
      rintro ⟨c, raw, id, rfl, hid, -⟩
      refine absurd ?_ hnot
      exact (affected_classHead_iff map c raw).mpr
        (map.mem_names_of_mem _ id (map.mem_of_get? _ id hid))

/-- The number of heads that are affected again: of the renamed heads those that are affected, and
    of the heads of the source those that are affected twice. -/
theorem countRenamed_renamed (map : ClassMap) (hmap : map.names.Nodup) (list : List RuleHead) :
    (list.map fun head => (renameHead (ReverseIndex.ofMap map) head).1).countP
        (fun head => Affected map head)
      = list.countP fun head => AffectedAgain map head := by
  rw [List.countP_map]
  refine List.countP_congr fun head _ => ?_
  simp only [Function.comp_apply, decide_eq_true_eq]
  exact affected_renamed_iff map head _ (renameHead_ofMap_cases map hmap head).1

/-- A stylesheet without a class of the map stays as it is, and nothing is counted. What a head
    becomes is determined, and one that is not affected may become itself. -/
theorem renameWithMap_of_not_affected (map : ClassMap) (hmap : map.names.Nodup)
    (sheet : Stylesheet) (hnone : ∀ head ∈ heads sheet, ¬ Affected map head) :
    renameWithMap map sheet = (sheet, 0) := by
  -- A head that is not affected can only become itself.
  have hkept : ∀ head ∈ heads sheet,
      (renameHead (ReverseIndex.ofMap map) head).1 = head := fun head hhead =>
    renames_unique map head _ _ (renameHead_ofMap_cases map hmap head).1
      (.kept head (hnone head hhead))
  have hheads : heads (mapHeads (fun head => (renameHead (ReverseIndex.ofMap map) head).1) sheet)
      = heads sheet := by
    rw [heads_mapHeads]
    exact (List.map_congr_left hkept).trans (List.map_id _)
  rw [renameWithMap_eq, countRenamed_ofMap map hmap, Prod.mk.injEq]
  refine ⟨eq_of_shape_eq _ sheet (shape_mapHeads _ sheet) hheads, ?_⟩
  rw [List.countP_eq_zero]
  exact fun head hhead haffected => hnone head hhead (of_decide_eq_true haffected)

/-- If no id is a class of the map, renaming for the second time changes nothing and counts no rule.
    For any map it leaves all but the heads of the rules as it is. The head in each place becomes
    what it has to as it stands after the first time: it is renamed if it is a single class of the
    map, and stays if it is not. It is such a class exactly if the head in that place of the source
    is one whose id is a class of the map, and the rules that are counted are these. -/
theorem renameWithMap_twice (map : ClassMap) (hmap : map.names.Nodup) (sheet : Stylesheet) :
    ((∀ id ∈ map.ids, id ∉ map.names) →
      renameWithMap map (renameWithMap map sheet).1 = ((renameWithMap map sheet).1, 0)) ∧
    shape (renameWithMap map (renameWithMap map sheet).1).1 = shape (renameWithMap map sheet).1 ∧
    (∀ (i : Nat) (head : RuleHead), (heads sheet)[i]? = some head → ∃ one two,
      (heads (renameWithMap map sheet).1)[i]? = some one ∧
      (heads (renameWithMap map (renameWithMap map sheet).1).1)[i]? = some two ∧
      Renames map head one ∧ Renames map one two ∧
      (Affected map one ↔ AffectedAgain map head)) ∧
    (renameWithMap map (renameWithMap map sheet).1).2
      = (heads (renameWithMap map sheet).1).countP (fun head => Affected map head) ∧
    (renameWithMap map (renameWithMap map sheet).1).2
      = (heads sheet).countP fun head => AffectedAgain map head := by
  have hrenames : ∀ head, Renames map head (renameHead (ReverseIndex.ofMap map) head).1 :=
    fun head => (renameHead_ofMap_cases map hmap head).1
  have hcount : (renameWithMap map (renameWithMap map sheet).1).2
      = (heads (renameWithMap map sheet).1).countP (fun head => Affected map head) := by
    rw [renameWithMap_eq map (renameWithMap map sheet).1, countRenamed_ofMap map hmap]
  refine ⟨fun hapart => ?_, ?_, fun i head hhead => ?_, hcount, ?_⟩
  · refine renameWithMap_of_not_affected map hmap _ fun one hone haffected => ?_
    rw [heads_renameWithMap, List.mem_map] at hone
    -- A renamed head that is affected would come from one whose id is a class.
    rcases hone with ⟨head, -, rfl⟩
    rcases (affected_renamed_iff map head _ (hrenames head)).mp haffected with
      ⟨c, -, id, -, hid, hmem⟩
    exact hapart id (map.mem_ids_of_mem _ id (map.mem_of_get? _ id hid)) hmem
  · rw [renameWithMap_eq map (renameWithMap map sheet).1, shape_mapHeads]
  · refine ⟨_, _, ?_, ?_, hrenames head, hrenames _,
      affected_renamed_iff map head _ (hrenames head)⟩
    · rw [heads_renameWithMap, List.getElem?_map, hhead, Option.map_some]
    · rw [heads_renameWithMap, heads_renameWithMap, List.getElem?_map, List.getElem?_map, hhead,
        Option.map_some, Option.map_some]
  · rw [hcount, heads_renameWithMap, countRenamed_renamed map hmap]

/-- Three classes, of which the first has the name of the second for its id. -/
def chainedClasses : ClassMap := [("p:4", "m-2"), ("m-2", "x"), ("flex", "y")]

/-- Rules for the three classes, one of them in an at-rule inside of another one, and a rule for two
    classes at once. -/
def chainedRules : Stylesheet :=
  [.rule (classHead "p:4".toList (some "p\\:4".toList))
    [.declaration [], .atRule [] [.rule (classHead "m-2".toList (some "m-2".toList)) []]],
   .rule (.selectors [[.compound ⟨false, none,
    [.className "p:4".toList (some "p\\:4".toList),
      .className "m-2".toList (some "m-2".toList)]⟩]]) [],
   .rule (classHead "flex".toList (some "flex".toList)) []]

/-- The rule of the first class is renamed twice, because its id is a class of the map again.
    Without the second class nothing is renamed a second time. -/
theorem renameWithMap_twice_chainedRules :
    chainedClasses.names.Nodup ∧
      (renameWithMap chainedClasses (renameWithMap chainedClasses chainedRules).1).2 = 1 ∧
      (∃ one two, (heads (renameWithMap chainedClasses chainedRules).1)[0]? = some one ∧
        (heads (renameWithMap chainedClasses
          (renameWithMap chainedClasses chainedRules).1).1)[0]? = some two ∧
        Renames chainedClasses one two ∧ Affected chainedClasses one) ∧
      (∀ id ∈ ClassMap.ids [("p:4", "m-2")], id ∉ ClassMap.names [("p:4", "m-2")]) ∧
      renameWithMap [("p:4", "m-2")] (renameWithMap [("p:4", "m-2")] chainedRules).1
        = ((renameWithMap [("p:4", "m-2")] chainedRules).1, 0) := by
  have hmap : chainedClasses.names.Nodup := by decide
  have hapart : ∀ id ∈ ClassMap.ids [("p:4", "m-2")], id ∉ ClassMap.names [("p:4", "m-2")] := by
    decide
  rcases renameWithMap_twice chainedClasses hmap chainedRules with ⟨-, -, hplaces, -, hcount⟩
  rcases hplaces 0 (classHead "p:4".toList _) rfl with ⟨one, two, hone, htwo, -, hagain, haffected⟩
  refine ⟨hmap, hcount.trans (by decide), ⟨one, two, hone, htwo, hagain, ?_⟩, hapart, ?_⟩
  · exact haffected.mpr ⟨"p:4".toList, _, "m-2", rfl, rfl, by decide⟩
  · exact (renameWithMap_twice [("p:4", "m-2")] (by decide) chainedRules).1 hapart

end Css

end ClassVeil
