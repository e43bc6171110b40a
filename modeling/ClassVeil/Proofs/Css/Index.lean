import ClassVeil.Css.Index
import ClassVeil.Proofs.ClassMap.Basic
import Mathlib.Data.List.Nodup

/-!
# What the reverse index knows

The index is keyed by selectors, the map by class names. Escaping a name loses nothing, so no two
classes share a selector, and looking up the selector of a class is looking up the class.

Were it otherwise, an entry of the map would be lost without notice: of two entries with the same
selector the index keeps one, and which one would be a matter of their order.

Once the escaping is known to be injective, nothing else about characters is needed. The selectors
of a map are its names with an injective function put through them, so they are distinct if the
names are. The index of such pairs is the list of the pairs, and all questions about it are
questions about the map.

## Theorems

* `escapeChars_injective`: A class name can be told from its escaped form.
* `ofClass_injective`: No two classes share a selector.
* `lookup_ofClass`: The index answers for the selector of a class what the map answers for the
  class.
* `lookup_eq_some_iff`: Every answer of the index stems from one entry of the map.
* `reverseIndex_exact`: The index has the entries of the map, each under its own selector.
-/

namespace ClassVeil

namespace Selector

theorem escapeChars_of_isPlain (c : Char) (rest : List Char) (hc : isPlain c = true) :
    escapeChars (c :: rest) = c :: escapeChars rest := by
  rw [escapeChars, if_pos hc]

theorem escapeChars_of_not_isPlain (c : Char) (rest : List Char) (hc : isPlain c ≠ true) :
    escapeChars (c :: rest) = '\\' :: c :: escapeChars rest := by
  rw [escapeChars, if_neg hc]

theorem ne_backslash_of_isPlain (c : Char) (hc : isPlain c = true) : c ≠ '\\' := by
  rintro rfl
  exact absurd hc (by decide)

/-- A class name can be told from its escaped form. A backslash is never plain, so the first
    character of the escaped form says which of the two cases the name is in. The induction is on
    one name, with the other one free. -/
theorem escapeChars_injective (s t : List Char) (h : escapeChars s = escapeChars t) : s = t := by
  induction s generalizing t with
  | nil =>
      cases t with
      | nil => rfl
      | cons d t =>
          by_cases hd : isPlain d = true
          · rw [escapeChars_of_isPlain d t hd, escapeChars] at h
            cases h
          · rw [escapeChars_of_not_isPlain d t hd, escapeChars] at h
            cases h
  | cons c s ih =>
      cases t with
      | nil =>
          by_cases hc : isPlain c = true
          · rw [escapeChars_of_isPlain c s hc, escapeChars] at h
            cases h
          · rw [escapeChars_of_not_isPlain c s hc, escapeChars] at h
            cases h
      | cons d t =>
          by_cases hc : isPlain c = true
          · rw [escapeChars_of_isPlain c s hc] at h
            by_cases hd : isPlain d = true
            · rw [escapeChars_of_isPlain d t hd] at h
              rcases List.cons.inj h with ⟨rfl, htail⟩
              rw [ih t htail]
            · rw [escapeChars_of_not_isPlain d t hd] at h
              exact absurd (List.cons.inj h).1 (ne_backslash_of_isPlain c hc)
          -- Both sides begin with a backslash now, or only one of them does.
          · rw [escapeChars_of_not_isPlain c s hc] at h
            by_cases hd : isPlain d = true
            · rw [escapeChars_of_isPlain d t hd] at h
              exact absurd (List.cons.inj h).1.symm (ne_backslash_of_isPlain d hd)
            · rw [escapeChars_of_not_isPlain d t hd] at h
              rcases List.cons.inj (List.cons.inj h).2 with ⟨rfl, htail⟩
              rw [ih t htail]

/-- No two classes share a selector. Escaping is injective, because what is escaped can be told from
    what is not by the backslash in front of it. -/
theorem ofClass_injective (a b : String) (h : ofClass a = ofClass b) : a = b := by
  have hchars := congrArg String.toList h
  simp only [ofClass, escape, String.toList_append, String.toList_ofList] at hchars
  have hname := escapeChars_injective _ _ (List.append_cancel_left hchars)
  exact String.toList_inj.mp hname

end Selector

namespace ReverseIndex

/-- The selectors of a map, before they are put into the index. -/
def selectorsOf (m : ClassMap) : ClassMap :=
  m.map fun (name, id) => (Selector.ofClass name, "." ++ id)

theorem names_selectorsOf (m : ClassMap) :
    ClassMap.names (selectorsOf m) = (ClassMap.names m).map Selector.ofClass := by
  rw [selectorsOf, ClassMap.names, ClassMap.names, List.map_map, List.map_map]
  rfl

/-- No selector comes twice, so the index of a map keeps them all, in the order of the map. -/
theorem selectors_ofMap (m : ClassMap) (hm : (ClassMap.names m).Nodup) :
    (ofMap m).selectors = selectorsOf m := by
  refine ClassMap.ofPairs_eq (selectorsOf m) ?_
  rw [names_selectorsOf]
  exact hm.map Selector.ofClass_injective

theorem get?_selectorsOf (m : ClassMap) (name : String) :
    ClassMap.get? (selectorsOf m) (Selector.ofClass name)
      = (ClassMap.get? m name).map ("." ++ ·) := by
  induction m with
  | nil => rfl
  | cons pair rest ih =>
      rcases pair with ⟨k, v⟩
      change ClassMap.get? ((Selector.ofClass k, "." ++ v) :: selectorsOf rest) _ = _
      rw [ClassMap.get?, ClassMap.get?]
      -- The first pair has the selector exactly if it has the name.
      by_cases hk : k = name
      · rw [if_pos (congrArg Selector.ofClass hk), if_pos hk, Option.map_some]
      · rw [if_neg (fun h => hk (Selector.ofClass_injective k name h)), if_neg hk]
        exact ih

/-- The index answers for the selector of a class what the map answers for the class. It is looked
    up with the full stop and with escapes, as a selector is spelled in the stylesheet. -/
theorem lookup_ofClass (m : ClassMap) (hm : (ClassMap.names m).Nodup) (name : String) :
    (ofMap m).lookup (Selector.ofClass name) = (ClassMap.get? m name).map ("." ++ ·) := by
  rw [lookup, selectors_ofMap m hm, get?_selectorsOf]

/-- Every answer of the index stems from one entry of the map, and every entry is an answer. Names
    are distinct in a map, and two names have two selectors, so there is one entry at most. -/
theorem lookup_eq_some_iff (m : ClassMap) (hm : (ClassMap.names m).Nodup)
    (selector target : String) :
    (ofMap m).lookup selector = some target ↔
      ∃ name id, (name, id) ∈ m ∧ Selector.ofClass name = selector ∧ "." ++ id = target := by
  have hdistinct : (ClassMap.names (selectorsOf m)).Nodup := by
    rw [names_selectorsOf]
    exact hm.map Selector.ofClass_injective
  rw [lookup, selectors_ofMap m hm, ClassMap.get?_eq_some_iff _ hdistinct, selectorsOf,
    List.mem_map]
  constructor
  · rintro ⟨⟨name, id⟩, hpair, heq⟩
    rw [Prod.mk.injEq] at heq
    exact ⟨name, id, hpair, heq.1, heq.2⟩
  · rintro ⟨name, id, hpair, hname, hid⟩
    exact ⟨(name, id), hpair, Prod.ext hname hid⟩

theorem lookup_eq_none_iff (m : ClassMap) (hm : (ClassMap.names m).Nodup) (selector : String) :
    (ofMap m).lookup selector = none ↔
      ∀ name ∈ ClassMap.names m, Selector.ofClass name ≠ selector := by
  -- To have no answer is to have none of the answers that there could be.
  rw [Option.eq_none_iff_forall_ne_some]
  constructor
  · intro hnone name hname hselector
    rcases List.mem_map.mp hname with ⟨⟨k, id⟩, hpair, rfl⟩
    exact hnone _ ((lookup_eq_some_iff m hm selector _).mpr ⟨k, id, hpair, hselector, rfl⟩)
  · intro hfree target hsome
    rcases (lookup_eq_some_iff m hm selector target).mp hsome with ⟨name, id, hpair, hselector, -⟩
    exact hfree name (ClassMap.mem_names_of_mem m name id hpair) hselector

/-- At most one entry of a map has a given selector. -/
theorem countP_ofClass_le_one (m : ClassMap) (hm : (ClassMap.names m).Nodup) (selector : String) :
    m.countP (fun pair => Selector.ofClass pair.1 == selector) ≤ 1 := by
  have hdistinct := List.nodup_iff_count_le_one.mp (hm.map Selector.ofClass_injective) selector
  rw [ClassMap.names, List.map_map, List.count, List.countP_map] at hdistinct
  exact hdistinct

theorem size_ofMap (m : ClassMap) (hm : (ClassMap.names m).Nodup) : (ofMap m).size = m.length := by
  rw [size, selectors_ofMap m hm, selectorsOf, List.length_map]

/-- The order of the entries has no bearing on what the index answers, because an answer is
    described by membership. -/
theorem lookup_ofMap_of_perm (m m' : ClassMap) (hm : (ClassMap.names m).Nodup)
    (hperm : m'.Perm m) (selector : String) :
    (ofMap m').lookup selector = (ofMap m).lookup selector := by
  have hm' : (ClassMap.names m').Nodup := (hperm.map Prod.fst).nodup_iff.mpr hm
  refine Option.ext fun target => ?_
  rw [lookup_eq_some_iff m' hm', lookup_eq_some_iff m hm]
  simp only [hperm.mem_iff]

/-- The index of a map has the entries of the map and no others. It answers a selector with the id
    of a class exactly if the map has this id for a class with the selector, and then no other name
    has that selector, in the map or not. It has no answer exactly if no class of the map has the
    selector. No entry is lost, and the order of the entries has no bearing on any answer. -/
theorem reverseIndex_exact (m : ClassMap) (hm : (ClassMap.names m).Nodup) :
    (∀ selector target, (ofMap m).lookup selector = some target ↔
      ∃ name id, (name, id) ∈ m ∧ Selector.ofClass name = selector ∧ "." ++ id = target ∧
        ∀ other, Selector.ofClass other = selector → other = name) ∧
    (∀ selector, (ofMap m).lookup selector = none ↔
      ∀ name ∈ ClassMap.names m, Selector.ofClass name ≠ selector) ∧
    (∀ selector, m.countP (fun pair => Selector.ofClass pair.1 == selector) ≤ 1) ∧
    (ofMap m).size = m.length ∧
    ∀ m', List.Perm m' m → (ofMap m').size = (ofMap m).size ∧
      ∀ selector, (ofMap m').lookup selector = (ofMap m).lookup selector := by
  refine ⟨fun selector target => ⟨fun hsome => ?_, ?_⟩, lookup_eq_none_iff m hm,
    countP_ofClass_le_one m hm, size_ofMap m hm, fun m' hperm => ⟨?_, ?_⟩⟩
  · rcases (lookup_eq_some_iff m hm selector target).mp hsome with ⟨name, id, hpair, hname, hid⟩
    refine ⟨name, id, hpair, hname, hid, fun other hother => ?_⟩
    exact Selector.ofClass_injective other name (hother.trans hname.symm)
  · rintro ⟨name, id, hpair, hname, hid, -⟩
    exact (lookup_eq_some_iff m hm selector target).mpr ⟨name, id, hpair, hname, hid⟩
  · have hm' : (ClassMap.names m').Nodup := (hperm.map Prod.fst).nodup_iff.mpr hm
    rw [size_ofMap m' hm', size_ofMap m hm, hperm.length_eq]
  · exact lookup_ofMap_of_perm m m' hm hperm

/-- A class that is spelled like the escaped form of another one, and a class that is not ASCII. -/
def lookAlikes : ClassMap := [("p:4", "a"), ("p\\:4", "b"), ("é", "c")]

theorem reverseIndex_exact_lookAlikes :
    (ClassMap.names lookAlikes).Nodup ∧ (ofMap lookAlikes).size = 3 ∧
      (ofMap lookAlikes).lookup ".p\\:4" = some ".a" ∧
      (ofMap lookAlikes).lookup ".p\\\\\\:4" = some ".b" ∧
      (ofMap lookAlikes).lookup ".p:4" = none := by
  have hm : (ClassMap.names lookAlikes).Nodup := by decide
  rcases reverseIndex_exact lookAlikes hm with ⟨hsome, hnone, -, hsize, -⟩
  refine ⟨hm, hsize, (hsome _ _).mpr ⟨"p:4", "a", by decide, by decide, by decide, ?_⟩,
    (hsome _ _).mpr ⟨"p\\:4", "b", by decide, by decide, by decide, ?_⟩, ?_⟩
  · exact fun other hother => Selector.ofClass_injective other _ hother
  · exact fun other hother => Selector.ofClass_injective other _ hother
  · exact (hnone _).mpr (by decide)

end ReverseIndex

end ClassVeil
