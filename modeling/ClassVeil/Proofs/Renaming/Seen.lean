import ClassVeil.Proofs.ClassMap.Basic
import ClassVeil.Renamer
import Mathlib.Data.List.Infix

/-!
# What a renamer has met

A renamer keeps the classes that it has met with the ids it has answered, and a new class goes to
the end. So whatever it has answered can be read off any later state of its own map, with no regard
to the memory: nothing has to be known about the state it starts in.

This is the counterpart of what is said of the memory and its requests, with one difference. The map
of a renamer is not all that it looks at: a class that it has not met is asked for. Yet the answer
is put into the map at once, so the map tells it in either case.

## Theorems

* `get?_mapClass`: The class has been met with the id that was answered.
* `seen_mapClass`, `seen_mapClasses`: What has been met only grows, at its end.
* `mapClasses_append`: Asking for words and then for others.
* `mapClasses_of_seen`: The answers, read off any later state.
-/

namespace ClassVeil

namespace Renamer

variable (naming : Naming)

/-- The class has been met with the id that was answered, be it that it was known or that it has
    been asked for just now. -/
theorem get?_mapClass (name : String) (r : Renamer) :
    (mapClass naming name r).2.seen.get? name = some (mapClass naming name r).1 := by
  rw [mapClass]
  cases hseen : r.seen.get? name with
  | some id => exact hseen
  | none => exact (ClassMap.get?_insert r.seen name _ name).trans (if_pos rfl)

/-- What a renamer has met stays met, with the same id. A name that is new goes to the end, and one
    that is not changes nothing. -/
theorem seen_mapClass (name : String) (r : Renamer) :
    r.seen <+: (mapClass naming name r).2.seen := by
  rw [mapClass]
  cases hseen : r.seen.get? name with
  | some id => exact List.prefix_refl r.seen
  | none =>
      simp only []
      rw [ClassMap.insert_of_not_mem r.seen name _ ((ClassMap.get?_eq_none_iff _ _).mp hseen)]
      exact List.prefix_append r.seen _

theorem seen_mapClasses (words : List (List Char)) (r : Renamer) :
    r.seen <+: (mapClasses naming words r).2.seen := by
  induction words generalizing r with
  | nil => exact List.prefix_refl r.seen
  | cons word rest ih =>
      rw [mapClasses]
      exact (seen_mapClass naming (String.ofList word) r).trans (ih _)

/-- Asking for words and then for others is asking for all of them. So the texts of a file can be
    taken together, and only the order of the words counts. -/
theorem mapClasses_append (words more : List (List Char)) (r : Renamer) :
    mapClasses naming (words ++ more) r
      = ((mapClasses naming words r).1
          ++ (mapClasses naming more (mapClasses naming words r).2).1,
        (mapClasses naming more (mapClasses naming words r).2).2) := by
  induction words generalizing r with
  | nil => rfl
  | cons word rest ih =>
      rw [List.cons_append, mapClasses, mapClasses]
      simp only [ih, List.cons_append]

theorem length_mapClasses (words : List (List Char)) (r : Renamer) :
    (mapClasses naming words r).1.length = words.length := by
  induction words generalizing r with
  | nil => rfl
  | cons word rest ih =>
      rw [mapClasses, List.length_cons, List.length_cons, ih]

/-- The answers can be read off any later state: each class has been met, with the id that was
    answered. The later state is fixed, and the induction is on the words up to it. -/
theorem mapClasses_of_seen (later : ClassMap) (words : List (List Char)) (r : Renamer)
    (hlater : (mapClasses naming words r).2.seen <+: later) :
    (mapClasses naming words r).1 = words.map later.renamed ∧
      ∀ word ∈ words, String.ofList word ∈ later.names := by
  induction words generalizing r with
  | nil => exact ⟨rfl, fun word hword => absurd hword List.not_mem_nil⟩
  | cons word rest ih =>
      rw [mapClasses] at hlater ⊢
      -- What the first word has put in is still there when the last one has been answered.
      have hgrow := (seen_mapClasses naming rest (mapClass naming (String.ofList word) r).2).trans
        hlater
      have hget : later.get? (String.ofList word)
          = some (mapClass naming (String.ofList word) r).1 := by
        rcases hgrow with ⟨more, hmore⟩
        rw [← hmore]
        exact ClassMap.get?_append_left _ more _ _ (get?_mapClass naming _ r)
      rcases ih _ hlater with ⟨hids, hmet⟩
      refine ⟨?_, fun other hother => ?_⟩
      · rw [List.map_cons, ← hids, ClassMap.renamed_of_get? later word _ hget]
      · rcases List.mem_cons.mp hother with rfl | hother
        · exact ClassMap.mem_names_of_mem later _ _ (ClassMap.mem_of_get? later _ _ hget)
        · exact hmet other hother

end Renamer

end ClassVeil
