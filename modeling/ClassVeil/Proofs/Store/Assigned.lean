import ClassVeil.Proofs.ClassMap.Basic
import ClassVeil.Store.Memory
import Mathlib.Data.List.Infix

/-!
# Assigned ids stay

What one request for an id does to the memory of a store. Either the class has an id and nothing
changes, or it gets one and its pair goes to the end of the map. `getOrCreate_cases` says so once;
every other fact about requests is read off it.

Two consequences carry most of what is proved about stores. The map only grows, so an earlier state
of it is an initial segment of a later one. And the generation counts the pairs, so a comparison of
generations is a comparison of lengths.

Which candidate a class gets is left open in this. It is one that the generator yields for its name,
at some attempt, so a property of all candidates is one of all ids; which attempt it was matters
only where ids must be reproducible, and is dealt with there.

Many requests are one after the other, so what one request keeps all keep. What they answer is said
without the states in between: each answer can be read off any map that comes later, since what a
request has put in stays. The same goes for the memories that a store can reach, where time and the
counting of what was written are steps as well.

## Main definitions

* `Memory.Sound`: The names of the map are distinct, and the generation counts them.
* `Memory.Reached`: The memories that a store can come to have.

## Theorems

* `getOrCreate_cases`: What a request does.
* `get?_getOrCreate`: The class has the id that was answered.
* `prefix_getOrCreate`, `prefix_getOrCreateAll`: The map only grows, at its end.
* `sound_getOrCreate`: A request keeps the memory sound.
* `forall_ids_getOrCreate`: What holds of all candidates holds of all ids.
* `sound_of_reached`, `forall_ids_of_reached`: The same for every memory that can be reached.
* `renamed_getOrCreateAll`: What many requests answer can be read off any later map.
-/

namespace ClassVeil

/-- The id of a new class is one of the candidates. That includes the last one, which is taken
    although it is in use when the attempts are at their end. -/
theorem exists_candidate_freshIdFrom (naming : Naming) (assigned : List String) (name : String)
    (left drawn : Nat) :
    ∃ attempt d,
      (freshIdFrom naming assigned name left drawn).1 = naming.generate name attempt d := by
  -- The induction is on the attempts that are left.
  induction left generalizing drawn with
  | zero => exact ⟨_, _, rfl⟩
  | succ left ih =>
      rw [freshIdFrom]
      split
      · exact ⟨_, _, rfl⟩
      · exact ih (drawn + 1)

namespace Memory

/-- The names of the map are distinct, and the generation counts them. -/
structure Sound (m : Memory) : Prop where
  nodup : m.map.names.Nodup
  generation : m.generation = m.map.length

theorem sound_empty : Sound {} := ⟨List.nodup_nil, rfl⟩

/-- What a request does: nothing if the class has an id; otherwise the class gets a candidate as
    its id, its pair goes to the end of the map, and the generation goes up by one. -/
theorem getOrCreate_cases (naming : Naming) (m : Memory) (name : String) :
    (∃ id, m.map.get? name = some id ∧ m.getOrCreate naming name = (id, m)) ∨
    (m.map.get? name = none ∧ ∃ attempt d drawn,
      m.getOrCreate naming name = (naming.generate name attempt d,
        { m with
          map := m.map ++ [(name, naming.generate name attempt d)]
          assigned := naming.generate name attempt d :: m.assigned
          generation := m.generation + 1
          lastMutation := some m.now
          drawn := drawn })) := by
  rw [getOrCreate, get?]
  cases hget : m.map.get? name with
  | some id => exact Or.inl ⟨id, rfl, rfl⟩
  | none =>
      refine Or.inr ⟨rfl, ?_⟩
      rcases exists_candidate_freshIdFrom naming m.assigned name (maxAttempts - 1) m.drawn with
        ⟨attempt, d, hid⟩
      refine ⟨attempt, d, (freshId naming m.assigned name m.drawn).2, ?_⟩
      simp only [freshId, hid]
      rw [ClassMap.insert_of_not_mem m.map name _ ((ClassMap.get?_eq_none_iff m.map name).mp hget)]

/-- The class has the id that was answered, whether it was there before or has been made just now.
    -/
theorem get?_getOrCreate (naming : Naming) (m : Memory) (name : String) :
    (m.getOrCreate naming name).2.map.get? name = some (m.getOrCreate naming name).1 := by
  rcases getOrCreate_cases naming m name with ⟨id, hget, heq⟩ | ⟨hget, attempt, d, drawn, heq⟩
  · rw [heq]
    exact hget
  · rw [heq]
    simp only []
    -- To put the pair at the end is to insert it, for the name was not in the map.
    rw [← ClassMap.insert_of_not_mem m.map name _ ((ClassMap.get?_eq_none_iff m.map name).mp hget),
      ClassMap.get?_insert, if_pos rfl]

/-- The map only grows, at its end. That an id once given stays is a consequence, for the first pair
    with a name is the one that counts. -/
theorem prefix_getOrCreate (naming : Naming) (m : Memory) (name : String) :
    m.map <+: (m.getOrCreate naming name).2.map := by
  rcases getOrCreate_cases naming m name with ⟨id, _, heq⟩ | ⟨_, attempt, d, drawn, heq⟩
  · rw [heq]
  · rw [heq]
    exact List.prefix_append m.map _

/-- A request writes nothing, so the generation that has been written stays. -/
theorem flushedGeneration_getOrCreate (naming : Naming) (m : Memory) (name : String) :
    (m.getOrCreate naming name).2.flushedGeneration = m.flushedGeneration := by
  rcases getOrCreate_cases naming m name with ⟨id, _, heq⟩ | ⟨_, attempt, d, drawn, heq⟩
  · rw [heq]
  · rw [heq]

/-- A request keeps the memory sound: a pair is added only for a name that is not there, and the
    generation counts it. -/
theorem sound_getOrCreate (naming : Naming) (m : Memory) (name : String) (hm : m.Sound) :
    (m.getOrCreate naming name).2.Sound := by
  rcases getOrCreate_cases naming m name with ⟨id, _, heq⟩ | ⟨hget, attempt, d, drawn, heq⟩
  · rw [heq]
    exact hm
  · rw [heq]
    refine ⟨?_, ?_⟩
    · simp only []
      -- The new name was not in the map, or no pair would have been made.
      rw [ClassMap.names_append, List.nodup_append]
      refine ⟨hm.nodup, List.pairwise_singleton _ name, fun a ha b hb => ?_⟩
      rw [List.mem_singleton.mp hb]
      rintro rfl
      exact (ClassMap.get?_eq_none_iff m.map _).mp hget ha
    · simp only [List.length_append, List.length_cons, List.length_nil, hm.generation]

/-- What holds of all candidates holds of all ids. The property is any property of texts, so this
    serves for lengths, letters and words alike. -/
theorem forall_ids_getOrCreate (naming : Naming) (P : String → Prop)
    (hP : ∀ name attempt d, P (naming.generate name attempt d)) (m : Memory) (name : String)
    (hm : ∀ id ∈ m.map.ids, P id) : ∀ id ∈ (m.getOrCreate naming name).2.map.ids, P id := by
  rcases getOrCreate_cases naming m name with ⟨id, _, heq⟩ | ⟨_, attempt, d, drawn, heq⟩
  · rw [heq]
    exact hm
  · rw [heq]
    intro id hid
    rw [ClassMap.ids, List.map_append, List.mem_append] at hid
    rcases hid with hid | hid
    · exact hm id hid
    · rw [List.mem_singleton.mp hid]
      exact hP name attempt d

/-! ### Many requests -/

/-- Whatever a request keeps, many requests keep. It is stated for any property of memories, and the
    induction on the list of names is made nowhere else. -/
theorem getOrCreateAll_induction (naming : Naming) (P : Memory → Prop)
    (hstep : ∀ m name, P m → P (m.getOrCreate naming name).2) (names : List String) (m : Memory)
    (hm : P m) : P (getOrCreateAll naming m names).2 := by
  induction names generalizing m with
  | nil => exact hm
  | cons name rest ih => exact ih _ (hstep m name hm)

/-- So it does with any number of requests. -/
theorem prefix_getOrCreateAll (naming : Naming) (names : List String) (m : Memory) :
    m.map <+: (getOrCreateAll naming m names).2.map :=
  getOrCreateAll_induction naming (fun later => m.map <+: later.map)
    (fun later name h => h.trans (prefix_getOrCreate naming later name)) names m
    (List.prefix_refl m.map)

/-- What many requests answer can be read off any later map: each class is in it, and was answered
    with the id that it has there. -/
theorem renamed_getOrCreateAll (naming : Naming) (later : ClassMap) (words : List (List Char))
    (m : Memory) (hlater : (getOrCreateAll naming m (words.map String.ofList)).2.map <+: later) :
    (getOrCreateAll naming m (words.map String.ofList)).1.map String.toList
        = words.map later.renamed ∧
      ∀ word ∈ words, String.ofList word ∈ later.names := by
  -- The later map is fixed, so it is the same for all the requests of the induction.
  induction words generalizing m with
  | nil => exact ⟨rfl, fun word hword => absurd hword List.not_mem_nil⟩
  | cons word rest ih =>
      rw [List.map_cons, getOrCreateAll] at hlater ⊢
      -- What the first request has put in stays, whatever the others put behind it.
      have hgrow := (prefix_getOrCreateAll naming (rest.map String.ofList)
        (m.getOrCreate naming (String.ofList word)).2).trans hlater
      have hget : later.get? (String.ofList word)
          = some (m.getOrCreate naming (String.ofList word)).1 := by
        rcases hgrow with ⟨more, hmore⟩
        rw [← hmore]
        exact ClassMap.get?_append_left _ more _ _ (get?_getOrCreate naming m _)
      rcases ih _ hlater with ⟨hids, hknown⟩
      refine ⟨?_, fun other hother => ?_⟩
      · rw [List.map_cons, List.map_cons, hids, ClassMap.renamed_of_get? later word _ hget]
      · rcases List.mem_cons.mp hother with rfl | hother
        · exact ClassMap.mem_names_of_mem later _ _ (ClassMap.mem_of_get? later _ _ hget)
        · exact hknown other hother

/-! ### Memories that can be reached -/

/-- The memories that a store can come to have: it starts with nothing, classes are asked for, what
    has been written is counted, and time goes by. No more is ever counted as written than has been
    assigned, which is the condition on the third. -/
inductive Reached (naming : Naming) : Memory → Prop where
  | empty : Reached naming {}
  | getOrCreate (m : Memory) (name : String) :
      Reached naming m → Reached naming (m.getOrCreate naming name).2
  | markFlushed (m : Memory) (generation : Nat) :
      generation ≤ m.generation → Reached naming m → Reached naming (m.markFlushed generation)
  | wait (m : Memory) (now : Nat) : Reached naming m → Reached naming { m with now := now }

theorem reached_getOrCreateAll (naming : Naming) (names : List String) (m : Memory)
    (hm : Reached naming m) : Reached naming (getOrCreateAll naming m names).2 :=
  getOrCreateAll_induction naming (Reached naming) Reached.getOrCreate names m hm

theorem map_markFlushed (m : Memory) (generation : Nat) :
    (m.markFlushed generation).map = m.map := by
  rw [markFlushed]
  split <;> rfl

theorem generation_markFlushed (m : Memory) (generation : Nat) :
    (m.markFlushed generation).generation = m.generation := by
  rw [markFlushed]
  split <;> rfl

theorem sound_markFlushed (m : Memory) (generation : Nat) (hm : m.Sound) :
    (m.markFlushed generation).Sound := by
  refine ⟨?_, ?_⟩
  · rw [map_markFlushed]
    exact hm.nodup
  · rw [map_markFlushed, generation_markFlushed]
    exact hm.generation

/-- A memory is sound whenever it can be reached, by induction on the way there. -/
theorem sound_of_reached (naming : Naming) (m : Memory) (h : Reached naming m) : m.Sound := by
  induction h with
  | empty => exact sound_empty
  | getOrCreate m name _ ih => exact sound_getOrCreate naming m name ih
  | markFlushed m generation _ _ ih => exact sound_markFlushed m generation ih
  | wait m now _ ih => exact ⟨ih.nodup, ih.generation⟩

/-- What holds of all that the generator offers holds of all ids. Every id was offered at some
    attempt, whatever the memory was like then. -/
theorem forall_ids_of_reached (naming : Naming) (P : String → Prop)
    (hP : ∀ name attempt d, P (naming.generate name attempt d)) (m : Memory)
    (h : Reached naming m) : ∀ id ∈ m.map.ids, P id := by
  induction h with
  | empty => exact fun id hid => absurd hid List.not_mem_nil
  | getOrCreate m name _ ih => exact forall_ids_getOrCreate naming P hP m name ih
  | markFlushed m generation _ _ ih =>
      rw [map_markFlushed]
      exact ih
  | wait m now _ ih => exact ih

end Memory

end ClassVeil
