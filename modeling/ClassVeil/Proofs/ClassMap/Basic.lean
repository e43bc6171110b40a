import ClassVeil.ClassMap

/-!
# Looking up and putting in

A class map is a list of pairs, and its order is part of what it says, so its operations are
described by what they do to the list. A new name goes to the end. This is why a map that grows
keeps every earlier state of itself as an initial segment, and why looking up a name that is there
gives the same answer for good.

Nothing in the type keeps a name from coming twice, and it is not asked for unless it is used. What
is known without it goes in one direction: an answer to a name is beside it somewhere. That every
pair answers to its name needs distinct names; that an id tells its name needs distinct ids.

All of these are inductions on the list that follow the recursion of the operation, with the first
pair being the one that is looked for or not.

## Main definitions

* `ClassMap.names`, `ClassMap.ids`: The two columns of a map.
* `ClassMap.renamed`: The id of a word, or the word itself.

## Theorems

* `get?_eq_some_iff`: The answer to a name is the id beside it.
* `get?_eq_none_iff`: A name has no id exactly if it is not in the map.
* `insert_of_not_mem`: A new name goes to the end.
* `get?_insert`: Looking up after putting in.
* `exists_id_renamed`, `forall_renamed`: A word that is in the map becomes one of its ids.
* `get?_append_left`: A name that has an id keeps it when the map grows.
* `ofPairs_eq`: Pairs with distinct names are a map already.
* `eq_of_get?`: Where no id occurs twice, an id tells the name.
* `renamed_mem_map_iff`: Distinct ids tell the words apart that they stand for.
* `eraseDups_concat`: How the order of first appearance goes on.
-/

namespace ClassVeil

namespace ClassMap

/-- The class names of a map, in order. -/
def names (m : ClassMap) : List String := m.map Prod.fst

/-- The ids of a map, in order. -/
def ids (m : ClassMap) : List String := m.map Prod.snd

/-- What a word becomes: its id, or the word itself if it has none. Both passes do this to a word,
    the one over markup with the map in memory and the one over a stylesheet with the map from the
    file. -/
def renamed (m : ClassMap) (word : List Char) : List Char :=
  match m.get? (String.ofList word) with
  | some id => id.toList
  | none => word

theorem renamed_of_get? (m : ClassMap) (word : List Char) (id : String)
    (h : get? m (String.ofList word) = some id) : renamed m word = id.toList := by
  rw [renamed, h]

theorem renamed_of_not_mem (m : ClassMap) (word : List Char)
    (h : get? m (String.ofList word) = none) : renamed m word = word := by
  rw [renamed, h]

theorem names_append (m n : ClassMap) : names (m ++ n) = names m ++ names n := List.map_append

theorem mem_names_of_mem (m : ClassMap) (name id : String) (h : (name, id) ∈ m) :
    name ∈ names m := List.mem_map.mpr ⟨(name, id), h, rfl⟩

theorem mem_ids_of_mem (m : ClassMap) (name id : String) (h : (name, id) ∈ m) :
    id ∈ ids m := List.mem_map.mpr ⟨(name, id), h, rfl⟩

theorem mem_of_get? (m : ClassMap) (name id : String) (h : get? m name = some id) :
    (name, id) ∈ m := by
  induction m with
  | nil => cases h
  | cons pair rest ih =>
      rcases pair with ⟨k, v⟩
      rw [get?] at h
      by_cases hk : k = name
      · rw [if_pos hk, Option.some.injEq] at h
        rw [hk, h]
        exact List.mem_cons_self
      · rw [if_neg hk] at h
        exact List.mem_cons_of_mem _ (ih h)

/-- Where no name comes twice, the first pair with a name is the only one, so any pair of the map is
    the answer to its name. -/
theorem get?_of_mem (m : ClassMap) (hm : (names m).Nodup) (name id : String)
    (h : (name, id) ∈ m) : get? m name = some id := by
  induction m with
  | nil => cases h
  | cons pair rest ih =>
      rcases pair with ⟨k, v⟩
      rw [names, List.map_cons, List.nodup_cons] at hm
      rw [get?]
      rcases List.mem_cons.mp h with heq | hrest
      · rw [Prod.mk.injEq] at heq
        rw [if_pos heq.1.symm, heq.2]
      -- A first pair with this name would be a second one.
      · have hk : k ≠ name := by
          rintro rfl
          exact hm.1 (mem_names_of_mem rest k id hrest)
        rw [if_neg hk]
        exact ih hm.2 hrest

/-- Where no name comes twice, the answer to a name is the id beside it. A lookup takes the first
    pair with the name, so without the hypothesis a later pair would be in the map and never be the
    answer. -/
theorem get?_eq_some_iff (m : ClassMap) (hm : (names m).Nodup) (name id : String) :
    get? m name = some id ↔ (name, id) ∈ m := ⟨mem_of_get? m name id, get?_of_mem m hm name id⟩

/-- A name has no id exactly if it is not in the map. No hypothesis is needed for this, since a name
    that comes twice has an answer all the same. -/
theorem get?_eq_none_iff (m : ClassMap) (name : String) : get? m name = none ↔ name ∉ names m := by
  induction m with
  | nil => exact ⟨fun _ => List.not_mem_nil, fun _ => rfl⟩
  | cons pair rest ih =>
      rcases pair with ⟨k, v⟩
      rw [get?, names, List.map_cons, List.mem_cons]
      by_cases hk : k = name
      · rw [if_pos hk]
        exact ⟨fun h => absurd h (Option.some_ne_none v), fun h => absurd (Or.inl hk.symm) h⟩
      · rw [if_neg hk, ih]
        constructor
        · rintro h (rfl | hmem)
          · exact hk rfl
          · exact h hmem
        · intro h hmem
          exact h (Or.inr hmem)

/-- A word that is in the map becomes one of its ids. So whatever holds of all ids of a map holds of
    what its words become. -/
theorem exists_id_renamed (m : ClassMap) (word : List Char) (h : String.ofList word ∈ names m) :
    ∃ id ∈ ids m, renamed m word = id.toList := by
  cases hget : get? m (String.ofList word) with
  | none => exact absurd h ((get?_eq_none_iff m _).mp hget)
  | some id =>
      exact ⟨id, mem_ids_of_mem m _ id (mem_of_get? m _ id hget), renamed_of_get? m word id hget⟩

/-- What holds of all ids holds of what words become, if these are in the map. A word that is not
    stays what it is, and of that nothing is known. -/
theorem forall_renamed (m : ClassMap) (P : List Char → Prop) (hids : ∀ id ∈ ids m, P id.toList)
    (words : List (List Char)) (hknown : ∀ word ∈ words, String.ofList word ∈ names m) :
    ∀ w ∈ words.map (renamed m), P w := by
  intro w hw
  rcases List.mem_map.mp hw with ⟨word, hword, rfl⟩
  rcases exists_id_renamed m word (hknown word hword) with ⟨id, hid, hrenamed⟩
  rw [hrenamed]
  exact hids id hid

/-- A new name goes to the end, and the pairs before it stay where they are. The order of a map is
    therefore the order in which its names were first asked for. -/
theorem insert_of_not_mem (m : ClassMap) (name id : String) (h : name ∉ names m) :
    insert m name id = m ++ [(name, id)] := by
  induction m with
  | nil => rfl
  | cons pair rest ih =>
      rcases pair with ⟨k, v⟩
      rw [names, List.map_cons, List.mem_cons, not_or] at h
      rw [insert, if_neg (fun hk => h.1 hk.symm), ih h.2, List.cons_append]

/-- Looking up after putting in. A name that is there is overwritten where it is, so the answers to
    the others stay, in either case. -/
theorem get?_insert (m : ClassMap) (name id other : String) :
    get? (insert m name id) other = if name = other then some id else get? m other := by
  induction m with
  | nil => rfl
  | cons pair rest ih =>
      rcases pair with ⟨k, v⟩
      rw [insert]
      by_cases hk : k = name
      · rw [if_pos hk, get?, get?]
        by_cases hother : name = other
        · rw [if_pos (hk.trans hother), if_pos hother]
        · rw [if_neg (fun h => hother (hk.symm.trans h)), if_neg hother,
            if_neg (fun h => hother (hk.symm.trans h))]
      · rw [if_neg hk, get?, get?, ih]
        by_cases hother : k = other
        · rw [if_pos hother, if_pos hother, if_neg (fun h => hk (hother.trans h.symm))]
        · rw [if_neg hother, if_neg hother]

/-- A name that has an id keeps it when the map grows, whatever pairs are put behind it, since the
    first one counts. -/
theorem get?_append_left (m n : ClassMap) (name id : String) (h : get? m name = some id) :
    get? (m ++ n) name = some id := by
  induction m with
  | nil => cases h
  | cons pair rest ih =>
      rcases pair with ⟨k, v⟩
      rw [List.cons_append, get?]
      rw [get?] at h
      by_cases hk : k = name
      · rw [if_pos hk] at h ⊢
        exact h
      · rw [if_neg hk] at h ⊢
        exact ih h

theorem foldl_insert (pairs m : ClassMap) (h : (names (m ++ pairs)).Nodup) :
    pairs.foldl (fun m (name, id) => insert m name id) m = m ++ pairs := by
  induction pairs generalizing m with
  | nil => rw [List.foldl_nil, List.append_nil]
  | cons pair rest ih =>
      rcases pair with ⟨k, v⟩
      -- Each name is new when its turn comes.
      have hk : k ∉ names m := by
        rw [names_append, List.nodup_append] at h
        intro hmem
        exact h.2.2 k hmem k List.mem_cons_self rfl
      rw [List.append_cons] at h
      rw [List.foldl_cons]
      simp only []
      rw [insert_of_not_mem m k v hk, ih _ h, ← List.append_cons]

/-- Pairs with distinct names are a map already: each of them is new when it is put in. This is why
    a file that was written from a map gives the same map again. -/
theorem ofPairs_eq (pairs : List (String × String)) (h : (names pairs).Nodup) :
    ofPairs pairs = pairs := foldl_insert pairs [] h

/-- Where no id occurs twice, an id tells the name. Distinct names are not needed for this: the two
    pairs that the answers come from are one pair. -/
theorem eq_of_get? (m : ClassMap) (hm : (ids m).Nodup) (a b id : String)
    (ha : get? m a = some id) (hb : get? m b = some id) : a = b := by
  induction m with
  | nil => cases ha
  | cons pair rest ih =>
      rcases pair with ⟨k, v⟩
      rw [ids, List.map_cons, List.nodup_cons] at hm
      -- The id of the first pair is not found again behind it.
      have hrest : ∀ name, get? rest name ≠ some v :=
        fun name h => hm.1 (mem_ids_of_mem rest name v (mem_of_get? rest name v h))
      rw [get?] at ha hb
      by_cases hka : k = a
      · rw [if_pos hka, Option.some.injEq] at ha
        by_cases hkb : k = b
        · rw [← hka, ← hkb]
        · rw [if_neg hkb, ← ha] at hb
          exact absurd hb (hrest b)
      · rw [if_neg hka] at ha
        by_cases hkb : k = b
        · rw [if_pos hkb, Option.some.injEq] at hb
          rw [← hb] at ha
          exact absurd ha (hrest a)
        · rw [if_neg hkb] at hb
          exact ih hm.2 ha hb

/-- Distinct ids tell the words apart that they stand for. A word without an id is told apart too,
    unless it happens to be spelled like an id. -/
theorem renamed_mem_map_iff (m : ClassMap) (hm : (ids m).Nodup) (words : List (List Char))
    (hwords : ∀ word ∈ words, String.ofList word ∈ names m) (c : List Char)
    (hc : String.ofList c ∉ names m → String.ofList c ∉ ids m) :
    c ∈ words ↔ renamed m c ∈ words.map (renamed m) := by
  refine ⟨fun h => List.mem_map.mpr ⟨c, h, rfl⟩, fun h => ?_⟩
  rcases List.mem_map.mp h with ⟨word, hword, heq⟩
  cases hget : get? m (String.ofList word) with
  | none => exact absurd (hwords word hword) ((get?_eq_none_iff m _).mp hget)
  -- The word has an id, which is what the class would have been renamed to.
  | some id =>
      rw [renamed_of_get? m word id hget] at heq
      cases hgetc : get? m (String.ofList c) with
      -- The class is unknown, so it would have to be spelled like the id of a word.
      | none =>
          have hid : id = String.ofList c := by
            rw [renamed_of_not_mem m c hgetc] at heq
            rw [← heq, String.ofList_toList]
          refine absurd ?_ (hc ((get?_eq_none_iff m _).mp hgetc))
          rw [← hid]
          exact mem_ids_of_mem m _ id (mem_of_get? m _ id hget)
      | some other =>
          rw [renamed_of_get? m c other hgetc, String.toList_inj] at heq
          rw [heq] at hget
          have hname := String.ofList_injective (eq_of_get? m hm _ _ other hget hgetc)
          rw [← hname]
          exact hword

/-- The order of first appearance, when one more name appears. It is what a map does with its names,
    so a map can be compared with a list of names that were asked for. -/
theorem eraseDups_concat (known : List String) (name : String) :
    (known ++ [name]).eraseDups
      = if name ∈ known then known.eraseDups else known.eraseDups ++ [name] := by
  rw [List.eraseDups_append, List.removeAll]
  -- The new name is dropped, or it is the only one left of the second part.
  by_cases hname : name ∈ known
  · have hnothing : [name].filter (fun x => !known.elem x) = [] := by
      refine List.filter_eq_nil_iff.mpr fun x hx => ?_
      rw [List.mem_singleton.mp hx, List.elem_eq_true_of_mem hname]
      exact Bool.false_ne_true
    rw [if_pos hname, hnothing, List.eraseDups_nil, List.append_nil]
  · have hall : [name].filter (fun x => !known.elem x) = [name] := by
      refine List.filter_eq_self.mpr fun x hx => ?_
      rw [List.mem_singleton.mp hx, Bool.not_eq_true', ← Bool.not_eq_true]
      exact fun helem => hname (List.mem_of_elem_eq_true helem)
    rw [if_neg hname, hall, List.eraseDups_cons, List.filter_nil, List.eraseDups_nil]

end ClassMap

end ClassVeil
