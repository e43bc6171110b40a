import ClassVeil.Proofs.Store.Lifetime

/-!
# A written map is read back

A map is written as text by one set of rules and read by another, perhaps by a store in another
process. Class names can be any text, so quotes, backslashes and control characters have to come
through the escapes, and everything else through its bytes. What is read is the map that was
written, with the same pairs in the same order; the empty map is no exception.

That a map has no name twice is what a store owes to the format: it is an object with the names for
its keys, and a key that came again would be put in its first place. A store keeps this from its
opening on, and it also stays with its file. So both hold for whatever has been done with it.

Nothing about characters is left to be done here. The lemmas on texts, on values and on the file of
a store meet in one theorem, and what this module adds is that the store they are used for is any
that a run can have led to: it has kept its path, so the place it writes to is the one that was
confined at the opening, and its memory can be reached, so its names are distinct.

## Main definitions

* `Store.SameHome`: A store has kept its root and its path.

## Theorems

* `sameHome_run`: Whatever is done with a store, it stays with its file.
* `load_after_flush`: After a flush the file is the map, and every store loads it as that.
-/

namespace ClassVeil

namespace Store

/-! ### The place of the file -/

/-- A store has kept its root and its path. These are the two that the confinement of its file
    depends on. -/
structure SameHome (s s' : Store) : Prop where
  root : s'.root = s.root
  path : s'.path = s.path

theorem sameHome_trans (s s' s'' : Store) (h : SameHome s s') (h' : SameHome s' s'') :
    SameHome s s'' := ⟨h'.root.trans h.root, h'.path.trans h.path⟩

/-- A store that has kept its root and its path is confined if it was. -/
theorem confined_of_sameHome (s s' : Store) (h : SameHome s s') (hs : s.Confined) :
    s'.Confined := by
  rw [Confined, h.root, h.path]
  exact hs

theorem sameHome_flush (s : Store) (fs : FileSystem) : SameHome s (s.flush fs).2.1 := by
  rcases flush_cases s fs with ⟨e, fs', heq⟩ | ⟨fs', heq⟩
  · rw [heq]
    exact ⟨rfl, rfl⟩
  · rw [heq]
    exact ⟨rfl, rfl⟩

theorem sameHome_load (s : Store) (fs : FileSystem) : SameHome s (s.load fs).2 := by
  rcases s.store_load fs with ⟨cache, nextSerial, heq⟩
  rw [heq]
  exact ⟨rfl, rfl⟩

/-- A transformation does not move the store: its file and its root stay what they are. -/
theorem sameHome_transform (s : Store) (fs : FileSystem) (options : TransformOptions)
    (job : Job) : SameHome s (s.transform fs options job).2.1 := by
  cases hrename : job.rename? s.naming options.classAttributes with
  | none =>
      rw [transform_of_unreadable s fs options job hrename]
      exact ⟨rfl, rfl⟩
  | some rename =>
      have hflushed := sameHome_flush (s.renamedBy rename) fs
      rw [transform_of_rename s fs options job rename hrename]
      -- Strict transformations end with a flush, and other ones do not.
      split
      · rcases flush_cases (s.renamedBy rename) fs with ⟨e, fs', heq⟩ | ⟨fs', heq⟩
        · rw [heq]
          exact ⟨rfl, rfl⟩
        · rw [heq]
          exact ⟨rfl, rfl⟩
      · exact ⟨rfl, rfl⟩

/-- Nor does any other call. What changes is the memory, the cache, and the number of the next map
    that is read. -/
theorem sameHome_call (s : Store) (fs : FileSystem) (call : Call) :
    SameHome s (call.run s fs).1 := by
  have hload := sameHome_load s fs
  cases call with
  | getOrCreate name => exact ⟨rfl, rfl⟩
  | get name => exact ⟨rfl, rfl⟩
  | snapshot => exact ⟨rfl, rfl⟩
  | flush => exact sameHome_flush s fs
  | load => exact hload
  | transform options job => exact sameHome_transform s fs options job
  | transformCss style source =>
      rw [Call.run, transformCss]
      simp only [store_renameSheet]
      exact hload
  | hookCss source =>
      rw [Call.run, hookCss]
      simp only [store_renameSheet]
      exact hload

/-- Whatever is done with a store, it stays with its file: no call has a way to change the root or
    the path, and what happens outside changes nothing in the store. -/
theorem sameHome_run (state later : Store × FileSystem) (h : Run state later) :
    SameHome state.1 later.1 := by
  induction h with
  | refl => exact ⟨rfl, rfl⟩
  | tail _ hstep ih =>
      refine sameHome_trans _ _ _ ih ?_
      cases hstep with
      | call s fs call => exact sameHome_call s fs call
      | wait s fs now => exact ⟨rfl, rfl⟩
      | files s fs fs' => exact ⟨rfl, rfl⟩

end Store

/-! ### Writing and reading -/

/-- After a flush the file of a store is its map: its bytes are a text, and the text is read as the
    map that the store had when it was flushed, with the same pairs in the same order. So any store
    with that file loads this map, the one that was flushed and any other one, unless it takes the
    file for one that it has read. This holds whatever has been done with the store from its opening
    on, for all names that classes can have, and if it has no class at all. -/
theorem load_after_flush (current root : String) (config : Config) (stream : Nat → String)
    (opened s : Store) (files fs : FileSystem) (hcurrent : current.toList.head? = some '/')
    (hopen : Store.openAt current root config stream = .ok opened)
    (hrun : Store.Run (opened, files) (s, fs)) (flushed : Store) (fs' : FileSystem)
    (hflush : s.flush fs = (none, flushed, fs')) :
    (∃ bytes text, fs'.readBytes s.file = .ok bytes ∧ Utf8.decode bytes = some text ∧
      ClassMap.read text = .ok s.memory.map) ∧
    ∀ reader : Store, reader.path = s.path →
      (∀ status, fs'.stat reader.file = .ok status → reader.cached? status = none) →
      ∃ loaded reader', reader.load fs' = (.ok (some loaded), reader') ∧
        loaded.map = s.memory.map := by
  rcases Store.memory_of_openAt current root config stream opened hopen with ⟨hempty, -⟩
  have hreached : Memory.Reached opened.naming s.memory := by
    refine (Store.advances_run _ _ hrun).reached ?_
    simp only [hempty]
    exact Memory.Reached.empty
  -- No name comes twice in a memory that can be reached.
  have hnames : s.memory.map.names.Nodup :=
    (Memory.sound_of_reached opened.naming s.memory hreached).nodup
  -- The path is the one from the opening, so confinement leads to it again.
  have hconfined : s.Confined := Store.confined_of_sameHome opened s (Store.sameHome_run _ _ hrun)
    (Store.confined_of_openAt current root config stream opened hcurrent hopen)
  rcases Store.find_of_flush s flushed hconfined fs fs' hflush with ⟨time, hfind⟩
  refine ⟨⟨s.memory.map.fileBytes, s.memory.map.write, ?_, Utf8.decode_encode _,
    ClassMap.read_write_eq _ hnames⟩, fun reader hpath hcache => ?_⟩
  · rw [FileSystem.readBytes, hfind]
  -- Another store finds the same file, provided that it has the same path.
  · rw [Store.file, ← hpath] at hfind
    rcases Store.load_of_find reader fs' time s.memory.map hnames hfind hcache with
      ⟨reader', hload⟩
    exact ⟨_, reader', hload, rfl⟩

/-- The store after classes have been asked for, one after the other. -/
def Store.asked (s : Store) (names : List String) : Store :=
  names.foldl (fun s name => (s.getOrCreate name).2) s

theorem Store.run_asked (s : Store) (fs : FileSystem) (names : List String) :
    Run (s, fs) (s.asked names, fs) := by
  induction names generalizing s with
  | nil => exact Relation.ReflTransGen.refl
  | cons name rest ih => exact (ih _).head (Step.call s fs (.getOrCreate name))

/-- Names that need escapes, a name that needs none although it looks odd, and the empty one. -/
def oddNames : List String := ["", "\"\\\x08\n", "\x7f\u2028😀"]

theorem load_after_flush_oddNames :
    ((openedWorld.store.asked oddNames).flush ⟨[], 0⟩).1 = none ∧
    (openedWorld.store.asked oddNames).memory.map.names = oddNames ∧
    ∃ loaded reader', ((openedWorld.store.asked oddNames).flush ⟨[], 0⟩).2.1.load
        ((openedWorld.store.asked oddNames).flush ⟨[], 0⟩).2.2 = (.ok (some loaded), reader') ∧
      loaded.map = (openedWorld.store.asked oddNames).memory.map := by
  have hflush : ((openedWorld.store.asked oddNames).flush ⟨[], 0⟩).1 = none := by decide +kernel
  have hload := (load_after_flush "/" "." { mapPath := "m.json" } (fun _ => "abcdefgh")
    openedWorld.store _ ⟨[], 0⟩ ⟨[], 0⟩ rfl rfl
    (openedWorld.store.run_asked ⟨[], 0⟩ oddNames) _ _ (Prod.ext hflush rfl)).2
  exact ⟨hflush, by decide +kernel, hload _ rfl (fun _ _ => rfl)⟩

end ClassVeil
