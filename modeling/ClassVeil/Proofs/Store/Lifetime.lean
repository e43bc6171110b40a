import ClassVeil.Css.Transform
import ClassVeil.Proofs.Css.Index
import ClassVeil.Proofs.Id.Letters
import ClassVeil.Proofs.Renaming.Asked
import ClassVeil.Proofs.Shared.Flushing
import ClassVeil.Proofs.Store.Unique

/-!
# The life of a store

Whatever is done with a store, its memory goes through no states but those that requests for ids,
the counting of what has been written and the clock lead to (`Memory.Reached`). So what holds of all
of these holds at any time. A call that fails midway is no exception: a transformation whose map
cannot be written has made its requests, and a flush that fails has counted nothing.

There are two inductions, and they are kept apart. One is over the ways to reach a memory: it knows
nothing of files, and shows that the parts of the memory agree (`Memory.InStep`). The other is over
the calls of a run: it knows nothing of what the memory is like, and shows that a call can only take
the store forward (`Store.Advances`). This relation is a preorder, so a run is dealt with as soon as
each kind of call is. A further call would need a lemma that it advances the store, and nothing else
here would change.

Ids have a section of their own because a selector is more than a name: most names must be escaped
in one, and that an id needs no escape comes from the alphabet it is drawn from.

## Main definitions

* `Memory.InStep`: The parts of the memory agree with one another.
* `Store.Advances`: What a store can become.
* `Call`, `Call.run`: What can be done with a store, and what becomes of it.
* `Store.Step`, `Store.Run`: A call, or something that happens from outside; any number of these.

## Theorems

* `inStep_of_reached`: The memory is in step whenever it can be reached.
* `escape_of_isId`: An id is its own selector.
* `flush_cases`: What a flush does to the store.
* `store_load`, `memory_load`, `store_renameSheet`: Loading does not touch the memory.
* `Call.advances_run`, `advances_run`: Whatever is done, the store advances.
* `stays_in_step`: All of this, for a store from its opening on.
-/

namespace ClassVeil

/-! ### The memory -/

namespace Memory

/-- The parts of the memory agree with one another. The memory keeps the ids in use beside the map,
    two generations, and the time of the last change; each of these could be computed from the map
    and what has been written of it, and here it is said how. -/
structure InStep (m : Memory) : Prop where
  tracks : m.Tracks
  generation : m.generation = m.map.length
  flushed : m.flushedGeneration ≤ m.generation
  mutated : m.lastMutation.isSome ↔ m.map ≠ []

theorem inStep_getOrCreate (naming : Naming) (m : Memory) (name : String) (hm : m.InStep) :
    (m.getOrCreate naming name).2.InStep := by
  have htracks := tracks_getOrCreate naming m name hm.tracks
  rcases getOrCreate_cases naming m name with ⟨id, _, heq⟩ | ⟨_, attempt, d, drawn, heq⟩
  · rw [heq]
    exact hm
  · -- A pair more, and the generation one higher.
    rw [heq] at htracks ⊢
    refine ⟨htracks, ?_, ?_, ?_⟩
    · simp only [List.length_append, List.length_cons, List.length_nil, hm.generation]
    · exact Nat.le_succ_of_le hm.flushed
    · simp only [Option.isSome_some, ne_eq, List.append_eq_nil_iff, List.cons_ne_nil, and_false,
        not_false_eq_true]

theorem inStep_markFlushed (m : Memory) (generation : Nat) (hle : generation ≤ m.generation)
    (hm : m.InStep) : (m.markFlushed generation).InStep := by
  -- A flush that comes late does not lower what has been counted.
  unfold markFlushed
  split
  · exact ⟨hm.tracks, hm.generation, hle, hm.mutated⟩
  · exact hm

/-- The memory is in step whenever it can be reached, by induction on how. Only a request for an id
    and a flush have anything to show, and time going by leaves all the parts alone. -/
theorem inStep_of_reached (naming : Naming) (m : Memory) (h : Reached naming m) : m.InStep := by
  induction h with
  | empty => exact ⟨tracks_empty, rfl, Nat.le_refl 0, by decide⟩
  | getOrCreate m name _ ih => exact inStep_getOrCreate naming m name ih
  | markFlushed m generation hle _ ih => exact inStep_markFlushed m generation hle ih
  | wait m now _ ih => exact ⟨ih.tracks, ih.generation, ih.flushed, ih.mutated⟩

end Memory

/-! ### Ids in selectors -/

theorem Id.isAlpha_of_mem_alphabet (c : Char) (hc : c ∈ alphabet) : c.isAlpha = true := by
  -- There are few letters, so they are gone through.
  have hall : alphabet.all Char.isAlpha = true := by decide
  exact List.all_eq_true.mp hall c hc

theorem Selector.escapeChars_of_plain (name : List Char) (h : ∀ c ∈ name, isPlain c = true) :
    escapeChars name = name := by
  -- What is done with a character depends on nothing around it once it is plain.
  induction name with
  | nil => rfl
  | cons c rest ih =>
      rw [escapeChars_of_isPlain c rest (h c List.mem_cons_self),
        ih fun d hd => h d (List.mem_cons_of_mem c hd)]

/-- An id is its own selector: it is made of letters, and letters stand for themselves. So what is
    put into a stylesheet for a class needs no backslashes. -/
theorem Selector.escape_of_isId (length : Nat) (id : String) (h : Id.IsId length id) :
    escape id = id := by
  unfold escape
  rw [escapeChars_of_plain id.toList ?_, String.ofList_toList]
  intro c hc
  have halpha := Id.isAlpha_of_mem_alphabet c (h.2 c hc)
  simp only [isPlain, Char.isAlphanum, halpha, Bool.true_or]

/-! ### Calls -/

namespace Store

/-- What a store can become: it keeps its way of naming, its map grows at the end, and its memory
    stays among those that can be reached. The last is said as an implication, so that it may be
    used of a store whose own past is not known. -/
structure Advances (s s' : Store) : Prop where
  naming : s'.naming = s.naming
  grows : s.memory.map <+: s'.memory.map
  reached : Memory.Reached s.naming s.memory → Memory.Reached s.naming s'.memory

theorem advances_of_memory (s s' : Store) (hnaming : s'.naming = s.naming)
    (hmemory : s'.memory = s.memory) : Advances s s' := by
  refine ⟨hnaming, ?_, ?_⟩
  · rw [hmemory]
  · rw [hmemory]
    exact id

theorem advances_trans (s s' s'' : Store) (h : Advances s s') (h' : Advances s' s'') :
    Advances s s'' := by
  refine ⟨h'.naming.trans h.naming, h.grows.trans h'.grows, ?_⟩
  intro hreached
  -- The second step reaches from the naming of the store between, which is that of the first.
  rw [← h.naming]
  refine h'.reached ?_
  rw [h.naming]
  exact h.reached hreached

theorem advances_getOrCreate (s : Store) (name : String) : Advances s (s.getOrCreate name).2 :=
  ⟨rfl, Memory.prefix_getOrCreate s.naming s.memory name,
    Memory.Reached.getOrCreate s.memory name⟩

/-- A flush counts what there is as written, or nothing if it fails. Nobody comes between the
    snapshot and the end of this flush, so the generation it counts is the present one. -/
theorem flush_cases (s : Store) (fs : FileSystem) :
    (∃ e fs', s.flush fs = (some e, s, fs')) ∨
    ∃ fs', s.flush fs
      = (none, { s with memory := s.memory.markFlushed s.memory.generation }, fs') := by
  rw [flush]
  rcases s.writeOut fs s.snapshot with ⟨_ | e, fs'⟩
  · exact Or.inr ⟨fs', rfl⟩
  · exact Or.inl ⟨e, fs', rfl⟩

theorem advances_flush (s : Store) (fs : FileSystem) : Advances s (s.flush fs).2.1 := by
  rcases flush_cases s fs with ⟨e, fs', heq⟩ | ⟨fs', heq⟩
  · rw [heq]
    exact advances_of_memory s s rfl rfl
  · rw [heq]
    refine ⟨rfl, ?_, ?_⟩
    · simp only [Memory.map_markFlushed]
      exact List.prefix_refl _
    · exact Memory.Reached.markFlushed s.memory s.memory.generation (Nat.le_refl _)

/-- A renaming asks for ids, one word after the other, so what it does to the memory is what the
    requests do. Which words they are is of no matter here. -/
theorem advances_renamedBy (s : Store) (attributes : List String) (job : Job)
    (rename : Renamer → List Char × Renamer) (h : job.rename? s.naming attributes = some rename) :
    Advances s (s.renamedBy rename) := by
  rcases Job.exists_asks s.naming attributes job rename h with ⟨words, hasks⟩
  refine ⟨rfl, ?_, ?_⟩
  · simp only [renamedBy, hasks.memory]
    exact Memory.prefix_getOrCreateAll s.naming _ s.memory
  · simp only [renamedBy, hasks.memory]
    exact Memory.reached_getOrCreateAll s.naming _ s.memory

/-- A transformation makes its requests and may then flush, so it is two advances one after the
    other. A source that cannot be read makes none. -/
theorem advances_transform (s : Store) (fs : FileSystem) (options : TransformOptions) (job : Job) :
    Advances s (s.transform fs options job).2.1 := by
  cases hrename : job.rename? s.naming options.classAttributes with
  -- A job that cannot be read is turned down before it asks for anything.
  | none =>
      rw [transform_of_unreadable s fs options job hrename]
      exact advances_of_memory s s rfl rfl
  | some rename =>
      have hrenamed := advances_renamedBy s options.classAttributes job rename hrename
      have hflushed := advances_trans s _ _ hrenamed (advances_flush (s.renamedBy rename) fs)
      rw [transform_of_rename s fs options job rename hrename]
      split
      · -- Whether the flush fails makes a difference to the answer only.
        rcases flush_cases (s.renamedBy rename) fs with ⟨e, fs', heq⟩ | ⟨fs', heq⟩
        · rw [heq] at hflushed ⊢
          exact hflushed
        · rw [heq] at hflushed ⊢
          exact hflushed
      · exact hrenamed

/-- Loading changes what the store remembers of the file, and nothing else. A load has five ways
    out, among them that there is no file, in which case it forgets what it remembers. -/
theorem store_load (s : Store) (fs : FileSystem) : ∃ cache nextSerial,
    (s.load fs).2 = { s with cache := cache, nextSerial := nextSerial } := by
  rw [load]
  -- First the status of the file, then the cache, and the file itself only if the cache is out of
  -- date.
  rcases fs.stat s.path.place with e | status
  · cases e with
    | notFound => exact ⟨none, s.nextSerial, rfl⟩
    | _ => exact ⟨s.cache, s.nextSerial, rfl⟩
  · simp only []
    cases s.cached? status with
    | some loaded => exact ⟨s.cache, s.nextSerial, rfl⟩
    | none =>
        rcases s.readMap fs with e | _ | map
        · exact ⟨s.cache, s.nextSerial, rfl⟩
        · exact ⟨s.cache, s.nextSerial, rfl⟩
        · exact ⟨_, _, rfl⟩

/-- Loading does not touch the memory. What is loaded is an answer, and goes into the cache at most.
    -/
theorem memory_load (s : Store) (fs : FileSystem) :
    (s.load fs).2.naming = s.naming ∧ (s.load fs).2.memory = s.memory := by
  rcases s.store_load fs with ⟨cache, nextSerial, heq⟩
  rw [heq]
  exact ⟨rfl, rfl⟩

/-- The renaming of a stylesheet loads the map and does nothing else to the store. -/
theorem store_renameSheet (s : Store) (fs : FileSystem) (sheet : Css.Stylesheet) :
    (s.renameSheet fs sheet).2 = (s.load fs).2 := by
  unfold renameSheet
  rcases s.load fs with ⟨e | _ | loaded, s'⟩
  · rfl
  · rfl
  · rfl

end Store

/-- What can be done with a store. -/
inductive Call where
  | getOrCreate (name : String)
  | get (name : String)
  | snapshot
  | flush
  | load
  | transform (options : TransformOptions) (job : Job)
  | transformCss (style : Css.Style) (source : List Char)
  | hookCss (source : List Char)

/-- The store and the files after a call. To look a class up and to take a snapshot are calls that
    answer and change nothing. -/
def Call.run (s : Store) (fs : FileSystem) : Call → Store × FileSystem
  | .getOrCreate name => ((s.getOrCreate name).2, fs)
  | .get _ | .snapshot => (s, fs)
  | .flush => (s.flush fs).2
  | .load => ((s.load fs).2, fs)
  | .transform options job => (s.transform fs options job).2
  | .transformCss style source => ((s.transformCss fs style source).2, fs)
  | .hookCss source => ((s.hookCss fs source).2, fs)

/-- Whatever is called, the store advances, and that is so if the call fails too. -/
theorem Call.advances_run (s : Store) (fs : FileSystem) (call : Call) :
    s.Advances (call.run s fs).1 := by
  have hload : s.Advances (s.load fs).2 :=
    s.advances_of_memory _ (s.memory_load fs).1 (s.memory_load fs).2
  -- Each kind of call has its lemma above. The last two differ from a load in their answer only.
  cases call with
  | getOrCreate name => exact s.advances_getOrCreate name
  | get name => exact s.advances_of_memory s rfl rfl
  | snapshot => exact s.advances_of_memory s rfl rfl
  | flush => exact s.advances_flush fs
  | load => exact hload
  | transform options job => exact s.advances_transform fs options job
  | transformCss style source =>
      rw [run, Store.transformCss]
      simp only [Store.store_renameSheet]
      exact hload
  | hookCss source =>
      rw [run, Store.hookCss]
      simp only [Store.store_renameSheet]
      exact hload

namespace Store

/-- A call, or what happens from outside: time goes by, and others do with the files whatever they
    like. What a flush leaves behind that fails for a reason of its own is among the latter. -/
inductive Step : Store × FileSystem → Store × FileSystem → Prop
  | call (s : Store) (fs : FileSystem) (call : Call) : Step (s, fs) (call.run s fs)
  | wait (s : Store) (fs : FileSystem) (now : Nat) :
      Step (s, fs) ({ s with memory := { s.memory with now := now } }, fs)
  | files (s : Store) (fs fs' : FileSystem) : Step (s, fs) (s, fs')

/-- Any number of steps. -/
abbrev Run : Store × FileSystem → Store × FileSystem → Prop := Relation.ReflTransGen Step

theorem advances_step (state next : Store × FileSystem) (h : Step state next) :
    Advances state.1 next.1 := by
  cases h with
  | call s fs call => exact call.advances_run s fs
  | wait s fs now => exact ⟨rfl, List.prefix_refl _, Memory.Reached.wait s.memory now⟩
  | files s fs fs' => exact advances_of_memory s s rfl rfl

/-- Whatever is done, the store advances, by induction on the calls. -/
theorem advances_run (state later : Store × FileSystem) (h : Run state later) :
    Advances state.1 later.1 := by
  induction h with
  | refl => exact advances_of_memory state.1 state.1 rfl rfl
  | tail _ hstep ih => exact advances_trans _ _ _ ih (advances_step _ _ hstep)

end Store

/-- Whatever is done with a store from its opening on, and whatever fails, its memory is in step at
    any time: the ids in use are those of the map, the generation counts its pairs, no more is
    counted as written than has been assigned, and there is a last change exactly if there are any.
    All ids are as long as the configuration says and made of letters, so they are their own
    selectors. From then on the map only grows at its end, and no class gets another id or loses its
    own. Loading does not touch the memory, whatever is in the file. -/
theorem stays_in_step (current root : String) (config : Config) (stream : Nat → String)
    (opened s : Store) (files fs : FileSystem)
    (hopen : Store.openAt current root config stream = .ok opened)
    (hstream : config.idMode = .random → ∀ n, Id.IsId config.idLength (stream n))
    (hrun : Store.Run (opened, files) (s, fs)) :
    ((∀ id, id ∈ s.memory.assigned ↔ id ∈ s.memory.map.ids) ∧
      s.memory.generation = s.memory.map.length ∧
      s.memory.flushedGeneration ≤ s.memory.generation ∧
      (s.memory.lastMutation.isSome ↔ s.memory.map ≠ [])) ∧
    (∀ id ∈ s.memory.map.ids, id.toList.length = config.idLength ∧
      (∀ c ∈ id.toList, c.isAlpha = true) ∧ Selector.escape id = id) ∧
    (∀ later fs', Store.Run (s, fs) (later, fs') → s.memory.map <+: later.memory.map ∧
      ∀ name id, s.memory.get? name = some id → later.memory.get? name = some id) ∧
    ∀ fs', (s.load fs').2.memory = s.memory := by
  -- The run begins with an empty memory, and it advances, so its memory is one that can be reached.
  have hempty := (Store.memory_of_openAt current root config stream opened hopen).1
  have hreached : Memory.Reached opened.naming s.memory := by
    refine (Store.advances_run _ _ hrun).reached ?_
    simp only [hempty]
    exact Memory.Reached.empty
  have hstep := Memory.inStep_of_reached opened.naming s.memory hreached
  -- Of such memories it is known what the ids are like.
  have hids := Store.isId_of_openAt current root config stream opened hopen hstream _ hreached
  refine ⟨⟨hstep.tracks, hstep.generation, hstep.flushed, hstep.mutated⟩, fun id hid => ?_,
    fun later fs' hlater => ?_, fun fs' => (s.memory_load fs').2⟩
  · have hid := hids id hid
    exact ⟨hid.1, fun c hc => Id.isAlpha_of_mem_alphabet c (hid.2 c hc),
      Selector.escape_of_isId config.idLength id hid⟩
  · have hgrow : s.memory.map <+: later.memory.map := (Store.advances_run _ _ hlater).grows
    refine ⟨hgrow, fun name id hget => ?_⟩
    -- A lookup takes the first pair of a name, so pairs behind it make no difference.
    rcases hgrow with ⟨more, hmore⟩
    unfold Memory.get?
    rw [← hmore]
    exact ClassMap.get?_append_left _ more name id hget

/-- One class is asked for, and the map is written. Both generations are one then, and the id is its
    own selector. -/
theorem stays_in_step_flushed : ∃ s fs, Store.Run (openedWorld.store, ⟨[], 0⟩) (s, fs) ∧
    s.memory.map = [("p-4", "abcdefgh")] ∧ s.memory.flushedGeneration = 1 ∧
    s.memory.generation = 1 ∧ Selector.escape "abcdefgh" = "abcdefgh" := by
  have hasked := Relation.ReflTransGen.single
    (Store.Step.call openedWorld.store ⟨[], 0⟩ (.getOrCreate "p-4"))
  have hrun := hasked.tail (Store.Step.call (openedWorld.store.getOrCreate "p-4").2 ⟨[], 0⟩ .flush)
  have hdone : (Call.run (openedWorld.store.getOrCreate "p-4").2 ⟨[], 0⟩ .flush).1.memory.map
        = [("p-4", "abcdefgh")] ∧
      (Call.run (openedWorld.store.getOrCreate "p-4").2 ⟨[], 0⟩ .flush).1.memory.flushedGeneration
        = 1 := by
    decide +kernel
  generalize Call.run (openedWorld.store.getOrCreate "p-4").2 ⟨[], 0⟩ .flush = done at hrun hdone
  rcases done with ⟨s, fs⟩
  rcases hdone with ⟨hmap, hflushed⟩
  have hid : Id.IsId 8 "abcdefgh" := ⟨rfl, (by decide : "abcdefgh".toList ⊆ Id.alphabet)⟩
  have hstep := stays_in_step "/" "." { mapPath := "m.json" } (fun _ => "abcdefgh")
    openedWorld.store s ⟨[], 0⟩ fs rfl (fun _ _ => hid) hrun
  rw [hmap] at hstep
  exact ⟨s, fs, hrun, hmap, hflushed, hstep.1.2.1,
    (hstep.2.1 _ (List.mem_singleton_self "abcdefgh")).2.2⟩

end ClassVeil
