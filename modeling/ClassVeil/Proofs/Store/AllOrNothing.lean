import ClassVeil.Proofs.Store.RoundTrip
import ClassVeil.Proofs.Store.Temporary

/-!
# A flush is all or nothing

A flush that goes through has put the map into its file and has counted it as written; one that does
not has changed neither the store nor any file. Directories above the file are all that it can leave
behind. Which of the two it comes to is decided by what is on the disk: the names have to be such as
can be given, and no file may be where a directory has to be, or a directory where the file has to
be. When the system refuses more than that, nothing else is left behind either.

The result is in two parts that have little to do with one another. When a replacement goes through
is a question about the table, answered by an induction along the way to the file: directories can
be made exactly if no file stands in their way, and what is made at one step does not get in the way
of the next one. What a flush comes to is a question about what it does with the answer, and is
settled for any way of replacing a file that does what a replacement does when it goes through, and
makes directories at most when it does not. The replacement in one step is one of these, and the one
through a temporary file is another.

## Main definitions

* `FileSystem.Writable`: Nothing stands in the way of a file.
* `Store.Written`, `Store.Refused`: What a flush has done, and what it has left alone.

## Theorems

* `makeAlong_ok_iff`: When directories can be made.
* `replace_ok_iff`: When a file can be replaced.
* `allOrNothing_of_replace`: What a flush comes to, by the way in which the file is replaced.
* `flush_all_or_nothing`: A flush has written the map, or has changed nothing but directories.
-/

namespace ClassVeil

/-- Counting everything as written. -/
theorem Memory.markFlushed_generation (m : Memory) (hm : m.flushedGeneration ≤ m.generation) :
    m.markFlushed m.generation = { m with flushedGeneration := m.generation } := by
  rw [markFlushed]
  by_cases h : m.flushedGeneration < m.generation
  · rw [if_pos h]
  · have heq : m.flushedGeneration = m.generation := Nat.le_antisymm hm (Nat.not_lt.mp h)
    rw [if_neg h]
    cases m
    cases heq
    rfl

namespace FileSystem

/-! ### When a replacement goes through -/

/-- Nothing stands in the way of a file in a place: its names can be given, no file is where a
    directory has to be, and no directory where the file has to be. All of it is about the table as
    it is before the replacement begins. -/
structure Writable (fs : FileSystem) (place : Place) : Prop where
  named : place ≠ []
  plain : place.hasNul = false
  short : ∀ name ∈ place, isTooLong name = false
  clear : ∀ q, q <+: place.dropLast → ∀ time bytes, fs.entryAt? q ≠ some (.file time bytes)
  free : ∀ time, fs.entryAt? place ≠ some (.directory time)

/-- No file stands where directories lead on from a base along some names. -/
def ClearWay (fs : FileSystem) (base : Place) (names : List String) : Prop :=
  ∀ q, base.length < q.length → q <+: base ++ names → ∀ time bytes,
    fs.entryAt? q ≠ some (.file time bytes)

theorem clearWay_nil (fs : FileSystem) (base : Place) : fs.ClearWay base [] := by
  intro q hlong hleads
  have hlength := hleads.length_le
  rw [List.append_nil] at hlength
  omega

/-- A way is clear if its next step is and what comes behind that. This is what lets the condition
    be taken apart along with the recursion that makes the directories. -/
theorem clearWay_cons (fs : FileSystem) (base : Place) (name : String) (rest : List String) :
    fs.ClearWay base (name :: rest) ↔
      (∀ time bytes, fs.entryAt? (base ++ [name]) ≠ some (.file time bytes)) ∧
        fs.ClearWay (base ++ [name]) rest := by
  have hlength : (base ++ [name]).length = base.length + 1 := by
    rw [List.length_append, List.length_singleton]
  rw [ClearWay, ClearWay, ← List.append_cons]
  constructor
  · intro h
    refine ⟨h (base ++ [name]) (by omega) ?_, fun q hlong hleads => h q (by omega) hleads⟩
    rw [List.append_cons base name rest]
    exact List.prefix_append _ rest
  · rintro ⟨hstep, hrest⟩ q hlong hleads
    -- A place on the way is the next step itself, or deeper than that.
    by_cases hq : q.length = base.length + 1
    · have hnext : base ++ [name] <+: base ++ name :: rest := by
        rw [List.append_cons base name rest]
        exact List.prefix_append _ rest
      have hsame := (List.prefix_of_prefix_length_le hleads hnext (by omega)).eq_of_length
        (by omega)
      rw [hsame]
      exact hstep
    · exact hrest q (by omega) hleads

/-- A directory that is made at the base of a way does not stand in it. The places of the way are
    all below the base, and the table has not changed there. -/
theorem clearWay_putNow (fs : FileSystem) (base : Place) (names : List String) (hne : base ≠ [])
    (entry : Nat → Entry) :
    (fs.putNow base entry).ClearWay base names ↔ fs.ClearWay base names := by
  have hsame : ∀ q : Place, base.length < q.length →
      (fs.putNow base entry).entryAt? q = fs.entryAt? q := by
    intro q hlong
    rw [entryAt?_putNow _ _ _ _ hne, if_neg]
    rintro rfl
    omega
  constructor
  · intro h q hlong hleads
    rw [← hsame q hlong]
    exact h q hlong hleads
  · intro h q hlong hleads
    rw [hsame q hlong]
    exact h q hlong hleads

/-- Directories can be made along names that are short enough, unless a file is in the way. By
    induction along the names: the first directory is there, or is made, and the others are looked
    for below it. -/
theorem makeAlong_ok_iff (fs : FileSystem) (base : Place) (names : List String) :
    (makeAlong fs base names).1 = none ↔
      (∀ name ∈ names, isTooLong name = false) ∧ fs.ClearWay base names := by
  -- The table changes along the way, but not where the rest of the way is.
  induction names generalizing fs base with
  | nil => exact ⟨fun _ => ⟨by simp, clearWay_nil fs base⟩, fun _ => rfl⟩
  | cons name rest ih =>
      have hne : base ++ [name] ≠ [] :=
        List.append_ne_nil_of_right_ne_nil _ (List.cons_ne_nil name [])
      rw [makeAlong, clearWay_cons, List.forall_mem_cons]
      by_cases hlong : isTooLong name = true
      · rw [if_pos hlong, hlong]
        constructor
        · intro h
          cases h
        · rintro ⟨⟨h, -⟩, -⟩
          cases h
      · rw [if_neg hlong]
        have hshort : isTooLong name = false := Bool.eq_false_iff.mpr hlong
        cases hentry : fs.entryAt? (base ++ [name]) with
        | none =>
            simp only [ih, clearWay_putNow fs _ rest hne, hshort, true_and, ne_eq, reduceCtorEq,
              not_false_eq_true, implies_true]
        | some entry =>
            cases entry with
            | directory m =>
                simp only [ih, hshort, true_and, ne_eq, reduceCtorEq, Option.some.injEq,
                  not_false_eq_true, implies_true]
            | file m bytes =>
                constructor
                · intro h
                  cases h
                · rintro ⟨-, hstep, -⟩
                  exact absurd rfl (hstep m bytes)

theorem makeDirectories_ok_iff (fs : FileSystem) (place : Place) :
    (fs.makeDirectories place).1 = none ↔
      place.hasNul = false ∧ (∀ name ∈ place, isTooLong name = false) ∧ fs.ClearWay [] place := by
  rw [makeDirectories]
  cases place.hasNul with
  | true =>
      constructor
      · intro h
        cases h
      · rintro ⟨h, -⟩
        cases h
  | false =>
      rw [if_neg (by decide), makeAlong_ok_iff]
      exact ⟨fun h => ⟨rfl, h⟩, fun h => h.2⟩

theorem rename_ok_iff (fs : FileSystem) (place : Place) (bytes : List UInt8) :
    (fs.rename place bytes).1 = none ↔ ∃ name, place.getLast? = some name ∧
      name.toList.contains '\x00' = false ∧ isTooLong name = false ∧
      ∀ time, fs.entryAt? place ≠ some (.directory time) := by
  constructor
  · intro h
    have hrename : fs.rename place bytes = (none, (fs.rename place bytes).2) := Prod.ext h rfl
    rcases rename_ok fs _ place bytes hrename with ⟨name, hlast, hname, hlong, -⟩
    exact ⟨name, hlast, hname, Bool.eq_false_iff.mpr hlong,
      not_directory_of_rename fs _ place bytes hrename⟩
  · rintro ⟨name, hlast, hname, hlong, hfree⟩
    rw [rename, hlast]
    -- The entry is matched last, and `hfree` rules the directory out.
    simp only [hname, hlong, Bool.false_eq_true, if_false]

/-- A replacement goes through exactly if nothing stands in the way. The condition on the last name
    is checked after the directories have been made, when the place itself still looks as before. -/
theorem replace_ok_iff (fs : FileSystem) (place : Place) (bytes : List UInt8) :
    (fs.replace place bytes).1 = none ↔ fs.Writable place := by
  -- It has two parts to go through, and the second begins where the first has ended.
  have hsplit : (fs.replace place bytes).1 = none ↔ (fs.makeDirectories place.dropLast).1 = none ∧
      ((fs.makeDirectories place.dropLast).2.rename place bytes).1 = none := by
    rw [replace]
    cases fs.makeDirectories place.dropLast with
    | mk failure gs =>
        cases failure with
        | some e =>
            constructor
            · intro h
              cases h
            · rintro ⟨h, -⟩
              cases h
        | none => exact ⟨fun h => ⟨rfl, h⟩, fun h => h.2⟩
  have hentry : place ≠ [] →
      (fs.makeDirectories place.dropLast).2.entryAt? place = fs.entryAt? place :=
    fun hne => entryAt?_makeDirectories fs _ place hne _ rfl
  rw [hsplit, makeDirectories_ok_iff, rename_ok_iff]
  constructor
  · rintro ⟨⟨hnul, hshort, hclear⟩, name, hlast, hname, hlong, hfree⟩
    have hplace := place_eq_append place name hlast
    have hne : place ≠ [] := by
      rintro rfl
      cases hlast
    rw [hentry hne] at hfree
    refine ⟨hne, ?_, ?_, fun q hleads => ?_, hfree⟩
    · rw [hplace, hasNul_append, hnul, hname]
      rfl
    · rw [hplace]
      intro x hx
      rcases List.mem_append.mp hx with hx | hx
      · exact hshort x hx
      · rw [List.mem_singleton.mp hx]
        exact hlong
    · cases q with
      | nil =>
          intro time bytes h
          rw [entryAt?, if_pos rfl] at h
          cases h
      | cons first rest => exact hclear (first :: rest) (Nat.succ_pos _) hleads
  · rintro ⟨hne, hnul, hshort, hclear, hfree⟩
    have hlast := List.getLast?_eq_some_getLast hne
    have hplace := place_eq_append place _ hlast
    rw [hplace, hasNul_append, Bool.or_eq_false_iff] at hnul
    refine ⟨⟨hnul.1, fun x hx => hshort x (List.dropLast_subset place hx),
      fun q _ hleads => hclear q hleads⟩, _, hlast, hnul.2, hshort _ (List.getLast_mem hne), ?_⟩
    rw [hentry hne]
    exact hfree

end FileSystem

namespace Store

/-! ### The flush -/

/-- A flush that has written the map: the file has it and nothing else, and the store counts all of
    it as written. Everywhere else there are new directories above the file at most. -/
structure Written (s : Store) (fs : FileSystem) (s' : Store) (fs' : FileSystem) : Prop where
  file : ∃ time, fs'.find s.file = .ok (.file time s.memory.map.fileBytes)
  elsewhere : ∀ q, q ≠ s.file → fs.OnlyMade fs' s.file q
  found : ∀ q entry, q ≠ s.file → fs.find q = .ok entry → fs'.find q = .ok entry
  store : s' = { s with memory := { s.memory with flushedGeneration := s.memory.generation } }

/-- A flush that has left things alone: the store is as it was, and so is every entry, that of the
    file included, but for new directories above the file. -/
structure Refused (s : Store) (fs : FileSystem) (s' : Store) (fs' : FileSystem) : Prop where
  file : fs'.entryAt? s.file = fs.entryAt? s.file
  everywhere : ∀ q, fs.OnlyMade fs' s.file q
  found : ∀ q entry, fs.find q = .ok entry → fs'.find q = .ok entry
  store : s' = s

/-- What a flush can come to, by what it answers. There is no third case, and each of the two is
    complete: it says what has become of the file, of all other places, and of the store. -/
inductive AllOrNothing (s : Store) (fs : FileSystem) :
    Option StoreError → Store → FileSystem → Prop
  | all (s' : Store) (fs' : FileSystem) (h : s.Written fs s' fs') : AllOrNothing s fs none s' fs'
  | nothing (e : StoreError) (s' : Store) (fs' : FileSystem) (h : s.Refused fs s' fs') :
      AllOrNothing s fs (some e) s' fs'

theorem flush_eq_flushBy (s : Store) (fs : FileSystem) :
    s.flush fs = s.flushBy FileSystem.replace fs := by
  rw [flush, flushBy, writeOut]
  cases Path.confine? (Path.ofString s.root) s.path with
  | none => rfl
  | some path =>
      cases hreplace : fs.replace path.place s.snapshot.bytes with
      | mk failure gs => cases failure <;> simp only [hreplace]

/-- What a confined store makes of a replacement: the error of the write with its path if it fails,
    and the generation counted if it does not. -/
theorem flushBy_of_confined
    (replace : FileSystem → Place → List UInt8 → Option OsError × FileSystem) (s : Store)
    (hs : s.Confined) (fs : FileSystem) :
    s.flushBy replace fs = match replace fs s.file s.memory.map.fileBytes with
      | (some e, fs) => (some (.writeFailure s.path.toString e), s, fs)
      | (none, fs) =>
        (none, { s with memory := s.memory.markFlushed s.memory.generation }, fs) := by
  rw [flushBy, hs]
  rfl

/-- A flush goes through exactly if nothing stands in the way of its file. -/
theorem flush_ok_iff (s : Store) (hs : s.Confined) (fs : FileSystem) :
    (s.flush fs).1 = none ↔ fs.Writable s.file := by
  rw [← FileSystem.replace_ok_iff fs s.file s.memory.map.fileBytes, flush_eq_flushBy,
    flushBy_of_confined FileSystem.replace s hs]
  cases fs.replace s.file s.memory.map.fileBytes with
  | mk refusal gs => cases refusal <;> simp

/-- A flush through a temporary file that goes through is the flush in one step. -/
theorem flush_of_flushBeside (sys : System) (s : Store) (hs : s.Confined) (fs : FileSystem)
    (s' : Store) (fs' : FileSystem) (h : s.flushBeside sys fs = (none, s', fs')) :
    s.flush fs = (none, s', fs') := by
  rw [flushBeside, flushBy_of_confined _ s hs] at h
  rw [flush_eq_flushBy, flushBy_of_confined FileSystem.replace s hs]
  cases hreplace : fs.replaceBeside sys s.file s.memory.map.fileBytes with
  | mk refusal gs =>
      rw [hreplace] at h
      cases refusal with
      | some e => cases h
      | none =>
          rw [FileSystem.replace_of_replaceBeside sys fs gs s.file _ hreplace]
          exact h

/-- So it is if nothing is refused. -/
theorem flushBeside_of_allows (sys : System) (s : Store) (hs : s.Confined) (fs : FileSystem)
    (hne : s.file ≠ []) (hsys : sys.Allows fs s.file) : s.flushBeside sys fs = s.flush fs := by
  rw [flushBeside, flush_eq_flushBy, flushBy_of_confined _ s hs, flushBy_of_confined _ s hs,
    FileSystem.replaceBeside_of_allows sys fs s.file _ hne hsys]

/-- A flush is all or nothing if what it does to the file is a replacement when it goes through, and
    nothing but directories when it does not. The way of replacing is a parameter here, so that
    another one needs no more than these two properties. -/
theorem allOrNothing_of_replace
    (replace : FileSystem → Place → List UInt8 → Option OsError × FileSystem)
    (hok : ∀ fs fs' place bytes, replace fs place bytes = (none, fs') →
      fs.replace place bytes = (none, fs'))
    (herror : ∀ fs fs' place bytes e, replace fs place bytes = (some e, fs') →
      ∀ q, fs.OnlyMade fs' place q)
    (s : Store) (hs : s.Confined) (hflushed : s.memory.flushedGeneration ≤ s.memory.generation)
    (fs fs' : FileSystem) (failure : Option StoreError) (s' : Store)
    (h : s.flushBy replace fs = (failure, s', fs')) : s.AllOrNothing fs failure s' fs' := by
  rw [flushBy_of_confined replace s hs] at h
  cases hreplace : replace fs s.file s.memory.map.fileBytes with
  | mk refusal gs =>
      rw [hreplace] at h
      cases refusal with
      | some e =>
          simp only [Prod.mk.injEq] at h
          rcases h with ⟨rfl, rfl, rfl⟩
          have hmade := herror fs gs s.file _ e hreplace
          exact .nothing _ s gs ⟨FileSystem.entryAt?_of_onlyMade_self fs gs s.file (hmade s.file),
            hmade, FileSystem.find_of_onlyMade fs gs s.file hmade, rfl⟩
      | none =>
          simp only [Prod.mk.injEq] at h
          rcases h with ⟨rfl, rfl, rfl⟩
          have hdone := hok fs gs s.file _ hreplace
          rcases (FileSystem.find_replace fs gs s.file _ hdone).1 with ⟨time, hfind, -⟩
          have helsewhere := FileSystem.elsewhere_of_replace fs gs s.file _ hdone
          refine .all _ gs ⟨⟨time, hfind⟩, fun q hq => (helsewhere q hq).1,
            fun q entry hq => (helsewhere q hq).2 entry, ?_⟩
          -- Nothing has been assigned since the snapshot, so what is counted is all there is.
          rw [Memory.markFlushed_generation s.memory hflushed]

end Store

/-- Whatever has been done with a store since it was opened, and whatever is on the disk: a flush
    goes through exactly if nothing stands in the way of its file. If it does, the file has the map
    and everything else is as it was, and if it does not, all is as it was, in the store as on the
    disk, but for directories above the file. It comes to the same when the map is written through a
    temporary file and the system refuses any of the steps of this: what goes through is the flush,
    what does not has left nothing behind, and it is the flush as well if nothing is refused. -/
theorem flush_all_or_nothing (current root : String) (config : Config) (stream : Nat → String)
    (opened s : Store) (files later fs : FileSystem) (hcurrent : current.toList.head? = some '/')
    (hopen : Store.openAt current root config stream = .ok opened)
    (hrun : Store.Run (opened, files) (s, later)) :
    ((s.flush fs).1 = none ↔ fs.Writable s.file) ∧
    (∀ failure s' fs', s.flush fs = (failure, s', fs') → s.AllOrNothing fs failure s' fs') ∧
    ∀ sys : System,
      (∀ failure s' fs', s.flushBeside sys fs = (failure, s', fs') →
        s.AllOrNothing fs failure s' fs' ∧
        (failure = none → s.flush fs = (none, s', fs'))) ∧
      (s.file ≠ [] → sys.Allows fs s.file → s.flushBeside sys fs = s.flush fs) := by
  have hconfined : s.Confined := Store.confined_of_sameHome opened s (Store.sameHome_run _ _ hrun)
    (Store.confined_of_openAt current root config stream opened hcurrent hopen)
  -- No more is ever counted as written than there is, in any memory that can be reached.
  have hflushed : s.memory.flushedGeneration ≤ s.memory.generation := by
    have hempty := (Store.memory_of_openAt current root config stream opened hopen).1
    refine (Memory.inStep_of_reached opened.naming s.memory ?_).flushed
    refine (Store.advances_run _ _ hrun).reached ?_
    simp only [hempty]
    exact Memory.Reached.empty
  refine ⟨?_, fun failure s' fs' h => ?_, fun sys => ⟨fun failure s' fs' h => ⟨?_, ?_⟩, ?_⟩⟩
  · exact Store.flush_ok_iff s hconfined fs
  · rw [Store.flush_eq_flushBy] at h
    exact Store.allOrNothing_of_replace FileSystem.replace (fun _ _ _ _ hok => hok)
      FileSystem.onlyMade_of_replace s hconfined hflushed fs fs' failure s' h
  · exact Store.allOrNothing_of_replace (FileSystem.replaceBeside sys)
      (FileSystem.replace_of_replaceBeside sys) (FileSystem.onlyMade_of_replaceBeside sys) s
      hconfined hflushed fs fs' failure s' h
  · rintro rfl
    exact Store.flush_of_flushBeside sys s hconfined fs s' fs' h
  · intro hne hsys
    exact Store.flushBeside_of_allows sys s hconfined fs hne hsys

/-- A disk that is full after two bytes. -/
def fullDisk : System := { System.calm [".tmp"] with refusesWriting := some (2, .invalidArgument) }

/-- The map cannot be written to the full disk, and the old file is still there. The temporary file
    is gone again, and the memory is what it was. -/
theorem flush_all_or_nothing_fullDisk : ∃ e s' fs',
    openedWorld.store.flushBeside fullDisk ⟨[(["m.json"], .file 0 [0x7B])], 1⟩ = (some e, s', fs') ∧
      s'.memory.map = [] ∧ fs'.find ["m.json"] = .ok (.file 0 [0x7B]) ∧
      fs'.entryAt? [".tmp"] = none := by
  have hfails : (openedWorld.store.flushBeside fullDisk
      ⟨[(["m.json"], .file 0 [0x7B])], 1⟩).1.isSome = true := by decide +kernel
  have hfile : openedWorld.store.file = ["m.json"] := by decide +kernel
  have hmap : openedWorld.store.memory.map = [] := rfl
  have hall := (flush_all_or_nothing "/" "." { mapPath := "m.json" } (fun _ => "abcdefgh")
    openedWorld.store openedWorld.store ⟨[], 0⟩ ⟨[], 0⟩ ⟨[(["m.json"], .file 0 [0x7B])], 1⟩ rfl rfl
    Relation.ReflTransGen.refl).2.2 fullDisk
  generalize openedWorld.store = s at hfails hfile hmap hall
  rcases hflush : s.flushBeside fullDisk ⟨[(["m.json"], .file 0 [0x7B])], 1⟩ with ⟨failure, s', fs'⟩
  rw [hflush] at hfails
  cases (hall.1 failure s' fs' hflush).1 with
  | all _ _ h => cases hfails
  | nothing e _ _ h =>
      refine ⟨e, s', fs', rfl, by rw [h.store, hmap], h.found _ _ rfl, ?_⟩
      rcases h.everywhere [".tmp"] with hsame | ⟨-, -, hway⟩
      · rw [hsame]
        rfl
      · rw [hfile] at hway
        exact absurd hway (by decide)

end ClassVeil
