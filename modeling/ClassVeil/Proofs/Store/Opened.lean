import ClassVeil.Proofs.ClassMap.Written
import ClassVeil.Proofs.Id.Letters
import ClassVeil.Proofs.Path.Absolute
import ClassVeil.Proofs.Store.Assigned
import ClassVeil.Proofs.Store.Replace
import ClassVeil.Store.Basic

/-!
# The file of an opened store

A store writes its map to one place and reads it from the same place, and what it reads is what was
written. The place is confined anew before each write, so this needs that confinement repeats
itself, which it does for every store that was opened in an absolute directory.

Three facts meet here, and each comes from elsewhere. Confinement of a confined path gives that path
again, so that each write goes to the file of the store. A replacement of a file that comes through
has put its text where it will be found. And the text of a map, read as a map, is that map. In
between stand the steps of the code, from `flush` to `writeOut` and from `load` to `readMap`, and
each has one lemma that takes it from one to the next.

What the configuration decides at the opening is also found here: the memory is empty, the ids are
those of the generator it names, and a length too small has been turned down.

## Main definitions

* `Store.file`: The place of the file of a store.
* `Store.Confined`: Confinement leads to the path of the store again.

## Theorems

* `confined_of_openAt`: An opened store is confined.
* `isId_of_openAt`, `isWord_of_openAt`: What its ids are.
* `find_of_writeOut`: What was written is found in the file.
* `find_of_flush`: After a flush the file holds the map.
* `load_of_find`: A file that holds a map is loaded as that map.
-/

namespace ClassVeil

namespace Store

/-- The place of the file of a store. -/
def file (s : Store) : Place := s.path.place

/-- Confinement leads to the path of the store again. It is asked for before each write, and an
    answer other than this would put the map beside the file it is read from. -/
def Confined (s : Store) : Prop := Path.confine? (Path.ofString s.root) s.path = some s.path

/-- A store that was opened in an absolute directory is confined. The path it got is itself the
    answer of a confinement, below a root that has been made absolute by then; to confine such a
    path once more changes nothing. -/
theorem confined_of_openAt (current root : String) (config : Config) (stream : Nat → String)
    (s : Store) (hcurrent : current.toList.head? = some '/')
    (h : openAt current root config stream = .ok s) : s.Confined := by
  rw [openAt] at h
  split at h
  · cases h
  · split at h
    · cases h
    · rename_i text htext
      split at h
      · cases h
      -- The path of the store is what confinement has returned for the configured one.
      · rename_i path hpath
        rw [← Except.ok.inj h]
        exact Path.confine?_confined (Path.ofString text) (Path.ofString config.mapPath) path
          (Path.rooted_ofString text (Path.absolute?_slash current root text hcurrent htext))
          (Path.rooted_or_ofChars _) hpath

/-- An opened store has assigned nothing yet, and names classes as the configuration says. The file
    may hold a map by then: it is not read at the opening. -/
theorem memory_of_openAt (current root : String) (config : Config) (stream : Nat → String)
    (s : Store) (h : openAt current root config stream = .ok s) :
    s.memory = {} ∧ s.naming = ⟨config.collisionPolicy, config.generator stream⟩ := by
  rw [openAt] at h
  split at h
  · cases h
  · split at h
    · cases h
    · split at h
      · cases h
      · rw [← Except.ok.inj h]
        exact ⟨rfl, rfl⟩

/-- A store is opened with ids that are long enough, or not at all. -/
theorem isValid_of_openAt (current root : String) (config : Config) (stream : Nat → String)
    (s : Store) (h : openAt current root config stream = .ok s) : config.isValid = true := by
  rw [openAt] at h
  split at h
  · cases h
  · rename_i hvalid
    simpa only [Bool.not_eq_true', Bool.not_eq_false] using hvalid

/-- All ids that an opened store can come to have are ids of the length it was opened for. Only the
    ones that are drawn at random have to be assumed to be. -/
theorem isId_of_openAt (current root : String) (config : Config) (stream : Nat → String)
    (opened : Store) (hopen : openAt current root config stream = .ok opened)
    (hstream : config.idMode = .random → ∀ n, Id.IsId config.idLength (stream n)) (memory : Memory)
    (hmemory : Memory.Reached opened.naming memory) :
    ∀ id ∈ memory.map.ids, Id.IsId config.idLength id := by
  -- An id in a map has been drawn for it at some attempt, so it is enough to look at the generator.
  refine Memory.forall_ids_of_reached opened.naming _ (fun name attempt d => ?_) memory hmemory
  rw [(memory_of_openAt current root config stream opened hopen).2]
  exact isId_generator config stream hstream name attempt d

/-- So they are words, because a store is not opened for empty ones. A configuration is checked
    before anything else is done. -/
theorem isWord_of_openAt (current root : String) (config : Config) (stream : Nat → String)
    (opened : Store) (hopen : openAt current root config stream = .ok opened)
    (hdraws : config.Draws stream) (memory : Memory)
    (hmemory : Memory.Reached opened.naming memory) :
    ∀ id ∈ memory.map.ids, Text.IsWord id.toList := by
  intro id hid
  have hvalid := isValid_of_openAt current root config stream opened hopen
  rw [Config.isValid, Config.minIdLength, decide_eq_true_eq] at hvalid
  exact Id.isWord_of_isId config.idLength id (by omega) (isId_of_openAt current root config stream
    opened hopen (config.isId_of_draws stream hdraws) memory hmemory id hid)

theorem writeOut_of_confined (s : Store) (hs : s.Confined) (fs : FileSystem) (snap : Snapshot) :
    s.writeOut fs snap = match fs.replace s.file snap.bytes with
      | (some e, fs) => (some (.writeFailure s.path.toString e), fs)
      | (none, fs) => (none, fs) := by
  rw [Confined] at hs
  rw [writeOut, hs]
  rfl

/-- What was written is found in the file. The write goes through a temporary file and a renaming;
    what matters here is only that it has come through. -/
theorem find_of_writeOut (s : Store) (hs : s.Confined) (fs fs' : FileSystem) (snap : Snapshot)
    (h : s.writeOut fs snap = (none, fs')) :
    ∃ time, fs'.find s.file = .ok (.file time snap.bytes) := by
  -- The place is that of the store, since it is confined, and the rest is about one replacement.
  rw [writeOut_of_confined s hs] at h
  cases hreplace : fs.replace s.file snap.bytes with
  | mk failure gs =>
      rw [hreplace] at h
      cases failure with
      | some e => cases h
      | none =>
          rw [← (Prod.mk.inj h).2]
          rcases (FileSystem.find_replace fs gs s.file snap.bytes hreplace).1 with ⟨time, hfind, _⟩
          exact ⟨time, hfind⟩

/-- After a flush the file holds the map, in the bytes that the map is written to. The time is that
    of the flush and not known here. -/
theorem find_of_flush (s s' : Store) (hs : s.Confined) (fs fs' : FileSystem)
    (h : s.flush fs = (none, s', fs')) :
    ∃ time, fs'.find s.file = .ok (.file time s.memory.map.fileBytes) := by
  rw [flush] at h
  -- A flush comes through exactly if its write does.
  cases hwrite : s.writeOut fs s.snapshot with
  | mk failure gs =>
      rw [hwrite] at h
      cases failure with
      | some e => cases h
      | none =>
          rcases find_of_writeOut s hs fs gs s.snapshot hwrite with ⟨time, hfind⟩
          rw [Prod.mk.injEq, Prod.mk.injEq] at h
          exact ⟨time, by rw [← h.2.2]; exact hfind⟩

/-- A file that holds a map is read as that map: the bytes are UTF-8, their text is one that a map
    is written as, and it is read as the map it was written from. Distinct names are needed for the
    last, since of two pairs with one name the reader keeps one. -/
theorem readMap_of_find (s : Store) (fs : FileSystem) (time : Nat) (m : ClassMap)
    (hm : m.names.Nodup) (h : fs.find s.file = .ok (.file time m.fileBytes)) :
    s.readMap fs = .ok (some m) := by
  have hbytes : fs.readBytes s.path.place = .ok m.fileBytes := by
    rw [FileSystem.readBytes]
    rw [file] at h
    rw [h]
  rw [readMap, FileSystem.readText, hbytes]
  simp only [ClassMap.fileBytes, Utf8.decode_encode]
  rw [ClassMap.read_write_eq m hm]

/-- A file that holds a map is loaded as that map, unless its status is in the cache. The condition
    cannot be left out: a cache that knows the status answers without a look at the file. -/
theorem load_of_find (s : Store) (fs : FileSystem) (time : Nat) (m : ClassMap)
    (hm : m.names.Nodup) (h : fs.find s.file = .ok (.file time m.fileBytes))
    (hcache : ∀ status, fs.stat s.file = .ok status → s.cached? status = none) :
    ∃ s', s.load fs = (.ok (some ⟨m, s.nextSerial⟩), s') := by
  have hstat : fs.stat s.file = .ok (Entry.file time m.fileBytes).status := by
    rw [FileSystem.stat, h]
    rfl
  -- The cache does not know the status, so the file is read.
  have hnone := hcache _ hstat
  rw [file] at hstat
  rw [load, hstat]
  simp only [hnone, readMap_of_find s fs time m hm h]
  exact ⟨_, rfl⟩

end Store

end ClassVeil
