import ClassVeil.Id.Stable
import ClassVeil.Path.Confined
import ClassVeil.Store.Error
import ClassVeil.Store.Memory

/-!
# The store of the class map

The renaming of markup assigns ids, the renaming of stylesheets reads them; they share nothing
but the file of the map. Writing and loading are made of smaller steps, between which others may
act: a flush takes a snapshot, replaces the file and then counts the snapshot as written, and a
load looks at the file, asks the cache, reads the file and then fills the cache.

The functions here run their steps at once, as they happen when nobody else is there. What can come
between them is said where several processes and threads are looked at, and there the steps are
shown to make up these functions.

## Main definitions

* `Store`, `Store.openAt`: a store on a map file below a root.
* `Store.snapshot`, `Store.writeOut`, `Store.flush`: writing the map.
* `Store.cached?`, `Store.readMap`, `Store.load`: reading it.
* `Store.close`: the end of a store.
-/

namespace ClassVeil

/-- A map that has been read. Two loads that answer with the same serial number answer with the
    very same object. -/
structure Loaded where
  map : ClassMap
  serial : Nat
deriving DecidableEq, Repr

/-- A map that has been read, and the status that its file had just before. -/
structure CachedMap where
  status : Status
  loaded : Loaded
deriving DecidableEq, Repr

/-- A store. -/
structure Store where
  /-- The root as a text; `..` may stand in it. -/
  root : String
  /-- The path of the map, normalised. -/
  path : Path
  naming : Naming
  memory : Memory := {}
  cache : Option CachedMap := none
  /-- The serial number of the next map that is read. -/
  nextSerial : Nat := 0

/-- The generator that a configuration asks for, with a stream to draw random ids from. -/
def Config.generator (c : Config) (stream : Nat → String) : Id.Generator :=
  match c.idMode with
  | .random => Id.random stream
  | .stable => Id.stable c.idLength

/-- What a flush writes: the text of the map, and the generation it belongs to. -/
structure Snapshot where
  bytes : List UInt8
  generation : Nat
deriving DecidableEq, Repr

namespace Store

/-- A store that has assigned no id. The length of ids is checked first, then the root has to be
    a path, and the map has to lie below it. -/
def openAt (current root : String) (config : Config) (stream : Nat → String) :
    Except StoreError Store :=
  if !config.isValid then .error (.invalidIdLength config.idLength)
  else
    match Path.absolute? current root with
    | none => .error (.readFailure root .emptyPath)
    | some root =>
      match Path.confine? (Path.ofString root) (Path.ofString config.mapPath) with
      | none => .error (.pathTraversal config.mapPath)
      | some path =>
        .ok { root, path, naming := ⟨config.collisionPolicy, config.generator stream⟩ }

/-- The id of a class, which gets one if it has none. -/
def getOrCreate (s : Store) (name : String) : String × Store :=
  let (id, memory) := s.memory.getOrCreate s.naming name
  (id, { s with memory })

/-- There are ids that have not been written. -/
def isDirty (s : Store) : Bool := s.memory.isDirty

/-- The map as it would be written now. -/
def snapshot (s : Store) : Snapshot :=
  ⟨Utf8.encode s.memory.map.write, s.memory.generation⟩

/-- The file of the map replaced by a snapshot; the path is confined anew. -/
def writeOut (s : Store) (fs : FileSystem) (snap : Snapshot) : Option StoreError × FileSystem :=
  match Path.confine? (Path.ofString s.root) s.path with
  | none => (some (.pathTraversal s.path.toString), fs)
  | some path =>
    match fs.replace path.place snap.bytes with
    | (some e, fs) => (some (.writeFailure path.toString e), fs)
    | (none, fs) => (none, fs)

/-- The map written to its file. -/
def flush (s : Store) (fs : FileSystem) : Option StoreError × Store × FileSystem :=
  let snap := s.snapshot
  match s.writeOut fs snap with
  | (some e, fs) => (some e, s, fs)
  | (none, fs) => (none, { s with memory := s.memory.markFlushed snap.generation }, fs)

/-- The map written to its file if there are ids that have not been written. -/
def flushIfDirty (s : Store) (fs : FileSystem) : Option StoreError × Store × FileSystem :=
  if s.isDirty then s.flush fs else (none, s, fs)

/-- The end of a store: nothing that has been assigned is lost. -/
def close (s : Store) (fs : FileSystem) : Option StoreError × FileSystem :=
  match s.flushIfDirty fs with
  | (failure, _, fs) => (failure, fs)

/-- The map that was read when the file had this status. -/
def cached? (s : Store) (status : Status) : Option Loaded :=
  match s.cache with
  | some c => if c.status = status then some c.loaded else none
  | none => none

/-- The map in the file, if there is a file. -/
def readMap (s : Store) (fs : FileSystem) : Except StoreError (Option ClassMap) :=
  match fs.readText s.path.place with
  | .error .notFound => .ok none
  | .error e => .error (.readFailure s.path.toString e)
  | .ok text =>
    match ClassMap.read text with
    | .error e => .error (.corruptMap s.path.toString e)
    | .ok map => .ok (some map)

/-- The store that remembers a map that was read when the file had a status. -/
def remember (s : Store) (status : Status) (map : ClassMap) : Loaded × Store :=
  let loaded : Loaded := ⟨map, s.nextSerial⟩
  (loaded, { s with cache := some ⟨status, loaded⟩, nextSerial := s.nextSerial + 1 })

/-- The map in the file. A file that has the status it had when it was last read is not read
    again. -/
def load (s : Store) (fs : FileSystem) : Except StoreError (Option Loaded) × Store :=
  match fs.stat s.path.place with
  | .error .notFound => (.ok none, { s with cache := none })
  | .error e => (.error (.readFailure s.path.toString e), s)
  | .ok status =>
    match s.cached? status with
    | some loaded => (.ok (some loaded), s)
    | none =>
      match s.readMap fs with
      | .error e => (.error e, s)
      | .ok none => (.ok none, s)
      | .ok (some map) =>
        let (loaded, s) := s.remember status map
        (.ok (some loaded), s)

end Store

end ClassVeil
