import ClassVeil.Store.Basic

/-!
# Writing through a temporary file

Replacing a file is told elsewhere as one step behind the making of directories. It is done in
several: an empty file with a name of its own is created beside the place, the bytes are written to
it, and it is then renamed. The system can refuse any of these for reasons that a table of files
does not show, such as missing rights or a full disk, and whatever is refused, the temporary file
is removed again.

## Main definitions

* `System`: what a system refuses, and what else the table does not show.
* `FileSystem.makeDirectoriesWith`: a directory and all those above it, as far as the system lets.
* `FileSystem.createIn`: an empty file with a name that is not in use.
* `FileSystem.move`: a file renamed.
* `FileSystem.finish`, `FileSystem.cleanUp`: the temporary file written and renamed, or removed.
* `FileSystem.replaceBeside`: the file in a place replaced through a temporary file beside it.
* `Store.flushBy`, `Store.flushBeside`: the map written in a given way, and in this one.
-/

namespace ClassVeil

/-- What a system adds to a table of files when one of them is replaced. -/
structure System where
  /-- The names that are tried for the temporary file, one after the other. -/
  names : List String
  /-- The current directory, which stands in for the directory above the root. -/
  current : Place
  refusesDirectory : Place → Option OsError
  refusesCreation : Option OsError
  /-- After how many bytes writing is refused. -/
  refusesWriting : Option (Nat × OsError)
  refusesRenaming : Option OsError

namespace FileSystem

/-- The table without the entry of a place. -/
def discard (fs : FileSystem) (place : Place) : FileSystem :=
  { fs with entries := fs.entries.filter fun (p, _) => p ≠ place }

/-- Directories along the names that lead on from a directory, as far as the system lets. Those
    that have been made stay. -/
def makeAlongWith (sys : System) :
    FileSystem → Place → List String → Option OsError × FileSystem
  | fs, _, [] => (none, fs)
  | fs, place, name :: rest =>
    if isTooLong name then (some .nameTooLong, fs)
    else
      match fs.entryAt? (place ++ [name]) with
      | none =>
        match sys.refusesDirectory (place ++ [name]) with
        | some e => (some e, fs)
        | none =>
          makeAlongWith sys (fs.putNow (place ++ [name]) .directory) (place ++ [name]) rest
      | some (.directory _) => makeAlongWith sys fs (place ++ [name]) rest
      | some (.file ..) => (some (if rest = [] then .alreadyExists else .notDirectory), fs)

/-- A directory in a place and all the directories above it, as far as the system lets. -/
def makeDirectoriesWith (sys : System) (fs : FileSystem) (place : Place) :
    Option OsError × FileSystem :=
  if place.hasNul then (some .nulInName, fs) else makeAlongWith sys fs [] place

/-- An empty file in a directory, with the first of the names that is not in use. -/
def createIn (sys : System) (fs : FileSystem) (dir : Place) :
    Except OsError (Place × FileSystem) :=
  match sys.refusesCreation with
  | some e => .error e
  | none =>
    match fs.find dir with
    | .error e => .error e
    | .ok (.file ..) => .error .notDirectory
    | .ok (.directory _) =>
      match sys.names.find? fun name => (fs.entryAt? (dir ++ [name])).isNone with
      | none => .error .alreadyExists
      | some name => .ok (dir ++ [name], fs.put (dir ++ [name]) (.file fs.clock []))

/-- A file that gets another place, whose directory exists, in one step. -/
def move (fs : FileSystem) (source place : Place) : Option OsError × FileSystem :=
  match fs.entryAt? source with
  | some (.file _ bytes) =>
    match (fs.discard source).rename place bytes with
    | (some e, _) => (some e, fs)
    | (none, fs) => (none, fs)
  | _ => (some .notFound, fs)

/-- A temporary file that gets its bytes and then its place. -/
def finish (sys : System) (fs : FileSystem) (temp place : Place) (bytes : List UInt8) :
    Option OsError × FileSystem :=
  match sys.refusesWriting with
  | some (n, e) => (some e, fs.put temp (.file fs.clock (bytes.take n)))
  | none =>
    let fs := fs.put temp (.file fs.clock bytes)
    match sys.refusesRenaming with
    | some e => (some e, fs)
    | none => fs.move temp place

/-- The temporary file removed again if it has not got its place. -/
def cleanUp (temp : Place) : Option OsError × FileSystem → Option OsError × FileSystem
  | (some e, fs) => (some e, fs.discard temp)
  | (none, fs) => (none, fs)

/-- The file in a place replaced through a temporary file beside it. -/
def replaceBeside (sys : System) (fs : FileSystem) (place : Place) (bytes : List UInt8) :
    Option OsError × FileSystem :=
  match fs.makeDirectoriesWith sys place.dropLast with
  | (some e, fs) => (some e, fs)
  | (none, fs) =>
    match fs.createIn sys (if place = [] then sys.current else place.dropLast) with
    | .error e => (some e, fs)
    | .ok (temp, fs) => cleanUp temp (fs.finish sys temp place bytes)

end FileSystem

namespace Store

/-- The map written to its file in a given way; the path is confined anew. -/
def flushBy (replace : FileSystem → Place → List UInt8 → Option OsError × FileSystem) (s : Store)
    (fs : FileSystem) : Option StoreError × Store × FileSystem :=
  match Path.confine? (Path.ofString s.root) s.path with
  | none => (some (.pathTraversal s.path.toString), s, fs)
  | some path =>
    match replace fs path.place s.snapshot.bytes with
    | (some e, fs) => (some (.writeFailure path.toString e), s, fs)
    | (none, fs) =>
      (none, { s with memory := s.memory.markFlushed s.snapshot.generation }, fs)

/-- The map written to its file through a temporary file. -/
def flushBeside (sys : System) (s : Store) (fs : FileSystem) :
    Option StoreError × Store × FileSystem :=
  s.flushBy (FileSystem.replaceBeside sys) fs

end Store

end ClassVeil
