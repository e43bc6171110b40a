import ClassVeil.Path.Basic
import ClassVeil.Text.Utf8

/-!
# A file system

The class map lives in a file that several processes read and one replaces. A file system is a
finite table of places; a place is the list of names that lead to it from the root. Every file
carries the time of its last replacement, and the file system hands out a new time for each one.

An operation is a function from tables to tables, so what it leaves alone can be said place by
place. Rights and full disks are not in the table. What they can do to a replacement is told where
the replacement is made of several steps.

## Main definitions

* `OsError`: what an operation can fail with, and its wording.
* `FileSystem`: the table.
* `FileSystem.stat`, `readBytes`, `readText`: looking at a place.
* `FileSystem.makeDirectories`: a directory and all those above it.
* `FileSystem.rename`: a finished file put in a place in one step.
* `FileSystem.replace`: both of these, the way in which a map is written.
* `FileSystem.write`, `remove`, `listing`: what anyone may do besides.
-/

namespace ClassVeil

/-- What an operation on files can fail with. -/
inductive OsError where
  | notFound
  | busy
  | alreadyExists
  | notDirectory
  | isDirectory
  | invalidArgument
  | nameTooLong
  | nulInName
  | notUtf8
  | emptyPath
deriving DecidableEq, Repr

/-- The wording of an error; those of the kernel have a number. -/
def OsError.message : OsError → String
  | notFound => "No such file or directory (os error 2)"
  | busy => "Device or resource busy (os error 16)"
  | alreadyExists => "File exists (os error 17)"
  | notDirectory => "Not a directory (os error 20)"
  | isDirectory => "Is a directory (os error 21)"
  | invalidArgument => "Invalid argument (os error 22)"
  | nameTooLong => "File name too long (os error 36)"
  | nulInName => "file name contained an unexpected NUL byte"
  | notUtf8 => "stream did not contain valid UTF-8"
  | emptyPath => "cannot make an empty path absolute"

/-- The names that lead from the root to a place. -/
abbrev Place := List String

/-- The place of an absolute path without `.` and `..`. -/
def Path.place (path : Path) : Place :=
  path.filterMap fun
    | .name text => some text
    | _ => none

/-- What is in a place. -/
inductive Entry where
  | directory (modified : Nat)
  | file (modified : Nat) (bytes : List UInt8)
deriving DecidableEq, Repr

/-- What a look at a place tells without reading it. -/
structure Status where
  modified : Nat
  length : Nat
deriving DecidableEq, Repr

/-- The length that a directory reports. -/
def directoryLength : Nat := 4096

/-- The status of an entry. -/
def Entry.status : Entry → Status
  | directory modified => ⟨modified, directoryLength⟩
  | file modified bytes => ⟨modified, bytes.length⟩

/-- The entries by place, and a time later than all that have been handed out. The root is always
    a directory and has no entry. -/
structure FileSystem where
  entries : List (Place × Entry)
  clock : Nat
deriving DecidableEq, Repr

/-- The longest name, in bytes. -/
def maxNameLength : Nat := 255

/-- A name that no directory can hold. -/
def isTooLong (name : String) : Bool := maxNameLength < Utf8.size name.toList

/-- A NUL character in some name. -/
def Place.hasNul (place : Place) : Bool := place.any fun name => name.toList.contains '\x00'

namespace FileSystem

/-- The entry of a place. -/
def entryAt? (fs : FileSystem) (place : Place) : Option Entry :=
  if place = [] then some (.directory 0) else fs.entries.lookup place

/-- The table with one more entry, or another entry, at a place. -/
def putEntry (place : Place) (entry : Entry) : List (Place × Entry) → List (Place × Entry)
  | [] => [(place, entry)]
  | (p, e) :: rest =>
    if p = place then (place, entry) :: rest else (p, e) :: putEntry place entry rest

/-- The file system with an entry put in a place. -/
def put (fs : FileSystem) (place : Place) (entry : Entry) : FileSystem :=
  { fs with entries := putEntry place entry fs.entries }

/-- The file system with an entry put in a place at a new time. -/
def putNow (fs : FileSystem) (place : Place) (entry : Nat → Entry) : FileSystem :=
  { fs.put place (entry fs.clock) with clock := fs.clock + 1 }

/-- The entry that the names lead to from a place with a given entry. -/
def walk (fs : FileSystem) : Place → Entry → List String → Except OsError Entry
  | _, entry, [] => .ok entry
  | _, .file .., _ :: _ => .error .notDirectory
  | place, .directory _, name :: rest =>
    if isTooLong name then .error .nameTooLong
    else
      match fs.entryAt? (place ++ [name]) with
      | none => .error .notFound
      | some entry => walk fs (place ++ [name]) entry rest

/-- The entry that is found on the way from the root. -/
def find (fs : FileSystem) (place : Place) : Except OsError Entry :=
  if place.hasNul then .error .nulInName else fs.walk [] (.directory 0) place

/-- The status of what is in a place. -/
def stat (fs : FileSystem) (place : Place) : Except OsError Status :=
  (fs.find place).map Entry.status

/-- The bytes of the file in a place. -/
def readBytes (fs : FileSystem) (place : Place) : Except OsError (List UInt8) :=
  match fs.find place with
  | .error e => .error e
  | .ok (.directory _) => .error .isDirectory
  | .ok (.file _ bytes) => .ok bytes

/-- The text of the file in a place. -/
def readText (fs : FileSystem) (place : Place) : Except OsError (List Char) :=
  match fs.readBytes place with
  | .error e => .error e
  | .ok bytes =>
    match Utf8.decode bytes with
    | none => .error .notUtf8
    | some text => .ok text

/-- Directories along the names that lead on from a directory. Those that have been made stay when
    a later one cannot be made; a file in the way is told apart by whether more was to come. -/
def makeAlong : FileSystem → Place → List String → Option OsError × FileSystem
  | fs, _, [] => (none, fs)
  | fs, place, name :: rest =>
    if isTooLong name then (some .nameTooLong, fs)
    else
      match fs.entryAt? (place ++ [name]) with
      | none => makeAlong (fs.putNow (place ++ [name]) .directory) (place ++ [name]) rest
      | some (.directory _) => makeAlong fs (place ++ [name]) rest
      | some (.file ..) => (some (if rest = [] then .alreadyExists else .notDirectory), fs)

/-- A directory in a place and all the directories above it. -/
def makeDirectories (fs : FileSystem) (place : Place) : Option OsError × FileSystem :=
  if place.hasNul then (some .nulInName, fs) else makeAlong fs [] place

/-- A finished file put in a place, whose directory exists, in one step. -/
def rename (fs : FileSystem) (place : Place) (bytes : List UInt8) : Option OsError × FileSystem :=
  match place.getLast? with
  | none => (some .busy, fs)
  | some name =>
    if name.toList.contains '\x00' then (some .invalidArgument, fs)
    else if isTooLong name then (some .nameTooLong, fs)
    else
      match fs.entryAt? place with
      | some (.directory _) => (some .isDirectory, fs)
      | _ => (none, fs.putNow place (.file · bytes))

/-- The file in a place replaced as a whole: its directory is made, the new file is finished beside
    it and then renamed, so nobody ever sees a part of it. -/
def replace (fs : FileSystem) (place : Place) (bytes : List UInt8) : Option OsError × FileSystem :=
  match fs.makeDirectories place.dropLast with
  | (some e, fs) => (some e, fs)
  | (none, fs) => fs.rename place bytes

/-- A file written by someone else, at a given time or a new one. -/
def write (fs : FileSystem) (place : Place) (bytes : List UInt8) (modified : Option Nat) :
    Option OsError × FileSystem :=
  match fs.makeDirectories place.dropLast with
  | (some e, fs) => (some e, fs)
  | (none, fs) =>
    match fs.find place with
    | .ok (.directory _) => (some .isDirectory, fs)
    | .ok (.file ..) | .error .notFound =>
      match modified with
      | some time => (none, fs.put place (.file time bytes))
      | none => (none, fs.putNow place (.file · bytes))
    | .error e => (some e, fs)

/-- The place without what is in it, and without all that is below it. -/
def remove (fs : FileSystem) (place : Place) : Option OsError × FileSystem :=
  match fs.find place with
  | .error e => (some e, fs)
  | .ok _ =>
    (none, { fs with entries := fs.entries.filter fun (p, _) => !place.isPrefixOf p })

/-- The places below a directory, seen from there, and which of them are directories. -/
def listing (fs : FileSystem) (place : Place) : List (Place × Bool) :=
  fs.entries.filterMap fun (p, e) =>
    if place.isPrefixOf p && p ≠ place then
      some (p.drop place.length, match e with | .directory _ => true | .file .. => false)
    else none

end FileSystem

end ClassVeil
