import ClassVeil.Text.Blank

/-!
# Paths

A path is a sequence of components. Slashes only set components apart: empty components, a
trailing slash and every `.` but one that opens a relative path are no components.

## Main definitions

* `Component`, `Path`: the parts of a path.
* `Path.ofString`, `Path.toString`: reading and writing.
* `Path.join`: a path seen from another one.
* `Path.normalize`: a path without `.`, and without `..` wherever something is there to leave.
* `Path.absolute?`: a path as seen from the current directory, as a text.
* `Path.extension?`: what follows the last full stop of the last name.
-/

namespace ClassVeil

/-- A part of a path. -/
inductive Component where
  /-- The leading slash. -/
  | root
  /-- A leading `.`. -/
  | here
  /-- `..`. -/
  | parent
  /-- An ordinary name. -/
  | name (text : String)
deriving DecidableEq, Repr

/-- The components of a path, the outermost first. -/
abbrev Path := List Component

namespace Component

/-- The component that a piece between two slashes stands for, unless it is empty or `.`. -/
def ofPiece? (piece : List Char) : Option Component :=
  if piece = [] ∨ piece = ['.'] then none
  else if piece = ['.', '.'] then some .parent
  else some (.name (String.ofList piece))

/-- The spelling of a component. -/
def toString : Component → String
  | root => "/"
  | here => "."
  | parent => ".."
  | name text => text

end Component

namespace Path

/-- The components of a path given as a text. -/
def ofChars (text : List Char) : Path :=
  let pieces := Text.pieces '/' text
  let parts := pieces.filterMap Component.ofPiece?
  match pieces with
  | [] => parts
  | first :: others =>
    if first = ['.'] then .here :: parts
    else if first = [] ∧ others ≠ [] then .root :: parts
    else parts

/-- The components of a path given as a text. -/
def ofString (text : String) : Path := ofChars text.toList

/-- A path is absolute when it starts at the root. -/
def isAbsolute : Path → Bool
  | .root :: _ => true
  | _ => false

/-- The spellings of the components, set apart by slashes; the root needs no further slash. -/
def toString : Path → String
  | .root :: rest => "/" ++ String.intercalate "/" (rest.map Component.toString)
  | parts => String.intercalate "/" (parts.map Component.toString)

/-- A path seen from another one: an absolute path does not depend on where it is seen from. -/
def join (base path : Path) : Path :=
  if path.isAbsolute || base.isEmpty then path else base ++ path.filter (· ≠ .here)

/-- One component put behind a path that is kept with its last component first. -/
def push : Path → Component → Path
  | done, .here => done
  | .name _ :: done, .parent => done
  | .root :: done, .parent => .root :: done
  | done, .parent => .parent :: done
  | done, part => part :: done

/-- A path without `.`, and without `..` wherever a name or the root comes before it. -/
def normalize (path : Path) : Path := (path.foldl push []).reverse

/-- A text with one more name behind it, a slash between the two unless one is there. -/
def append (text name : List Char) : List Char :=
  if text.getLast? = some '/' then text ++ name else text ++ '/' :: name

/-- Exactly two slashes lead the text; a system may give them a meaning of their own. -/
def hasTwoSlashes : List Char → Bool
  | '/' :: '/' :: '/' :: _ => false
  | '/' :: '/' :: _ => true
  | _ => false

/-- The path as seen from the current directory. A `..` stays, and so do a trailing slash and
    exactly two leading slashes. The empty path is seen from nowhere. -/
def absolute? (current path : String) : Option String :=
  let chars := path.toList
  if chars = [] then none
  else
    let parts : Path := ofChars chars
    let base :=
      if hasTwoSlashes chars then ['/', '/']
      else if parts.isAbsolute then ['/']
      else current.toList
    let names := (parts.filter fun part => part ≠ .root ∧ part ≠ .here).map Component.toString
    let text := names.foldl (fun text name => append text name.toList) base
    some (String.ofList (if chars.getLast? = some '/' then append text [] else text))

/-- What follows the last full stop of the last name; a name that only starts with one has no
    extension. -/
def extension? (path : Path) : Option String :=
  match path.getLast? with
  | some (.name text) =>
    match (text.toList.reverse).span (· ≠ '.') with
    | (_, []) | (_, [_]) => none
    | (ext, _ :: _ :: _) => some (String.ofList ext.reverse)
  | _ => none

end Path

end ClassVeil
