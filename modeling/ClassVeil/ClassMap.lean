import ClassVeil.Json.Value

/-!
# Class maps

A class map sends class names to ids. It remembers the order in which the names came; a name that
is put in again keeps its place and takes the new id. On disk it is a JSON object with one entry
a line.

A map is a list of pairs and nothing more. So one map goes on from another exactly if the other is a
prefix of it, which is how the growth of a map is spoken of everywhere. That names are distinct is
no part of the type; it is proved of the maps that arise.

## Main definitions

* `ClassMap`, `ClassMap.get?`, `ClassMap.insert`: the map.
* `ClassMap.write`: its JSON text.
* `ClassMap.read`: the map of a JSON text.
-/

namespace ClassVeil

/-- The pairs of a class name and an id, in the order in which the names came. -/
abbrev ClassMap := List (String × String)

namespace ClassMap

/-- The id of a class. -/
def get? : ClassMap → String → Option String
  | [], _ => none
  | (k, id) :: rest, name => if k = name then some id else get? rest name

/-- The map with one more pair; a name that is there keeps its place. -/
def insert : ClassMap → String → String → ClassMap
  | [], name, id => [(name, id)]
  | (k, old) :: rest, name, id =>
    if k = name then (k, id) :: rest else (k, old) :: insert rest name id

/-- The map with the given pairs put in one by one. -/
def ofPairs (pairs : List (String × String)) : ClassMap :=
  pairs.foldl (fun m (name, id) => insert m name id) []

/-- The line of one pair. -/
def writeEntry (entry : String × String) : List Char :=
  [' ', ' '] ++ Json.writeString entry.1.toList ++ [':', ' '] ++ Json.writeString entry.2.toList

/-- The lines of the pairs, a comma behind all but the last. -/
def writeEntries : ClassMap → List Char
  | [] => []
  | [entry] => writeEntry entry
  | entry :: rest => writeEntry entry ++ ',' :: '\n' :: writeEntries rest

/-- The JSON text of a map: an indented object with a pair a line, without a final line break. -/
def write (m : ClassMap) : List Char :=
  if m = [] then ['\x7b', '\x7d'] else ['\x7b', '\n'] ++ writeEntries m ++ ['\n', '\x7d']

/-- The pairs of an object whose opening bracket has been read. -/
def readEntries : Nat → Bool → ClassMap → Json.Cursor → Json.Result ClassMap
  | 0, _, m, c => .ok (m, c)
  | fuel + 1, first, m, c =>
    match Json.readKey? first c with
    | .error e => .error e
    | .ok (none, c) => .ok (m, c)
    | .ok (some name, c) =>
      match Json.readColon c >>= Json.readText "a string" with
      | .error e => .error e
      | .ok (id, c) => readEntries fuel false (insert m name id) c

/-- The map of a JSON text: an object whose values are strings, and nothing behind it. -/
def read (text : List Char) : Except Json.Error ClassMap := do
  let c := (Json.Cursor.ofChars text).skipSpace
  match c.peek? with
  | none => c.failNext .endInValue
  | some x =>
    if x = '\x7b' then
      let (m, c) ← readEntries (text.length + 1) true [] c.advance
      let c ← Json.endObject c
      Json.endText c
      return m
    else Json.mismatch "a map" c

end ClassMap

end ClassVeil
