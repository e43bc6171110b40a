import ClassVeil.Markup.Html
import ClassVeil.Renamer

/-!
# Renaming the classes of HTML

The classes in the values of attributes are renamed where they stand, from the first to the
last. All else is put back as it was, character by character.

## Main definitions

* `isClassAttribute`: the attributes that hold classes.
* `renameSegments`: the renaming in a divided document.
* `transform`: the renaming in a whole document.
-/

namespace ClassVeil

namespace Html

variable {σ : Type} (rename : Replacement σ)

/-- The name `class`, whatever the case of its letters is. -/
def isClassAttribute (name : List Char) : Bool := name.map Char.toLower == "class".toList

/-- A part of a start tag, with its classes renamed if it is a class attribute. -/
def renameItem (item : Item) (s : σ) : Item × σ :=
  match item with
  | .valued name link quoting value =>
    if isClassAttribute name then
      match rename value s with
      | (some value, s) => (.valued name link quoting value, s)
      | (none, s) => (item, s)
    else (item, s)
  | .filler _ | .flag _ => (item, s)

/-- The parts of a start tag with their classes renamed, from the first to the last. -/
def renameItems : List Item → σ → List Item × σ
  | [], s => ([], s)
  | item :: rest, s =>
    let (item, s) := renameItem rename item s
    let (rest, s) := renameItems rest s
    (item :: rest, s)

/-- The segments of a document with their classes renamed, from the first to the last. -/
def renameSegments : List Segment → σ → List Segment × σ
  | [], s => ([], s)
  | .tag t :: rest, s =>
    let (items, s) := renameItems rename t.items s
    let (rest, s) := renameSegments rest s
    (.tag { t with items } :: rest, s)
  | segment :: rest, s =>
    let (rest, s) := renameSegments rest s
    (segment :: rest, s)

/-- A document with its classes renamed. -/
def transform (source : List Char) (s : σ) : List Char × σ :=
  let (result, s) := renameSegments rename (segments source) s
  (write result, s)

end Html

end ClassVeil
