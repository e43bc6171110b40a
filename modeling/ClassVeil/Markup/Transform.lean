import ClassVeil.Markup.Rename
import ClassVeil.Store.Basic

/-!
# Transforming files of markup

A transformation renames the classes of a file and then writes the map, because the stylesheets
that come later depend on it: a transformation whose map cannot be written has failed. The ids
stay assigned in the store all the same, so the transformation can be repeated.

## Main definitions

* `Transformed`: the new text and the classes met.
* `Store.finish`: the writing of the map after a renaming.
* `Store.transformHtml`: the transformation of a document.
-/

namespace ClassVeil

/-- The outcome of a transformation: the text, and the classes met with their ids in the order in
    which they were met. -/
structure Transformed where
  code : List Char
  classMap : ClassMap
deriving DecidableEq, Repr

namespace Store

/-- The end of a renaming that has left the renamer `r`: the map is written if the options ask
    for it and there is something to write. -/
def finish (s : Store) (fs : FileSystem) (options : TransformOptions) (code : List Char)
    (r : Renamer) : Except StoreError Transformed × Store × FileSystem :=
  let s := { s with memory := r.memory }
  if options.flushAfterTransform then
    match s.flushIfDirty fs with
    | (some e, s, fs) => (.error e, s, fs)
    | (none, s, fs) => (.ok ⟨code, r.seen⟩, s, fs)
  else (.ok ⟨code, r.seen⟩, s, fs)

/-- A document with its classes renamed. -/
def transformHtml (s : Store) (fs : FileSystem) (options : TransformOptions)
    (source : List Char) : Except StoreError Transformed × Store × FileSystem :=
  let (code, r) := Html.transform (Renamer.renameClasses s.naming) source ⟨s.memory, []⟩
  s.finish fs options code r

end Store

end ClassVeil
