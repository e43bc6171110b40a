import ClassVeil.Markup.Transform
import ClassVeil.Script.BlankLine
import ClassVeil.Script.Printer
import ClassVeil.Script.Rename

/-!
# Transforming scripts

The name of a file tells which extensions of the language it uses. A script is read once to find
out which of its blank lines are outside of items and comments, and once more with these marked.
A source that cannot be read changes nothing, neither the store nor the file of the map.

The first reading decides whether there is a second one: if no line is to be marked, the script that
has been read is the one that is renamed.

## Main definitions

* `Dialect.ofFile`: the extensions that a file uses.
* `readMarked`: the script of a source with its blank lines marked.
* `renameScript`: a script with its classes renamed, as a text.
* `Store.transformScript`: the transformation of a source.
-/

namespace ClassVeil

namespace Script

/-- The extensions that a file uses, by the end of its name. -/
def Dialect.ofFile (name : List Char) : Dialect :=
  if ".tsx".toList.isSuffixOf name then ⟨true, true⟩
  else if ".ts".toList.isSuffixOf name then ⟨true, false⟩
  else ⟨false, true⟩

/-- The stretches of a source that are inside of an item or comment. -/
def Program.protectedSpans (s : Program) : List Span := s.items.map Node.span ++ s.comments.spans

/-- The script of a source with its blank lines marked. -/
def readMarked (dialect : Dialect) (source : List Char) : Option Program :=
  match read dialect source with
  | none => none
  | some script =>
    match markBlankLines script.protectedSpans source with
    | some marked => read dialect marked
    | none => some script

/-- A script with its classes renamed, as a text. -/
def renameScript {σ : Type} (plan : Renaming σ) (script : Program) (s : σ) :
    List Char × σ :=
  let (items, s) := visitAll plan script.items s
  (restoreBlankLines (print { script with items }), s)

end Script

/-- A transformation fails because the source cannot be read, or because of the store. -/
inductive TransformError where
  | unreadable
  | store (error : StoreError)

/-- A source with the classes of its elements renamed. -/
def Store.transformScript (s : Store) (fs : FileSystem) (options : TransformOptions)
    (name source : List Char) : Except TransformError Transformed × Store × FileSystem :=
  match Script.readMarked (Script.Dialect.ofFile name) source with
  | none => (.error .unreadable, s, fs)
  | some script =>
    let plan := Script.Renaming.byIds s.naming options.classAttributes
    let (code, r) := Script.renameScript plan script ⟨s.memory, []⟩
    match s.finish fs options code r with
    | (.ok t, s, fs) => (.ok t, s, fs)
    | (.error e, s, fs) => (.error (.store e), s, fs)

end ClassVeil
