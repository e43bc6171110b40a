import ClassVeil.Css.Printer
import ClassVeil.Css.Reader
import ClassVeil.Css.Rename
import ClassVeil.Store.Basic

/-!
# Transforming stylesheets

The classes of a stylesheet are renamed by the map in the file, whatever the store itself
remembers. A map that is missing or cannot be read is no reason to stop: the stylesheet is then
left as it is, and so it is when no rule of it is in the map.

## Main definitions

* `SheetOutcome`: what became of a stylesheet.
* `Store.renameSheet`: a tree with its classes renamed by the map in the file.
* `Store.transformCss`: a text with its classes renamed by the map in the file.
* `Store.hookCss`: the same, always printed anew.
-/

namespace ClassVeil

/-- What became of a stylesheet. -/
inductive SheetOutcome where
  | noMap
  | skipped (reason : String)
  | renamed (rules : Nat)
deriving DecidableEq, Repr

/-- The number of rules that changed. -/
def SheetOutcome.rules : SheetOutcome → Nat
  | renamed n => n
  | _ => 0

namespace Store

/-- A tree with its classes renamed by the map in the file. -/
def renameSheet (s : Store) (fs : FileSystem) (sheet : Css.Stylesheet) :
    (Css.Stylesheet × SheetOutcome) × Store :=
  match s.load fs with
  | (.ok (some loaded), s) =>
    let (sheet, rules) := Css.renameWithMap loaded.map sheet
    ((sheet, .renamed rules), s)
  | (.ok none, s) => ((sheet, .noMap), s)
  | (.error e, s) => ((sheet, .skipped e.message), s)

/-- A text with its classes renamed by the map in the file; unless a rule changes it stays as it
    is. -/
def transformCss (s : Store) (fs : FileSystem) (style : Css.Style) (source : List Char) :
    (List Char × SheetOutcome) × Store :=
  let ((sheet, outcome), s) := s.renameSheet fs (Css.readStylesheet source)
  ((if 0 < outcome.rules then Css.print style sheet else source, outcome), s)

/-- A text with its classes renamed by the map in the file, in the small style even if no rule
    changes. -/
def hookCss (s : Store) (fs : FileSystem) (source : List Char) :
    (List Char × SheetOutcome) × Store :=
  let ((sheet, outcome), s) := s.renameSheet fs (Css.readStylesheet source)
  ((Css.print .small sheet, outcome), s)

end Store

end ClassVeil
