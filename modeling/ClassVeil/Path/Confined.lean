import ClassVeil.Path.Basic

/-!
# Paths confined to a directory

A project may only name files below its root. The check is lexical: the path is joined to the
root, both are normalised, and the root has to be a leading part of the result.

The refusal is decided on paths as they are spelled. What the file system has in these places is not
asked.

## Main definitions

* `Path.confine?`: the location that a path names below a root, if it stays there.
* `Path.isEligible`: whether the classes of a file are renamed.
-/

namespace ClassVeil

namespace Path

/-- The location of `path` below `root`, unless it lies elsewhere. -/
def confine? (root path : Path) : Option Path :=
  let root := root.normalize
  let place := (root.join path).normalize
  if root.isPrefixOf place then some place else none

/-- The extensions of files that hold markup in scripts. -/
def scriptExtensions : List String := ["tsx", "ts", "jsx", "js", "mjs"]

/-- The directory that dependencies are kept in. -/
def dependencyDirectory : String := "node_modules"

/-- The classes of a file are renamed when it is a script outside the dependencies. -/
def isEligible (path : Path) : Bool :=
  !path.contains (.name dependencyDirectory) &&
    match path.extension? with
    | some ext => scriptExtensions.contains ext
    | none => false

end Path

end ClassVeil
