import ClassVeil.Config.Basic
import ClassVeil.Json.Error
import ClassVeil.Store.FileSystem

/-!
# What can go wrong with a store

Failures to read the map are told apart from all others: a stylesheet whose classes keep their
names is still a stylesheet, but a map that cannot be written breaks every page.

## Main definitions

* `StoreError`, `StoreError.message`: the failures and their wording.
* `StoreError.isReadError`: the failures that leave a stylesheet as it is.
-/

namespace ClassVeil

/-- A failure of a store. -/
inductive StoreError where
  /-- The path of the map leads out of the root. -/
  | pathTraversal (path : String)
  /-- The file of the map holds something else. -/
  | corruptMap (path : String) (cause : Json.Error)
  | readFailure (path : String) (cause : OsError)
  | writeFailure (path : String) (cause : OsError)
  | invalidIdLength (length : Nat)
deriving DecidableEq, Repr

namespace StoreError

/-- The wording of a failure. -/
def message : StoreError → String
  | pathTraversal path => "invalid file path: path traversal detected (" ++ path ++ ")"
  | corruptMap path cause => "invalid class map format in " ++ path ++ ": " ++ cause.message
  | readFailure path cause => "failed to read class map " ++ path ++ ": " ++ cause.message
  | writeFailure path cause => "failed to write class map " ++ path ++ ": " ++ cause.message
  | .invalidIdLength length => ClassVeil.invalidIdLength length

/-- A failure to read the map. -/
def isReadError : StoreError → Bool
  | corruptMap .. | readFailure .. => true
  | _ => false

end StoreError

end ClassVeil
