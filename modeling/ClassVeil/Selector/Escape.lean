/-!
# Class selectors

A class name may hold any character, a selector may not. Letters, digits, `_` and `-` stand for
themselves; every other character is written behind a backslash.

What is done with a character depends on the character alone, and not on where in the name it
stands.

## Main definitions

* `isPlain`: the characters that stand for themselves.
* `escape`: a class name as it is written in a selector.
* `ofClass`: the selector of one class, a full stop and the escaped name.
-/

namespace ClassVeil

namespace Selector

/-- ASCII letters, ASCII digits, `_` and `-`. -/
def isPlain (c : Char) : Bool := c.isAlphanum || c == '_' || c == '-'

/-- Every character that is not plain behind a backslash. -/
def escapeChars : List Char → List Char
  | [] => []
  | c :: rest => if isPlain c then c :: escapeChars rest else '\\' :: c :: escapeChars rest

/-- A class name as it is written in a selector. -/
def escape (name : String) : String := String.ofList (escapeChars name.toList)

/-- The selector that matches one class. -/
def ofClass (name : String) : String := "." ++ escape name

end Selector

end ClassVeil
