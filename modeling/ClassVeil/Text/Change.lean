/-!
# Tables of changes

A property of characters that holds in many stretches of code points is given by the code points at
which it changes, in ascending order.

## Main definitions

* `flipped`: whether the property holds at a code point.
-/

namespace ClassVeil

namespace Text

/-- Whether an odd number of changes lie at or before `n`; the changes ascend. -/
def flipped (n : Nat) : List Nat → Bool
  | [] => false
  | change :: rest => if change ≤ n then !flipped n rest else false

end Text

end ClassVeil
