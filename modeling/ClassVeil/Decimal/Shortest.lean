/-!
# The shortest decimal of a binary fraction

A binary64 number is a mantissa times a power of two, and every real close enough to it rounds to
it. Among the decimals that do, the one with the fewest digits is written; of two with equally
few, the nearer one. All comparisons are made in exact integer arithmetic.

## Main definitions

* `Binary`: mantissa and exponent of a finite binary64 number.
* `Binary.shortest`: digits and exponent of its shortest decimal.
* `Layout`, `render`: the text of a decimal; small and great numbers get an exponent.
-/

namespace ClassVeil

namespace Decimal

/-- The number `mantissa · 2 ^ (exponent - 1074)`; `isPower` tells that the gap below the number is
    half the gap above it. -/
structure Binary where
  mantissa : Nat
  exponent : Nat
  isPower : Bool

/-- The finite number behind the low 63 bits of a binary64 pattern. -/
def Binary.ofBits (bits : Nat) : Binary :=
  let field := bits / Nat.pow 2 52 % 2048
  let fraction := bits % Nat.pow 2 52
  if field = 0 then ⟨fraction, 0, false⟩
  else ⟨Nat.pow 2 52 + fraction, field - 1, fraction = 0 && 1 < field⟩

/-- Whether `digits · 10 ^ (place - 400)` rounds to the number. -/
def Binary.covers (b : Binary) (digits place : Nat) : Bool :=
  -- everything is multiplied by 4 · 2 ^ 1074 · 10 ^ 400
  let value := 4 * b.mantissa * Nat.pow 2 b.exponent * Nat.pow 10 400
  let above := 2 * Nat.pow 2 b.exponent * Nat.pow 10 400
  let below := if b.isPower then Nat.pow 2 b.exponent * Nat.pow 10 400 else above
  let decimal := 4 * Nat.pow 2 1074 * digits * Nat.pow 10 place
  if b.mantissa % 2 = 0 then value - below ≤ decimal && decimal ≤ value + above
  else value - below < decimal && decimal < value + above

/-- The distance of `digits · 10 ^ (place - 400)` from the number, in the unit of `covers`. -/
def Binary.distance (b : Binary) (digits place : Nat) : Nat :=
  let value := 4 * b.mantissa * Nat.pow 2 b.exponent * Nat.pow 10 400
  let decimal := 4 * Nat.pow 2 1074 * digits * Nat.pow 10 place
  if decimal ≤ value then value - decimal else decimal - value

/-- The place of the leading digit of the number, counted from `10 ^ -400`. -/
def Binary.topPlace (b : Binary) : Nat :=
  let scaled := b.mantissa * Nat.pow 2 b.exponent * Nat.pow 10 400 / Nat.pow 2 1074
  (Nat.toDigits 10 scaled).length - 1

/-- The two neighbours of the number on the grid of a place, if they round to it, the nearer one
    first. -/
def Binary.onGrid (b : Binary) (place : Nat) : List Nat :=
  let down :=
    b.mantissa * Nat.pow 2 b.exponent * Nat.pow 10 400 / (Nat.pow 2 1074 * Nat.pow 10 place)
  let both := if b.distance down place ≤ b.distance (down + 1) place then [down, down + 1]
    else [down + 1, down]
  both.filter fun digits => 0 < digits && b.covers digits place

/-- The first grid, from coarse to fine, on which a decimal rounds to the number. -/
def Binary.search (b : Binary) : Nat → Nat → Nat × Nat
  | 0, place =>
    (b.mantissa * Nat.pow 2 b.exponent * Nat.pow 10 400 / (Nat.pow 2 1074 * Nat.pow 10 place),
      place)
  | fuel + 1, place =>
    match b.onGrid place with
    | digits :: _ => (digits, place)
    | [] => b.search fuel (place - 1)

/-- The digits of the shortest decimal, and the place of the last one counted from `10 ^ 0`. -/
def Binary.shortest (b : Binary) : List Char × Int :=
  let (digits, place) := b.search 18 (b.topPlace + 1)
  (Nat.toDigits 10 digits, (place : Int) - 400)

/-- How decimals are laid out: without an exponent from 10⁻⁵ up to below 10¹⁶, else with a
    signed exponent. -/
structure Layout where
  leastPoint : Int
  greatestPoint : Int

/-- The layout of numbers in messages. -/
def Layout.plain : Layout := ⟨-4, 16⟩

/-- Digits without the zeros at their end, and how many there were. -/
def dropZeros (digits : List Char) : List Char × Nat :=
  let kept := (digits.reverse.dropWhile (· == '0')).reverse
  (kept, digits.length - kept.length)

/-- The text of `digits · 10 ^ place`. -/
def render (layout : Layout) (digits : List Char) (place : Int) : List Char :=
  let (digits, zeros) := dropZeros digits
  let place := place + zeros
  let point := (digits.length : Int) + place
  if 0 ≤ place ∧ point ≤ layout.greatestPoint then
    digits ++ List.replicate place.toNat '0' ++ ['.', '0']
  else if 0 < point ∧ point ≤ layout.greatestPoint then
    digits.take point.toNat ++ '.' :: digits.drop point.toNat
  else if layout.leastPoint ≤ point ∧ point ≤ 0 then
    ['0', '.'] ++ List.replicate (-point).toNat '0' ++ digits
  else
    let power := point - 1
    let size := Nat.toDigits 10 power.natAbs
    let head := match digits with
      | [d] => [d]
      | d :: rest => d :: '.' :: rest
      | [] => ['0']
    head ++ 'e' :: (if power < 0 then '-' else '+') :: size

/-- The text of a finite number given by its bits. -/
def ofBits (bits : Nat) : String :=
  let sign := if bits / Nat.pow 2 63 % 2 = 1 then ['-'] else []
  let b := Binary.ofBits (bits % Nat.pow 2 63)
  let body :=
    if b.mantissa = 0 then ['0', '.', '0']
    else
      let (digits, place) := b.shortest
      render .plain digits place
  String.ofList (sign ++ body)

end Decimal

end ClassVeil
