import ClassVeil.Decimal.Shortest

/-!
# The binary fraction nearest to a decimal

A decimal is read as the binary64 number nearest to it; of two that are equally near, the one with
the even mantissa. The decimal is divided by the least binary64 number, `2 ^ -1074`, and the
quotient is rounded to 53 bits, in exact integer arithmetic.

## Main definitions

* `Binary.ofDecimal?`: the number nearest to a decimal, if it is not too great.
* `Binary.whole`: the number without its fraction.
* `Binary.plain`: the shortest decimal of a number, without an exponent.
-/

namespace ClassVeil

namespace Decimal

/-- The mantissa and exponent of a quotient, in units of `2 ^ -1074`. -/
def Binary.round (num den : Nat) : Binary :=
  let whole := num / den
  let shift := if whole < Nat.pow 2 53 then 0 else whole.log2 - 52
  let mantissa := whole / Nat.pow 2 shift
  let rest := num - mantissa * Nat.pow 2 shift * den
  let half := Nat.pow 2 shift * den
  let rounded :=
    if half < 2 * rest ∨ (half = 2 * rest ∧ mantissa % 2 = 1) then mantissa + 1 else mantissa
  if rounded = Nat.pow 2 53 then ⟨Nat.pow 2 52, shift + 1, true⟩
  else ⟨rounded, shift, rounded = Nat.pow 2 52 && 0 < shift⟩

/-- The greatest exponent of a finite number. -/
def greatestExponent : Nat := 2045

/-- The number nearest to `digits · 10 ^ place`, if it is not too great. Places so low that the
    decimal vanishes, and so high that it is too great, are not computed with. -/
def Binary.ofDecimal? (digits : Nat) (place : Int) : Option Binary :=
  let size := (Nat.toDigits 10 digits).length
  if digits = 0 ∨ place + size < -400 then some ⟨0, 0, false⟩
  else if 400 < place then none
  else
    let b :=
      if 0 ≤ place then Binary.round (digits * Nat.pow 10 place.toNat * Nat.pow 2 1074) 1
      else Binary.round (digits * Nat.pow 2 1074) (Nat.pow 10 (-place).toNat)
    if greatestExponent < b.exponent then none else some b

/-- The number without its fraction. -/
def Binary.whole (b : Binary) : Nat := b.mantissa * Nat.pow 2 b.exponent / Nat.pow 2 1074

/-- The shortest decimal of a number, without an exponent. -/
def Binary.plain (b : Binary) : List Char :=
  if b.mantissa = 0 then ['0']
  else
    let (digits, place) := b.shortest
    let (digits, zeros) := dropZeros digits
    let place := place + zeros
    let point := (digits.length : Int) + place
    if 0 ≤ place then digits ++ List.replicate place.toNat '0'
    else if 0 < point then digits.take point.toNat ++ '.' :: digits.drop point.toNat
    else ['0', '.'] ++ List.replicate (-point).toNat '0' ++ digits

end Decimal

end ClassVeil
