import ClassVeil.Decimal.Shortest
import ClassVeil.Json.Error

/-!
# JSON numbers

A number without point and exponent is an integer as long as it fits into 64 bits; every other
number is a binary fraction. The digits are gathered into a significand below 2⁶⁴, further digits
only move the exponent, and the significand is then multiplied with or divided by a power of ten.

## Main definitions

* `Number`: an integer or a binary fraction.
* `readNumber`: the number behind an optional minus sign.
* `skipNumber`: the cursor behind a number that is not looked at.
-/

namespace ClassVeil

namespace Json

/-- A number as it is read. -/
inductive Number where
  | natural (n : Nat)
  | negative (n : Nat)
  | real (value : Float)

/-- The words for a number. -/
def Number.found : Number → Found
  | natural n => .integer (toString n)
  | negative n => .integer ("-" ++ toString n)
  | real value => .real (Decimal.ofBits value.toBits.toNat)

/-- The next character is a digit. -/
def Cursor.atDigit (c : Cursor) : Bool :=
  match c.peek? with
  | some x => x.isDigit
  | none => false

/-- The next character is the given one. -/
def Cursor.at (c : Cursor) (x : Char) : Bool := c.peek? == some x

/-- An exponent starts here. -/
def Cursor.atExponent (c : Cursor) : Bool := c.at 'e' || c.at 'E'

/-- The value of a decimal digit. -/
def digitValue (x : Char) : Nat := x.toNat - '0'.toNat

/-- Repeated division of numbers that are too small for one power of ten. -/
def scaleDown : Nat → Float → Int → Float × Int
  | 0, f, e => (f, e)
  | fuel + 1, f, e =>
    if e < -308 ∧ f != 0.0 then scaleDown fuel (f / Float.ofScientific 1 false 308) (e + 308)
    else (f, e)

/-- The binary fraction `significand · 10 ^ exponent`, or nothing if it is too great. -/
def assemble (positive : Bool) (significand : Nat) (exponent : Int) : Option Float :=
  let (f, e) := scaleDown (exponent.natAbs / 308 + 1) (Float.ofNat significand) exponent
  let scaled : Option Float :=
    if f == 0.0 then some f
    else if e < 0 then some (f / Float.ofScientific 1 false e.natAbs)
    else if 308 < e then none
    else
      let g := f * Float.ofScientific 1 false e.natAbs
      if g.isInf then none else some g
  scaled.map fun g => if positive then g else -g

/-- The number of the parts that have been read. -/
def finish (positive : Bool) (significand : Nat) (exponent : Int) (c : Cursor) : Result Number :=
  match assemble positive significand exponent with
  | some f => .ok (.real f, c)
  | none => c.fail .numberOutOfRange

/-- The greatest exponent that is counted. -/
def greatestExponent : Nat := Nat.pow 2 31 - 1

/-- The exponent, from its letter on. -/
def readExponent (positive : Bool) (significand : Nat) (exponent : Int) (c : Cursor) :
    Result Number :=
  let c := c.advance
  let (up, c) :=
    if c.at '+' then (true, c.advance) else if c.at '-' then (false, c.advance) else (true, c)
  match c.peek? with
  | none => c.fail .endInValue
  | some x =>
    if !x.isDigit then c.advance.fail .invalidNumber
    else
      let digits := c.rest.takeWhile Char.isDigit
      let n := digits.foldl (fun n d => min (n * 10 + digitValue d) (greatestExponent + 1)) 0
      let behind := c.skipWhile Char.isDigit
      if n ≤ greatestExponent then
        finish positive significand (if up then exponent + n else exponent - n) behind
      else if significand ≠ 0 ∧ up then
        -- noticed at the digit that makes the exponent too great
        let used := (List.range digits.length).find? fun i =>
          greatestExponent < (digits.take (i + 1)).foldl (fun n d => n * 10 + digitValue d) 0
        (Cursor.mk [] (c.position.afterBytes (used.getD 0 + 1) c.rest)).fail .numberOutOfRange
      else .ok (.real (if positive then 0.0 else -0.0), behind)

/-- Digits gathered into a significand below 2⁶⁴: the significand, how many digits went into it,
    and the digits that did not fit. -/
def gather (significand : Nat) (count : Nat) : List Char → Nat × Nat × List Char
  | [] => (significand, count, [])
  | d :: rest =>
    let next := significand * 10 + digitValue d
    if next < Nat.pow 2 64 then gather next (count + 1) rest else (significand, count, d :: rest)

/-- The fraction, from its point on. -/
def readFraction (positive : Bool) (significand : Nat) (exponent : Int) (c : Cursor) :
    Result Number :=
  let c := c.advance
  if !c.atDigit then
    -- a digit that makes the significand too great counts as well
    if c.rest.isEmpty then c.failNext .endInValue else c.failNext .invalidNumber
  else
    let (significand, count, _) := gather significand 0 (c.rest.takeWhile Char.isDigit)
    let c := c.skipWhile Char.isDigit
    let exponent := exponent - count
    if c.atExponent then readExponent positive significand exponent c
    else finish positive significand exponent c

/-- The number behind an optional minus sign. -/
def readNumber (positive : Bool) (c : Cursor) : Result Number :=
  match c.peek? with
  | none => c.fail .endInValue
  | some x =>
    if x = '0' ∧ c.advance.atDigit then c.advance.failNext .invalidNumber
    else if !x.isDigit then c.advance.fail .invalidNumber
    else
      let (significand, _, excess) := gather 0 0 (c.rest.takeWhile Char.isDigit)
      let c := c.skipWhile Char.isDigit
      let exponent : Int := excess.length
      if c.at '.' then readFraction positive significand exponent c
      else if c.atExponent then readExponent positive significand exponent c
      else if excess ≠ [] then finish positive significand exponent c
      else if positive then .ok (.natural significand, c)
      else if 0 < significand ∧ significand ≤ Nat.pow 2 63 then .ok (.negative significand, c)
      else .ok (.real (-(Float.ofNat significand)), c)

/-- The cursor behind an exponent that is not looked at. -/
def skipExponent (c : Cursor) : Except Error Cursor :=
  let c := c.advance
  let c := if c.at '+' || c.at '-' then c.advance else c
  if c.atDigit then .ok (c.skipWhile Char.isDigit) else c.advance.fail .invalidNumber

/-- The cursor behind a number that is not looked at. -/
def skipNumber (c : Cursor) : Except Error Cursor :=
  if !c.atDigit then c.advance.fail .invalidNumber
  else if c.at '0' && c.advance.atDigit then c.advance.failNext .invalidNumber
  else
    let c := if c.at '0' then c.advance else c.skipWhile Char.isDigit
    if c.at '.' then
      let c := c.advance
      if !c.atDigit then c.failNext .invalidNumber
      else
        let c := c.skipWhile Char.isDigit
        if c.atExponent then skipExponent c else .ok c
    else if c.atExponent then skipExponent c
    else .ok c

end Json

end ClassVeil
