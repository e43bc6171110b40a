/-!
# UTF-8

Files hold bytes and class names are texts; UTF-8 joins the two. Decoding is strict: an encoding
that is too long, a surrogate, a value above U+10FFFF or a truncated sequence has no text.

Texts are lists of characters everywhere. Bytes come in where a file is read or written, where
places in a source are counted, and where a name is hashed.

## Main definitions

* `encodeChar`, `encode`: the bytes of a character and of a text.
* `decode`: the text of a sequence of bytes, if it is one.
* `width`: the number of bytes of a character.
-/

namespace ClassVeil

namespace Utf8

/-- The bytes of one character: one to four, the lead byte telling how many. -/
def encodeChar (c : Char) : List UInt8 :=
  let n := c.toNat
  if n < 0x80 then [n.toUInt8]
  else if n < 0x800 then [(0xC0 + n / 64).toUInt8, (0x80 + n % 64).toUInt8]
  else if n < 0x10000 then
    [(0xE0 + n / 4096).toUInt8, (0x80 + n / 64 % 64).toUInt8, (0x80 + n % 64).toUInt8]
  else
    [(0xF0 + n / 262144).toUInt8, (0x80 + n / 4096 % 64).toUInt8, (0x80 + n / 64 % 64).toUInt8,
      (0x80 + n % 64).toUInt8]

/-- The bytes of a text. -/
def encode (s : List Char) : List UInt8 := s.flatMap encodeChar

/-- The number of bytes of a character. -/
def width (c : Char) : Nat :=
  let n := c.toNat
  if n < 0x80 then 1 else if n < 0x800 then 2 else if n < 0x10000 then 3 else 4

/-- The number of bytes of a text. -/
def size (s : List Char) : Nat := s.foldl (fun n c => n + width c) 0

/-- The six payload bits of a continuation byte. -/
def continuation? (b : UInt8) : Option Nat :=
  if 0x80 ≤ b.toNat && b.toNat < 0xC0 then some (b.toNat - 0x80) else none

/-- The character with the given code point, if that lies in a range and is no surrogate. -/
def scalar? (least code : Nat) : Option Char :=
  if least ≤ code && (code < 0xD800 || (0xE000 ≤ code && code < 0x110000)) then
    some (Char.ofNat code)
  else none

/-- The text of a sequence of bytes, if the bytes are the encoding of one. -/
def decode : List UInt8 → Option (List Char)
  | [] => some []
  | a :: rest =>
    let n := a.toNat
    if n < 0x80 then (decode rest).map (Char.ofNat n :: ·)
    else if n < 0xC0 then none
    else if n < 0xE0 then
      match rest with
      | b :: rest => do
        let b ← continuation? b
        let c ← scalar? 0x80 ((n - 0xC0) * 64 + b)
        (decode rest).map (c :: ·)
      | _ => none
    else if n < 0xF0 then
      match rest with
      | b :: d :: rest => do
        let b ← continuation? b
        let d ← continuation? d
        let c ← scalar? 0x800 ((n - 0xE0) * 4096 + b * 64 + d)
        (decode rest).map (c :: ·)
      | _ => none
    else if n < 0xF8 then
      match rest with
      | b :: d :: e :: rest => do
        let b ← continuation? b
        let d ← continuation? d
        let e ← continuation? e
        let c ← scalar? 0x10000 ((n - 0xF0) * 262144 + b * 4096 + d * 64 + e)
        (decode rest).map (c :: ·)
      | _ => none
    else none

end Utf8

end ClassVeil
