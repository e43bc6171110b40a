import ClassVeil.Json.Error

/-!
# JSON strings

A string is read to the closing quotation mark; escapes stand for single characters, a pair of
escaped surrogates for one beyond U+FFFF. Where a value is only skipped the escapes are looked at
but not put together, so a lone surrogate passes there.

## Main definitions

* `readString`: the text of a string, from behind its opening mark.
* `skipString`: the cursor behind a string.
* `escapeChar`, `writeString`: the written form of a text.
-/

namespace ClassVeil

namespace Json

/-- The value of a hexadecimal digit. -/
def hexDigit? (c : Char) : Option Nat :=
  if '0' ≤ c ∧ c ≤ '9' then some (c.toNat - '0'.toNat)
  else if 'a' ≤ c ∧ c ≤ 'f' then some (c.toNat - 'a'.toNat + 10)
  else if 'A' ≤ c ∧ c ≤ 'F' then some (c.toNat - 'A'.toNat + 10)
  else none

/-- The value of four hexadecimal digits. -/
def hexQuad? (a b c d : Char) : Option Nat := do
  let a ← hexDigit? a
  let b ← hexDigit? b
  let c ← hexDigit? c
  let d ← hexDigit? d
  some (a * 4096 + b * 256 + c * 16 + d)

/-- The error at the four bytes behind `\u`, which are no number. -/
def failHex {α : Type} (rest : List Char) (pos : Position) : Except Error α :=
  if Utf8.size rest < 4 then .error ⟨.endInString, some (pos.afterBytes (Utf8.size rest) rest)⟩
  else .error ⟨.invalidEscape, some (pos.afterBytes 4 rest)⟩

/-- The character that a letter behind a backslash stands for. -/
def simpleEscape? : Char → Option Char
  | '"' => some '"'
  | '\\' => some '\\'
  | '/' => some '/'
  | 'b' => some '\x08'
  | 'f' => some '\x0c'
  | 'n' => some '\n'
  | 'r' => some '\r'
  | 't' => some '\t'
  | _ => none

/-- What may follow the first half of an escaped pair of surrogates. -/
def failPair {α : Type} (rest : List Char) (pos : Position) : Except Error α :=
  match rest with
  | [] => .error ⟨.endInString, some pos⟩
  | '\\' :: rest =>
    let pos := pos.after '\\'
    match rest with
    | [] => .error ⟨.endInString, some pos⟩
    | 'u' :: rest => failHex rest (pos.after 'u')
    | _ => .error ⟨.endOfHexEscape, some (pos.afterBytes 1 rest)⟩
  | _ => .error ⟨.endOfHexEscape, some (pos.afterBytes 1 rest)⟩

/-- The position behind plain characters of one byte each. -/
def Position.right (pos : Position) (n : Nat) : Position := ⟨pos.line, pos.column + n⟩

/-- The text up to the closing quotation mark; `done` holds the characters before, the last one
    first. -/
def readStringFrom (done : List Char) (pos : Position) : List Char → Result String
  | [] => .error ⟨.endInString, some pos⟩
  | '"' :: rest => .ok (String.ofList done.reverse, ⟨rest, pos.right 1⟩)
  | '\\' :: rest =>
    match rest with
    | [] => .error ⟨.endInString, some (pos.right 1)⟩
    | 'u' :: a :: b :: c :: d :: rest =>
      match hexQuad? a b c d with
      | none => failHex (a :: b :: c :: d :: rest) (pos.right 2)
      | some n =>
        let here := pos.right 6
        if 0xDC00 ≤ n ∧ n < 0xE000 then .error ⟨.loneSurrogate, some here⟩
        else if n < 0xD800 ∨ 0xE000 ≤ n then
          readStringFrom (Char.ofNat n :: done) here rest
        else
          match rest with
          | '\\' :: 'u' :: e :: f :: g :: h :: rest =>
            match hexQuad? e f g h with
            | none => failHex (e :: f :: g :: h :: rest) (here.right 2)
            | some m =>
              if 0xDC00 ≤ m ∧ m < 0xE000 then
                let code := (n - 0xD800) * 1024 + (m - 0xDC00) + 0x10000
                readStringFrom (Char.ofNat code :: done) (here.right 6) rest
              else .error ⟨.loneSurrogate, some (here.right 6)⟩
          | rest => failPair rest here
    | 'u' :: rest => failHex rest (pos.right 2)
    | x :: rest =>
      match simpleEscape? x with
      | some c => readStringFrom (c :: done) (pos.right 2) rest
      | none => .error ⟨.invalidEscape, some ((pos.right 1).afterBytes 1 [x])⟩
  | x :: rest =>
    if x.toNat < 0x20 then .error ⟨.controlCharacter, some (pos.after x)⟩
    else readStringFrom (x :: done) (pos.after x) rest

/-- The text of a string, read from behind its opening quotation mark. -/
def readString (c : Cursor) : Result String := readStringFrom [] c.position c.rest

/-- The cursor behind a string that is skipped. -/
def skipStringFrom (pos : Position) : List Char → Except Error Cursor
  | [] => .error ⟨.endInString, some pos⟩
  | '"' :: rest => .ok ⟨rest, pos.right 1⟩
  | '\\' :: rest =>
    match rest with
    | [] => .error ⟨.endInString, some (pos.right 1)⟩
    | 'u' :: a :: b :: c :: d :: rest =>
      match hexQuad? a b c d with
      | none => failHex (a :: b :: c :: d :: rest) (pos.right 2)
      | some _ => skipStringFrom (pos.right 6) rest
    | 'u' :: rest => failHex rest (pos.right 2)
    | x :: rest =>
      match simpleEscape? x with
      | some _ => skipStringFrom (pos.right 2) rest
      | none => .error ⟨.invalidEscape, some ((pos.right 1).afterBytes 1 [x])⟩
  | x :: rest =>
    if x.toNat < 0x20 then .error ⟨.controlCharacter, some pos⟩
    else skipStringFrom (pos.after x) rest

/-- The cursor behind a string that is skipped, from behind its opening quotation mark. -/
def skipString (c : Cursor) : Except Error Cursor := skipStringFrom c.position c.rest

/-- A hexadecimal digit in its small form. -/
def hexDigit (n : Nat) : Char :=
  if n < 10 then Char.ofNat ('0'.toNat + n) else Char.ofNat ('a'.toNat + n - 10)

/-- The written form of a character: only quotation marks, backslashes and control characters are
    escaped. -/
def escapeChar (c : Char) : List Char :=
  if c = '"' then ['\\', '"']
  else if c = '\\' then ['\\', '\\']
  else if c = '\x08' then ['\\', 'b']
  else if c = '\t' then ['\\', 't']
  else if c = '\n' then ['\\', 'n']
  else if c = '\x0c' then ['\\', 'f']
  else if c = '\r' then ['\\', 'r']
  else if c.toNat < 0x20 then
    ['\\', 'u', '0', '0', hexDigit (c.toNat / 16), hexDigit (c.toNat % 16)]
  else [c]

/-- The written form of a text. -/
def writeString (s : List Char) : List Char := '"' :: (s.flatMap escapeChar ++ ['"'])

end Json

end ClassVeil
