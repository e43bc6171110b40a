import ClassVeil.Json.Value

/-!
# Written JSON is read back

What the reader makes of the texts that the writer produces. A written string is read as the text it
was written for, whatever the text is: quotation marks and backslashes are escaped, so none of them
ends the string early, and control characters are escaped, so none of them is refused.

The reader carries a position for its messages. Nothing here depends on it, so every statement
leaves it open where the cursor ends up: `Reads` says what is read and what text is left. Statements
of this form can be put behind one another, since each is for any position that the one before may
have ended at.

Only what the writer produces is followed. The reader knows many texts besides, among them escapes
that no writer uses and blanks where none are put; what it makes of them does not matter for reading
back, and has no lemma.

## Main definitions

* `Reads`: A reader gets past a text from wherever it starts, with a result.

## Theorems

* `readStringFrom_escapeChar`: An escaped character is read as the character.
* `readString_writeString`: A written string is read as its text.
* `readText_writeString`, `readKey?_first`, `readKey?_next`, `readKey?_end`, `readColon_colon`,
  `endObject_brace`, `endText_nil`: The punctuation of a written object.
-/

namespace ClassVeil

namespace Json

/-- A reader that is given a text gets a result and leaves a rest, whatever the position is. The
    rest is a parameter, so that a lemma on one value can be used in front of the next. -/
def Reads {α : Type} (read : Cursor → Result α) (text : List Char) (value : α)
    (rest : List Char) : Prop :=
  ∀ pos, ∃ next, read ⟨text, pos⟩ = .ok (value, ⟨rest, next⟩)

/-! ### Strings -/

theorem hexDigit?_hexDigit : ∀ n, n < 16 → hexDigit? (hexDigit n) = some n := by decide

/-- The escape of a control character that has no letter of its own. -/
theorem hexQuad?_control (n : Nat) (h : n < 0x20) :
    hexQuad? '0' '0' (hexDigit (n / 16)) (hexDigit (n % 16)) = some n := by
  have hzero : hexDigit? '0' = some 0 := by decide
  unfold hexQuad?
  rw [hzero, hexDigit?_hexDigit (n / 16) (by omega), hexDigit?_hexDigit (n % 16) (by omega)]
  simp only [Option.bind_eq_bind, Option.bind_some, Option.some.injEq]
  omega

theorem readStringFrom_simple (done : List Char) (pos : Position) (x c : Char) (rest : List Char)
    (hx : simpleEscape? x = some c) :
    readStringFrom done pos ('\\' :: x :: rest)
      = readStringFrom (c :: done) (pos.right 2) rest := by
  have hu : x ≠ 'u' := by
    rintro rfl
    cases hx
  -- Two patterns with a `u` come before the one that is meant.
  rw [readStringFrom]
  · simp only [hx]
  · intro a b c d more h _
    exact hu h
  · intro h
    exact hu h

theorem readStringFrom_unicode (done : List Char) (pos : Position) (a b c d : Char) (n : Nat)
    (rest : List Char) (hn : hexQuad? a b c d = some n) (hlt : n < 0xD800) :
    readStringFrom done pos ('\\' :: 'u' :: a :: b :: c :: d :: rest)
      = readStringFrom (Char.ofNat n :: done) (pos.right 6) rest := by
  rw [readStringFrom]
  simp only [hn]
  rw [if_neg (by omega), if_pos (by omega)]

theorem readStringFrom_plain (done : List Char) (pos : Position) (c : Char) (rest : List Char)
    (hquote : c ≠ '"') (hslash : c ≠ '\\') (hc : 0x20 ≤ c.toNat) :
    readStringFrom done pos (c :: rest) = readStringFrom (c :: done) (pos.after c) rest := by
  rw [readStringFrom]
  -- It is no control character, which would be refused.
  · rw [if_neg (by omega)]
  · exact hquote
  · exact hslash

/-- An escaped character is read as the character. The cases are those of the writer: a letter
    behind the backslash, four digits, or the character itself. -/
theorem readStringFrom_escapeChar (done : List Char) (pos : Position) (c : Char)
    (rest : List Char) : ∃ next, readStringFrom done pos (escapeChar c ++ rest)
      = readStringFrom (c :: done) next rest := by
  -- Seven characters have a letter, and reading is the same for all of them.
  have hletter : ∀ x, simpleEscape? x = some c →
      ∃ next, readStringFrom done pos (['\\', x] ++ rest) = readStringFrom (c :: done) next rest :=
    fun x hx => ⟨_, readStringFrom_simple done pos x c rest hx⟩
  unfold escapeChar
  by_cases hquote : c = '"'
  · rw [if_pos hquote]
    exact hletter '"' (by rw [hquote]; rfl)
  rw [if_neg hquote]
  by_cases hslash : c = '\\'
  · rw [if_pos hslash]
    exact hletter '\\' (by rw [hslash]; rfl)
  rw [if_neg hslash]
  by_cases hback : c = '\x08'
  · rw [if_pos hback]
    exact hletter 'b' (by rw [hback]; rfl)
  rw [if_neg hback]
  by_cases htab : c = '\t'
  · rw [if_pos htab]
    exact hletter 't' (by rw [htab]; rfl)
  rw [if_neg htab]
  by_cases hline : c = '\n'
  · rw [if_pos hline]
    exact hletter 'n' (by rw [hline]; rfl)
  rw [if_neg hline]
  by_cases hfeed : c = '\x0c'
  · rw [if_pos hfeed]
    exact hletter 'f' (by rw [hfeed]; rfl)
  rw [if_neg hfeed]
  by_cases hreturn : c = '\r'
  · rw [if_pos hreturn]
    exact hletter 'r' (by rw [hreturn]; rfl)
  rw [if_neg hreturn]
  by_cases hcontrol : c.toNat < 0x20
  · rw [if_pos hcontrol]
    -- Control characters are below the surrogates, so one escape is enough.
    refine ⟨pos.right 6, ?_⟩
    have hread := readStringFrom_unicode done pos _ _ _ _ c.toNat rest
      (hexQuad?_control c.toNat hcontrol) (by omega)
    rw [Char.ofNat_toNat] at hread
    exact hread
  · rw [if_neg hcontrol]
    exact ⟨pos.after c, readStringFrom_plain done pos c rest hquote hslash (by omega)⟩

/-- The escaped characters of a text are read one after the other up to the closing mark. The
    induction is on the text, for any characters that have been read before. -/
theorem readStringFrom_escaped (s : List Char) (rest : List Char) :
    ∀ (done : List Char) (pos : Position), ∃ next,
      readStringFrom done pos (s.flatMap escapeChar ++ '"' :: rest)
        = .ok (String.ofList (done.reverse ++ s), ⟨rest, next⟩) := by
  induction s with
  | nil =>
      intro done pos
      refine ⟨pos.right 1, ?_⟩
      rw [List.flatMap_nil, List.nil_append, List.append_nil, readStringFrom]
  | cons c tail ih =>
      intro done pos
      rcases readStringFrom_escapeChar done pos c (tail.flatMap escapeChar ++ '"' :: rest) with
        ⟨mid, hmid⟩
      rcases ih (c :: done) mid with ⟨next, hnext⟩
      refine ⟨next, ?_⟩
      rw [List.flatMap_cons, List.append_assoc, hmid, hnext, List.reverse_cons, List.append_assoc,
        List.singleton_append]

/-- A written string is read as its text, from behind its opening mark. Every character is written
    so that the reader takes exactly that much for it. -/
theorem readString_writeString (s rest : List Char) :
    Reads readString (s.flatMap escapeChar ++ '"' :: rest) (String.ofList s) rest := by
  intro pos
  exact readStringFrom_escaped s rest [] pos

theorem writeString_append (s rest : List Char) :
    writeString s ++ rest = '"' :: (s.flatMap escapeChar ++ '"' :: rest) := by
  rw [writeString, List.cons_append, List.append_assoc, List.singleton_append]

/-! ### Punctuation -/

/-- Blanks in front of a character that is none are skipped, all of them and no more. -/
theorem skipSpace_append (blanks : List Char) (x : Char) (rest : List Char) (pos : Position)
    (hblanks : ∀ b ∈ blanks, Cursor.isSpace b = true) (hx : Cursor.isSpace x = false) :
    ∃ next, Cursor.skipSpace ⟨blanks ++ x :: rest, pos⟩ = ⟨x :: rest, next⟩ := by
  have hdrop : (blanks ++ x :: rest).dropWhile Cursor.isSpace = x :: rest := by
    rw [List.dropWhile_append_of_pos hblanks, List.dropWhile_cons_of_neg]
    rw [hx]
    exact Bool.false_ne_true
  exact ⟨_, by rw [Cursor.skipSpace, Cursor.skipWhile, hdrop]⟩

/-- A value that is a string, behind blanks. -/
theorem readText_writeString (expected : String) (blanks s rest : List Char)
    (hblanks : ∀ b ∈ blanks, Cursor.isSpace b = true) :
    Reads (readText expected) (blanks ++ writeString s ++ rest) (String.ofList s) rest := by
  intro pos
  rw [List.append_assoc, writeString_append]
  rcases skipSpace_append blanks '"' (s.flatMap escapeChar ++ '"' :: rest) pos hblanks (by decide)
    with ⟨mid, hmid⟩
  rcases readString_writeString s rest (mid.after '"') with ⟨next, hnext⟩
  refine ⟨next, ?_⟩
  rw [readText, withValue, hmid]
  simp only [Cursor.peek?, List.head?_cons, Cursor.advance, if_true]
  exact hnext

/-- The colon between a key and its value. -/
theorem readColon_colon (rest : List Char) (pos : Position) :
    ∃ next, readColon ⟨':' :: rest, pos⟩ = .ok ⟨rest, next⟩ := by
  rcases skipSpace_append [] ':' rest pos (fun b hb => absurd hb List.not_mem_nil) (by decide) with
    ⟨mid, hmid⟩
  rw [List.nil_append] at hmid
  refine ⟨mid.after ':', ?_⟩
  rw [readColon, hmid]
  simp only [Cursor.peek?, List.head?_cons, Cursor.advance, if_true]

/-- The first key of an object, behind blanks. -/
theorem readKey?_first (blanks s rest : List Char)
    (hblanks : ∀ b ∈ blanks, Cursor.isSpace b = true) :
    Reads (readKey? true) (blanks ++ writeString s ++ rest) (some (String.ofList s)) rest := by
  intro pos
  rw [List.append_assoc, writeString_append]
  rcases skipSpace_append blanks '"' (s.flatMap escapeChar ++ '"' :: rest) pos hblanks (by decide)
    with ⟨mid, hmid⟩
  rcases readString_writeString s rest (mid.after '"') with ⟨next, hnext⟩
  refine ⟨next, ?_⟩
  rw [readKey?, hmid]
  simp only [Cursor.peek?, List.head?_cons, Cursor.advance, if_true]
  rw [if_neg (by decide), hnext]
  rfl

/-- A later key of an object, behind a comma and blanks. The comma tells it from the first one, and
    the reader asks for it in all places but the first. -/
theorem readKey?_next (blanks s rest : List Char)
    (hblanks : ∀ b ∈ blanks, Cursor.isSpace b = true) :
    Reads (readKey? false) (',' :: (blanks ++ writeString s ++ rest)) (some (String.ofList s))
      rest := by
  intro pos
  rcases skipSpace_append [] ',' (blanks ++ writeString s ++ rest) pos
    (fun b hb => absurd hb List.not_mem_nil) (by decide) with ⟨comma, hcomma⟩
  rw [List.nil_append] at hcomma
  rw [List.append_assoc, writeString_append] at hcomma ⊢
  rcases skipSpace_append blanks '"' (s.flatMap escapeChar ++ '"' :: rest) (comma.after ',')
    hblanks (by decide) with ⟨mid, hmid⟩
  rcases readString_writeString s rest (mid.after '"') with ⟨next, hnext⟩
  refine ⟨next, ?_⟩
  rw [readKey?, hcomma]
  simp only [Cursor.peek?, List.head?_cons, Cursor.advance, Bool.false_eq_true, if_true, if_false]
  -- A comma may not be followed by the end of the object, and it is not.
  rw [if_neg (by decide), hmid]
  simp only [List.head?_cons, if_true]
  rw [hnext]
  rfl

/-- The closing bracket, behind blanks, where a key could be. -/
theorem readKey?_end (first : Bool) (blanks rest : List Char)
    (hblanks : ∀ b ∈ blanks, Cursor.isSpace b = true) :
    Reads (readKey? first) (blanks ++ '\x7d' :: rest) none ('\x7d' :: rest) := by
  intro pos
  rcases skipSpace_append blanks '\x7d' rest pos hblanks (by decide) with ⟨next, hnext⟩
  refine ⟨next, ?_⟩
  rw [readKey?, hnext]
  simp only [Cursor.peek?, List.head?_cons, if_true]

theorem endObject_brace (rest : List Char) (pos : Position) :
    ∃ next, endObject ⟨'\x7d' :: rest, pos⟩ = .ok ⟨rest, next⟩ := by
  rcases skipSpace_append [] '\x7d' rest pos (fun b hb => absurd hb List.not_mem_nil) (by decide)
    with ⟨mid, hmid⟩
  rw [List.nil_append] at hmid
  refine ⟨mid.after '\x7d', ?_⟩
  rw [endObject, hmid]
  simp only [Cursor.peek?, List.head?_cons, Cursor.advance, if_true]

theorem endText_nil (pos : Position) : endText ⟨[], pos⟩ = .ok () := rfl

end Json

end ClassVeil
