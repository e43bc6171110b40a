import ClassVeil.Css.Reader
import ClassVeil.Proofs.Css.Exact
import ClassVeil.Proofs.Text.Words

/-!
# Reading an escaped class

The selector of a class is the class with backslashes in it, behind a full stop. A reader of
stylesheets has rules of its own: a name goes on as long as there are letters, digits, `_`, `-` and
escapes, an escape is the character itself unless this is a hexadecimal digit, and a name that
stands for an identifier must not begin like a number.

The first two rules are met by every class, because a character that gets a backslash is never a
hexadecimal digit, and never a line feed since a class has no blank in it. The third is not looked
at when a class is escaped: a leading digit gets no backslash, and would mean another character if
it had one. So all classes but those that begin with a digit, or with a hyphen that has a digit or
nothing behind it, are read as they were written; of the others the reader makes a number, and of a
hyphen alone no selector either.

The way from the text to a rule has four stages: characters are made ready for the reader, then come
tokens, then components, then selectors. A class goes through each of them with a lemma of its own.
Up to the tokens the question is what an escaped class begins with, as that decides which kind of
token is read; what it can begin with is little, a plain character or a backslash, and so most kinds
are ruled out at once. Behind the tokens there is either a full stop with an identifier, which is a
selector, or a number near the beginning, which no rule about selectors can get past.

A NUL in a class is replaced by every reader before anything is read. It is carried along as a
function on characters (`seen`), which changes none of the properties that the escaping looks at.

## Main definitions

* `opensIdent`: Whether a class does not begin like a number.
* `seen`: A character as a reader sees it that has no NUL.
* `StartsNumeric`: Components that a number comes first in, or second behind a full stop.

## Theorems

* `readName_escapeChars`: An escaped class is read as one name, which is the class.
* `startsIdent_escapeChars`: An escaped class begins an identifier if it does not begin like a
  number.
* `tokens_of_opensIdent`: The tokens of the selector of such a class.
* `readSelectors?_of_startsNumeric`: A number begins no selector.
* `escaped_read_back_iff`: Which classes are read back from their selectors.
-/

namespace ClassVeil

open Selector Text

namespace Css

/-! ### Characters -/

theorem isNameChar_of_isPlain (c : Char) (hc : isPlain c = true) : isNameChar c = true := by
  simp only [isPlain, Char.isAlphanum, Bool.or_eq_true] at hc
  simp only [isNameChar, isNameStart, Bool.or_eq_true]
  tauto

theorem isPlain_of_isDigit (c : Char) (hc : c.isDigit = true) : isPlain c = true := by
  simp only [isPlain, Char.isAlphanum, hc, Bool.or_true, Bool.true_or]

/-- The letters by their numbers, the capital ones first. -/
theorem isAlpha_iff (c : Char) : c.isAlpha = true ↔
    (65 ≤ c.toNat ∧ c.toNat ≤ 90) ∨ (97 ≤ c.toNat ∧ c.toNat ≤ 122) := by
  unfold Char.isAlpha Char.isUpper Char.isLower
  simp only [Bool.or_eq_true, Bool.and_eq_true, decide_eq_true_eq, ge_iff_le,
    UInt32.le_iff_toNat_le]
  rfl

/-- A hexadecimal digit never gets a backslash, behind which it would be a number. -/
theorem isPlain_of_isHexDigit (c : Char) (hc : isHexDigit c = true) : isPlain c = true := by
  have hsmall : 'a' ≤ c ∧ c ≤ 'f' ↔ 97 ≤ c.toNat ∧ c.toNat ≤ 102 :=
    and_congr UInt32.le_iff_toNat_le UInt32.le_iff_toNat_le
  have hcapital : 'A' ≤ c ∧ c ≤ 'F' ↔ 65 ≤ c.toNat ∧ c.toNat ≤ 70 :=
    and_congr UInt32.le_iff_toNat_le UInt32.le_iff_toNat_le
  simp only [isHexDigit, Bool.or_eq_true, Bool.and_eq_true, decide_eq_true_eq, hsmall,
    hcapital] at hc
  -- Digits and letters are plain, and there are two ranges of letters.
  rcases hc with (hdigit | hletter) | hletter
  · exact isPlain_of_isDigit c hdigit
  · have halpha := (isAlpha_iff c).mpr (Or.inr (by omega))
    simp only [isPlain, Char.isAlphanum, halpha, Bool.true_or]
  · have halpha := (isAlpha_iff c).mpr (Or.inl (by omega))
    simp only [isPlain, Char.isAlphanum, halpha, Bool.true_or]

/-- A character that gets a backslash is itself behind it. -/
theorem readEscape_of_not_isPlain (c : Char) (rest : List Char) (hc : isPlain c ≠ true) :
    readEscape (c :: rest) = (c, [c], rest) := by
  rw [readEscape, if_neg fun hhex => hc (isPlain_of_isHexDigit c hhex)]

/-- A blank ends no escape, since a class has none. -/
theorem startsEscape_of_not_isBlank (c : Char) (rest : List Char) (hc : isBlank c = false) :
    startsEscape ('\\' :: c :: rest) = true := by
  have hne : c ≠ '\n' := by
    rintro rfl
    exact absurd hc (by decide)
  rw [startsEscape, isNewline, Bool.not_eq_true', beq_eq_false_iff_ne]
  exact hne

/-- What an escaped class begins with is plain or a backslash. -/
theorem head?_escapeChars (w : List Char) (c : Char) (h : (escapeChars w).head? = some c) :
    isPlain c = true ∨ c = '\\' := by
  cases w with
  | nil => cases h
  | cons d rest =>
      by_cases hd : isPlain d = true
      · rw [escapeChars_of_isPlain d rest hd] at h
        cases h
        exact Or.inl hd
      · rw [escapeChars_of_not_isPlain d rest hd] at h
        cases h
        exact Or.inr rfl

/-! ### Names -/

/-- An escaped class is one name, which is the class, and nothing is left over. The induction is on
    the class, and the fuel need not be more than its length. -/
theorem readName_escapeChars (w : List Char) (hw : ∀ c ∈ w, isBlank c = false) (fuel : Nat)
    (hfuel : w.length ≤ fuel) : readName fuel (escapeChars w) = (w, escapeChars w, []) := by
  induction w generalizing fuel with
  | nil => cases fuel <;> rfl
  | cons c rest ih =>
      cases fuel with
      | zero => cases hfuel
      | succ fuel =>
          have hrest := ih (fun d hd => hw d (List.mem_cons_of_mem c hd)) fuel
            (Nat.le_of_succ_le_succ hfuel)
          -- The character goes on the name, by itself or as an escape.
          by_cases hc : isPlain c = true
          · rw [escapeChars_of_isPlain c rest hc, readName, if_pos (isNameChar_of_isPlain c hc),
              hrest]
          · have hescape := startsEscape_of_not_isBlank c (escapeChars rest)
              (hw c List.mem_cons_self)
            rw [escapeChars_of_not_isPlain c rest hc, readName, if_neg (by decide),
              if_pos hescape, readEscape_of_not_isPlain c _ hc]
            dsimp only
            rw [hrest]
            rfl

/-- Whether a class does not begin like a number: its first character is no digit, and behind a
    hyphen there is a character that is none. -/
def opensIdent : List Char → Bool
  | [] => false
  | ['-'] => false
  | '-' :: c :: _ => !c.isDigit
  | c :: _ => !c.isDigit

theorem opensIdent_cons (c : Char) (rest : List Char) (hc : c ≠ '-') :
    opensIdent (c :: rest) = !c.isDigit := by
  rw [opensIdent]
  · rintro rfl -
    exact hc rfl
  · rintro d more rfl -
    exact hc rfl

theorem opensIdent_hyphen_cons (c : Char) (rest : List Char) :
    opensIdent ('-' :: c :: rest) = !c.isDigit := rfl

theorem isDigit_of_not_isPlain (c : Char) (hc : isPlain c ≠ true) : c.isDigit = false :=
  Bool.eq_false_iff.mpr fun hdigit => hc (isPlain_of_isDigit c hdigit)

/-- What an escaped class begins with is a digit if the class begins with one, and a hyphen only if
    the class does. It is plain or a backslash in any case. -/
theorem exists_escapeChars_cons (c : Char) (rest : List Char) :
    ∃ d more, escapeChars (c :: rest) = d :: more ∧ (isPlain d = true ∨ d = '\\') ∧
      d.isDigit = c.isDigit ∧ (d = '-' → c = '-') := by
  by_cases hc : isPlain c = true
  · exact ⟨c, escapeChars rest, escapeChars_of_isPlain c rest hc, Or.inl hc, rfl, id⟩
  · exact ⟨'\\', c :: escapeChars rest, escapeChars_of_not_isPlain c rest hc, Or.inr rfl,
      (isDigit_of_not_isPlain c hc).symm, fun h => absurd h (by decide)⟩

/-- A character that is neither plain nor a backslash comes first in no escaped class. -/
theorem ne_of_isPlain_or (c d : Char) (hd : isPlain d = true ∨ d = '\\') (hc : isPlain c = false)
    (hne : c ≠ '\\') : d ≠ c := by
  rintro rfl
  rcases hd with hd | hd
  · rw [hd] at hc
    cases hc
  · exact hne hd

theorem isNameStart_of_isDigit (c : Char) (hc : c.isDigit = true) : isNameStart c = false := by
  have hdigit : 48 ≤ c.toNat ∧ c.toNat ≤ 57 := by
    simp only [Char.isDigit, Bool.and_eq_true, decide_eq_true_eq, ge_iff_le,
      UInt32.le_iff_toNat_le] at hc
    exact hc
  have hletter : ¬ c.isAlpha = true := by
    rw [isAlpha_iff]
    omega
  have hunderscore : c ≠ '_' := by
    rintro rfl
    cases hc
  rw [isNameStart, Bool.eq_false_iff.mpr hletter, Bool.false_or,
    beq_eq_false_iff_ne.mpr hunderscore, Bool.false_or, decide_eq_false_iff_not]
  omega

/-- A plain character that is no digit begins a name, or is a hyphen. -/
theorem isNameStart_of_isPlain (c : Char) (hc : isPlain c = true) :
    (isNameStart c || c == '-') = !c.isDigit := by
  cases hdigit : c.isDigit with
  | true =>
      have hhyphen : c ≠ '-' := by
        rintro rfl
        cases hdigit
      rw [isNameStart_of_isDigit c hdigit, beq_eq_false_iff_ne.mpr hhyphen]
      rfl
  | false =>
      simp only [isPlain, Char.isAlphanum, hdigit, Bool.or_false, Bool.or_eq_true] at hc
      simp only [isNameStart, Bool.not_false, Bool.or_eq_true]
      tauto

theorem startsEscape_of_ne (c : Char) (rest : List Char) (hc : c ≠ '\\') :
    startsEscape (c :: rest) = false := by
  rw [startsEscape]
  intro d more h
  exact hc (List.cons.inj h).1

/-- An escaped class begins an identifier exactly if the class does not begin like a number. The
    cases follow the rule of the reader, which looks at one character, and at the next one behind a
    hyphen. -/
theorem startsIdent_escapeChars (w : List Char) (hw : ∀ c ∈ w, isBlank c = false) :
    startsIdent (escapeChars w) = opensIdent w := by
  cases w with
  | nil => rfl
  | cons c rest =>
      by_cases hc : isPlain c = true
      · rw [escapeChars_of_isPlain c rest hc]
        by_cases hhyphen : c = '-'
        · subst hhyphen
          cases rest with
          | nil => rfl
          | cons d more =>
              rw [opensIdent_hyphen_cons]
              by_cases hd : isPlain d = true
              · rw [escapeChars_of_isPlain d more hd, startsIdent,
                  startsEscape_of_ne d _ (ne_backslash_of_isPlain d hd), Bool.or_false,
                  isNameStart_of_isPlain d hd]
              · rw [escapeChars_of_not_isPlain d more hd, startsIdent,
                  startsEscape_of_not_isBlank d _ (hw d (by simp)), Bool.or_true,
                  isDigit_of_not_isPlain d hd, Bool.not_false]
        -- No hyphen in front, so the first character decides.
        · have hstart := isNameStart_of_isPlain c hc
          rw [beq_eq_false_iff_ne.mpr hhyphen, Bool.or_false] at hstart
          rw [opensIdent_cons c rest hhyphen, startsIdent, hstart, bne_iff_ne.mpr hhyphen,
            Bool.and_true]
          · rintro d more h -
            exact hhyphen h
          · exact ne_backslash_of_isPlain c hc
      -- An escape begins an identifier whatever is escaped, and a digit never is.
      · have hhyphen : c ≠ '-' := by
          rintro rfl
          exact hc (by decide)
        rw [escapeChars_of_not_isPlain c rest hc, startsIdent,
          startsEscape_of_not_isBlank c _ (hw c List.mem_cons_self), opensIdent_cons c rest hhyphen,
          isDigit_of_not_isPlain c hc, Bool.not_false]

/-! ### Tokens -/

theorem startsNumber_cons (c : Char) (rest : List Char) (hplus : c ≠ '+') (hminus : c ≠ '-')
    (hdot : c ≠ '.') : startsNumber (c :: rest) = c.isDigit := by
  rw [startsNumber]
  all_goals rintro _ _ rfl
  · exact absurd rfl hplus
  · exact absurd rfl hminus
  · exact absurd rfl hplus
  · exact absurd rfl hminus
  · exact absurd rfl hdot

theorem startsNumber_hyphen_cons (c : Char) (rest : List Char) (hdot : c ≠ '.') :
    startsNumber ('-' :: c :: rest) = c.isDigit := by
  rw [startsNumber]
  intro d more h
  exact absurd h hdot

/-- A class that begins like a number begins a number, alone or behind a full stop. Escaping puts
    nothing in front of digits and hyphens, so the first characters decide as they are. -/
theorem startsNumber_escapeChars (w : List Char) (hne : w ≠ []) (hhyphen : w ≠ ['-']) :
    (startsNumber ('.' :: escapeChars w) || startsNumber (escapeChars w)) = !opensIdent w := by
  cases w with
  | nil => exact absurd rfl hne
  | cons c rest =>
      by_cases hc : c = '-'
      · subst hc
        cases rest with
        | nil => exact absurd rfl hhyphen
        | cons d more =>
            -- Behind the hyphen the next character decides, and it is no full stop.
            rcases exists_escapeChars_cons d more with ⟨x, xs, hxs, hx, hdigit, -⟩
            have hdot : x ≠ '.' := ne_of_isPlain_or '.' x hx (by decide) (by decide)
            rw [escapeChars_of_isPlain '-' _ (by decide), hxs, startsNumber_hyphen_cons x xs hdot,
              hdigit, opensIdent_hyphen_cons, Bool.not_not]
            rfl
      · rcases exists_escapeChars_cons c rest with ⟨x, xs, hxs, hx, hdigit, hminus⟩
        have hplus : x ≠ '+' := ne_of_isPlain_or '+' x hx (by decide) (by decide)
        have hdot : x ≠ '.' := ne_of_isPlain_or '.' x hx (by decide) (by decide)
        rw [hxs, startsNumber_cons x xs hplus (fun h => hc (hminus h)) hdot, hdigit,
          opensIdent_cons c rest hc, Bool.not_not, show startsNumber ('.' :: x :: xs) = x.isDigit
          from rfl, hdigit, Bool.or_self]

/-- A full stop that begins no number is a token of its own. -/
theorem readToken_dot (fuel : Nat) (rest : List Char) (hrest : startsNumber ('.' :: rest) = false) :
    readToken fuel '.' rest = (.delim '.', rest) := by
  rw [readToken]
  simp only [hrest]
  rfl

/-- What begins a token that is neither a number nor an identifier, and no bracket. -/
def tokenMarks : List Char := [' ', '\t', '\n', '"', '\'', '#', '@', '<']

/-- Apart from these marks a token is a number if it begins like one, and an identifier if it begins
    like that and is no end of a comment. The reader tries the kinds one after the other, so the
    ones before have to be excluded. -/
theorem readToken_of_not_mem (fuel : Nat) (c : Char) (rest : List Char) (hc : c ∉ tokenMarks) :
    (startsNumber (c :: rest) = true →
      readToken fuel c rest = readNumeric fuel (c :: rest)) ∧
    (startsNumber (c :: rest) = false → "-->".toList.isPrefixOf (c :: rest) = false →
      startsIdent (c :: rest) = true →
      readToken fuel c rest = readIdentLike fuel (c :: rest)) := by
  simp only [tokenMarks, List.mem_cons, List.not_mem_nil, or_false, not_or] at hc
  rcases hc with ⟨hspace, htab, hfeed, hquote, hmark, hhash, hat, hless⟩
  have hblank : isSpace c = false := by
    simp only [isSpace, Bool.or_eq_false_iff, beq_eq_false_iff_ne]
    exact ⟨⟨hspace, htab⟩, hfeed⟩
  have hcomment : "<!--".toList.isPrefixOf (c :: rest) = false := by
    rw [show "<!--".toList = '<' :: ['!', '-', '-'] from rfl, List.isPrefixOf,
      beq_eq_false_iff_ne.mpr (Ne.symm hless), Bool.false_and]
  rw [readToken]
  constructor
  · intro hnumber
    simp only [hblank, hquote, hmark, hhash, hat, hnumber, decide_false, Bool.or_self,
      Bool.false_and, Bool.false_eq_true, if_false, if_true]
  · intro hnumber hend hident
    simp only [hblank, hquote, hmark, hhash, hat, hnumber, hend, hcomment, hident, decide_false,
      Bool.or_self, Bool.false_and, Bool.false_eq_true, if_false, if_true]

theorem not_mem_tokenMarks_of_startsNumber (c : Char) (rest : List Char)
    (h : startsNumber (c :: rest) = true) : c ∉ tokenMarks := by
  have hmarks : ∀ d ∈ tokenMarks, d ≠ '+' ∧ d ≠ '-' ∧ d ≠ '.' ∧ d.isDigit = false := by
    intro d hd
    simp only [tokenMarks, List.mem_cons, List.not_mem_nil, or_false] at hd
    rcases hd with rfl | rfl | rfl | rfl | rfl | rfl | rfl | rfl <;> decide
  intro hmem
  rcases hmarks c hmem with ⟨hplus, hminus, hdot, hdigit⟩
  rw [startsNumber_cons c rest hplus hminus hdot, hdigit] at h
  cases h

/-- A token that is a number, perhaps with a unit. -/
def Token.isNumeric : Token → Bool
  | .number _ | .percentage _ | .dimension .. => true
  | _ => false

theorem isNumeric_readNumeric (fuel : Nat) (text : List Char) :
    (readNumeric fuel text).1.isNumeric = true := by
  rw [readNumeric]
  cases splitNumber text with
  | mk raw rest =>
      dsimp only
      split
      · rfl
      · split <;> rfl

/-- What an escaped class begins with is a plain character or a backslash. -/
theorem not_mem_tokenMarks_of_escapeChars (w : List Char) (c : Char) (rest : List Char)
    (h : escapeChars w = c :: rest) : c ∉ tokenMarks := by
  have hmarks : ∀ d ∈ tokenMarks, isPlain d = false ∧ d ≠ '\\' := by
    intro d hd
    simp only [tokenMarks, List.mem_cons, List.not_mem_nil, or_false] at hd
    rcases hd with rfl | rfl | rfl | rfl | rfl | rfl | rfl | rfl <;> decide
  intro hmem
  rcases hmarks c hmem with ⟨hplain, hne⟩
  exact ne_of_isPlain_or c c (head?_escapeChars w c (by rw [h]; rfl)) hplain hne rfl

/-- An escaped class has no end of a comment in front, in which a character would need a
    backslash. -/
theorem not_commentEnd_escapeChars (w : List Char) :
    "-->".toList.isPrefixOf (escapeChars w) = false := by
  have hstep : ∀ v : List Char, ∀ c text, isPlain c = true →
      (c :: text).isPrefixOf (escapeChars v) = true →
      ∃ v', text.isPrefixOf (escapeChars v') = true := by
    intro v c text hc h
    cases v with
    | nil => cases h
    | cons d rest =>
        by_cases hd : isPlain d = true
        · rw [escapeChars_of_isPlain d rest hd, List.isPrefixOf, Bool.and_eq_true] at h
          exact ⟨rest, h.2⟩
        · rw [escapeChars_of_not_isPlain d rest hd, List.isPrefixOf, Bool.and_eq_true,
            beq_iff_eq] at h
          exact absurd h.1 (ne_backslash_of_isPlain c hc)
  rw [Bool.eq_false_iff]
  intro h
  -- Two hyphens may well stand in front; the third character would have a backslash.
  rcases hstep w '-' ['-', '>'] (by decide) h with ⟨v, hv⟩
  rcases hstep v '-' ['>'] (by decide) hv with ⟨u, hu⟩
  cases hescaped : escapeChars u with
  | nil =>
      rw [hescaped] at hu
      cases hu
  | cons x xs =>
      rw [hescaped, List.isPrefixOf, Bool.and_eq_true, beq_iff_eq] at hu
      have hx := head?_escapeChars u x (by rw [hescaped]; rfl)
      exact ne_of_isPlain_or '>' x hx (by decide) (by decide) hu.1.symm

theorem opensIdent_iff (w : List Char) :
    opensIdent w = true ↔ startsNumber ('.' :: escapeChars w) = false ∧
      startsNumber (escapeChars w) = false ∧ w ≠ [] ∧ w ≠ ['-'] := by
  by_cases hne : w = []
  · subst hne
    simp [opensIdent]
  by_cases hhyphen : w = ['-']
  · subst hhyphen
    simp [opensIdent]
  have hnumber := startsNumber_escapeChars w hne hhyphen
  rw [← Bool.not_eq_false', ← hnumber, Bool.or_eq_false_iff]
  exact ⟨fun h => ⟨h.1, h.2, hne, hhyphen⟩, fun h => ⟨h.1, h.2.1⟩⟩

/-- An escaped class that does not begin like a number is one identifier, with the class for its
    value and the escaped form for its spelling. -/
theorem readToken_escapeChars (w : List Char) (hw : ∀ c ∈ w, isBlank c = false)
    (hopens : opensIdent w = true) (fuel : Nat) (hfuel : w.length ≤ fuel) (c : Char)
    (rest : List Char) (hescaped : escapeChars w = c :: rest) :
    readToken fuel c rest = (.ident w (escapeChars w), []) := by
  have hmarks := not_mem_tokenMarks_of_escapeChars w c rest hescaped
  have hnumber := ((opensIdent_iff w).mp hopens).2.1
  have hident := startsIdent_escapeChars w hw
  have hend := not_commentEnd_escapeChars w
  rw [hescaped] at hnumber hident hend
  rw [(readToken_of_not_mem fuel c rest hmarks).2 hnumber hend (hident.trans hopens),
    ← hescaped, readIdentLike, readName_escapeChars w hw fuel hfuel]

/-! ### The text of a selector -/

/-- A character as a reader sees it, which knows no NUL. -/
def seen (c : Char) : Char := if c = '\x00' then replacement else c

/-- What does not tell NUL from the character in its place does not tell what a reader sees from
    what there is. -/
theorem apply_seen {β : Type} (f : Char → β) (h : f replacement = f '\x00') (c : Char) :
    f (seen c) = f c := by
  rw [seen]
  by_cases hc : c = '\x00'
  · rw [if_pos hc, hc, h]
  · rw [if_neg hc]

theorem isPlain_seen (c : Char) : isPlain (seen c) = isPlain c := apply_seen isPlain (by decide) c

theorem isDigit_seen (c : Char) : (seen c).isDigit = c.isDigit :=
  apply_seen Char.isDigit (by decide) c

theorem seen_eq_hyphen_iff (c : Char) : seen c = '-' ↔ c = '-' := by
  have h := apply_seen (· == '-') (by decide) c
  rw [Bool.eq_iff_iff, beq_iff_eq, beq_iff_eq] at h
  exact h

theorem lines_cons (c : Char) (rest : List Char) (hreturn : c ≠ '\r') (hfeed : c ≠ '\x0c') :
    normalizeText.lines (c :: rest) = seen c :: normalizeText.lines rest := by
  rw [normalizeText.lines, seen]
  · simp only [hreturn, hfeed, decide_false, Bool.or_self, Bool.false_eq_true, if_false]
  · intro text h
    exact absurd h hreturn

/-- A reader sees an escaped class as the escaped form of the class that it sees. Line ends would be
    changed as well, but there are none in a class. -/
theorem lines_escapeChars (w : List Char) (hw : ∀ c ∈ w, isBlank c = false) :
    normalizeText.lines (escapeChars w) = escapeChars (w.map seen) := by
  have hends : isBlank '\r' = true ∧ isBlank '\x0c' = true := by decide
  induction w with
  | nil => rfl
  | cons c rest ih =>
      have hblank := hw c List.mem_cons_self
      have hreturn : c ≠ '\r' := by
        rintro rfl
        rw [hends.1] at hblank
        cases hblank
      have hfeed : c ≠ '\x0c' := by
        rintro rfl
        rw [hends.2] at hblank
        cases hblank
      have hrest := ih fun d hd => hw d (List.mem_cons_of_mem c hd)
      rw [List.map_cons]
      by_cases hc : isPlain c = true
      · rw [escapeChars_of_isPlain c rest hc, lines_cons c _ hreturn hfeed, hrest,
          escapeChars_of_isPlain (seen c) _ (by rw [isPlain_seen, hc])]
      · rw [escapeChars_of_not_isPlain c rest hc, lines_cons '\\' _ (by decide) (by decide),
          lines_cons c _ hreturn hfeed, hrest,
          escapeChars_of_not_isPlain (seen c) _ (by rw [isPlain_seen]; exact hc)]
        rfl

theorem normalizeText_selector (w : List Char) (hw : ∀ c ∈ w, isBlank c = false) :
    normalizeText ('.' :: escapeChars w) = '.' :: escapeChars (w.map seen) := by
  rw [normalizeText, if_neg (by decide), lines_cons '.' _ (by decide) (by decide),
    lines_escapeChars w hw]
  rfl

theorem isBlank_seen (w : List Char) (hw : ∀ c ∈ w, isBlank c = false) :
    ∀ c ∈ w.map seen, isBlank c = false := by
  intro c hc
  rcases List.mem_map.mp hc with ⟨d, hd, rfl⟩
  rw [apply_seen isBlank (by decide)]
  exact hw d hd

theorem opensIdent_seen (w : List Char) : opensIdent (w.map seen) = opensIdent w := by
  cases w with
  | nil => rfl
  | cons c rest =>
      by_cases hc : c = '-'
      · subst hc
        cases rest with
        | nil => rfl
        | cons d more => exact congrArg not (isDigit_seen d)
      · rw [List.map_cons, opensIdent_cons c rest hc,
          opensIdent_cons (seen c) _ (fun h => hc ((seen_eq_hyphen_iff c).mp h)), isDigit_seen]

/-- What begins with neither a slash nor the end of the text begins with a token. -/
theorem tokensFrom_cons (fuel : Nat) (c : Char) (rest : List Char) (hc : c ≠ '/') :
    tokensFrom (fuel + 1) (c :: rest)
      = (readToken (fuel + 1) c rest).1 :: tokensFrom fuel (readToken (fuel + 1) c rest).2 := by
  rw [tokensFrom]
  intro text h
  exact absurd h hc

theorem tokensFrom_nil (fuel : Nat) : tokensFrom fuel [] = [] := by
  cases fuel <;> rfl

theorem length_le_escapeChars (w : List Char) : w.length ≤ (escapeChars w).length := by
  induction w with
  | nil => exact Nat.le_refl 0
  | cons c rest ih =>
      by_cases hc : isPlain c = true
      · rw [escapeChars_of_isPlain c rest hc]
        exact Nat.succ_le_succ ih
      · rw [escapeChars_of_not_isPlain c rest hc]
        exact Nat.succ_le_succ (Nat.le_succ_of_le ih)

/-- The token that an escaped class begins with is the first of its tokens. -/
theorem tokensFrom_escapeChars (fuel : Nat) (w : List Char) (hne : w ≠ []) :
    ∃ c rest, escapeChars w = c :: rest ∧ tokensFrom (fuel + 1) (escapeChars w)
      = (readToken (fuel + 1) c rest).1 :: tokensFrom fuel (readToken (fuel + 1) c rest).2 := by
  cases w with
  | nil => exact absurd rfl hne
  | cons d more =>
      rcases exists_escapeChars_cons d more with ⟨c, rest, hescaped, hc, -⟩
      have hslash : c ≠ '/' := ne_of_isPlain_or '/' c hc (by decide) (by decide)
      exact ⟨c, rest, hescaped, by rw [hescaped, tokensFrom_cons fuel c rest hslash]⟩

/-- The tokens of a selector begin with those of a full stop and the class that a reader sees. -/
theorem tokens_selector (w : List Char) (hw : ∀ c ∈ w, isBlank c = false) :
    ∃ fuel, w.length ≤ fuel ∧ tokens ('.' :: escapeChars w)
      = (readToken (fuel + 2) '.' (escapeChars (w.map seen))).1 ::
        tokensFrom (fuel + 1) (readToken (fuel + 2) '.' (escapeChars (w.map seen))).2 := by
  have hlength := length_le_escapeChars (w.map seen)
  rw [List.length_map] at hlength
  refine ⟨(escapeChars (w.map seen)).length, hlength, ?_⟩
  rw [tokens, normalizeText_selector w hw]
  exact tokensFrom_cons _ '.' _ (by decide)

/-- The tokens of the selector of a class that does not begin like a number: a full stop, and the
    class as an identifier. -/
theorem tokens_of_opensIdent (w : List Char) (hw : ∀ c ∈ w, isBlank c = false)
    (hopens : opensIdent w = true) :
    tokens ('.' :: escapeChars w)
      = [.delim '.', .ident (w.map seen) (escapeChars (w.map seen))] := by
  have hseen := (opensIdent_seen w).trans hopens
  rcases (opensIdent_iff (w.map seen)).mp hseen with ⟨hdot, -, hne, -⟩
  rcases tokens_selector w hw with ⟨fuel, hfuel, htokens⟩
  rcases tokensFrom_escapeChars fuel (w.map seen) hne with ⟨c, rest, hescaped, hfirst⟩
  have hident := readToken_escapeChars (w.map seen) (isBlank_seen w hw) hseen (fuel + 1)
    (by rw [List.length_map]; exact Nat.le_succ_of_le hfuel) c rest hescaped
  rw [htokens, readToken_dot _ _ hdot]
  dsimp only
  rw [hfirst, hident, tokensFrom_nil]

/-- The tokens of any other selector: a number comes first, or behind the full stop. What comes
    after it does not matter, for nothing that begins so is a selector. -/
theorem tokens_of_not_opensIdent (w : List Char) (hw : ∀ c ∈ w, isBlank c = false)
    (hne : w ≠ []) (hhyphen : w ≠ ['-']) (hopens : opensIdent w = false) :
    ∃ number more, number.isNumeric = true ∧
      (tokens ('.' :: escapeChars w) = number :: more ∨
        tokens ('.' :: escapeChars w) = .delim '.' :: number :: more) := by
  have hempty : w.map seen ≠ [] := fun h => hne (List.map_eq_nil_iff.mp h)
  have halone : w.map seen ≠ ['-'] := by
    intro h
    rcases List.map_eq_singleton_iff.mp h with ⟨c, rfl, hc⟩
    exact hhyphen (by rw [(seen_eq_hyphen_iff c).mp hc])
  have hnumber := startsNumber_escapeChars (w.map seen) hempty halone
  rw [opensIdent_seen, hopens, Bool.not_false] at hnumber
  rcases tokens_selector w hw with ⟨fuel, -, htokens⟩
  -- The number begins with the full stop, or right behind it.
  cases hdot : startsNumber ('.' :: escapeChars (w.map seen)) with
  | true =>
      have htoken := (readToken_of_not_mem (fuel + 2) '.' (escapeChars (w.map seen))
        (by decide)).1 hdot
      exact ⟨_, _, isNumeric_readNumeric _ _, Or.inl (by rw [htokens, htoken])⟩
  | false =>
      rw [hdot, Bool.false_or] at hnumber
      rcases tokensFrom_escapeChars fuel (w.map seen) hempty with ⟨c, rest, hescaped, hfirst⟩
      rw [hescaped] at hnumber
      have htoken := (readToken_of_not_mem (fuel + 1) c rest
        (not_mem_tokenMarks_of_startsNumber c rest hnumber)).1 hnumber
      rw [readToken_dot _ _ hdot] at htokens
      dsimp only at htokens
      rw [hfirst, htoken] at htokens
      exact ⟨_, _, isNumeric_readNumeric _ _, Or.inr htokens⟩

/-! ### The head of a rule -/

/-- The components of a text whose first token is neither a function nor a bracket. -/
def Token.isAlone : Token → Bool
  | .closing _ | .opening _ | .function .. => false
  | _ => true

theorem componentsFrom_of_isAlone (fuel : Nat) (t : Token) (rest : List Token)
    (ht : t.isAlone = true) :
    componentsFrom (fuel + 1) none (t :: rest)
      = (.token t :: (componentsFrom fuel none rest).1, (componentsFrom fuel none rest).2) := by
  cases t <;> first | rfl | cases ht

theorem isAlone_of_isNumeric (t : Token) (ht : t.isNumeric = true) : t.isAlone = true := by
  cases t <;> first | rfl | cases ht

/-- Components that a number comes first in, or second behind a full stop. -/
def StartsNumeric (cs : List Component) : Prop :=
  ∃ number more, number.isNumeric = true ∧
    (cs = .token number :: more ∨ cs = .token (.delim '.') :: .token number :: more)

/-- What is no separator goes in front of the first piece, and the other pieces stay as they are. -/
theorem splitOn_cons (p : Component → Bool) (c : Component) (rest : List Component)
    (hc : p c = false) :
    ∃ piece others, splitOn p rest = piece :: others ∧
      splitOn p (c :: rest) = (c :: piece) :: others := by
  have hne : ∀ cs, splitOn p cs ≠ [] := by
    intro cs
    cases cs with
    | nil => exact List.cons_ne_nil _ _
    | cons d more =>
        rw [splitOn]
        split
        · exact List.cons_ne_nil _ _
        · split <;> exact List.cons_ne_nil _ _
  cases hsplit : splitOn p rest with
  | nil => exact absurd hsplit (hne rest)
  | cons piece others =>
      refine ⟨piece, others, rfl, ?_⟩
      rw [splitOn, hc, if_neg (by decide), hsplit]

theorem dropEndSpaces_cons (c : Component) (rest : List Component) (hc : c.isSpace = false) :
    dropEndSpaces (c :: rest) = c :: dropEndSpaces rest := by
  rw [dropEndSpaces, dropEndSpaces, List.reverse_cons, List.dropWhile_append]
  cases rest.reverse.dropWhile Component.isSpace with
  | nil => simp only [List.isEmpty_nil, if_true, List.dropWhile_cons, hc, Bool.false_eq_true,
      if_false, List.reverse_singleton, List.reverse_nil]
  | cons d more => simp only [List.isEmpty_cons, Bool.false_eq_true, if_false,
      List.reverse_append, List.reverse_singleton, List.singleton_append]

theorem trimSpaces_cons (c : Component) (rest : List Component) (hc : c.isSpace = false) :
    trimSpaces (c :: rest) = c :: dropEndSpaces rest := by
  rw [trimSpaces, skipSpaces, List.dropWhile_cons_of_neg (by rw [hc]; decide),
    dropEndSpaces_cons c rest hc]

theorem isSpace_of_isNumeric (t : Token) (ht : t.isNumeric = true) :
    (Component.token t).isSpace = false := by
  cases t <;> first | rfl | cases ht

theorem isDelim_of_isNumeric (c : Char) (t : Token) (ht : t.isNumeric = true) :
    (Component.token t).isDelim c = false := by
  cases t <;> first | rfl | cases ht

/-- A number is no type, and no subclass selector begins with one. So a compound selector cannot
    begin there, with whatever fuel. -/
theorem readCompound?_of_isNumeric (fuel : Nat) (number : Token) (more : List Component)
    (hnumber : number.isNumeric = true) :
    readCompound? fuel (.token number :: more) = none := by
  have htag : readTag? (.token number :: more) = none := by
    cases more with
    | nil => cases number <;> first | rfl | cases hnumber
    | cons c rest => cases number <;> first | rfl | cases hnumber
  -- A number ends the list of subclass selectors before it has begun.
  have hsubclasses : ∀ n, readSubclasses? (n + 1) (.token number :: more)
      = some ([], .token number :: more) := by
    intro n
    cases number <;> first | rfl | cases hnumber
  cases fuel with
  | zero => rfl
  | succ fuel =>
      rw [readCompound?, isDelim_of_isNumeric '&' number hnumber, if_neg (by decide)]
      dsimp only
      rw [htag]
      cases fuel with
      | zero => rfl
      | succ n =>
          dsimp only
          rw [hsubclasses n]
          rfl

/-- No selector begins with a number, and no class is a number behind its full stop. Nothing is left
    of the compound then, and an empty one is turned down. -/
theorem readCompound?_of_startsNumeric (fuel : Nat) (cs : List Component)
    (hcs : StartsNumeric cs) : readCompound? fuel cs = none := by
  rcases hcs with ⟨number, more, hnumber, rfl | rfl⟩
  · exact readCompound?_of_isNumeric fuel number more hnumber
  · cases fuel with
    | zero => rfl
    | succ fuel =>
        cases fuel with
        | zero => rfl
        | succ n => cases number <;> first | rfl | cases hnumber

/-- A number begins no selector, and none comes behind the full stop of a class. -/
theorem readComplex?_of_startsNumeric (fuel : Nat) (cs : List Component) (hcs : StartsNumeric cs) :
    readComplex? fuel cs = none := by
  cases fuel with
  | zero => rfl
  | succ fuel =>
      rw [readComplex?, readCompound?_of_startsNumeric fuel cs hcs]
      rfl

theorem startsNumeric_trimSpaces (cs : List Component) (hcs : StartsNumeric cs) :
    StartsNumeric (trimSpaces cs) := by
  rcases hcs with ⟨number, more, hnumber, rfl | rfl⟩
  · exact ⟨number, _, hnumber, Or.inl (trimSpaces_cons _ _ (isSpace_of_isNumeric number hnumber))⟩
  · refine ⟨number, dropEndSpaces more, hnumber, Or.inr ?_⟩
    rw [trimSpaces_cons _ _ rfl, dropEndSpaces_cons _ _ (isSpace_of_isNumeric number hnumber)]

/-- No list of selectors begins with a number, or with a full stop and a number, however it goes on.
    A class is a full stop and an identifier, and an escape further on does not turn a number into
    one. -/
theorem readSelectors?_of_startsNumeric (fuel : Nat) (cs : List Component)
    (hcs : StartsNumeric cs) : readSelectors? fuel cs = none := by
  -- Commas may follow, but the number is in front of the first of them.
  have hsplit : ∃ piece others, StartsNumeric piece ∧
      splitOn (Component.isDelim ',') cs = piece :: others := by
    rcases hcs with ⟨number, more, hnumber, hcs⟩
    rcases splitOn_cons (Component.isDelim ',') (.token number) more
      (isDelim_of_isNumeric ',' number hnumber) with ⟨piece, others, -, hpiece⟩
    rcases hcs with rfl | rfl
    · exact ⟨_, _, ⟨number, piece, hnumber, Or.inl rfl⟩, hpiece⟩
    · rcases splitOn_cons (Component.isDelim ',') (.token (.delim '.')) (.token number :: more)
        rfl with ⟨rest, others', hrest, hall⟩
      rw [hpiece] at hrest
      cases hrest
      exact ⟨_, _, ⟨number, piece, hnumber, Or.inr rfl⟩, hall⟩
  rcases hsplit with ⟨piece, others, hpiece, hsplit⟩
  rw [readSelectors?, hsplit, List.mapM_cons,
    readComplex?_of_startsNumeric fuel _ (startsNumeric_trimSpaces piece hpiece)]
  rfl

/-- A class behind a full stop is one selector. -/
theorem readSelectors?_class (fuel : Nat) (name raw : List Char) (hfuel : 4 ≤ fuel) :
    readSelectors? fuel [.token (.delim '.'), .token (.ident name raw)]
      = some (classSelector name (some raw)) := by
  rcases Nat.exists_eq_add_of_le hfuel with ⟨extra, rfl⟩
  rw [Nat.add_comm]
  rfl

/-- The components of the selector of a class that does not begin like a number. -/
theorem components_of_opensIdent (w : List Char) (hw : ∀ c ∈ w, isBlank c = false)
    (hopens : opensIdent w = true) :
    components ('.' :: escapeChars w)
      = [.token (.delim '.'), .token (.ident (w.map seen) (escapeChars (w.map seen)))] := by
  rw [components, tokens_of_opensIdent w hw hopens]
  rfl

/-- The components of any other selector but that of a hyphen. -/
theorem components_of_not_opensIdent (w : List Char) (hw : ∀ c ∈ w, isBlank c = false)
    (hne : w ≠ []) (hhyphen : w ≠ ['-']) (hopens : opensIdent w = false) :
    StartsNumeric (components ('.' :: escapeChars w)) := by
  rcases tokens_of_not_opensIdent w hw hne hhyphen hopens with ⟨number, more, hnumber, htokens⟩
  have halone := isAlone_of_isNumeric number hnumber
  rw [components]
  rcases htokens with htokens | htokens
  · rw [htokens, List.length_cons, componentsFrom_of_isAlone _ number more halone]
    exact ⟨number, _, hnumber, Or.inl rfl⟩
  · rw [htokens, List.length_cons, componentsFrom_of_isAlone _ _ _ rfl, List.length_cons,
      componentsFrom_of_isAlone _ number more halone]
    exact ⟨number, _, hnumber, Or.inr rfl⟩

/-- A class is read from its selector unless it begins like a number, and then no selector is. -/
theorem readSelectors?_escapeChars (w : List Char) (hw : IsWord w) (fuel : Nat) (hfuel : 4 ≤ fuel) :
    readSelectors? fuel (components ('.' :: escapeChars w))
      = if opensIdent w = true then
          some (classSelector (w.map seen) (some (escapeChars (w.map seen))))
        else none := by
  by_cases hopens : opensIdent w = true
  · rw [if_pos hopens, components_of_opensIdent w hw.2 hopens, readSelectors?_class _ _ _ hfuel]
  · rw [if_neg hopens]
    by_cases hhyphen : w = ['-']
    · subst hhyphen
      rcases Nat.exists_eq_add_of_le hfuel with ⟨extra, rfl⟩
      rw [Nat.add_comm]
      rfl
    · exact readSelectors?_of_startsNumeric fuel _ (components_of_not_opensIdent w hw.2 hw.1
        hhyphen (Bool.eq_false_iff.mpr hopens))

theorem map_seen_eq_iff (w : List Char) : w.map seen = w ↔ '\x00' ∉ w := by
  have hiff : w.map seen = w ↔ ∀ c ∈ w, seen c = id c := by
    rw [← List.map_eq_map_iff, List.map_id]
  rw [hiff]
  constructor
  · intro h hmem
    exact absurd (h '\x00' hmem) (by decide)
  · intro h c hc
    have hne : c ≠ '\x00' := by
      rintro rfl
      exact h hc
    rw [seen, if_neg hne, id_eq]

/-- For the rules of names every class is one name, spelled as it is escaped. As a selector, behind
    its full stop, it is one class for a reader of stylesheets if it does not begin like a number,
    and no selector at all if it does. It is read as itself exactly if besides it has no NUL, which
    every reader replaces. -/
theorem escaped_read_back_iff (name : String) (hname : IsWord name.toList) :
    (∀ fuel, name.toList.length ≤ fuel →
      readName fuel (escape name).toList = (name.toList, (escape name).toList, [])) ∧
    startsIdent (escape name).toList = opensIdent name.toList ∧
    (opensIdent name.toList = true →
      tokens (ofClass name).toList = [.delim '.', .ident (name.toList.map seen)
        (escapeChars (name.toList.map seen))] ∧
      ruleHead .outside (components (ofClass name).toList)
        = classHead (name.toList.map seen) (some (escapeChars (name.toList.map seen)))) ∧
    (opensIdent name.toList = false →
      ruleHead .outside (components (ofClass name).toList)
        = .invalid (rawList (components (ofClass name).toList))) ∧
    ((∃ raw, ruleHead .outside (components (ofClass name).toList) = classHead name.toList raw) ↔
      opensIdent name.toList = true ∧ '\x00' ∉ name.toList) := by
  have hescape : (escape name).toList = escapeChars name.toList := String.toList_ofList
  have hselector : (ofClass name).toList = '.' :: escapeChars name.toList := by
    rw [ofClass, String.toList_append, hescape]
    rfl
  have hread := readSelectors?_escapeChars name.toList hname
    (fuelFor (components ('.' :: escapeChars name.toList)))
    (Nat.le_trans (by decide) (Nat.le_add_left 8 _))
  have hhead : ruleHead .outside (components ('.' :: escapeChars name.toList))
      = if opensIdent name.toList = true then
          classHead (name.toList.map seen) (some (escapeChars (name.toList.map seen)))
        else .invalid (rawList (components ('.' :: escapeChars name.toList))) := by
    rw [ruleHead, if_neg (by decide), hread]
    by_cases hopens : opensIdent name.toList = true
    · rw [if_pos hopens, if_pos hopens, classHead]
    · rw [if_neg hopens, if_neg hopens]
  rw [hescape, hselector]
  refine ⟨readName_escapeChars name.toList hname.2, startsIdent_escapeChars name.toList hname.2,
    fun hopens => ⟨tokens_of_opensIdent name.toList hname.2 hopens, ?_⟩, fun hopens => ?_, ?_⟩
  · rw [hhead, if_pos hopens]
  · rw [hhead, if_neg (by rw [hopens]; decide)]
  · rw [hhead]
    by_cases hopens : opensIdent name.toList = true
    · rw [if_pos hopens, ← map_seen_eq_iff]
      constructor
      · rintro ⟨raw, h⟩
        have hclass := congrArg class? h
        rw [class?_classHead, class?_classHead] at hclass
        exact ⟨hopens, Option.some.inj hclass⟩
      · intro h
        rw [h.2]
        exact ⟨_, rfl⟩
    · rw [if_neg hopens]
      constructor
      · rintro ⟨raw, h⟩
        cases h
      · intro h
        exact absurd h.1 hopens

/-- A class with a variant, an arbitrary value and a fraction is read from its selector. -/
theorem escaped_read_back_iff_arbitraryValue :
    ofClass "md:w-[calc(50%-.5rem)]" = ".md\\:w-\\[calc\\(50\\%-\\.5rem\\)\\]" ∧
      ∃ raw, ruleHead .outside (components (ofClass "md:w-[calc(50%-.5rem)]").toList)
        = classHead "md:w-[calc(50%-.5rem)]".toList raw :=
  ⟨by decide +kernel,
    (escaped_read_back_iff "md:w-[calc(50%-.5rem)]" (by decide +kernel)).2.2.2.2.mpr
      ⟨by decide +kernel, by decide +kernel⟩⟩

/-- A class that begins with a digit has a selector that is none: the reader sees a number with a
    unit. A hyphen in front of the digit, or alone, does the same. -/
theorem escaped_not_read_back :
    IsWord "2xl:flex".toList ∧ ofClass "2xl:flex" = ".2xl\\:flex" ∧
      startsIdent (escape "2xl:flex").toList = false ∧
      tokens (ofClass "2xl:flex").toList
        = [.dimension ".2".toList "xl:flex".toList "xl\\:flex".toList] ∧
      (∀ c raw, ruleHead .outside (components (ofClass "2xl:flex").toList) ≠ classHead c raw) ∧
      (∀ c raw, ruleHead .outside (components (ofClass "-1").toList) ≠ classHead c raw) ∧
      ∀ c raw, ruleHead .outside (components (ofClass "-").toList) ≠ classHead c raw := by
  have hnone : ∀ text : List Char,
      readSelectors? (fuelFor (components text)) (components text) = none →
      ∀ c raw, ruleHead .outside (components text) ≠ classHead c raw := by
    intro text h c raw
    rw [ruleHead, if_neg (by decide), h]
    intro heq
    cases heq
  refine ⟨by decide +kernel, by decide +kernel, by decide +kernel, by decide +kernel,
    hnone _ (by decide +kernel), hnone _ (by decide +kernel), hnone _ (by decide +kernel)⟩

end Css

end ClassVeil
