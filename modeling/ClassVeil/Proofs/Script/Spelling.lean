import ClassVeil.Proofs.Renaming.Asked
import ClassVeil.Proofs.Script.Commuting

/-!
# Templates and texts in quotes

A text in quotes is renamed by what it stands for, and a template by how it is spelled. Without
backslashes the two come to the same: they may differ in how their lines are broken, which is not
seen in the words, nor in the blanks at the two ends. With a backslash they never do. The backslash
is part of some word of the spelling, so it becomes part of a class; and the words of the spelling
are not those of the text, because an escape takes more characters that are no blanks than it stands
for.

That last argument is about numbers of characters (`Text.ink`), since nothing else can be said of
all escapes at once. An escape may stand for any character, for a blank or for none, and so join two
words or cut one in two.

## Main definitions

* `HasEscape`: The first backslash of a text has a character behind it.
* `Spells`: The piece of a template without expressions, and the code units it stands for.
* `RenamedAlike`: A template and the texts in quotes with some value are renamed alike.

## Theorems

* `escape_cases`: What an escape stands for.
* `ink_escapedUnits`, `ink_joinUnits`: A spelling has all the characters that it stands for.
* `ink_lt_of_hasEscape`: It has more than these if there is an escape in it.
* `words_unifyBreaks`, `renameFragment_unifyBreaks`: How lines are broken is not seen.
* `words_eq_iff`: The words of a spelling are those of the text exactly if there is no backslash.
* `renamedAlike_of_not_mem`: Without a backslash, a template is renamed like a text in quotes.
* `template_renamed_by_spelling`: All of this for a template in a class position.
* `template_spelled_lineBreak`: A template with an escape that stands for a line break.
-/

namespace ClassVeil

namespace Script

/-! ### What an escape stands for -/

/-- What stands behind the number of an escape is the end of what stood there. Both spellings of the
    number, with braces and with four digits, take a part of the text from its front. -/
theorem isSuffix_of_unicodeEscape? (text rest : List Char) (n : Nat)
    (h : unicodeEscape? text = some (n, rest)) : rest <:+ text := by
  unfold unicodeEscape? at h
  split at h
  · rename_i text
    simp only [] at h
    split at h
    · rename_i value brace behind hvalue hdrop
      split at h
      · rw [Option.some.injEq, Prod.mk.injEq] at h
        have hbehind : brace :: rest <:+ text := by
          rw [← h.2, ← hdrop]
          exact List.drop_suffix _ text
        exact ((List.suffix_cons brace rest).trans hbehind).trans (List.suffix_cons _ text)
      · cases h
    · cases h
  · rename_i a b c d behind _
    rcases Option.map_eq_some_iff.mp h with ⟨value, -, hpair⟩
    cases hpair
    exact List.suffix_append [a, b, c, d] rest
  · cases h

/-- No blank is a letter for a control character. -/
theorem controlOf?_of_isBlank (c : Char) (hc : Text.isBlank c = true) : controlOf? c = none := by
  unfold controlOf?
  split
  all_goals first | rfl | (exfalso; revert hc; decide)

theorem isDigit_of_isOctal (c : Char) (h : isOctal c = true) : c.isDigit = true := by
  rw [isOctal, Bool.and_eq_true, decide_eq_true_eq, decide_eq_true_eq] at h
  rw [Char.isDigit, Bool.and_eq_true, decide_eq_true_eq, decide_eq_true_eq]
  exact ⟨h.1, Char.le_trans h.2 (by decide : '7' ≤ '9')⟩

/-- What an escape in a template stands for: one code unit or none, and not for more than a blank if
    the character behind the backslash is a blank. What follows the escape is the end of what
    follows that character. The cases are the clauses of the reader. -/
theorem escape_cases (fuel : Nat) (c : Char) (text : List Char) (units : List Nat)
    (h : escapedUnits false (fuel + 1) ('\\' :: c :: text) = some units) :
    ∃ here rest more, escapedUnits false fuel rest = some more ∧ units = here ++ more ∧
      rest <:+ text ∧ Text.ink (here.map Char.ofNat) ≤ Text.ink [c] := by
  unfold escapedUnits at h
  split at h
  · cases h
  · rename_i hnil _
    cases hnil
  · -- A code point.
    rename_i _ _ hfuel htext
    cases hfuel
    cases htext
    split at h
    · rename_i n rest hescape
      split at h
      · rcases Option.map_eq_some_iff.mp h with ⟨more, hmore, rfl⟩
        exact ⟨[n], rest, more, hmore, rfl, isSuffix_of_unicodeEscape? text rest n hescape,
          Text.ink_singleton_le _⟩
      · cases h
    · cases h
  · -- Two digits.
    rename_i _ a b rest hfuel htext
    cases hfuel
    cases htext
    split at h
    · rename_i n hdigits
      rcases Option.map_eq_some_iff.mp h with ⟨more, hmore, rfl⟩
      exact ⟨[n], rest, more, hmore, rfl, List.suffix_append [a, b] rest, Text.ink_singleton_le _⟩
    · cases h
  · -- A line break of two characters, which is left out.
    rename_i _ rest hfuel htext
    cases hfuel
    cases htext
    exact ⟨[], rest, units, h, rfl, List.suffix_cons _ rest, Nat.zero_le _⟩
  · -- A single character.
    rename_i hfuel htext
    cases hfuel
    cases htext
    have hkept : text <:+ text := List.suffix_rfl
    split at h
    · exact ⟨[], text, units, h, rfl, hkept, Nat.zero_le _⟩
    split at h
    · rename_i hzero
      rcases Option.map_eq_some_iff.mp h with ⟨more, hmore, rfl⟩
      rw [Bool.and_eq_true, decide_eq_true_eq] at hzero
      rw [hzero.1]
      exact ⟨[0], text, more, hmore, rfl, hkept, Text.ink_singleton_le _⟩
    split at h
    · cases h
    rename_i hdigit
    split at h
    · -- An octal digit is a digit, and these have been excluded.
      rename_i hoctal
      refine absurd ?_ hdigit
      rw [isDigit_of_isOctal c hoctal]
      exact Bool.or_true _
    · rcases Option.map_eq_some_iff.mp h with ⟨more, hmore, rfl⟩
      refine ⟨[_], text, more, hmore, rfl, hkept, ?_⟩
      by_cases hc : Text.isBlank c = true
      · rw [controlOf?_of_isBlank c hc, Option.getD_none, List.map_singleton, Char.ofNat_toNat]
      · rw [Text.ink_singleton_of_not_isBlank c (Bool.eq_false_iff.mpr hc)]
        exact Text.ink_singleton_le _
  · rename_i hplain _ htext
    cases htext
    exact absurd rfl (hplain c text rfl)

/-- An escape stands for less than it takes, if what follows it stands for no more. -/
theorem ink_escape_lt (c : Char) (text rest : List Char) (here more : List Nat)
    (hrest : rest <:+ text) (hhere : Text.ink (here.map Char.ofNat) ≤ Text.ink [c])
    (hmore : Text.ink (more.map Char.ofNat) ≤ Text.ink rest) :
    Text.ink ((here ++ more).map Char.ofNat) < Text.ink ('\\' :: c :: text) := by
  have hslash : Text.ink ['\\'] = 1 := Text.ink_singleton_of_not_isBlank '\\' (by decide)
  have hend := Text.ink_le_of_sublist rest text hrest.sublist
  rw [List.map_append, Text.ink_append, Text.ink_cons, Text.ink_cons c, hslash]
  omega

/-- A character that begins no escape stands for as much as it takes. -/
theorem ink_toNat_cons (c : Char) (more : List Nat) :
    Text.ink ((c.toNat :: more).map Char.ofNat)
      = Text.ink [c] + Text.ink (more.map Char.ofNat) := by
  rw [List.map_cons, Char.ofNat_toNat, Text.ink_cons]

/-- A spelling stands for no more than it has. The induction is on the fuel, since an escape takes
    several characters. -/
theorem ink_escapedUnits (fuel : Nat) (text : List Char) (units : List Nat)
    (h : escapedUnits false fuel text = some units) :
    Text.ink (units.map Char.ofNat) ≤ Text.ink text := by
  induction fuel generalizing text units with
  | zero => cases h
  | succ fuel ih =>
      -- One character stands for itself, and the rest has one unit of fuel less.
      have hplain : ∀ c rest, c ≠ '\\' ∨ rest = [] →
          escapedUnits false (fuel + 1) (c :: rest) = some units →
          Text.ink (units.map Char.ofNat) ≤ Text.ink (c :: rest) := by
        intro c rest hc h
        rw [escapedUnits_cons false fuel c rest hc] at h
        rcases Option.map_eq_some_iff.mp h with ⟨more, hmore, rfl⟩
        rw [ink_toNat_cons, Text.ink_cons c rest]
        exact Nat.add_le_add_left (ih rest more hmore) _
      rcases text with _ | ⟨c, _ | ⟨d, text⟩⟩
      · cases h
        exact Nat.zero_le _
      · exact hplain c [] (Or.inr rfl) h
      · by_cases hc : c = '\\'
        · rw [hc] at h ⊢
          rcases escape_cases fuel d text units h with ⟨here, rest, more, hmore, rfl, hrest, hhere⟩
          exact Nat.le_of_lt (ink_escape_lt d text rest here more hrest hhere (ih rest more hmore))
        · exact hplain c (d :: text) (Or.inl hc) h

/-- The first backslash of a text has a character behind it. -/
inductive HasEscape : List Char → Prop where
  | here (c : Char) (text : List Char) : HasEscape ('\\' :: c :: text)
  | later (c : Char) (text : List Char) (hc : c ≠ '\\') (h : HasEscape text) : HasEscape (c :: text)

/-- With an escape in it, a spelling has more than it stands for. The first escape decides it: the
    characters before it stand for themselves, and what is behind it stands for no more than it has.
    -/
theorem ink_lt_of_hasEscape (text : List Char) (h : HasEscape text) (fuel : Nat) (units : List Nat)
    (hunits : escapedUnits false fuel text = some units) :
    Text.ink (units.map Char.ofNat) < Text.ink text := by
  induction h generalizing fuel units with
  | here c text =>
      cases fuel with
      | zero => cases hunits
      | succ fuel =>
          rcases escape_cases fuel c text units hunits with
            ⟨here, rest, more, hmore, rfl, hrest, hhere⟩
          exact ink_escape_lt c text rest here more hrest hhere
            (ink_escapedUnits fuel rest more hmore)
  | later c text hc h ih =>
      cases fuel with
      | zero => cases hunits
      | succ fuel =>
          rw [escapedUnits_cons false fuel c text (Or.inl hc)] at hunits
          rcases Option.map_eq_some_iff.mp hunits with ⟨more, hmore, rfl⟩
          rw [ink_toNat_cons, Text.ink_cons c text]
          exact Nat.add_lt_add_left (ih fuel more hmore) _

/-- A surrogate is no character, and is not taken for a blank. -/
theorem isBlank_ofNat_of_surrogate (n : Nat) (hlow : 0xD800 ≤ n) (hhigh : n < 0xE000) :
    Text.isBlank (Char.ofNat n) = false := by
  have hinvalid : ¬ n.isValidChar := by
    unfold Nat.isValidChar
    omega
  rw [Char.ofNat, dif_neg hinvalid]
  decide

/-- Joining surrogates adds nothing. Two of them become one character, and everything else becomes
    the character that it is. -/
theorem ink_joinUnits (units : List Nat) (text : List Char) (h : joinUnits units = some text) :
    Text.ink text ≤ Text.ink (units.map Char.ofNat) := by
  fun_induction joinUnits units generalizing text with
  | case1 =>
      cases h
      exact Nat.le_refl 0
  -- Two surrogates are two characters that are no blanks, and become one.
  | case2 n hhigh m rest hlow ih =>
      rcases Option.map_eq_some_iff.mp h with ⟨more, hmore, rfl⟩
      rw [Bool.and_eq_true, decide_eq_true_eq, decide_eq_true_eq] at hhigh
      have hn := Text.ink_singleton_of_not_isBlank _
        (isBlank_ofNat_of_surrogate n hhigh.1 (by omega))
      have hjoined := Text.ink_singleton_le (Char.ofNat (0x10000 + (n - 0xD800) * 1024
        + (m - 0xDC00)))
      have hle := ih more hmore
      rw [List.map_cons, List.map_cons, Text.ink_cons, Text.ink_cons (Char.ofNat n),
        Text.ink_cons (Char.ofNat m)]
      omega
  | case3 n hhigh m rest hlow => cases h
  | case4 n hhigh => cases h
  | case5 n rest hhigh hlow => cases h
  | case6 n rest hhigh hlow ih =>
      rcases Option.map_eq_some_iff.mp h with ⟨more, hmore, rfl⟩
      rw [List.map_cons, Text.ink_cons, Text.ink_cons (Char.ofNat n) (rest.map Char.ofNat)]
      exact Nat.add_le_add_left (ih more hmore) _

/-! ### How lines are broken -/

/-- The characters of a text with its line breaks unified are line feeds and characters of the text,
    but no carriage returns. -/
theorem mem_unifyBreaks (c : Char) (text : List Char) (h : c ∈ unifyBreaks text) :
    c = '\n' ∨ c ∈ text ∧ c ≠ '\r' := by
  fun_induction unifyBreaks text with
  | case1 => cases h
  | case2 rest ih =>
      rcases List.mem_cons.mp h with rfl | h
      · exact Or.inl rfl
      · exact (ih h).imp_right fun h =>
          ⟨List.mem_cons_of_mem _ (List.mem_cons_of_mem _ h.1), h.2⟩
  | case3 rest hrest ih =>
      rcases List.mem_cons.mp h with rfl | h
      · exact Or.inl rfl
      · exact (ih h).imp_right fun h => ⟨List.mem_cons_of_mem _ h.1, h.2⟩
  | case4 d rest hpair hd ih =>
      rcases List.mem_cons.mp h with rfl | h
      · exact Or.inr ⟨List.mem_cons_self, hd⟩
      · exact (ih h).imp_right fun h => ⟨List.mem_cons_of_mem _ h.1, h.2⟩

/-- A spelling without backslashes stands for itself but for the way its lines are broken. -/
theorem isPlain_unifyBreaks (text : List Char) (h : '\\' ∉ text) : IsPlain (unifyBreaks text) := by
  constructor
  · intro hmem
    rcases mem_unifyBreaks '\\' text hmem with heq | hmem
    · cases heq
    · exact h hmem.1
  · intro hmem
    rcases mem_unifyBreaks '\r' text hmem with heq | hmem
    · cases heq
    · exact hmem.2 rfl

theorem cooked_of_not_mem (piece : List Char) (h : '\\' ∉ piece) :
    cooked piece = unifyBreaks piece :=
  cooked_of_joinUnits piece _ _ (unescape_of_not_mem false _ (isPlain_unifyBreaks piece h).1)
    (joinUnits_toNat _)

theorem unifyBreaks_ne_nil (text : List Char) (h : text ≠ []) : unifyBreaks text ≠ [] := by
  fun_cases unifyBreaks text with
  | case1 => exact absurd rfl h
  | _ => exact List.cons_ne_nil _ _

/-- What stands behind a backslash may be another character then, but there is one. A backslash
    itself is never changed, so the first one is still the first. -/
theorem hasEscape_unifyBreaks (text : List Char) (h : HasEscape text) :
    HasEscape (unifyBreaks text) := by
  fun_induction unifyBreaks text with
  | case1 => exact h
  -- A line break has no backslash in it, so the escape is behind it.
  | case2 rest ih =>
      cases h with
      | later _ _ hr h =>
          cases h with
          | later _ _ hn h => exact .later '\n' _ hn (ih h)
  | case3 rest hrest ih =>
      cases h with
      | later _ _ hr h => exact .later '\n' _ (by decide) (ih h)
  | case4 c rest hpair hc ih =>
      cases h with
      | here d text =>
          have hbehind := unifyBreaks_ne_nil (d :: text) (List.cons_ne_nil d text)
          rcases List.exists_cons_of_ne_nil hbehind with ⟨e, more, heq⟩
          rw [heq]
          exact .here e more
      | later _ _ hslash h => exact .later c _ hslash (ih h)

/-- A line feed is a blank, and so is a carriage return. -/
theorem head?_unifyBreaks (text : List Char) :
    (unifyBreaks text).head?.map Text.isBlank = text.head?.map Text.isBlank := by
  fun_cases unifyBreaks text <;> rfl

/-- Nor is the end of a text another one for the words: where the last character was a blank the
    last one is a blank still. -/
theorem getLast?_unifyBreaks (text : List Char) :
    (unifyBreaks text).getLast?.map Text.isBlank = text.getLast?.map Text.isBlank := by
  have hgetD : ∀ (o p : Option Char) (c d : Char), o.map Text.isBlank = p.map Text.isBlank →
      Text.isBlank c = Text.isBlank d → Text.isBlank (o.getD c) = Text.isBlank (p.getD d) := by
    intro o p c d hop hcd
    rw [← Option.getD_map Text.isBlank, ← Option.getD_map Text.isBlank, hop, hcd]
  -- The last character is that of the rest, or the line break itself if there is no rest, and both
  -- kinds of line breaks are blanks.
  fun_induction unifyBreaks text with
  | case1 => rfl
  | case2 rest ih =>
      rw [List.getLast?_cons, List.getLast?_cons_cons, List.getLast?_cons]
      exact congrArg some (hgetD _ _ _ _ ih rfl)
  | case3 rest hrest ih =>
      rw [List.getLast?_cons, List.getLast?_cons]
      exact congrArg some (hgetD _ _ _ _ ih (by decide))
  | case4 c rest hpair hc ih =>
      rw [List.getLast?_cons, List.getLast?_cons]
      exact congrArg some (hgetD _ _ _ _ ih rfl)

/-- How lines are broken is not seen in the words. All that is changed is blanks, and where there
    was a blank there still is one. -/
theorem words_unifyBreaks (text : List Char) :
    Text.words (unifyBreaks text) = Text.words text := by
  have hfeed : Text.isBlank '\n' = true := by decide
  have hreturn : Text.isBlank '\r' = true := by decide
  fun_induction unifyBreaks text with
  | case1 => rfl
  | case2 rest ih =>
      rw [Text.words_cons_of_isBlank '\n' _ hfeed, Text.words_cons_of_isBlank '\r' _ hreturn,
        Text.words_cons_of_isBlank '\n' _ hfeed, ih]
  | case3 rest hrest ih =>
      rw [Text.words_cons_of_isBlank '\n' _ hfeed, Text.words_cons_of_isBlank '\r' _ hreturn, ih]
  | case4 c rest hpair hc ih =>
      exact Text.words_cons_congr c _ _ ih (Text.endsWord_congr _ _ (head?_unifyBreaks rest))

/-! ### Pieces of templates -/

/-- What the scanner takes for a piece of a template ends in no backslash that would mean something
    with what stands behind it. -/
theorem hasEscape_of_pieceBody (text piece : List Char) (last : Bool)
    (h : pieceBody text = some (piece, last)) (hmem : '\\' ∈ piece) : HasEscape piece := by
  fun_induction pieceBody text generalizing piece with
  | case1 => cases h
  | case2 c rest ih =>
      rcases Option.map_eq_some_iff.mp h with ⟨⟨body, more⟩, -, hpair⟩
      cases hpair
      exact .here c body
  | case3 =>
      cases h
      cases hmem
  | case4 =>
      cases h
      cases hmem
  | case5 c rest hslash hquote hdollar ih =>
      rcases Option.map_eq_some_iff.mp h with ⟨⟨body, more⟩, hbody, hpair⟩
      cases hpair
      -- A backslash at the very end would leave nothing that could end the piece.
      have hc : c ≠ '\\' := by
        rintro rfl
        cases rest with
        | nil => cases hbody
        | cons d rest => exact hslash d rest rfl rfl
      exact .later c body hc (ih body hbody ((List.mem_cons.mp hmem).resolve_left (Ne.symm hc)))

/-- The piece of a template without expressions as the scanner reads it, and the code units that it
    stands for. -/
structure Spells (piece : List Char) (units : List Nat) : Prop where
  scanned : ∃ text, pieceBody text = some (piece, true)
  read : unescape false (unifyBreaks piece) = some units

/-- The words of a spelling are those of what it stands for exactly if there is no backslash in
    it. A template that stands for surrogates without a partner has no text, and no words. -/
theorem words_eq_iff (piece : List Char) (units : List Nat) (h : Spells piece units) :
    Text.words piece = Text.words ((joinUnits units).getD []) ↔ '\\' ∉ piece := by
  constructor
  · intro hwords hmem
    -- The same words have equally many characters, and the spelling has more than its text.
    rcases h.scanned with ⟨text, hscanned⟩
    have hescape := hasEscape_of_pieceBody text piece true hscanned hmem
    have hless := ink_lt_of_hasEscape _ (hasEscape_unifyBreaks piece hescape) _ units h.read
    rw [Text.ink_congr _ piece (words_unifyBreaks piece), Text.ink_congr _ _ hwords] at hless
    cases htext : joinUnits units with
    | none =>
        -- Without a text there are no words, and nothing is less than that.
        rw [htext] at hless
        exact absurd hless (Nat.not_lt_zero _)
    | some text =>
        rw [htext] at hless
        exact absurd (ink_joinUnits units text htext) (Nat.not_le_of_lt hless)
  · intro hmem
    have hread := h.read
    rw [unescape_of_not_mem false _ (isPlain_unifyBreaks piece hmem).1, Option.some.injEq] at hread
    rw [← hread, joinUnits_toNat, Option.getD_some, words_unifyBreaks]

/-! ### Renaming -/

variable (naming : Naming) (attributes : List String)

/-- How lines are broken is not seen in a renamed text, which is made of the words and of the blanks
    at the two ends. -/
theorem renameFragment_unifyBreaks (text : List Char) (r : Renamer) :
    Renamer.renameFragment naming (unifyBreaks text) r = Renamer.renameFragment naming text r := by
  have hedge : ∀ a b : Option Char, a.map Text.isBlank = b.map Text.isBlank → edge a = edge b := by
    intro a b hab
    have hany : ∀ o : Option Char, o.any Text.isBlank = (o.map Text.isBlank).any id := by
      intro o
      rw [Option.any_map]
      rfl
    rw [edge, edge, hany a, hany b, hab]
  rw [Renamer.renameFragment, Renamer.renameFragment, Renamer.renameClasses, Renamer.renameClasses,
    words_unifyBreaks, hedge _ _ (head?_unifyBreaks text), hedge _ _ (getLast?_unifyBreaks text)]

/-- A template and all texts in quotes with some value are renamed alike: the words of the value are
    asked for, from the first to the last, and what is left stands for what the renamer answers to
    the value. -/
structure RenamedAlike (span : Span) (piece value : List Char) (r : Renamer) : Prop where
  template_asks : (visitClass (Renaming.byIds naming attributes) (.template span [piece] []) r).2
    = (Renamer.mapClasses naming (Text.words value) r).2
  literal_asks : ∀ inner raw,
    (visitClass (Renaming.byIds naming attributes) (.str inner (some value) raw) r).2
      = (Renamer.mapClasses naming (Text.words value) r).2
  template_value : ∀ {α : Type} (m : Meaning α) (place : Address),
    (eval m place (visitClass (Renaming.byIds naming attributes)
        (.template span [piece] []) r).1).value
      = .text ((Renamer.renameFragment naming value r).1.getD value)
  literal_value : ∀ {α : Type} (m : Meaning α) (place : Address) inner raw,
    (eval m place (visitClass (Renaming.byIds naming attributes)
        (.str inner (some value) raw) r).1).value
      = .text ((Renamer.renameFragment naming value r).1.getD value)

/-- A renamed template stands for what the renamer answers to its spelling. -/
theorem eval_renamed_template (span : Span) (piece : List Char) (r : Renamer) (hr : r.Agrees)
    (hids : IdsArePlain (Renamer.renameFragment naming piece r).2.memory.map) {α : Type}
    (m : Meaning α) (place : Address) :
    (eval m place (visitClass (Renaming.byIds naming attributes)
        (.template span [piece] []) r).1).value
      = .text ((Renamer.renameFragment naming piece r).1.getD (cooked piece)) := by
  have hfragment : (Renaming.byIds naming attributes).fragment piece r
      = Renamer.renameFragment naming piece r := rfl
  rw [visitClass_template, hfragment, eval]
  cases hanswer : (Renamer.renameFragment naming piece r).1 with
  | none => rfl
  | some text =>
      have hplain := isPlain_of_renameFragment naming _ hids piece text r hr
        (List.prefix_refl _) hanswer
      rw [Option.getD_some, Option.getD_some, cooked_of_isPlain text hplain]

/-- Without a backslash, a template is renamed like a text in quotes. It stands for its spelling but
    for the way its lines are broken, and neither the words nor the blanks at the ends show that. -/
theorem renamedAlike_of_not_mem (span : Span) (piece : List Char) (h : '\\' ∉ piece) (r : Renamer)
    (hr : r.Agrees) (hids : IdsArePlain (Renamer.renameFragment naming piece r).2.memory.map) :
    RenamedAlike naming attributes span piece (unifyBreaks piece) r := by
  have hanswer := renameFragment_unifyBreaks naming piece r
  have hasks : ∀ text, (Renamer.renameFragment naming text r).2
      = (Renamer.mapClasses naming (Text.words text) r).2 :=
    fun text => (Renamer.replace_cases naming true text r).1
  have hliteral := fun inner raw =>
    visitClass_literal (Renaming.byIds naming attributes) r inner (unifyBreaks piece) raw
  refine ⟨?_, fun inner raw => ?_, fun m place => ?_, fun m place inner raw => ?_⟩
  · rw [visitClass_template, words_unifyBreaks]
    exact hasks piece
  · rcases hliteral inner raw with ⟨raw', hvisit⟩
    rw [hvisit]
    exact hasks _
  · rw [eval_renamed_template naming attributes span piece r hr hids m place, hanswer,
      cooked_of_not_mem piece h]
  · rcases hliteral inner raw with ⟨raw', hvisit⟩
    rw [hvisit]
    rfl

/-- The words of a site have been met when all sites have been renamed. -/
theorem met_of_mem_sites (list : List Site) (site : Site) (hsite : site ∈ list) (r : Renamer) :
    ∀ word ∈ Text.words site.text, String.ofList word
      ∈ (rewriteSites (Renaming.byIds naming attributes) list r).2.seen.names := by
  intro word hword
  rw [(asks_rewriteSites naming attributes list).asked]
  exact (Renamer.mapClasses_of_seen naming _ _ r (List.prefix_refl _)).2 word
    (List.mem_flatMap.mpr ⟨site, hsite, hword⟩)

/-- A class position that is looked at is looked at as one. -/
theorem roleAt_of_looked (root : Node) (a : Address) (n : Node)
    (hposition : ClassPosition attributes root a) (hlooked : ¬ InTypes attributes root a)
    (hat : root.at? a = some n) : roleAt attributes .plain root a = .list := by
  refine (roleAt_of_classPosition attributes root a hposition).resolve_right fun hhidden => ?_
  have hstands := stands_roleAt attributes root a n hat
  rw [hhidden] at hstands
  exact hlooked hstands

/-- A template without expressions in a class position is renamed by its spelling. A script is
    renamed by a file's renamer over a store that was opened and has done anything before, and one
    of its templates is looked at. The words of the spelling are asked for, and what is left stands
    for the answer. If there is no backslash in the template, it has a text and is renamed like any
    text in quotes with this text. If there is one, the words that are asked for are not those of
    its text, and one of them has a backslash in it and becomes a class. -/
theorem template_renamed_by_spelling (current root : String) (config : Config)
    (stream : Nat → String) (opened : Store)
    (hopen : Store.openAt current root config stream = .ok opened) (hdraws : config.Draws stream)
    (memory : Memory) (hmemory : Memory.Reached opened.naming memory) (attributes : List String)
    (items : List Node) (a : Address) (span : Span) (piece : List Char) (units : List Nat)
    (hposition : ClassPosition attributes (.group items) a)
    (hlooked : ¬ InTypes attributes (.group items) a)
    (hat : (Node.group items).at? a = some (.template span [piece] []))
    (hspells : Spells piece units) :
    ∃ before after : List Site,
      sites attributes (.group items) .plain = before ++ ⟨a, true, piece⟩ :: after ∧
      let plan := Renaming.byIds opened.naming attributes
      let r := (rewriteSites plan before ⟨memory, []⟩).2
      let visited := visitAll plan items ⟨memory, []⟩
      (Node.group visited.1).at? a = some (visitClass plan (.template span [piece] []) r).1 ∧
      (visitClass plan (.template span [piece] []) r).2
        = (Renamer.mapClasses opened.naming (Text.words piece) r).2 ∧
      (∀ {α : Type} (m : Meaning α) (place : Address),
        (eval m place (visitClass plan (.template span [piece] []) r).1).value
          = .text ((Renamer.renameFragment opened.naming piece r).1.getD (cooked piece))) ∧
      (Text.words piece = Text.words ((joinUnits units).getD []) ↔ '\\' ∉ piece) ∧
      ('\\' ∉ piece → ∃ value, joinUnits units = some value ∧ cooked piece = value ∧
        RenamedAlike opened.naming attributes span piece value r) ∧
      ('\\' ∈ piece → ∃ word ∈ Text.words piece, '\\' ∈ word ∧
        String.ofList word ∈ visited.2.seen.names) := by
  have hsite := (mem_sites_iff_leaf attributes (.group items) ⟨a, true, piece⟩).mpr
    ⟨.template a span piece hposition hat, hlooked⟩
  rcases List.append_of_mem hsite with ⟨before, after, hsites⟩
  refine ⟨before, after, hsites, ?_⟩
  intro plan r visited
  rcases visitAll_byIds opened.naming attributes items ⟨memory, []⟩ with ⟨hitems, hstate⟩
  -- Whatever comes before the template, the ids that are there behind it are those of the store.
  have hagrees : Renamer.Agrees ⟨memory, []⟩ := fun _ _ hseen => by cases hseen
  have hbefore := follows_rewriteSites opened.naming attributes before ⟨memory, []⟩ hagrees
  have hhere := Renamer.follows_replace opened.naming true piece r hbefore.agrees
  have hids := idsArePlain_of_openAt current root config stream opened hopen hdraws _
    (hhere.reached (hbefore.reached hmemory))
  -- The parts in the order of the statement: where the template is then, what was asked for, what
  -- is left, when the words are those of the text, and the two cases.
  refine ⟨?_, ?_, eval_renamed_template opened.naming attributes span piece r hbefore.agrees hids,
    words_eq_iff piece units hspells, fun hmem => ?_, fun hmem => ?_⟩
  · have htemplate : ((Node.group items).replaceTexts (rewriteSites plan
          (sites attributes (.group items) .plain) ⟨memory, []⟩).1.texts).at? a
        = some (visitAs plan (roleAt attributes .plain (.group items) a)
            (.template span [piece] []) r).1 :=
      at?_visited_site plan (.group items) _ ⟨memory, []⟩ before after ⟨a, true, piece⟩ hsites hat
    rw [hitems, htemplate, roleAt_of_looked attributes _ a _ hposition hlooked hat, visitAs]
  · rw [visitClass_template]
    exact (Renamer.replace_cases opened.naming true piece r).1
  · have hread := hspells.read
    rw [unescape_of_not_mem false _ (isPlain_unifyBreaks piece hmem).1, Option.some.injEq] at hread
    exact ⟨unifyBreaks piece, by rw [← hread, joinUnits_toNat], cooked_of_not_mem piece hmem,
      renamedAlike_of_not_mem opened.naming attributes span piece hmem r hbefore.agrees hids⟩
  · rcases Text.exists_mem_words piece '\\' (by decide) hmem with ⟨word, hword, hslash⟩
    refine ⟨word, hword, hslash, ?_⟩
    rw [hstate]
    exact met_of_mem_sites opened.naming attributes _ _ hsite ⟨memory, []⟩ word hword

/-- A template with two classes in two lines. -/
def twoLines : Node := .template ⟨16, 26⟩ ["p-4\r\nm-2".toList] []

/-- A template with two classes in two lines, broken by two characters. Without a backslash it is
    renamed like the text in quotes with a single line feed. -/
theorem template_renamed_by_spelling_twoLines :
    (∃ r, (Node.group (visitAll (Renaming.byIds twoIdsStore.naming ["className"])
          (assigned twoLines) ⟨{}, []⟩).1).at? [0, 0, 1, 2, 0, 0, 0]
        = some (visitClass (Renaming.byIds twoIdsStore.naming ["className"]) twoLines r).1 ∧
      RenamedAlike twoIdsStore.naming ["className"] ⟨16, 26⟩ "p-4\r\nm-2".toList
        "p-4\nm-2".toList r) ∧
    (visitAll (Renaming.byIds twoIdsStore.naming ["className"]) (assigned twoLines)
      ⟨{}, []⟩).2.seen = [("p-4", "abcdefgh"), ("m-2", "ijklmnop")] := by
  have hlooked : ¬ InTypes ["className"] (.group (assigned twoLines)) [0, 0, 1, 2, 0, 0, 0] := by
    intro htypes
    have hhidden := roleAt_of_inTypes ["className"] _ _ htypes
    exact absurd hhidden (by decide)
  have hspells : Spells "p-4\r\nm-2".toList ("p-4\nm-2".toList.map Char.toNat) :=
    ⟨⟨"p-4\r\nm-2\x60/>".toList, by decide⟩, by decide⟩
  rcases template_renamed_by_spelling "/" "." { mapPath := "m.json" } twoIds twoIdsStore rfl
    isId_twoIds {} Memory.Reached.empty ["className"] (assigned twoLines) [0, 0, 1, 2, 0, 0, 0]
    ⟨16, 26⟩ "p-4\r\nm-2".toList _ (.value [0, 0, 1, 2, 0] _ _ "className" _ rfl (by decide))
    hlooked rfl hspells with ⟨before, after, -, hvisited, -, -, -, halike, -⟩
  rcases halike (by decide) with ⟨value, hvalue, -, halike⟩
  rw [joinUnits_toNat, Option.some.injEq] at hvalue
  rw [← hvalue] at halike
  exact ⟨⟨_, hvisited, halike⟩, by decide +kernel⟩

/-- The template `p-4\nm-2`, spelled with an escape. -/
def lineBreak : Node := .template ⟨16, 26⟩ ["p-4\\nm-2".toList] []

/-- A template with an escape that stands for a line break has two classes by its text, and is
    renamed as one class that has the escape in it. -/
theorem template_spelled_lineBreak :
    ∃ a units, ClassPosition ["className"] (.group (assigned lineBreak)) a ∧
      (Node.group (assigned lineBreak)).at? a = some lineBreak ∧
      Spells "p-4\\nm-2".toList units ∧ joinUnits units = some "p-4\nm-2".toList ∧
      cooked "p-4\\nm-2".toList = "p-4\nm-2".toList ∧
      (visitAll (Renaming.byIds twoIdsStore.naming ["className"])
        (assigned (.str ⟨16, 26⟩ (some "p-4\nm-2".toList) none)) ⟨{}, []⟩).2.seen.names
          = ["p-4", "m-2"] ∧
      (visitAll (Renaming.byIds twoIdsStore.naming ["className"]) (assigned lineBreak)
        ⟨{}, []⟩).2.seen.names = ["p-4\\nm-2"] := by
  have hspells : Spells "p-4\\nm-2".toList ("p-4\nm-2".toList.map Char.toNat) :=
    ⟨⟨"p-4\\nm-2\x60/>".toList, by decide⟩, by decide⟩
  refine ⟨[0, 0, 1, 2, 0] ++ [0, 0], _,
    .value [0, 0, 1, 2, 0] _ _ "className" _ rfl (by decide), rfl, hspells, joinUnits_toNat _,
    cooked_of_joinUnits _ _ _ hspells.read (joinUnits_toNat _), ?_, ?_⟩
  · decide +kernel
  · decide +kernel

end Script

end ClassVeil
