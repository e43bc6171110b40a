import ClassVeil.Proofs.Text.Pieces
import ClassVeil.Script.BlankLine
import Mathlib.Data.List.Infix
import Mathlib.Data.List.TakeWhile

/-!
# The lines of a restored text

A printed text is taken apart into lines, each line that is nothing but a mark becomes empty, and
the lines are put together again. A line with a mark and nothing else adds nothing to what is left
when the empty lines are dropped, wherever it stands; a line with a mark and something else stays as
it is.

Texts are compared by their lines that are not empty, because restoring a mark leaves an empty line
where the text without marks has none. Blank lines are the one thing that marking is meant to
change, so a comparison that sees them would say nothing.

That a line with more than a mark on it keeps the mark is shown by what blanks do not touch: cutting
blanks off keeps every other character, so a line that is a mark when its blanks are cut off has no
other character on it (`filter_trim`).

## Main definitions

* `markText`: The word of a mark.
* `filledLines`: The lines of a text that are not empty.
* `restoredLines`: The same for a text with the marks taken out.
* `Divided`: A text taken apart behind every line feed.

## Theorems

* `divided_splitLines`: The lines of a text are the text taken apart.
* `filledLines_restoreBlankLines`: The restored text has the restored lines.
* `restoredLines_append_mark`: A mark on a line of its own does not count.
* `restoredLines_of_clean`: Where there is no mark, nothing is taken out.
* `markText_infix_of_stuck`: A mark behind something else on its line stays.
-/

namespace ClassVeil

namespace Text

/-- A word without a separator lies on one side of it. The word, and what is before and behind it,
    is divided in two ways, and the separator would be in the word if neither side had all of it. -/
theorem infix_append_cons (w x y : List Char) (sep : Char) (hw : sep ∉ w)
    (h : w <:+: x ++ sep :: y) : w <:+: x ∨ w <:+: y := by
  rcases h with ⟨before, after, heq⟩
  rw [List.append_assoc] at heq
  rcases List.append_eq_append_iff.mp heq with ⟨t, hx, ht⟩ | ⟨t, hbefore, ht⟩
  · -- The word begins in front of the separator, so it ends there too.
    rcases List.append_eq_append_iff.mp ht with ⟨u, hu, -⟩ | ⟨u, hu, hcons⟩
    · exact Or.inl ⟨before, u, by rw [hx, hu, List.append_assoc]⟩
    · cases u with
      | nil => exact Or.inl ⟨before, [], by rw [hx, hu]; simp only [List.append_nil]⟩
      | cons c u =>
          rw [List.cons_append, List.cons.injEq] at hcons
          rw [hu, hcons.1] at hw
          exact absurd (List.mem_append_right t List.mem_cons_self) hw
  · cases t with
    | nil =>
        cases w with
        | nil => exact Or.inr List.nil_infix
        | cons c w =>
            rw [List.nil_append, List.cons_append, List.cons.injEq] at ht
            exact absurd (ht.1 ▸ List.mem_cons_self) hw
    | cons c t =>
        rw [List.cons_append, List.cons.injEq] at ht
        exact Or.inr ⟨t, after, by rw [List.append_assoc, ht.2]⟩

/-- Cutting the blanks off leaves a part of the text. -/
theorem trim_isInfix (s : List Char) : trim s <:+: s := by
  have hstart : s.dropWhile isBlank <:+ s := List.dropWhile_suffix isBlank
  have hend : (s.dropWhile isBlank).reverse.dropWhile isBlank
      <:+ (s.dropWhile isBlank).reverse := List.dropWhile_suffix isBlank
  have hprefix : trim s <+: s.dropWhile isBlank := by
    rw [trim, ← List.reverse_suffix, List.reverse_reverse]
    exact hend
  exact hprefix.isInfix.trans hstart.isInfix

/-- Cutting the blanks off leaves all that is not blank. It is cut at both ends, so the same fact
    about one end is used twice. -/
theorem filter_trim (s : List Char) :
    (trim s).filter (fun c => !isBlank c) = s.filter (fun c => !isBlank c) := by
  have hdrop : ∀ t : List Char,
      (t.dropWhile isBlank).filter (fun c => !isBlank c) = t.filter (fun c => !isBlank c) := by
    intro t
    induction t with
    | nil => rfl
    | cons c t ih =>
        rw [List.dropWhile_cons]
        split
        · next hc =>
            rw [ih, List.filter_cons_of_neg]
            rw [hc]
            decide
        · rfl
  rw [trim, List.filter_reverse, hdrop, List.filter_reverse, List.reverse_reverse, hdrop]

/-- Cutting the blanks off does not see blanks at the end. -/
theorem trim_append_blanks (s blanks : List Char) (h : ∀ c ∈ blanks, isBlank c = true) :
    trim (s ++ blanks) = trim s := by
  have hblanks : blanks.dropWhile isBlank = [] := List.dropWhile_eq_nil_iff.mpr h
  rw [trim, trim, List.dropWhile_append]
  split
  · next hnil => rw [hblanks, List.isEmpty_iff.mp hnil]
  · rw [List.reverse_append, List.dropWhile_append_of_pos fun c hc => h c (List.mem_reverse.mp hc)]

end Text

namespace Script

/-- The word of a mark. -/
def markText : List Char := "__RANDOMIZER_EMPTY_LINE__".toList

theorem markText_infix_blankMark : markText <:+: blankMark := ⟨"// ".toList, [], by decide⟩

theorem newline_not_mem_markText : '\n' ∉ markText := by decide

/-- The lines of a text that are not empty, without what ends them. -/
def filledLines (text : List Char) : List (List Char) :=
  ((splitLines text).map chomp).filter fun line => !line.isEmpty

/-- The lines of a text that are not empty when the marks are taken out. -/
def restoredLines (text : List Char) : List (List Char) :=
  ((splitLines text).map fun line => restoreLine (chomp line)).filter fun line => !line.isEmpty

/-- A text taken apart behind every line feed: only the last line can be without one. -/
inductive Divided : List (List Char) → Prop where
  | nil : Divided []
  | last (body : List Char) (hfeed : '\n' ∉ body) (hne : body ≠ []) : Divided [body]
  | cons (body : List Char) (rest : List (List Char)) (hfeed : '\n' ∉ body)
      (hrest : Divided rest) : Divided ((body ++ ['\n']) :: rest)

/-! ### Lines -/

theorem splitLines_ne_nil (text : List Char) (h : text ≠ []) : splitLines text ≠ [] := by
  cases text with
  | nil => exact absurd rfl h
  | cons c rest =>
      rw [splitLines]
      split
      · exact List.cons_ne_nil _ _
      · cases splitLines rest with
        | nil => exact List.cons_ne_nil _ _
        | cons line lines => exact List.cons_ne_nil _ _

/-- Behind a line feed, or at the very start, the lines begin anew. Otherwise the last line of the
    first text and the first one of the second are one line. -/
theorem splitLines_append (x y : List Char) (h : x = [] ∨ x.getLast? = some '\n') :
    splitLines (x ++ y) = splitLines x ++ splitLines y := by
  induction x with
  | nil => rfl
  | cons c rest ih =>
      have hlast : (c :: rest).getLast? = some '\n' := h.resolve_left (List.cons_ne_nil c rest)
      rw [List.cons_append, splitLines, splitLines]
      -- Where the first text ends with its first character, a new line begins; otherwise the first
      -- line goes on as it did.
      cases rest with
      | nil =>
          rw [List.getLast?_singleton, Option.some.injEq] at hlast
          rw [if_pos hlast, if_pos hlast, splitLines, List.nil_append, List.singleton_append]
      | cons d more =>
          rw [List.getLast?_cons_cons] at hlast
          rw [ih (Or.inr hlast)]
          split
          · rfl
          · cases hlines : splitLines (d :: more) with
            | nil => exact absurd hlines (splitLines_ne_nil _ (List.cons_ne_nil d more))
            | cons line lines => rfl

/-- A text without a line feed, but perhaps one at its end, is one line. -/
theorem splitLines_line (line : List Char) (hline : '\n' ∉ line) :
    splitLines (line ++ ['\n']) = [line ++ ['\n']] := by
  induction line with
  | nil => rfl
  | cons c rest ih =>
      rw [List.mem_cons, not_or] at hline
      rw [List.cons_append, splitLines, if_neg (Ne.symm hline.1), ih hline.2]

theorem splitLines_cons_line (line rest : List Char) (hfeed : '\n' ∉ line) :
    splitLines (line ++ '\n' :: rest) = (line ++ ['\n']) :: splitLines rest := by
  have hsplit := splitLines_append (line ++ ['\n']) rest (Or.inr List.getLast?_concat)
  rw [splitLines_line line hfeed, List.append_assoc, List.singleton_append] at hsplit
  exact hsplit

theorem splitLines_last (line : List Char) (hfeed : '\n' ∉ line) (hne : line ≠ []) :
    splitLines line = [line] := by
  induction line with
  | nil => exact absurd rfl hne
  | cons c rest ih =>
      rw [List.mem_cons, not_or] at hfeed
      rw [splitLines, if_neg (Ne.symm hfeed.1)]
      cases rest with
      | nil => rw [splitLines]
      | cons d rest => rw [ih hfeed.2 (List.cons_ne_nil d rest)]

/-- The lines make up the text. -/
theorem flatten_splitLines (text : List Char) : (splitLines text).flatten = text := by
  induction text with
  | nil => rfl
  | cons c rest ih =>
      rw [splitLines]
      split
      · rw [List.flatten_cons, ih, List.singleton_append]
      · cases hlines : splitLines rest with
        | nil => rw [← ih, hlines]; rfl
        | cons line lines => rw [← ih, hlines]; rfl

/-- The lines of a text are the text taken apart: each of them ends with its only line feed, but for
    the last one, which may be without. -/
theorem divided_splitLines (text : List Char) : Divided (splitLines text) := by
  induction text with
  | nil => exact .nil
  | cons c rest ih =>
      rw [splitLines]
      split
      · next hc =>
          rw [hc]
          exact .cons [] _ List.not_mem_nil ih
      · next hc =>
          have hlonger : ∀ body, '\n' ∉ body → '\n' ∉ c :: body := fun body hbody hmem =>
            (List.mem_cons.mp hmem).elim (fun heq => hc heq.symm) hbody
          -- The character begins the first line of the rest, which ends as before.
          cases hlines : splitLines rest with
          | nil => exact .last [c] (hlonger [] List.not_mem_nil) (List.cons_ne_nil c [])
          | cons line lines =>
              rw [hlines] at ih
              cases ih with
              | last _ hfeed _ => exact .last _ (hlonger line hfeed) (List.cons_ne_nil c line)
              | cons body _ hfeed hrest => exact .cons (c :: body) lines (hlonger body hfeed) hrest

theorem Divided.body_of_mem {lines : List (List Char)} (h : Divided lines) (line : List Char)
    (hline : line ∈ lines) : ∃ body, '\n' ∉ body ∧ (line = body ∨ line = body ++ ['\n']) := by
  induction h with
  | nil => cases hline
  | last body hfeed _ => exact ⟨body, hfeed, Or.inl (List.mem_singleton.mp hline)⟩
  | cons body rest hfeed _ ih =>
      rcases List.mem_cons.mp hline with rfl | hline
      · exact ⟨body, hfeed, Or.inr rfl⟩
      · exact ih hline

/-- A line has a line feed at its end or none at all. -/
theorem body_of_mem_splitLines (text line : List Char) (h : line ∈ splitLines text) :
    ∃ body, '\n' ∉ body ∧ (line = body ∨ line = body ++ ['\n']) :=
  (divided_splitLines text).body_of_mem line h

/-- What ends a line is a carriage return and a line feed, or a line feed, or nothing. The cases are
    those of the function, read from the end of the line. -/
theorem chomp_cases (line : List Char) :
    line = chomp line ++ ['\r', '\n'] ∨ line = chomp line ++ ['\n'] ∨
      (line = chomp line ∧ line.getLast? ≠ some '\n') := by
  have hreverse := List.reverse_reverse line
  rw [chomp]
  split
  · next rest heq =>
      rw [heq] at hreverse
      exact Or.inl (by rw [← hreverse]; simp only [List.reverse_cons, List.append_assoc,
        List.singleton_append])
  · next rest _ heq =>
      rw [heq] at hreverse
      exact Or.inr (Or.inl (by rw [← hreverse, List.reverse_cons]))
  · next hcarriage hfeed =>
      refine Or.inr (Or.inr ⟨rfl, fun hlast => ?_⟩)
      rcases List.getLast?_eq_some_iff.mp hlast with ⟨body, rfl⟩
      rw [List.reverse_append] at hfeed
      exact hfeed body.reverse rfl

/-- The lines without what ends them have no line feed. A line has one at most, and it is the last
    character. -/
theorem newline_not_mem_chomp (text line : List Char) (h : line ∈ splitLines text) :
    '\n' ∉ chomp line := by
  intro hmem
  rcases body_of_mem_splitLines text line h with ⟨body, hbody, hline⟩
  have hlast : line = body ++ ['\n'] → chomp line <+: body := by
    intro hfeed
    rcases chomp_cases line with heq | heq | ⟨-, hnone⟩
    · have hboth := hfeed.symm.trans heq
      rw [show ['\r', '\n'] = ['\r'] ++ ['\n'] from rfl, ← List.append_assoc] at hboth
      exact ⟨['\r'], (List.append_cancel_right hboth).symm⟩
    · exact ⟨[], by rw [List.append_nil, List.append_cancel_right (hfeed.symm.trans heq)]⟩
    · rw [hfeed, List.getLast?_concat] at hnone
      exact absurd rfl hnone
  -- Either there was no line feed in the line, or the only one was at the end.
  rcases hline with rfl | hfeed
  · rcases chomp_cases line with heq | heq | ⟨heq, -⟩
    · exact hbody (heq ▸ List.mem_append_left _ hmem)
    · exact hbody (heq ▸ List.mem_append_left _ hmem)
    · exact hbody (heq ▸ hmem)
  · exact hbody ((hlast hfeed).subset hmem)

theorem chomp_of_not_mem (line : List Char) (hfeed : '\n' ∉ line) : chomp line = line := by
  rcases chomp_cases line with heq | heq | ⟨heq, -⟩
  · exact absurd (heq ▸ List.mem_append_right _ (by decide)) hfeed
  · exact absurd (heq ▸ List.mem_append_right _ (by decide)) hfeed
  · exact heq.symm

/-- A line that does not end with a carriage return loses its line feed only. -/
theorem chomp_line (body : List Char) (h : body.getLast? ≠ some '\r') :
    chomp (body ++ ['\n']) = body := by
  rcases chomp_cases (body ++ ['\n']) with heq | heq | ⟨-, hnone⟩
  · rw [show ['\r', '\n'] = ['\r'] ++ ['\n'] from rfl, ← List.append_assoc] at heq
    rw [List.append_cancel_right heq, List.getLast?_concat] at h
    exact absurd rfl h
  · exact (List.append_cancel_right heq).symm
  · rw [List.getLast?_concat] at hnone
    exact absurd rfl hnone

/-! ### Putting lines together -/

theorem joinLines_cons (line : List Char) (rest : List (List Char)) (h : rest ≠ []) :
    joinLines (line :: rest) = line ++ '\n' :: joinLines rest := by
  rw [joinLines]
  exact h

/-- Of two lines or more there is at least a line feed. -/
theorem eq_of_joinLines_eq_nil (lines : List (List Char)) (h : joinLines lines = [])
    (hne : lines ≠ []) : lines = [[]] := by
  cases lines with
  | nil => exact absurd rfl hne
  | cons line rest =>
      cases rest with
      | nil => exact congrArg (fun l => [l]) h
      | cons next rest =>
          rw [joinLines_cons line _ (List.cons_ne_nil next rest)] at h
          exact absurd h (List.append_ne_nil_of_right_ne_nil _ (List.cons_ne_nil _ _))

/-- Lines that are put together come apart as they were. -/
theorem pieces_joinLines (lines : List (List Char)) (hne : lines ≠ [])
    (h : ∀ line ∈ lines, '\n' ∉ line) : Text.pieces '\n' (joinLines lines) = lines := by
  induction lines with
  | nil => exact absurd rfl hne
  | cons line rest ih =>
      have hline := h line List.mem_cons_self
      cases rest with
      | nil => rw [joinLines, Text.pieces_of_sep_not_mem '\n' line hline]
      | cons next rest =>
          have hrest := ih (List.cons_ne_nil next rest)
            fun l hl => h l (List.mem_cons_of_mem line hl)
          rw [joinLines_cons line _ (List.cons_ne_nil next rest), Text.pieces_append_sep,
            Text.pieces_of_sep_not_mem '\n' line hline, hrest, List.singleton_append]

/-- A line is a part of what it is put into. -/
theorem infix_joinLines (lines : List (List Char)) (line : List Char) (h : line ∈ lines) :
    line <:+: joinLines lines := by
  induction lines with
  | nil => cases h
  | cons first rest ih =>
      cases rest with
      | nil => rw [List.mem_singleton.mp h, joinLines]
      | cons next rest =>
          rw [joinLines_cons first _ (List.cons_ne_nil next rest)]
          rcases List.mem_cons.mp h with rfl | h
          · exact (List.prefix_append _ _).isInfix
          · exact (ih h).trans ((List.suffix_cons _ _).trans (List.suffix_append _ _)).isInfix

/-- A word without a line feed that is in a text is in one of its lines. -/
theorem mem_infix_joinLines (lines : List (List Char)) (w : List Char) (hne : w ≠ [])
    (hw : '\n' ∉ w) (h : w <:+: joinLines lines) : ∃ line ∈ lines, w <:+: line := by
  induction lines with
  | nil => exact absurd (List.infix_nil.mp h) hne
  | cons first rest ih =>
      cases rest with
      | nil => exact ⟨first, List.mem_cons_self, h⟩
      | cons next rest =>
          rw [joinLines_cons first _ (List.cons_ne_nil next rest)] at h
          rcases Text.infix_append_cons w _ _ '\n' hw h with h | h
          · exact ⟨first, List.mem_cons_self, h⟩
          · rcases ih h with ⟨line, hline, hpart⟩
            exact ⟨line, List.mem_cons_of_mem first hline, hpart⟩

/-! ### Restoring -/

/-- The restored text has the restored lines. Restored lines have no line feed, so putting them
    together and taking them apart at line feeds gives the same lines. -/
theorem filledLines_restoreBlankLines (text : List Char) :
    (Text.pieces '\n' (restoreBlankLines text)).filter (fun line => !line.isEmpty)
      = restoredLines text := by
  cases hlines : splitLines text with
  | nil =>
      rw [restoreBlankLines, restoredLines, hlines]
      rfl
  | cons first rest =>
      rw [restoreBlankLines, pieces_joinLines, restoredLines]
      · rw [hlines, List.map_cons]
        exact List.cons_ne_nil _ _
      · intro line hline
        rcases List.mem_map.mp hline with ⟨l, hl, rfl⟩
        rw [restoreLine]
        split
        · exact List.not_mem_nil
        · exact newline_not_mem_chomp text l hl

/-- The mark is in the restored text if and only if it is in one of the restored lines. -/
theorem markText_infix_restoreBlankLines (text : List Char) :
    markText <:+: restoreBlankLines text ↔ ∃ line ∈ restoredLines text, markText <:+: line := by
  constructor
  · intro h
    rcases mem_infix_joinLines _ markText (by decide) newline_not_mem_markText h with
      ⟨line, hline, hpart⟩
    refine ⟨line, List.mem_filter.mpr ⟨hline, ?_⟩, hpart⟩
    cases line with
    | nil => exact absurd (List.infix_nil.mp hpart) (by decide)
    | cons c line => rfl
  · rintro ⟨line, hline, hpart⟩
    exact hpart.trans (infix_joinLines _ line (List.mem_filter.mp hline).1)

theorem restoredLines_append (x y : List Char) (h : x = [] ∨ x.getLast? = some '\n') :
    restoredLines (x ++ y) = restoredLines x ++ restoredLines y := by
  rw [restoredLines, splitLines_append x y h, List.map_append, List.filter_append]
  rfl

theorem restoredLines_line (line : List Char) (hline : '\n' ∉ line)
    (hlast : line.getLast? ≠ some '\r') :
    restoredLines (line ++ ['\n']) = [restoreLine line].filter fun l => !l.isEmpty := by
  rw [restoredLines, splitLines_line line hline, List.map_singleton, chomp_line line hlast]

/-- A mark behind blanks, and nothing else. -/
theorem trim_mark (blanks : List Char) (h : ∀ c ∈ blanks, Text.isBlank c = true) :
    Text.trim (blanks ++ blankMark) = blankMark := by
  have hdrop : (blanks ++ blankMark).dropWhile Text.isBlank = blankMark := by
    rw [List.dropWhile_append_of_pos h]
    decide
  rw [Text.trim, hdrop]
  decide

theorem getLast?_append_mark (line : List Char) :
    (line ++ blankMark).getLast? ≠ some '\r' := by
  rw [List.getLast?_append_of_ne_nil _ (by decide)]
  decide

/-- A mark on a line of its own does not count. The text in front of it ends a line, so the lines
    before, the mark, and the lines behind are restored by themselves. -/
theorem restoredLines_append_mark (x blanks y : List Char)
    (hx : x = [] ∨ x.getLast? = some '\n') (hblanks : ∀ c ∈ blanks, c = ' ') :
    restoredLines (x ++ (blanks ++ blankMark ++ ['\n']) ++ y) = restoredLines (x ++ y) := by
  have hline : '\n' ∉ blanks ++ blankMark := by
    rw [List.mem_append, not_or]
    exact ⟨fun h => absurd (hblanks _ h) (by decide), by decide⟩
  have hnothing : restoredLines (blanks ++ blankMark ++ ['\n']) = [] := by
    rw [restoredLines_line _ hline (getLast?_append_mark blanks), restoreLine,
      if_pos (trim_mark blanks fun c hc => by rw [hblanks c hc]; decide)]
    rfl
  rw [List.append_assoc, restoredLines_append x _ hx,
    restoredLines_append _ y (Or.inr List.getLast?_concat), hnothing, List.nil_append,
    restoredLines_append x y hx]

/-- Where there is no mark, nothing is taken out, and no mark is left. A line that is restored to
    nothing has the word of a mark in it. -/
theorem restoredLines_of_clean (text : List Char) (h : ¬ markText <:+: text) :
    restoredLines text = filledLines text ∧ ∀ line ∈ restoredLines text, ¬ markText <:+: line := by
  -- A mark in what is left of a line would be a mark in the text.
  have hclean : ∀ line ∈ splitLines text, ¬ markText <:+: chomp line := by
    intro line hline hpart
    have hchomp : chomp line <+: line := by
      rcases chomp_cases line with heq | heq | ⟨heq, -⟩
      · exact ⟨_, heq.symm⟩
      · exact ⟨_, heq.symm⟩
      · exact ⟨[], by rw [List.append_nil, ← heq]⟩
    have htext : line <:+: text := by
      have hflatten := List.infix_of_mem_flatten hline
      rw [flatten_splitLines] at hflatten
      exact hflatten
    exact h (hpart.trans (hchomp.isInfix.trans htext))
  have hrestore : ∀ line ∈ splitLines text, restoreLine (chomp line) = chomp line := by
    intro line hline
    rw [restoreLine, if_neg]
    intro htrim
    exact hclean line hline (markText_infix_blankMark.trans (htrim ▸ Text.trim_isInfix _))
  have heq : restoredLines text = filledLines text := by
    rw [restoredLines, filledLines, List.map_congr_left hrestore]
  refine ⟨heq, fun line hline => ?_⟩
  rw [heq] at hline
  rcases List.mem_map.mp (List.mem_filter.mp hline).1 with ⟨l, hl, rfl⟩
  exact hclean l hl

/-- A mark behind something else on its line stays. The line is not taken for a mark when blank
    lines are restored, so it is printed as it is, mark and all. -/
theorem markText_infix_of_stuck (x line y : List Char) (hx : x = [] ∨ x.getLast? = some '\n')
    (hline : '\n' ∉ line) (hstuck : ∃ c ∈ line, Text.isBlank c = false) :
    markText <:+: restoreBlankLines (x ++ (line ++ blankMark ++ ['\n']) ++ y) := by
  have hwhole : '\n' ∉ line ++ blankMark := by
    rw [List.mem_append, not_or]
    exact ⟨hline, by decide⟩
  -- Cutting blanks off leaves the character that stands in front of the mark.
  have htrim : Text.trim (line ++ blankMark) ≠ blankMark := by
    intro htrim
    have hfilter := Text.filter_trim (line ++ blankMark)
    rw [htrim, List.filter_append, List.self_eq_append_left, List.filter_eq_nil_iff] at hfilter
    rcases hstuck with ⟨c, hc, hblank⟩
    exact hfilter c hc (by rw [hblank]; rfl)
  have hkept : restoredLines (line ++ blankMark ++ ['\n']) = [line ++ blankMark] := by
    rw [restoredLines_line _ hwhole (getLast?_append_mark line), restoreLine, if_neg htrim,
      List.filter_cons_of_pos, List.filter_nil]
    rcases hstuck with ⟨c, hc, -⟩
    cases line with
    | nil => cases hc
    | cons d line => rfl
  rw [markText_infix_restoreBlankLines, List.append_assoc, restoredLines_append x _ hx,
    restoredLines_append _ y (Or.inr List.getLast?_concat), hkept]
  exact ⟨line ++ blankMark, List.mem_append_right _ (List.mem_append_left _ List.mem_cons_self),
    markText_infix_blankMark.trans (List.suffix_append line blankMark).isInfix⟩

end Script

end ClassVeil
