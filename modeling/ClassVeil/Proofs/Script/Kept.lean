import ClassVeil.Proofs.Script.LineEnd
import ClassVeil.Proofs.Script.Marking
import ClassVeil.Proofs.Text.Utf8

/-!
# What the marking of blank lines keeps

Marking replaces some blank lines of a source and is meant to leave all other lines alone: they stay
where they are, with the text they have. A blank line is due if it starts outside of the items and
comments and something follows it, and the source with these lines replaced is what the marked text
has to be. It is, but for the way its lines are broken and a last line break, as long as no line
that is kept ends with more than one line break. Such a line keeps its place and loses all line
breaks but one, also inside of a template, where they belong to a text.

Here a line is a piece of the source up to and with a line feed, so lines are counted as the marking
counts them, and a lone carriage return is part of a line. Whether a line is due is decided for each
line by what is before it and what is behind it. `replaceDue` therefore says for all lines at once
what becomes of them, without the recursion that the marking makes, and the first part of the work
is that the two agree (`markLines_placeLines`).

The second part compares texts. Marking cuts the ends of the lines off and puts the lines together
again with line feeds, so each line is compared with what it was, up to the way a line break is
written (`sameText_replaceDue_iff`). What is restored then follows line by line too.

## Main definitions

* `Due`, `DueAt`: The lines that are to be marked.
* `replaceDue`: The lines of a source with those that are due replaced.

## Theorems

* `markLines_placeLines`, `hasMarks_iff`: The lines that are marked are those that are due.
* `restoreBlankLines_joinLines`: Lines that are put together are restored one by one.
* `markBlankLines_keeps_lines`: What marking keeps, and what restoring then gives.
* `markBlankLines_loses_break`: A line break that is lost in a template.
-/

namespace ClassVeil

namespace Script

/-! ### The lines that are due -/

/-- A blank line outside of all spans that something follows; `start` is the place of its first
    byte, and `later` are the lines behind it. -/
def Due (spans : List Span) (start : Nat) (line : List Char) (later : List (List Char)) : Prop :=
  line.all Text.isBlank = true ∧ (∀ s ∈ spans, ¬ (s.lo ≤ start ∧ start < s.hi)) ∧
    ∃ next ∈ later, next.all Text.isBlank = false

instance (spans : List Span) (start : Nat) (line : List Char) (later : List (List Char)) :
    Decidable (Due spans start line later) :=
  inferInstanceAs (Decidable (_ ∧ _ ∧ _))

/-- A line that is due among lines of which the first one begins at `pos`. -/
def DueAt (spans : List Span) (pos : Nat) (lines : List (List Char)) (i : Nat)
    (line : List Char) : Prop :=
  Due spans (pos + Utf8.size (lines.take i).flatten) line (lines.drop (i + 1))

instance (spans : List Span) (pos : Nat) (lines : List (List Char)) (i : Nat) (line : List Char) :
    Decidable (DueAt spans pos lines i line) :=
  inferInstanceAs (Decidable (Due _ _ _ _))

/-- Lines with `mark` in place of those that are due, and the others as `keep` leaves them. -/
def replaceDue (spans : List Span) (mark : List Char) (keep : List Char → List Char) (pos : Nat)
    (lines : List (List Char)) : List (List Char) :=
  lines.mapIdx fun i line => if DueAt spans pos lines i line then mark else keep line

variable (spans : List Span) (mark : List Char) (keep : List Char → List Char)

theorem dueAt_zero (pos : Nat) (line : List Char) (rest : List (List Char)) :
    DueAt spans pos (line :: rest) 0 line ↔ Due spans pos line rest := Iff.rfl

theorem dueAt_succ (pos : Nat) (first : List Char) (rest : List (List Char)) (i : Nat)
    (line : List Char) :
    DueAt spans pos (first :: rest) (i + 1) line
      ↔ DueAt spans (pos + Utf8.size first) rest i line := by
  rw [DueAt, DueAt, List.take_succ_cons, List.flatten_cons, Utf8.size_append, List.drop_succ_cons,
    Nat.add_assoc]

theorem replaceDue_cons (pos : Nat) (line : List Char) (rest : List (List Char)) :
    replaceDue spans mark keep pos (line :: rest)
      = (if Due spans pos line rest then mark else keep line)
        :: replaceDue spans mark keep (pos + Utf8.size line) rest := by
  rw [replaceDue, List.mapIdx_cons, replaceDue]
  simp only [dueAt_zero, dueAt_succ]

theorem replaceDue_eq_nil_iff (pos : Nat) (lines : List (List Char)) :
    replaceDue spans mark keep pos lines = [] ↔ lines = [] := List.mapIdx_eq_nil_iff

theorem map_replaceDue (f : List Char → List Char) (pos : Nat) (lines : List (List Char)) :
    (replaceDue spans mark keep pos lines).map f
      = replaceDue spans (f mark) (f ∘ keep) pos lines := by
  induction lines generalizing pos with
  | nil => rfl
  | cons line rest ih =>
      rw [replaceDue_cons, replaceDue_cons, List.map_cons, ih, apply_ite f]
      rfl

theorem replaceDue_congr (other : List Char → List Char) (pos : Nat) (lines : List (List Char))
    (h : ∀ line ∈ lines, keep line = other line) :
    replaceDue spans mark keep pos lines = replaceDue spans mark other pos lines := by
  induction lines generalizing pos with
  | nil => rfl
  | cons line rest ih =>
      rw [replaceDue_cons, replaceDue_cons, h line List.mem_cons_self,
        ih _ fun l hl => h l (List.mem_cons_of_mem line hl)]

/-- What holds of some line holds of the first one or of one behind it. -/
theorem exists_line_cons_iff (P : Nat → List Char → Prop) (first : List Char)
    (rest : List (List Char)) :
    (∃ i line, (first :: rest)[i]? = some line ∧ P i line)
      ↔ P 0 first ∨ ∃ i line, rest[i]? = some line ∧ P (i + 1) line := by
  constructor
  · rintro ⟨i, line, hline, hP⟩
    cases i with
    | zero =>
        rw [List.getElem?_cons_zero, Option.some.injEq] at hline
        exact Or.inl (hline ▸ hP)
    | succ i => exact Or.inr ⟨i, line, by rwa [List.getElem?_cons_succ] at hline, hP⟩
  · rintro (hP | ⟨i, line, hline, hP⟩)
    · exact ⟨0, first, List.getElem?_cons_zero, hP⟩
    · exact ⟨i + 1, line, by rwa [List.getElem?_cons_succ], hP⟩

theorem mem_replaceDue (pos : Nat) (lines : List (List Char)) (shown : List Char) :
    shown ∈ replaceDue spans mark keep pos lines ↔
      ∃ i line, lines[i]? = some line ∧
        shown = if DueAt spans pos lines i line then mark else keep line := by
  induction lines generalizing pos with
  | nil =>
      refine ⟨fun h => absurd h List.not_mem_nil, ?_⟩
      rintro ⟨i, line, hline, -⟩
      cases hline
  | cons first rest ih =>
      rw [replaceDue_cons, List.mem_cons, ih, exists_line_cons_iff]
      simp only [dueAt_zero, dueAt_succ]

/-! ### What is marked -/

theorem all_isBlank_placeLines (pos : Nat) (lines : List (List Char)) :
    (placeLines pos lines).all Line.isBlank = true ↔
      ¬ ∃ next ∈ lines, next.all Text.isBlank = false := by
  induction lines generalizing pos with
  | nil => exact ⟨fun _ ⟨_, hnext, _⟩ => absurd hnext List.not_mem_nil, fun _ => rfl⟩
  | cons line rest ih =>
      rw [placeLines, List.all_cons, Bool.and_eq_true, ih, Line.isBlank, all_isBlank_trimLineEnd,
        List.exists_mem_cons_iff, not_or, Bool.not_eq_false]

/-- A line is marked if and only if it is due. -/
theorem isMarked_iff_due (pos next : Nat) (line : List Char) (rest : List (List Char)) :
    (Line.isMarked spans ⟨pos, trimLineEnd line⟩ && !(placeLines next rest).all Line.isBlank) = true
      ↔ Due spans pos line rest := by
  -- The text of a line that is placed has lost its end, which is blank, so the line is blank if and
  -- only if its text is.
  rw [Bool.and_eq_true, Bool.not_eq_true', ← Bool.not_eq_true, all_isBlank_placeLines, not_not,
    Line.isMarked, Line.isBlank, Line.beginsIn, all_isBlank_trimLineEnd, Due]
  simp only [Bool.and_eq_true, Bool.not_eq_true', List.any_eq_false, decide_eq_true_eq, and_assoc]

/-- The marking replaces the lines that are due, by induction on the lines. What is left of a line
    that is kept is its text without what ends it. -/
theorem markLines_placeLines (pos : Nat) (lines : List (List Char)) :
    markLines spans (placeLines pos lines) = replaceDue spans blankMark trimLineEnd pos lines := by
  induction lines generalizing pos with
  | nil => rfl
  | cons line rest ih =>
      rw [placeLines, markLines, ih, replaceDue_cons]
      simp only [isMarked_iff_due]

/-- There is something to be marked exactly if a line is due. Without one the source is not read a
    second time. -/
theorem hasMarks_iff (pos : Nat) (lines : List (List Char)) :
    hasMarks spans (placeLines pos lines) = true
      ↔ ∃ i line, lines[i]? = some line ∧ DueAt spans pos lines i line := by
  induction lines generalizing pos with
  | nil =>
      refine ⟨fun h => absurd h Bool.false_ne_true, ?_⟩
      rintro ⟨i, line, hline, -⟩
      cases hline
  | cons first rest ih =>
      rw [placeLines, hasMarks, Bool.or_eq_true, isMarked_iff_due, ih, exists_line_cons_iff]
      simp only [dueAt_zero, dueAt_succ]

theorem markBlankLines_eq_none_iff (source : List Char) :
    markBlankLines spans source = none
      ↔ ∀ i line, (splitLines source)[i]? = some line →
        ¬ DueAt spans 0 (splitLines source) i line := by
  have hmarks := hasMarks_iff spans 0 (splitLines source)
  rw [markBlankLines, linesOf]
  split
  · next h =>
      rcases hmarks.mp h with ⟨i, line, hline, hdue⟩
      exact ⟨fun heq => (Option.some_ne_none _ heq).elim, fun hno => absurd hdue (hno i line hline)⟩
  · next h => exact ⟨fun _ i line hline hdue => h (hmarks.mpr ⟨i, line, hline, hdue⟩), fun _ => rfl⟩

theorem markBlankLines_eq_some (source marked : List Char)
    (h : markBlankLines spans source = some marked) :
    marked = joinLines (replaceDue spans blankMark trimLineEnd 0 (splitLines source)) ∧
      splitLines source ≠ [] := by
  rw [markBlankLines, linesOf] at h
  split at h
  · next hmarks =>
      rw [← markLines_placeLines]
      refine ⟨(Option.some.inj h).symm, fun hnil => ?_⟩
      rw [hnil] at hmarks
      cases hmarks
  · cases h

/-! ### The marked text -/

theorem cut_blankMark : Cut blankMark := by
  intro c h
  have hlast : blankMark.getLast? = some '_' := by decide
  rw [hlast, Option.some.injEq] at h
  rw [← h]
  decide

/-- The last line is not due, so the others are divided as they were: all lines but the last end
    with a line feed, and a mark is given one. -/
theorem divided_replaceDue (pos : Nat) (lines : List (List Char)) (h : Divided lines) :
    Divided (replaceDue spans (blankMark ++ ['\n']) id pos lines) := by
  induction h generalizing pos with
  | nil => exact .nil
  | last body hfeed hne =>
      have hlast : ¬ Due spans pos body [] := fun ⟨_, _, _, hnext, _⟩ =>
        absurd hnext List.not_mem_nil
      rw [replaceDue_cons, if_neg hlast]
      exact .last body hfeed hne
  | cons body rest hfeed hrest ih =>
      rw [replaceDue_cons]
      split
      · exact .cons blankMark _ (by decide) (ih _)
      · exact .cons body _ hfeed (ih _)

theorem newline_not_mem_trimLineEnd (lines : List (List Char)) (h : Divided lines) :
    ∀ line ∈ lines, '\n' ∉ trimLineEnd line := by
  have hpart : ∀ body, '\n' ∉ body → '\n' ∉ trimLineEnd body := by
    intro body hfeed hmem
    rcases exists_lineEnd body with ⟨ending, hbody, -⟩
    rw [hbody] at hfeed
    exact hfeed (List.mem_append_left ending hmem)
  intro line hline
  rcases h.body_of_mem line hline with ⟨body, hfeed, rfl | rfl⟩
  · exact hpart line hfeed
  · rcases exists_cut body hfeed with ⟨text, _, _, _, hbody, hcut⟩
    rw [hcut, ← hbody]
    exact hpart body hfeed

/-- The lines of a marked text: no one has a line break, at its end or elsewhere. -/
theorem replaceDue_blankMark (pos : Nat) (lines : List (List Char)) (h : Divided lines) :
    ∀ shown ∈ replaceDue spans blankMark trimLineEnd pos lines, '\n' ∉ shown ∧ Cut shown := by
  intro shown hshown
  rcases (mem_replaceDue _ _ _ _ _ _).mp hshown with ⟨i, line, hline, rfl⟩
  split
  · exact ⟨by decide, cut_blankMark⟩
  · exact ⟨newline_not_mem_trimLineEnd lines h line (List.mem_of_getElem? hline),
      cut_trimLineEnd line⟩

/-- The marked text and the lines that are shown are the same text, if no line that is kept ends
    twice. A mark ends once, so the condition is about the lines that stay, and for these it is
    needed. -/
theorem sameText_replaceDue_iff (pos : Nat) (lines : List (List Char)) (h : Divided lines)
    (hne : lines ≠ []) :
    SameText (joinLines (replaceDue spans blankMark trimLineEnd pos lines))
        (replaceDue spans (blankMark ++ ['\n']) id pos lines).flatten
      ↔ ∀ i line, lines[i]? = some line → ¬ DueAt spans pos lines i line → ¬ EndsTwice line := by
  have hmark : trimLineEnd (blankMark ++ ['\n']) = blankMark :=
    trimLineEnd_append _ _ cut_blankMark fun c hc => Or.inl (List.mem_singleton.mp hc)
  have hlines := map_replaceDue spans (blankMark ++ ['\n']) id trimLineEnd pos lines
  rw [hmark, Function.comp_id] at hlines
  rw [← hlines, sameText_joinLines_iff _ (divided_replaceDue spans pos lines h)
    ((replaceDue_eq_nil_iff _ _ _ _ _).not.mpr hne)]
  constructor
  · intro hall i line hline hkept
    refine hall line ((mem_replaceDue _ _ _ _ _ _).mpr ⟨i, line, hline, ?_⟩)
    rw [if_neg hkept, id]
  · intro hkept shown hmem
    rcases (mem_replaceDue _ _ _ _ _ _).mp hmem with ⟨i, line, hline, rfl⟩
    split
    · decide
    · next hno => exact hkept i line hline hno

/-! ### The restored text -/

theorem restoreBlankLines_cons_line (line rest : List Char) (hfeed : '\n' ∉ line)
    (hcut : Cut line) :
    restoreBlankLines (line ++ '\n' :: rest)
      = joinLines (restoreLine line :: (splitLines rest).map fun l => restoreLine (chomp l)) := by
  rw [restoreBlankLines, splitLines_cons_line line rest hfeed, List.map_cons,
    chomp_line line hcut.getLast?_ne]

/-- Lines that are put together are restored one by one, but a text that ends with a line feed is
    left without it. -/
theorem restoreBlankLines_joinLines (lines : List (List Char))
    (h : ∀ line ∈ lines, '\n' ∉ line ∧ Cut line) :
    ∃ final, (final = [] ∨ final = ['\n']) ∧
      restoreBlankLines (joinLines lines) ++ final = joinLines (lines.map restoreLine) := by
  induction lines with
  | nil => exact ⟨[], Or.inl rfl, rfl⟩
  | cons line rest ih =>
      rcases h line List.mem_cons_self with ⟨hfeed, hcut⟩
      cases rest with
      | nil =>
          refine ⟨[], Or.inl rfl, ?_⟩
          rw [joinLines, List.map_singleton, joinLines, List.append_nil, restoreBlankLines]
          by_cases hne : line = []
          · rw [hne]
            decide
          · rw [splitLines_last line hfeed hne, List.map_singleton, joinLines,
              chomp_of_not_mem line hfeed]
      | cons next rest =>
          rw [joinLines_cons line _ (List.cons_ne_nil next rest), List.map_cons,
            joinLines_cons _ _ (List.map_eq_nil_iff.not.mpr (List.cons_ne_nil next rest)),
            restoreBlankLines_cons_line line _ hfeed hcut]
          by_cases hempty : joinLines (next :: rest) = []
          · -- There is one line more, and it is empty: the line feed in front of it ends the text.
            refine ⟨['\n'], Or.inr rfl, ?_⟩
            rw [eq_of_joinLines_eq_nil _ hempty (List.cons_ne_nil next rest)]
            rfl
          -- There is something behind the line feed, so the rest is a text with lines of its own.
          · rcases ih fun l hl => h l (List.mem_cons_of_mem line hl) with ⟨final, hfinal, heq⟩
            refine ⟨final, hfinal, ?_⟩
            rw [joinLines_cons _ _ (List.map_eq_nil_iff.not.mpr (splitLines_ne_nil _ hempty)),
              ← heq, List.append_assoc, List.cons_append]
            rfl

/-- Where no line of the source is a mark, restoring empties the lines that are marked and leaves
    the others alone. -/
theorem map_restoreLine_replaceDue (pos : Nat) (lines : List (List Char))
    (h : ∀ line ∈ lines, Text.trim line ≠ blankMark) :
    (replaceDue spans blankMark trimLineEnd pos lines).map restoreLine
      = replaceDue spans [] trimLineEnd pos lines := by
  have hmark : restoreLine blankMark = [] := by decide
  rw [map_replaceDue, hmark]
  refine replaceDue_congr _ _ _ _ _ _ fun line hline => ?_
  rw [Function.comp_apply, restoreLine, if_neg]
  rw [trim_trimLineEnd]
  exact h line hline

/-! ### Sources -/

/-- Marking replaces the lines that are due and keeps all others in their places, without what ends
    them. The marked text is the source with these lines replaced, but for the way lines are broken
    and a last line break, if and only if no line that is kept ends twice. That is so for every
    source without lone carriage returns, and its lines are then the same however line breaks are
    read. Restoring empties the lines that are marked. There is no marked text if and only if no
    line is due. -/
theorem markBlankLines_keeps_lines (source : List Char)
    (h : ∀ line ∈ splitLines source, Text.trim line ≠ blankMark) :
    (markBlankLines spans source = none ↔ ∀ i line, (splitLines source)[i]? = some line →
      ¬ DueAt spans 0 (splitLines source) i line) ∧
    ∀ marked, markBlankLines spans source = some marked →
      Text.pieces '\n' marked = replaceDue spans blankMark trimLineEnd 0 (splitLines source) ∧
      (SameText marked (replaceDue spans (blankMark ++ ['\n']) id 0 (splitLines source)).flatten
        ↔ ∀ i line, (splitLines source)[i]? = some line →
          ¬ DueAt spans 0 (splitLines source) i line → ¬ EndsTwice line) ∧
      (Paired source →
        SameText marked (replaceDue spans (blankMark ++ ['\n']) id 0 (splitLines source)).flatten ∧
        splitLines (unifyBreaks source) = (splitLines source).map unifyBreaks) ∧
      ∃ final, (final = [] ∨ final = ['\n']) ∧
        restoreBlankLines marked ++ final
          = joinLines (replaceDue spans [] trimLineEnd 0 (splitLines source)) := by
  have hdivided := divided_splitLines source
  refine ⟨markBlankLines_eq_none_iff spans source, fun marked hmarked => ?_⟩
  -- A marked text is the lines with the marks among them, put together; the four parts are about
  -- these lines.
  rcases markBlankLines_eq_some spans source marked hmarked with ⟨rfl, hne⟩
  have hsame := sameText_replaceDue_iff spans 0 _ hdivided hne
  have hclean := replaceDue_blankMark spans 0 _ hdivided
  refine ⟨?_, hsame, fun hpaired => ⟨?_, splitLines_unifyBreaks source hpaired⟩, ?_⟩
  · exact pieces_joinLines _ ((replaceDue_eq_nil_iff _ _ _ _ _).not.mpr hne)
      fun line hline => (hclean line hline).1
  · exact hsame.mpr fun i line hline _ =>
      hpaired.not_endsTwice line (List.mem_of_getElem? hline)
  · rw [← map_restoreLine_replaceDue spans 0 _ h]
    exact restoreBlankLines_joinLines _ hclean

/-- A template with a blank line in it and a blank line behind it, with both characters at the end
    of each line. -/
def bothBreaks : List Char := "f=`\r\n\r\n`;\r\n\r\ng".toList

theorem markBlankLines_keeps_lines_bothBreaks :
    (∀ line ∈ splitLines bothBreaks, Text.trim line ≠ blankMark) ∧
      ∃ marked, markBlankLines [⟨0, 9⟩, ⟨13, 14⟩] bothBreaks = some marked ∧
        Text.pieces '\n' marked = ["f=`".toList, [], "`;".toList, blankMark, "g".toList] ∧
        SameText marked ("f=`\r\n\r\n`;\r\n".toList ++ blankMark ++ "\ng".toList) ∧
        ∃ final, (final = [] ∨ final = ['\n']) ∧
          restoreBlankLines marked ++ final = "f=`\n\n`;\n\ng".toList := by
  have hclean : ∀ line ∈ splitLines bothBreaks, Text.trim line ≠ blankMark := by decide
  have hsome : ∃ marked, markBlankLines [⟨0, 9⟩, ⟨13, 14⟩] bothBreaks = some marked :=
    Option.isSome_iff_exists.mp (by decide)
  rcases hsome with ⟨marked, hmarked⟩
  rcases (markBlankLines_keeps_lines [⟨0, 9⟩, ⟨13, 14⟩] bothBreaks hclean).2 marked hmarked with
    ⟨hpieces, -, hpaired, hrestored⟩
  exact ⟨hclean, marked, hmarked, hpieces, (hpaired (by decide)).1, hrestored⟩

/-- A template with three line breaks in a row, the last of them of two characters, and a blank line
    behind it. -/
def manyBreaks : List Char := "x=`a\r\r\r\nb`;\n\ny".toList

/-- Marking loses a line break of a template. The line with the first backquote ends with three
    carriage returns and a line feed, which are three line breaks of the text, and one is left in
    the answer. -/
theorem markBlankLines_loses_break :
    (∀ line ∈ splitLines manyBreaks, Text.trim line ≠ blankMark) ∧
      ((read (Dialect.ofFile "a.js".toList) manyBreaks).map (·.protectedSpans)
        = some [⟨0, 11⟩, ⟨13, 14⟩]) ∧
      (∃ marked, markBlankLines [⟨0, 11⟩, ⟨13, 14⟩] manyBreaks = some marked ∧
        ¬ SameText marked (replaceDue [⟨0, 11⟩, ⟨13, 14⟩] (blankMark ++ ['\n']) id 0
          (splitLines manyBreaks)).flatten) ∧
      (openedWorld.store.transformScript ⟨[], 0⟩ ⟨["className"], false⟩ "a.js".toList
        manyBreaks).1.toOption.map (·.code) = some "x = `a\nb`;\n\ny;".toList := by
  refine ⟨by decide, by decide +kernel, ⟨_, rfl, by decide +kernel⟩, ?_⟩
  decide +kernel

end Script

end ClassVeil
