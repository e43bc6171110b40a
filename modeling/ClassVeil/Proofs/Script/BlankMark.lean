import ClassVeil.Script.Printer
import ClassVeil.Proofs.Script.Lines
import Mathlib.Data.List.TakeWhile

/-!
# Blank marks on the page

A script that is read with its blank lines marked has the marks among its comments, and they are
printed like all others. Where such a blank mark begins a line, it has that line for itself, and the
page goes on as if nothing had happened. So two pages can be filled side by side, one with the blank
marks and one without, and differ by lines with blank marks alone.

The relation between the two pages (`Shadows`) is what carries the induction. It is kept by every
mark that is put, one case for each kind, and from there by a whole run. Besides the text it has the
state of the page: the indentation, whether a line has just begun, which comments are still waiting,
and which places are held. If any of these came apart, the pages would go on differently from there.

A blank mark that is put behind something ends the line that the other page goes on with, and its
line is not taken out when the blank lines are restored. This is shown by itself, without the other
page: what has been put on a page stays there (`Extends`), so it is enough to look at the moment
when the mark is put.

There are two things that a page does with comments besides printing them: it ends a line, or takes
one of two texts, depending on whether there are comments at a place. A blank mark there would show,
so that no blank mark is at such a place is asked for separately.

## Main definitions

* `Comment.isBlankMark`, `Program.unmarked`: The comments that are blank marks, and a script without
  them.
* `WithMarks`: A text with blank marks put in, each on a line of its own.
* `Page.alwaysMarked`: A condition on the page whenever a blank mark is put on it.
* `Page.Shadows`: Two pages that differ by the blank marks.
* `Page.Stuck`: A page with a blank mark behind something else.
* `Program.marksBeginLines`, `Program.marksStick`: How the blank marks of a script are printed.

## Theorems

* `shadows_put`, `shadows_run`: Blank marks that begin lines keep the two pages together.
* `restoredLines_print`: A script whose blank marks begin lines is restored to what it is without
  them.
* `stuck_run`: A blank mark that is put behind something stays there.
* `markText_of_marksStick`: So it is in the restored text.
-/

namespace ClassVeil

namespace Script

/-- A comment that stands for a blank line. -/
def Comment.isBlankMark (c : Comment) : Bool := c.isLine && c.text == blankMark

/-- The comments that do not stand for blank lines. -/
def Comments.unmarked (cs : Comments) : Comments :=
  { leading := cs.leading.filter fun c => !c.2.isBlankMark
    trailing := cs.trailing.filter fun c => !c.2.isBlankMark }

/-- A script without the comments that stand for blank lines. -/
def Program.unmarked (s : Program) : Program := { s with comments := s.comments.unmarked }

namespace Comments

/-- Whether the blank marks are left out before or after a place is looked up does not matter. -/
theorem filter_place_unmarked (list : List (Nat × Comment)) (pos : Nat) :
    ((list.filter fun c => !c.2.isBlankMark).filter fun c => c.1 = pos).map Prod.snd
      = ((list.filter fun c => c.1 = pos).map Prod.snd).filter fun c => !c.isBlankMark := by
  rw [List.filter_map, List.filter_filter, List.filter_filter]
  congr 2
  funext c
  exact Bool.and_comm _ _

theorem leadingAt_unmarked (cs : Comments) (pos : Nat) :
    cs.unmarked.leadingAt pos = (cs.leadingAt pos).filter fun c => !c.isBlankMark :=
  filter_place_unmarked cs.leading pos

theorem trailingAt_unmarked (cs : Comments) (pos : Nat) :
    cs.unmarked.trailingAt pos = (cs.trailingAt pos).filter fun c => !c.isBlankMark :=
  filter_place_unmarked cs.trailing pos

theorem dropLeading_unmarked (cs : Comments) (pos : Nat) :
    (cs.dropLeading pos).unmarked = cs.unmarked.dropLeading pos := by
  simp only [dropLeading, unmarked, List.filter_filter, Bool.and_comm]

theorem dropTrailing_unmarked (cs : Comments) (pos : Nat) :
    (cs.dropTrailing pos).unmarked = cs.unmarked.dropTrailing pos := by
  simp only [dropTrailing, unmarked, List.filter_filter, Bool.and_comm]

/-- Where no comment has a place, none is dropped there. -/
theorem filter_place_of_nil (list : List (Nat × Comment)) (pos : Nat)
    (h : (list.filter fun c => c.1 = pos).map Prod.snd = []) :
    list.filter (fun c => c.1 ≠ pos) = list := by
  rw [List.map_eq_nil_iff, List.filter_eq_nil_iff] at h
  exact List.filter_eq_self.mpr fun c hc => by simpa using h c hc

theorem dropLeading_of_leadingAt (cs : Comments) (pos : Nat) (h : cs.leadingAt pos = []) :
    cs.dropLeading pos = cs := by
  rw [dropLeading, filter_place_of_nil cs.leading pos h]

theorem dropTrailing_of_trailingAt (cs : Comments) (pos : Nat) (h : cs.trailingAt pos = []) :
    cs.dropTrailing pos = cs := by
  rw [dropTrailing, filter_place_of_nil cs.trailing pos h]

end Comments

/-! ### Texts with marks -/

/-- A text with marks put in, each on a line of its own. -/
inductive WithMarks (plain : List Char) : List Char → Prop
  | nothing : WithMarks plain plain
  | mark (x blanks y : List Char) : (x = [] ∨ x.getLast? = some '\n') → (∀ c ∈ blanks, c = ' ') →
      WithMarks plain (x ++ y) → WithMarks plain (x ++ (blanks ++ blankMark ++ ['\n']) ++ y)

/-- What is put behind both texts keeps them apart by marks alone. -/
theorem withMarks_append (plain text more : List Char) (h : WithMarks plain text) :
    WithMarks (plain ++ more) (text ++ more) := by
  induction h with
  | nothing => exact .nothing
  | mark x blanks y hx hblanks _ ih =>
      rw [List.append_assoc] at ih ⊢
      exact .mark x blanks (y ++ more) hx hblanks ih

/-- The marks that are put in do not count when blank lines are restored. -/
theorem restoredLines_of_withMarks (plain text : List Char) (h : WithMarks plain text) :
    restoredLines text = restoredLines plain := by
  induction h with
  | nothing => rfl
  | mark x blanks y hx hblanks _ ih => rw [restoredLines_append_mark x blanks y hx hblanks, ih]

namespace Page

/-- The page before anything is put on it. -/
def blank (comments : Comments) : Page := { comments, waiting := comments }

/-- Whether the page satisfies a condition whenever one of some comments is a blank mark that is put
    on it. -/
def whenMarked (ok : Page → Bool) (spaced : Bool) : Page → List Comment → Bool
  | _, [] => true
  | p, c :: rest => (!c.isBlankMark || ok p) && whenMarked ok spaced (p.putComment spaced c) rest

/-- The same for the comments that are put on the page by a mark. -/
def whenMarkedBy (ok : Page → Bool) (p : Page) : Mark → Bool
  | .leading pos =>
    whenMarked ok false { p with waiting := p.waiting.dropLeading pos } (p.waiting.leadingAt pos)
  | .trailing pos spaced =>
    p.held.contains pos ||
      whenMarked ok spaced { p with waiting := p.waiting.dropTrailing pos }
        (p.waiting.trailingAt pos)
  | _ => true

/-- The same for all that is put on the page by a list of marks. -/
def alwaysMarked (ok : Page → Bool) : Page → List Mark → Bool
  | _, [] => true
  | p, m :: rest => p.whenMarkedBy ok m && alwaysMarked ok (p.put m) rest

/-- Nothing but blanks has been put on the line. -/
def onBlankLine (p : Page) : Bool := (p.reversed.takeWhile fun c => c ≠ '\n').all Text.isBlank

/-- What is put on a page for a mark: blanks, the mark, and the end of the line. The blanks are the
    indentation if the line has just begun, and a space if the mark is set apart from what is in
    front. -/
theorem putComment_mark (p : Page) (spaced : Bool) (c : Comment) (hc : c.isBlankMark = true) :
    ∃ blanks, (∀ b ∈ blanks, b = ' ') ∧ p.putComment spaced c =
      { p with reversed := '\n' :: blankMark.reverse ++ blanks ++ p.reversed, fresh := true } := by
  rw [Comment.isBlankMark, Bool.and_eq_true, beq_iff_eq] at hc
  have hmark : blankMark.isEmpty = false := by decide
  rw [putComment, hc.1, hc.2]
  cases spaced with
  | true =>
      -- The space takes the indentation, so the mark itself gets none.
      refine ⟨' ' :: if p.fresh then List.replicate (4 * p.depth) ' ' else [], ?_, ?_⟩
      · intro b hb
        rcases List.mem_cons.mp hb with rfl | hb
        · rfl
        · split at hb
          · exact List.eq_of_mem_replicate hb
          · cases hb
      · simp only [write, endLine, hmark, List.isEmpty_cons, if_true, Bool.false_eq_true, if_false,
          List.reverse_singleton, List.nil_append, List.cons_append, List.append_assoc]
  | false =>
      refine ⟨if p.fresh then List.replicate (4 * p.depth) ' ' else [], ?_, ?_⟩
      · intro b hb
        split at hb
        · exact List.eq_of_mem_replicate hb
        · cases hb
      · simp only [write, endLine, hmark, if_true, Bool.false_eq_true, if_false, List.cons_append,
          List.append_assoc]

/-! ### Two pages side by side -/

/-- The second page is the first one without its blank marks; `all` are the comments of the first
    one. -/
structure Shadows (all : Comments) (p q : Page) : Prop where
  text : WithMarks q.reversed.reverse p.reversed.reverse
  begins : p.fresh = true → p.reversed = [] ∨ p.reversed.head? = some '\n'
  fresh : q.fresh = p.fresh
  depth : q.depth = p.depth
  held : q.held = p.held
  comments : p.comments = all
  others : q.comments = all.unmarked
  waiting : q.waiting = p.waiting.unmarked

theorem shadows_blank (all : Comments) : Shadows all (blank all) (blank all.unmarked) where
  text := .nothing
  begins := fun _ => Or.inl rfl
  fresh := rfl
  depth := rfl
  held := rfl
  comments := rfl
  others := rfl
  waiting := rfl

section

variable (all : Comments) (p q : Page)

theorem shadows_write (s : List Char) (h : Shadows all p q) :
    Shadows all (p.write s) (q.write s) := by
  rw [write, write]
  cases hs : s.isEmpty with
  | true => exact h
  | false =>
      simp only [Bool.false_eq_true, if_false, h.fresh, h.depth]
      refine { h with
        text := ?_, begins := fun hfresh => absurd hfresh Bool.false_ne_true, fresh := rfl
        depth := rfl }
      simp only [List.reverse_append, List.reverse_reverse]
      exact withMarks_append _ _ _ h.text

theorem shadows_endLine (h : Shadows all p q) : Shadows all p.endLine q.endLine := by
  rw [endLine, endLine, h.fresh]
  split
  · exact h
  · refine { h with text := ?_, begins := fun _ => Or.inr rfl, fresh := rfl }
    simp only [List.reverse_cons]
    exact withMarks_append _ _ _ h.text

theorem shadows_putComment (spaced : Bool) (c : Comment) (h : Shadows all p q) :
    Shadows all (p.putComment spaced c) (q.putComment spaced c) := by
  have hspace : Shadows all (if spaced then p.write [' '] else p)
      (if spaced then q.write [' '] else q) := by
    cases spaced with
    | true => exact shadows_write all p q [' '] h
    | false => exact h
  have htext := shadows_write all _ _ c.text hspace
  rw [putComment, putComment]
  cases c.isLine with
  | true => exact shadows_endLine all _ _ htext
  | false => exact shadows_write all _ _ [' '] htext

/-- A blank mark that begins a line leaves no trace on the other page. -/
theorem shadows_mark (spaced : Bool) (c : Comment) (hc : c.isBlankMark = true)
    (hfresh : p.fresh = true) (h : Shadows all p q) : Shadows all (p.putComment spaced c) q := by
  rcases putComment_mark p spaced c hc with ⟨blanks, hblanks, heq⟩
  have hstart : p.reversed.reverse = [] ∨ p.reversed.reverse.getLast? = some '\n' := by
    rw [List.reverse_eq_nil_iff, List.getLast?_reverse]
    exact h.begins hfresh
  rw [heq]
  refine { h with
    text := ?_, begins := fun _ => Or.inr rfl, fresh := h.fresh.trans hfresh }
  have hmark := WithMarks.mark p.reversed.reverse blanks.reverse [] hstart
    (fun c hc => hblanks c (List.mem_reverse.mp hc)) (by rw [List.append_nil]; exact h.text)
  simpa only [List.cons_append, List.reverse_cons, List.reverse_append, List.reverse_reverse,
    List.append_assoc, List.append_nil] using hmark

/-- Comments that are put one after the other keep the two pages together, if each blank mark among
    them begins a line. The induction is on the comments: an ordinary one is put on both pages, a
    blank mark only on the first. -/
theorem shadows_comments (spaced : Bool) (cs : List Comment) (h : Shadows all p q)
    (hmarks : whenMarked fresh spaced p cs = true) :
    Shadows all (cs.foldl (putComment spaced) p)
      ((cs.filter fun c => !c.isBlankMark).foldl (putComment spaced) q) := by
  induction cs generalizing p q with
  | nil => exact h
  | cons c rest ih =>
      rw [whenMarked, Bool.and_eq_true] at hmarks
      cases hc : c.isBlankMark with
      | true =>
          have hfresh : p.fresh = true := by
            rw [hc] at hmarks
            exact hmarks.1
          -- The other page stays as it is, and has not gone on to a new line either.
          rw [List.filter_cons_of_neg (by rw [hc]; decide)]
          exact ih _ q (shadows_mark all p q spaced c hc hfresh h) hmarks.2
      | false =>
          rw [List.filter_cons_of_pos (by rw [hc]; decide)]
          exact ih _ _ (shadows_putComment all p q spaced c h) hmarks.2

end

/-- The comments that lead to a place are put on the page one after the other. -/
theorem put_leading (p : Page) (pos : Nat) :
    p.put (.leading pos) = (p.waiting.leadingAt pos).foldl (putComment false)
      { p with waiting := p.waiting.dropLeading pos } := by
  rw [put]
  split
  · next hnone => rw [hnone, Comments.dropLeading_of_leadingAt _ _ hnone]; rfl
  · rfl

theorem put_trailing (p : Page) (pos : Nat) (spaced : Bool) (h : p.held.contains pos = false) :
    p.put (.trailing pos spaced) = (p.waiting.trailingAt pos).foldl (putComment spaced)
      { p with waiting := p.waiting.dropTrailing pos } := by
  rw [put, putTrailing, if_neg (by rw [h]; decide)]
  split
  · next hnone => rw [hnone, Comments.dropTrailing_of_trailingAt _ _ hnone]; rfl
  · rfl

/-- The place at which a mark looks for comments without putting them on the page. -/
def asks? : Mark → Option Nat
  | .lineIfLed pos | .guard pos _ _ => some pos
  | _ => none

/-- Blank marks that begin lines and are not asked for keep the two pages together. This is the step
    of a run: a case for each kind of mark, and only two of them put comments on the page. -/
theorem shadows_put (all : Comments) (p q : Page) (m : Mark) (h : Shadows all p q)
    (hmarks : p.whenMarkedBy fresh m = true)
    (hasks : ∀ pos, asks? m = some pos → ∀ c ∈ all.leadingAt pos, c.isBlankMark = false) :
    Shadows all (p.put m) (q.put m) := by
  -- What is only asked for gets the same answer on both pages.
  have hsame : ∀ pos, asks? m = some pos → q.comments.leadingAt pos = p.comments.leadingAt pos := by
    intro pos hpos
    rw [h.others, h.comments, Comments.leadingAt_unmarked, List.filter_eq_self]
    intro c hc
    rw [hasks pos hpos c hc]
    rfl
  cases m with
  | text s => exact shadows_write all p q s h
  | line => exact shadows_endLine all p q h
  | indent => exact { h with depth := congrArg (· + 1) h.depth }
  | dedent => exact { h with depth := congrArg (· - 1) h.depth }
  | hold pos => exact { h with held := congrArg (pos :: ·) h.held }
  | release => exact { h with held := congrArg (·.drop 1) h.held }
  | leading pos =>
      -- The other page may have no comments at all to put here, but it drops none either.
      rw [put_leading, put_leading, h.waiting, Comments.leadingAt_unmarked]
      refine shadows_comments all _ _ false _ ?_ hmarks
      exact { h with waiting := (Comments.dropLeading_unmarked p.waiting pos).symm }
  | trailing pos spaced =>
      cases hheld : p.held.contains pos with
      | true =>
          rw [put, put, putTrailing, putTrailing, h.held, if_pos hheld, if_pos hheld]
          exact h
      | false =>
          rw [whenMarkedBy, hheld, Bool.false_or] at hmarks
          rw [put_trailing p pos spaced hheld, put_trailing q pos spaced (by rw [h.held, hheld]),
            h.waiting, Comments.trailingAt_unmarked]
          refine shadows_comments all _ _ spaced _ ?_ hmarks
          exact { h with waiting := (Comments.dropTrailing_unmarked p.waiting pos).symm }
  | lineIfLed pos =>
      rw [put, put, hsame pos rfl]
      split
      · exact h
      · exact shadows_endLine all p q h
  | guard pos broken whole =>
      rw [put, put, hsame pos rfl]
      exact shadows_write all p q _ h

/-- The same for a whole run, by induction on the marks that are left, with both pages free. -/
theorem shadows_run (all : Comments) (p q : Page) (marks : List Mark) (h : Shadows all p q)
    (hmarks : p.alwaysMarked fresh marks = true)
    (hasks : ∀ m ∈ marks, ∀ pos, asks? m = some pos →
      ∀ c ∈ all.leadingAt pos, c.isBlankMark = false) :
    Shadows all (marks.foldl put p) (marks.foldl put q) := by
  induction marks generalizing p q with
  | nil => exact h
  | cons m rest ih =>
      rw [alwaysMarked, Bool.and_eq_true] at hmarks
      exact ih _ _ (shadows_put all p q m h hmarks.1 (hasks m List.mem_cons_self)) hmarks.2
        fun m' hm' => hasks m' (List.mem_cons_of_mem m hm')

/-! ### Marks that are put behind something -/

/-- What has been put on a page stays there. -/
def Extends (p q : Page) : Prop := p.reversed <:+ q.reversed

theorem extends_write (p : Page) (s : List Char) : Extends p (p.write s) := by
  rw [Extends, write]
  split
  · exact List.suffix_rfl
  · exact List.suffix_append _ _

theorem extends_endLine (p : Page) : Extends p p.endLine := by
  rw [Extends, endLine]
  split
  · exact List.suffix_rfl
  · exact List.suffix_cons _ _

theorem extends_putComment (p : Page) (spaced : Bool) (c : Comment) :
    Extends p (p.putComment spaced c) := by
  have hspace : Extends p (if spaced then p.write [' '] else p) := by
    split
    · exact extends_write p _
    · exact List.suffix_rfl
  have htext := hspace.trans (extends_write _ c.text)
  rw [putComment]
  split
  · exact htext.trans (extends_endLine _)
  · exact htext.trans (extends_write _ _)

theorem extends_comments (p : Page) (spaced : Bool) (cs : List Comment) :
    Extends p (cs.foldl (putComment spaced) p) := by
  induction cs generalizing p with
  | nil => exact List.suffix_rfl
  | cons c rest ih => exact (extends_putComment p spaced c).trans (ih _)

/-- Whatever is put on a page, nothing is taken off it. One case for each kind of mark, and comments
    one by one. -/
theorem extends_put (p : Page) (m : Mark) : Extends p (p.put m) := by
  cases m with
  | text s => exact extends_write p s
  | line => exact extends_endLine p
  | indent | dedent | hold | release => exact List.suffix_rfl
  | leading pos =>
      rw [put_leading]
      exact extends_comments { p with waiting := p.waiting.dropLeading pos } false _
  | trailing pos spaced =>
      cases hheld : p.held.contains pos with
      | true =>
          rw [put, putTrailing, if_pos hheld]
          exact List.suffix_rfl
      | false =>
          rw [put_trailing p pos spaced hheld]
          exact extends_comments { p with waiting := p.waiting.dropTrailing pos } spaced _
  | lineIfLed pos =>
      rw [put]
      split
      · exact List.suffix_rfl
      · exact extends_endLine p
  | guard pos broken whole => exact extends_write p _

theorem extends_run (p : Page) (marks : List Mark) : Extends p (marks.foldl put p) := by
  induction marks generalizing p with
  | nil => exact List.suffix_rfl
  | cons m rest ih => exact (extends_put p m).trans (ih _)

/-- The page has a line on which a blank mark stands behind something else. -/
def Stuck (p : Page) : Prop :=
  ∃ x line y, p.reversed.reverse = x ++ (line ++ blankMark ++ ['\n']) ++ y ∧
    (x = [] ∨ x.getLast? = some '\n') ∧ '\n' ∉ line ∧ ∃ c ∈ line, Text.isBlank c = false

theorem stuck_of_extends (p q : Page) (h : Extends p q) (hstuck : p.Stuck) : q.Stuck := by
  rcases hstuck with ⟨x, line, y, heq, hx, hline, hblank⟩
  rcases h with ⟨more, hmore⟩
  refine ⟨x, line, y ++ more.reverse, ?_, hx, hline, hblank⟩
  rw [← hmore, List.reverse_append, heq, List.append_assoc]

/-- A blank mark that is put on a line with something else on it is stuck there. The line is what
    has been put on the page since the last line feed, and the mark ends it. -/
theorem stuck_mark (p : Page) (spaced : Bool) (c : Comment) (hc : c.isBlankMark = true)
    (hline : p.onBlankLine = false) : (p.putComment spaced c).Stuck := by
  rcases putComment_mark p spaced c hc with ⟨blanks, hblanks, heq⟩
  -- What stands on the line is what has been put there since the last line feed.
  have hsplit := List.takeWhile_append_dropWhile (p := fun c => c ≠ '\n') (l := p.reversed)
  refine ⟨(p.reversed.dropWhile fun c => c ≠ '\n').reverse,
    (p.reversed.takeWhile fun c => c ≠ '\n').reverse ++ blanks.reverse, [], ?_, ?_, ?_, ?_⟩
  · rw [heq]
    nth_rewrite 1 [← hsplit]
    simp only [List.cons_append, List.reverse_cons, List.reverse_append, List.reverse_reverse,
      List.append_assoc, List.append_nil]
  · rw [List.reverse_eq_nil_iff, List.getLast?_reverse]
    cases hrest : p.reversed.dropWhile fun c => c ≠ '\n' with
    | nil => exact Or.inl rfl
    | cons d rest =>
        have hd := List.head?_dropWhile_not (fun c => c ≠ '\n') p.reversed
        rw [hrest] at hd
        exact Or.inr (by simpa using hd)
  -- Neither what is on the line nor the blanks have a line feed among them.
  · rw [List.mem_append, not_or, List.mem_reverse, List.mem_reverse]
    refine ⟨fun hmem => ?_, fun hmem => absurd (hblanks _ hmem) (by decide)⟩
    exact absurd (List.mem_takeWhile_imp hmem) (by decide)
  · rw [onBlankLine, List.all_eq_false] at hline
    rcases hline with ⟨d, hd, hblank⟩
    exact ⟨d, List.mem_append_left _ (List.mem_reverse.mpr hd), by simpa using hblank⟩

theorem stuck_comments (p : Page) (spaced : Bool) (cs : List Comment)
    (h : whenMarked onBlankLine spaced p cs = false) :
    (cs.foldl (putComment spaced) p).Stuck := by
  induction cs generalizing p with
  | nil => cases h
  | cons c rest ih =>
      rw [whenMarked, Bool.and_eq_false_iff, Bool.or_eq_false_iff, Bool.not_eq_false'] at h
      -- This comment is the one, and the others are put behind it, or it is among the others.
      rcases h with ⟨hc, hline⟩ | hrest
      · exact stuck_of_extends _ _ (extends_comments _ spaced rest)
          (stuck_mark p spaced c hc hline)
      · exact ih _ hrest

theorem stuck_put (p : Page) (m : Mark) (h : p.whenMarkedBy onBlankLine m = false) :
    (p.put m).Stuck := by
  cases m with
  | leading pos =>
      rw [put_leading]
      exact stuck_comments _ false _ h
  | trailing pos spaced =>
      rw [whenMarkedBy, Bool.or_eq_false_iff] at h
      rw [put_trailing p pos spaced h.1]
      exact stuck_comments _ spaced _ h.2
  | _ => cases h

/-- A blank mark that is put behind something stays there to the end. The first moment at which that
    happens is found by induction on the marks, and nothing that follows takes anything back. -/
theorem stuck_run (p : Page) (marks : List Mark)
    (h : p.alwaysMarked onBlankLine marks = false) : (marks.foldl put p).Stuck := by
  induction marks generalizing p with
  | nil => cases h
  | cons m rest ih =>
      rw [alwaysMarked, Bool.and_eq_false_iff] at h
      rcases h with hm | hrest
      · exact stuck_of_extends _ _ (extends_run _ rest) (stuck_put p m hm)
      · exact ih _ hrest

end Page

/-! ### Printed scripts -/

namespace Program

/-- Every blank mark of a script begins a line when it is printed, and none is asked for without
    being printed. -/
def marksBeginLines (s : Program) : Bool :=
  (Page.blank s.comments).alwaysMarked Page.fresh s.marks &&
    s.marks.all fun m => (Page.asks? m).all fun pos =>
      (s.comments.leadingAt pos).all fun c => !c.isBlankMark

/-- Some blank mark of a script is printed behind something else on its line. -/
def marksStick (s : Program) : Bool :=
  !(Page.blank s.comments).alwaysMarked Page.onBlankLine s.marks

end Program

/-- A script whose blank marks begin lines is restored to what it is without them. The two pages are
    filled from the same marks, and what is on one and not on the other are lines that are restored
    to nothing. -/
theorem restoredLines_print (s : Program) (h : s.marksBeginLines = true) :
    restoredLines (print s) = restoredLines (print s.unmarked) := by
  rw [Program.marksBeginLines, Bool.and_eq_true, List.all_eq_true] at h
  have hrun := Page.shadows_run s.comments _ _ s.marks (Page.shadows_blank s.comments) h.1 (by
    intro m hm pos hpos c hc
    have hall := h.2 m hm
    rw [hpos, Option.all_some, List.all_eq_true] at hall
    simpa using hall c hc)
  exact restoredLines_of_withMarks _ _ hrun.text

/-- A blank mark that is printed behind something else is in the restored text. Restoring looks at
    whole lines, and this line is more than a mark. -/
theorem markText_of_marksStick (s : Program) (h : s.marksStick = true) :
    markText <:+: restoreBlankLines (print s) := by
  rw [Program.marksStick, Bool.not_eq_true'] at h
  rcases Page.stuck_run _ s.marks h with ⟨x, line, y, heq, hx, hline, hblank⟩
  have hprint : print s = x ++ (line ++ blankMark ++ ['\n']) ++ y := heq
  rw [hprint]
  exact markText_infix_of_stuck x line y hx hline hblank

end Script

end ClassVeil
