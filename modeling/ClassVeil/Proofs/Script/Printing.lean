import ClassVeil.Proofs.Script.BlankMark
import ClassVeil.Proofs.Script.Place

/-!
# Pages of moved comments

A page is filled by marks, and a mark that asks for the comments of a place names it. If the
comments have been moved and the marks name the places to which theirs have been moved, each of them
is given the same comments as before, and the page comes to have the same text on it.

For this `f` has to be injective: the comments of two places must not end up at one, since the first
mark that asks for either would then be given all of them. Nothing else is asked of `f`, and nothing
of the marks. A page never looks for a place itself, and never goes from one place to another; it
only holds the places that marks have told it to hold back.

The texts of the comments are not touched. Where a comment stood in the source is moved with it, but
a page takes no notice of that.

## Main definitions

* `Comments.moved`: Comments that have been moved together with the places that they belong to.
* `Mark.moved`: A mark that names the place to which its own has been moved.
* `Page.moved`: A page whose comments and held places have been moved.

## Theorems

* `leadingAt_moved`, `trailingAt_moved`: A place is given the same comments, moved.
* `put_moved`, `run_moved`: Marks and pages can be moved before or after they are put together.
* `Page.text_moved`: Moved marks make the same text of moved comments.
-/

namespace ClassVeil

namespace Script

/-! ### Comments and marks -/

section

variable (f : Nat → Nat)

/-- A comment that has been moved. -/
def Comment.moved (c : Comment) : Comment := { c with span := c.span.moved f }

/-- Comments that have been moved together with the places that they belong to. -/
def Comments.moved (cs : Comments) : Comments :=
  { leading := cs.leading.map fun c => (f c.1, c.2.moved f)
    trailing := cs.trailing.map fun c => (f c.1, c.2.moved f) }

/-- A mark that asks for the comments of the place to which its own was moved. -/
@[simp] def Mark.moved : Mark → Mark
  | .leading pos => .leading (f pos)
  | .trailing pos apart => .trailing (f pos) apart
  | .hold pos => .hold (f pos)
  | .lineIfLed pos => .lineIfLed (f pos)
  | .guard pos broken whole => .guard (f pos) broken whole
  | m => m

/-- A page whose comments have been moved; what has been put on it stays where it is. -/
def Page.moved (p : Page) : Page :=
  { p with
    comments := p.comments.moved f, waiting := p.waiting.moved f, held := p.held.map f }

end

section

variable {f : Nat → Nat} (hf : f.Injective)

include hf

theorem filter_place_moved (list : List (Nat × Comment)) (pos : Nat) :
    ((list.map fun c => (f c.1, c.2.moved f)).filter fun c => c.1 = f pos)
      = (list.filter fun c => c.1 = pos).map fun c => (f c.1, c.2.moved f) := by
  rw [List.filter_map]
  congr 2
  funext c
  -- Two places are moved to one only if they are one, so the same comments are found.
  simp only [Function.comp_apply, hf.eq_iff]

theorem filter_elsewhere_moved (list : List (Nat × Comment)) (pos : Nat) :
    ((list.map fun c => (f c.1, c.2.moved f)).filter fun c => c.1 ≠ f pos)
      = (list.filter fun c => c.1 ≠ pos).map fun c => (f c.1, c.2.moved f) := by
  rw [List.filter_map]
  congr 2
  funext c
  simp only [Function.comp_apply, ne_eq, hf.eq_iff]

/-- A place that has been moved leads the comments it led before, moved as well, and in the same
    order. -/
theorem leadingAt_moved (cs : Comments) (pos : Nat) :
    (cs.moved f).leadingAt (f pos) = (cs.leadingAt pos).map (Comment.moved f) := by
  rw [Comments.leadingAt, Comments.leadingAt, Comments.moved, filter_place_moved hf,
    List.map_map, List.map_map]
  rfl

theorem trailingAt_moved (cs : Comments) (pos : Nat) :
    (cs.moved f).trailingAt (f pos) = (cs.trailingAt pos).map (Comment.moved f) := by
  rw [Comments.trailingAt, Comments.trailingAt, Comments.moved, filter_place_moved hf,
    List.map_map, List.map_map]
  rfl

theorem dropLeading_moved (cs : Comments) (pos : Nat) :
    (cs.moved f).dropLeading (f pos) = (cs.dropLeading pos).moved f := by
  simp only [Comments.dropLeading, Comments.moved, filter_elsewhere_moved hf]

theorem dropTrailing_moved (cs : Comments) (pos : Nat) :
    (cs.moved f).dropTrailing (f pos) = (cs.dropTrailing pos).moved f := by
  simp only [Comments.dropTrailing, Comments.moved, filter_elsewhere_moved hf]

end

namespace Page

section

variable (f : Nat → Nat)

theorem write_moved (s : List Char) (p : Page) : (p.moved f).write s = (p.write s).moved f := by
  rw [write, write]
  split <;> rfl

theorem endLine_moved (p : Page) : (p.moved f).endLine = p.endLine.moved f := by
  have hfresh : (p.moved f).fresh = p.fresh := rfl
  rw [endLine, endLine, hfresh]
  split <;> rfl

theorem putComment_moved (spaced : Bool) (p : Page) (c : Comment) :
    (p.moved f).putComment spaced (c.moved f) = (p.putComment spaced c).moved f := by
  have hspace : (if spaced then (p.moved f).write [' '] else p.moved f)
      = (if spaced then p.write [' '] else p).moved f := by
    cases spaced with
    | true => exact write_moved f [' '] p
    | false => rfl
  rw [putComment, putComment, hspace, Comment.moved]
  simp only [write_moved]
  split
  · exact endLine_moved f _
  · rfl

theorem putComments_moved (spaced : Bool) (p : Page) (cs : List Comment) :
    (cs.map (Comment.moved f)).foldl (putComment spaced) (p.moved f)
      = (cs.foldl (putComment spaced) p).moved f := by
  induction cs generalizing p with
  | nil => rfl
  | cons c rest ih => rw [List.map_cons, List.foldl_cons, putComment_moved, ih, List.foldl_cons]

theorem any_breaksLine_moved (cs : List Comment) :
    (cs.map (Comment.moved f)).any breaksLine = cs.any breaksLine := by
  rw [List.any_map]
  rfl

end

section

variable {f : Nat → Nat} (hf : f.Injective)

include hf

/-- A moved mark does to a moved page what the mark does to the page. The marks that ask for
    comments are given the moved ones; what a page does with a comment depends on its text alone. -/
theorem put_moved (p : Page) (m : Mark) : (p.moved f).put (m.moved f) = (p.put m).moved f := by
  cases m with
  | text s => exact write_moved f s p
  | line => exact endLine_moved f p
  | indent | dedent => rfl
  | leading pos =>
      rw [Mark.moved, put_leading, put_leading, Page.moved]
      simp only [leadingAt_moved hf, dropLeading_moved hf]
      exact putComments_moved f false { p with waiting := p.waiting.dropLeading pos } _
  | trailing pos apart =>
      -- A place that is held back is held back where it has been moved to, and no other one is.
      have hheld : (p.moved f).held.contains (f pos) = p.held.contains pos := by
        rw [Bool.eq_iff_iff, List.contains_iff_mem, List.contains_iff_mem]
        exact List.mem_map_of_injective hf
      cases hcontains : p.held.contains pos with
      | true =>
          rw [Mark.moved, put, put, putTrailing, putTrailing, hheld, if_pos hcontains,
            if_pos hcontains]
      | false =>
          rw [Mark.moved, put_trailing p pos apart hcontains,
            put_trailing (p.moved f) (f pos) apart (hheld.trans hcontains), Page.moved]
          simp only [trailingAt_moved hf, dropTrailing_moved hf]
          exact putComments_moved f apart { p with waiting := p.waiting.dropTrailing pos } _
  | hold pos => rfl
  | release =>
      exact congrArg (fun held => { p.moved f with held }) (List.map_drop).symm
  | lineIfLed pos =>
      rw [Mark.moved, put, put]
      simp only [Page.moved, leadingAt_moved hf, List.isEmpty_map]
      split
      · rfl
      · exact endLine_moved f p
  | guard pos broken whole =>
      rw [Mark.moved, put, put]
      simp only [Page.moved, leadingAt_moved hf, any_breaksLine_moved]
      exact write_moved f _ p

/-- The same for any number of marks, by induction on those that are left. -/
theorem run_moved (p : Page) (marks : List Mark) :
    (marks.map (Mark.moved f)).foldl put (p.moved f) = (marks.foldl put p).moved f := by
  induction marks generalizing p with
  | nil => rfl
  | cons m rest ih => rw [List.map_cons, List.foldl_cons, put_moved hf, ih, List.foldl_cons]

/-- Moved marks make the same text of moved comments. What has been put on a page is not moved, so
    nothing but the text is compared. -/
theorem text_moved (comments : Comments) (marks : List Mark) :
    Page.text (comments.moved f) (marks.map (Mark.moved f)) = Page.text comments marks :=
  congrArg (fun p => p.reversed.reverse) (run_moved hf (Page.blank comments) marks)

end

end Page

end Script

end ClassVeil
