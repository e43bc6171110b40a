import ClassVeil.Text.Blank

/-!
# The pieces of a text

Paths are cut at slashes and printed texts at line feeds. Both go back to what a separator does: the
pieces on its two sides do not know of each other, and there is no separator left in any of them. So
pieces that were put together come apart as they were.

A text always has a first piece, if only an empty one, and that piece is the one in which the
recursion puts the characters in front of it. Hence the two small lemmas at the beginning; behind
them `pieces` need not be unfolded any more.

## Theorems

* `pieces_append_sep`: The pieces on both sides of a separator.
* `not_mem_of_mem_pieces`: No piece has a separator in it.
* `pieces_of_sep_not_mem`: A text without separators is one piece.
-/

namespace ClassVeil

namespace Text

theorem pieces_ne_nil (sep : Char) (text : List Char) : pieces sep text ≠ [] := by
  cases text with
  | nil => exact List.cons_ne_nil [] []
  | cons c rest =>
      rw [pieces]
      split
      · exact List.cons_ne_nil _ _
      · split <;> exact List.cons_ne_nil _ _

/-- A first character that is no separator stands in the first piece. -/
theorem exists_pieces_cons (sep c : Char) (rest : List Char) (h : c ≠ sep) :
    ∃ p ps, pieces sep (c :: rest) = (c :: p) :: ps := by
  rw [pieces, if_neg h]
  cases pieces sep rest with
  | nil => exact ⟨[], [], rfl⟩
  | cons p ps => exact ⟨p, ps, rfl⟩

/-- The pieces of a text with a separator in it are those in front of it and those behind it. This
    is an equation about any separator in the text, not about the first one only. -/
theorem pieces_append_sep (sep : Char) (front behind : List Char) :
    pieces sep (front ++ sep :: behind) = pieces sep front ++ pieces sep behind := by
  induction front with
  | nil => simp only [List.nil_append, pieces, if_true, List.singleton_append]
  | cons c front ih =>
      rw [List.cons_append, pieces, pieces, ih]
      split
      · rw [List.cons_append]
      -- The character goes into the first piece on both sides.
      · cases hfront : pieces sep front with
        | nil => exact absurd hfront (pieces_ne_nil sep front)
        | cons p ps => simp only [List.cons_append]

/-- No piece has a separator in it. So taking a piece apart once more gives the piece, and a name
    that is one piece can be put behind a path without being divided. -/
theorem not_mem_of_mem_pieces (sep : Char) (text piece : List Char)
    (h : piece ∈ pieces sep text) : sep ∉ piece := by
  induction text generalizing piece with
  | nil =>
      rw [pieces, List.mem_singleton] at h
      rw [h]
      exact List.not_mem_nil
  | cons c rest ih =>
      rw [pieces] at h
      split at h
      · rcases List.mem_cons.mp h with rfl | h
        · exact List.not_mem_nil
        · exact ih piece h
      · rename_i hc
        have hcons : ∀ p : List Char, sep ∉ p → sep ∉ c :: p := fun p hp hmem =>
          (List.mem_cons.mp hmem).elim (Ne.symm hc) hp
        cases hrest : pieces sep rest with
        | nil => exact absurd hrest (pieces_ne_nil sep rest)
        | cons p ps =>
            rw [hrest] at h ih
            simp only [List.mem_cons] at h
            -- The first piece has one character more, the others are the same.
            rcases h with rfl | h
            · exact hcons p (ih p List.mem_cons_self)
            · exact ih piece (List.mem_cons_of_mem p h)

/-- A text without separators is one piece. -/
theorem pieces_of_sep_not_mem (sep : Char) (text : List Char) (h : sep ∉ text) :
    pieces sep text = [text] := by
  induction text with
  | nil => rfl
  | cons c rest ih =>
      rw [List.mem_cons, not_or] at h
      rw [pieces, if_neg (Ne.symm h.1), ih h.2]

end Text

end ClassVeil
