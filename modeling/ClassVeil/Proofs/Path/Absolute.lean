import ClassVeil.Proofs.Path.Location

/-!
# Paths seen from a directory

A relative path is made absolute as a text: the names of the path are put behind the text of the
current directory, with slashes between them. The text is then read again as a path. Nothing is lost
in between, because a component that was read from a text is spelled as the piece it was read from,
and that piece has no slash in it.

So the text leads where a walk leads that goes to the current directory first and then along the
path. A `..` in it is only spelled, not followed; following it is left to the walk.

A text may begin with two slashes, which is kept as it is, and it may end with one, which is put
behind the result. Neither makes a difference to what the text is read as: the second slash and the
last one have an empty piece beside them, and that stands for nothing.

## Main definitions

* `viewpoint`: What a path is seen from.

## Theorems

* `absolute?_slash`: A path seen from an absolute directory starts with a slash.
* `ofString_absolute?`: The text of a path that has been made absolute, as components.
* `walk_absolute?`: Where the text of a path leads that has been made absolute.
-/

namespace ClassVeil

namespace Path

open Location

/-- What a path is seen from: the root if it is absolute itself, else the current directory. -/
def viewpoint (current : String) (chars : List Char) : List Char :=
  if hasTwoSlashes chars then ['/', '/']
  else if (ofChars chars).isAbsolute then ['/']
  else current.toList

theorem viewpoint_slash (current : String) (chars : List Char)
    (hcurrent : current.toList.head? = some '/') :
    (viewpoint current chars).head? = some '/' := by
  unfold viewpoint
  split
  · rfl
  · split
    · rfl
    · exact hcurrent

/-- A path seen from an absolute directory starts with a slash: it does so by itself, or the
    directory is put in front of it. -/
theorem absolute?_slash (current path text : String) (hcurrent : current.toList.head? = some '/')
    (h : absolute? current path = some text) : text.toList.head? = some '/' := by
  have hbase := foldl_append_slash
    (((ofString path).filter fun part => part ≠ .root ∧ part ≠ .here).map Component.toString) _
    (viewpoint_slash current path.toList hcurrent)
  rw [absolute?] at h
  simp only [] at h
  split at h
  · cases h
  · rw [Option.some.injEq] at h
    rw [← h, String.toList_ofList]
    split
    · exact append_slash _ _ hbase
    · exact hbase

/-- The text of a path that has been made absolute is read as the components of what it is seen from
    and its own ones. The names are put behind the text one by one, and each is read back. -/
theorem ofString_absolute? (current path text : String)
    (hcurrent : current.toList.head? = some '/') (h : absolute? current path = some text) :
    ofString text = ofChars (viewpoint current path.toList) ++
      (ofString path).filter (fun part => part ≠ .root ∧ part ≠ .here) := by
  have hbase := viewpoint_slash current path.toList hcurrent
  -- What has been read is spelled so that it can be read again.
  have hspelled : ∀ part ∈ (ofString path).filter (fun part => part ≠ .root ∧ part ≠ .here),
      part.Spelled := by
    intro part hmem
    rw [List.mem_filter, decide_eq_true_eq] at hmem
    exact spelled_of_mem_parts path.toList part
      (mem_parts_of_mem_ofChars _ part hmem.1 hmem.2.1 hmem.2.2)
  have hfold := ofChars_foldl_append _ (viewpoint current path.toList) hbase hspelled
  rw [absolute?] at h
  simp only [] at h
  split at h
  · cases h
  · rw [Option.some.injEq] at h
    rw [← h, ofString, String.toList_ofList]
    split
    · -- A trailing slash adds an empty name, which is no component.
      refine (ofChars_append _ [] (ne_nil_of_slash _
        (foldl_append_slash _ (viewpoint current path.toList) hbase))).trans ?_
      rw [parts_nil, List.append_nil]
      exact hfold
    · exact hfold

theorem filter_of_root_not_mem (p : Path) (hp : Component.root ∉ p) :
    p.filter (fun part => part ≠ .root ∧ part ≠ .here) = p.filter (· ≠ .here) := by
  refine List.filter_congr fun part hmem => ?_
  have hpart : part ≠ .root := fun heq => hp (heq ▸ hmem)
  simp only [hpart, ne_eq, not_false_eq_true, true_and]

theorem isAbsolute_of_hasTwoSlashes (chars : List Char) (h : hasTwoSlashes chars = true) :
    chars.head? = some '/' := by
  unfold hasTwoSlashes at h
  split at h
  · cases h
  · rfl
  · cases h

/-- A path that has been made absolute leads where one comes who goes to the current directory and
    from there along the path. -/
theorem walk_absolute? (current path text : String) (hcurrent : current.toList.head? = some '/')
    (h : absolute? current path = some text) :
    start.walk (ofString text) = (start.walk (ofString current)).walk (ofString path) := by
  rw [ofString_absolute? current path text hcurrent h, walk_append]
  rcases rooted_or_ofChars path.toList with ⟨rest, hrest, hroot⟩ | hroot
  · -- An absolute path is seen from the root, wherever one is.
    have hbase : start.walk (ofChars (viewpoint current path.toList)) = ⟨.top, []⟩ := by
      unfold viewpoint
      rw [hrest]
      split <;> rfl
    have hfilter : (ofString path).filter (fun part => part ≠ .root ∧ part ≠ .here)
        = rest.filter (· ≠ .here) := by
      rw [ofString, hrest, List.filter_cons_of_neg (by decide), filter_of_root_not_mem rest hroot]
    have hwalk : (start.walk (ofString current)).walk (ofString path)
        = Location.walk ⟨.top, []⟩ rest := by
      rw [ofString, ofString, hrest]
      rfl
    rw [hbase, hfilter, walk_filter_here, hwalk]
  -- A relative path is seen from the current directory, and a text with two slashes is not
  -- relative.
  · have hbase : viewpoint current path.toList = current.toList := by
      have hrelative := isAbsolute_of_not_mem _ hroot
      have hslashes : hasTwoSlashes path.toList = false := by
        rw [Bool.eq_false_iff]
        intro htwo
        rw [ofChars_of_slash _ (isAbsolute_of_hasTwoSlashes _ htwo)] at hroot
        exact hroot List.mem_cons_self
      rw [viewpoint, hslashes, hrelative]
      rfl
    rw [hbase, filter_of_root_not_mem (ofString path) hroot, walk_filter_here]
    rfl

end Path

end ClassVeil
