import ClassVeil.Path.Confined
import ClassVeil.Proofs.Path.Reading

/-!
# Confinement can be repeated

A store confines the path of its map when it is opened and once more before every write. The second
check is given the result of the first, and would be of no use if it could turn that down or lead to
another place. Below an absolute root it does neither.

The reason is the shape of a normalised absolute path: the root and then names only. `Plain` says
this, and everything follows from two facts about it. Normalising an absolute path makes it plain,
and a plain path is left alone by normalising.

Nothing is said here of where a path leads, and nothing has to be: that the second check agrees with
the first is a matter of the texts alone. What a confined path has to do with its root is a question
for another module.

## Main definitions

* `Path.Plain`: The root, and then names only.

## Theorems

* `plain_normalize`: Normalising an absolute path makes it plain.
* `normalize_of_plain`: Normalising leaves a plain path alone.
* `plain_of_confine?`: What confinement below an absolute root returns is plain.
* `confine?_confined`: Confinement returns what it has once returned.
-/

namespace ClassVeil

namespace Path

/-- The root, and then names only. -/
def Plain (p : Path) : Prop := ∃ names : List String, p = .root :: names.map .name

/-- A plain path the way that `push` keeps it, its last component first. -/
def PlainStack (done : Path) : Prop := ∃ names : List String, done = names.map .name ++ [.root]

theorem plainStack_push (done : Path) (part : Component) (hdone : PlainStack done)
    (hpart : part ≠ .root) : PlainStack (push done part) := by
  rcases hdone with ⟨names, rfl⟩
  cases part with
  | root => exact absurd rfl hpart
  | here => exact ⟨names, by cases names <;> rfl⟩
  -- Going up takes a name off, or stays at the root.
  | parent =>
      cases names with
      | nil => exact ⟨[], rfl⟩
      | cons name names => exact ⟨names, rfl⟩
  | name text => exact ⟨text :: names, by cases names <;> rfl⟩

theorem plainStack_foldl_push (parts done : Path) (hdone : PlainStack done)
    (hparts : Component.root ∉ parts) : PlainStack (parts.foldl push done) := by
  -- Each step keeps the shape, and no root comes in behind the first one.
  induction parts generalizing done with
  | nil => exact hdone
  | cons part parts ih =>
      rw [List.mem_cons, not_or] at hparts
      exact ih (push done part) (plainStack_push done part hdone (Ne.symm hparts.1)) hparts.2

/-- Normalising an absolute path makes it plain: a root and names, and nothing else. Going up from
    the root stays there, so no step up can be left over. -/
theorem plain_normalize (p : Path) (hp : Rooted p) : Plain p.normalize := by
  rcases hp with ⟨rest, rfl, hrest⟩
  rcases plainStack_foldl_push rest [.root] ⟨[], rfl⟩ hrest with ⟨names, hnames⟩
  refine ⟨names.reverse, ?_⟩
  rw [normalize, List.foldl_cons]
  change (rest.foldl push [.root]).reverse = _
  rw [hnames, List.reverse_append, List.map_reverse]
  rfl

theorem foldl_push_names (names : List String) (done : Path) :
    (names.map Component.name).foldl push done = (names.map Component.name).reverse ++ done := by
  induction names generalizing done with
  | nil => rfl
  | cons name names ih =>
      have hpush : push done (.name name) = .name name :: done := by
        unfold push
        split <;> first | rfl | (rename_i h; cases h)
      rw [List.map_cons, List.foldl_cons, hpush, ih, List.reverse_cons, List.append_assoc,
        List.singleton_append]

/-- Normalising leaves a plain path alone, since a name is put on the stack as it comes. -/
theorem normalize_of_plain (p : Path) (hp : Plain p) : p.normalize = p := by
  rcases hp with ⟨names, rfl⟩
  rw [normalize, List.foldl_cons]
  change ((names.map Component.name).foldl push [.root]).reverse = _
  rw [foldl_push_names, List.reverse_append, List.reverse_reverse]
  rfl

theorem rooted_of_plain (p : Path) (hp : Plain p) : Rooted p := by
  rcases hp with ⟨names, rfl⟩
  refine ⟨_, rfl, fun hmem => ?_⟩
  rcases List.mem_map.mp hmem with ⟨name, _, hname⟩
  cases hname

/-! ### Confinement -/

theorem rooted_join (root path : Path) (hroot : Rooted root)
    (hpath : Rooted path ∨ Component.root ∉ path) : Rooted (root.join path) := by
  rcases hpath with hpath | hpath
  · rw [join_of_isAbsolute root path ((isAbsolute_iff_rooted path (Or.inl hpath)).mpr hpath)]
    exact hpath
  · rcases hroot with ⟨rest, rfl, hrest⟩
    rw [join_of_ne_nil _ path (isAbsolute_of_not_mem path hpath) (List.cons_ne_nil _ _)]
    refine ⟨rest ++ path.filter (· ≠ .here), rfl, fun hmem => ?_⟩
    rcases List.mem_append.mp hmem with h | h
    · exact hrest h
    · exact hpath (List.mem_filter.mp h).1

theorem root_not_mem_join (base path : Path) (hbase : Component.root ∉ base)
    (hpath : Component.root ∉ path) : Component.root ∉ base.join path := by
  by_cases hempty : base = []
  · rw [hempty, join_nil]
    exact hpath
  · rw [join_of_ne_nil base path (isAbsolute_of_not_mem path hpath) hempty, List.mem_append, not_or]
    exact ⟨hbase, fun hmem => hpath (List.mem_filter.mp hmem).1⟩

/-- What confinement below an absolute root returns is plain, and begins with the root. It is the
    result of normalising something absolute, which passed the comparison. -/
theorem plain_of_confine? (root path place : Path) (hroot : Rooted root)
    (hpath : Rooted path ∨ Component.root ∉ path) (h : confine? root path = some place) :
    Plain place ∧ root.normalize.isPrefixOf place = true := by
  rw [confine?] at h
  split at h
  · rename_i hpre
    rw [Option.some.injEq] at h
    rw [← h]
    exact ⟨
      plain_normalize _ (rooted_join _ _ (rooted_of_plain _ (plain_normalize root hroot)) hpath),
      hpre⟩
  · cases h

/-- Confinement returns what it has once returned: a place below an absolute root is found again
    when it is itself given as the path. -/
theorem confine?_confined (root path place : Path) (hroot : Rooted root)
    (hpath : Rooted path ∨ Component.root ∉ path) (h : confine? root path = some place) :
    confine? root place = some place := by
  rcases plain_of_confine? root path place hroot hpath h with ⟨hplain, hpre⟩
  -- The place is absolute, so it takes the place of the root when it is joined to it.
  have hjoin : root.normalize.join place = place := by
    rcases hplain with ⟨names, rfl⟩
    rfl
  rw [confine?]
  simp only [hjoin, normalize_of_plain place hplain, hpre, if_true]

end Path

end ClassVeil
