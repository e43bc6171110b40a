import ClassVeil.Proofs.Path.Confined

/-!
# Where a path leads

A path is a walk: a name leads down, `..` leads up, and the root leads to the top of everything. All
that is known of the place where a walk ends is said by a `Location`: whether it has been led to the
top, or else how many levels above its start it has come without turning back, and the names that
lead down from there. Neither normalising nor joining has a part in this.

Confinement compares paths, and it is the spelling of a normalised path that ties paths to places:
first the top or some `..`, then names (`normalize_eq_toPath`). As long as the spelling of the root
has the top or a name in it, one spelling begins with another exactly if one place lies at or below
the other. A root that is spelled by `..` alone, or by nothing at all, is no such anchor: whatever
climbs higher begins with the same `..`, and so passes for something below.

The argument has two halves. Normalising keeps a stack, and one step of it does to the stack what a
step of a walk does to the spelling of the place; this is where the definitions meet, and it is a
matter of what the end of a spelling looks like. The other half is about spellings alone: when one
begins with another. There are three kinds of beginnings, the top, a number of `..`, and nothing,
and each can be compared with each.

Links in the file system are not followed, neither here nor by the code: a walk goes by the names.

## Main definitions

* `Location`, `Location.walk`: What is known of a place, and the end of a walk.
* `Location.Below`: One place lies at or below another.
* `Location.Anchored`: The spelling of a place has the top or a name in it.

## Theorems

* `normalize_eq_toPath`: A normalised path spells the place where the path leads.
* `normalize_join_eq_toPath`: Joined paths lead where a walk along the one and then the other leads.
* `toPath_prefix_iff`: When the spelling of one place begins with that of another.
* `confine?_iff_below`: Confinement is exact below an anchored root; what it does below another.
* `confine?_leaves_root`: Places outside of a root that are taken for places below.
-/

namespace ClassVeil

/-- The place from which the names of a location lead down. -/
inductive Origin where
  /-- The top of everything. -/
  | top
  /-- A number of levels above the start of the walk. -/
  | above (levels : Nat)
deriving DecidableEq, Repr

/-- What is known of the place where a walk ends. -/
structure Location where
  origin : Origin
  names : List String
deriving DecidableEq, Repr

/-- One level higher; nothing is above the top. -/
def Origin.up : Origin → Origin
  | top => top
  | above levels => above (levels + 1)

/-- The spelling of an origin. -/
def Origin.toPath : Origin → Path
  | top => [.root]
  | above levels => List.replicate levels .parent

namespace Location

/-- Where every walk starts. -/
def start : Location := ⟨.above 0, []⟩

/-- One step of a walk. -/
def step (l : Location) : Component → Location
  | .root => ⟨.top, []⟩
  | .here => l
  | .parent => if l.names = [] then { l with origin := l.origin.up }
    else { l with names := l.names.dropLast }
  | .name text => { l with names := l.names ++ [text] }

/-- The end of a walk along a path. -/
def walk (l : Location) (p : Path) : Location := p.foldl step l

/-- The spelling of a place. -/
def toPath (l : Location) : Path := l.origin.toPath ++ l.names.map .name

/-- The place lies at or below the other one. -/
def Below (place base : Location) : Prop :=
  place.origin = base.origin ∧ base.names <+: place.names

/-- The spelling of the place has the top or a name in it. -/
def Anchored (l : Location) : Prop := l.origin = .top ∨ l.names ≠ []

instance (place base : Location) : Decidable (place.Below base) :=
  inferInstanceAs (Decidable (_ ∧ _))

instance (l : Location) : Decidable l.Anchored := inferInstanceAs (Decidable (_ ∨ _))

/-! ### Spelling a place -/

theorem walk_append (l : Location) (p q : Path) : l.walk (p ++ q) = (l.walk p).walk q :=
  List.foldl_append

theorem walk_names (l : Location) (names : List String) :
    l.walk (names.map .name) = { l with names := l.names ++ names } := by
  induction names generalizing l with
  | nil => simp only [walk, List.map_nil, List.foldl_nil, List.append_nil]
  | cons name names ih =>
      have hrest := ih (l.step (.name name))
      simp only [walk, step] at hrest ⊢
      rw [List.map_cons, List.foldl_cons, step, hrest, List.append_assoc, List.singleton_append]

theorem walk_parents (levels more : Nat) :
    walk ⟨.above levels, []⟩ (List.replicate more .parent) = ⟨.above (levels + more), []⟩ := by
  -- Each `..` is one level more above the start, as there is no name to go back along.
  induction more generalizing levels with
  | zero => rfl
  | succ more ih =>
      have hstep : step ⟨.above levels, []⟩ .parent = ⟨.above (levels + 1), []⟩ := rfl
      have hrest := ih (levels + 1)
      unfold walk at hrest ⊢
      rw [List.replicate_succ, List.foldl_cons, hstep, hrest, Nat.add_right_comm, Nat.add_assoc]

/-- The spelling of a place leads to it. So places and their spellings are in one-to-one
    correspondence, and a comparison of spellings is one of places. -/
theorem walk_toPath (l : Location) : start.walk l.toPath = l := by
  rcases l with ⟨origin, names⟩
  unfold toPath
  rw [walk_append]
  cases origin with
  | top =>
      have htop : start.walk Origin.top.toPath = ⟨.top, []⟩ := rfl
      rw [htop, walk_names, List.nil_append]
  | above levels =>
      have hup : start.walk (Origin.above levels).toPath = ⟨.above levels, []⟩ := by
        have h := walk_parents 0 levels
        rwa [Nat.zero_add] at h
      rw [hup, walk_names, List.nil_append]

/-- A `.` makes no difference to a walk. -/
theorem walk_filter_here (l : Location) (p : Path) : l.walk (p.filter (· ≠ .here)) = l.walk p := by
  induction p generalizing l with
  | nil => rfl
  | cons part rest ih =>
      by_cases hpart : part = .here
      · rw [hpart]
        exact ih l
      · have hkeep : (part :: rest).filter (· ≠ .here) = part :: rest.filter (· ≠ .here) :=
          List.filter_cons_of_pos (by simp only [hpart, ne_eq, not_false_eq_true, decide_true])
        rw [hkeep]
        exact ih (l.step part)

/-- A walk that is led to the top forgets where it came from. -/
theorem walk_of_rooted (l : Location) (p : Path) (hp : p.Rooted) : l.walk p = start.walk p := by
  rcases hp with ⟨rest, rfl, -⟩
  rfl

theorem origin_walk_top (l : Location) (hl : l.origin = .top) (p : Path) :
    (l.walk p).origin = .top := by
  -- No step leads away from the top, and the root leads there again.
  induction p generalizing l with
  | nil => exact hl
  | cons part rest ih =>
      refine ih (l.step part) ?_
      cases part with
      | root => rfl
      | here | name => exact hl
      | parent =>
          rw [step]
          split
          · simp only [hl, Origin.up]
          · exact hl

theorem origin_walk_of_rooted (l : Location) (p : Path) (hp : p.Rooted) :
    (l.walk p).origin = .top := by
  rcases hp with ⟨rest, rfl, -⟩
  exact origin_walk_top ⟨.top, []⟩ rfl rest

/-- A walk that is not led to the top does not come down from where it started, except by going
    back. -/
theorem exists_levels_walk (l : Location) (levels : Nat) (hl : l.origin = .above levels) (p : Path)
    (hp : Component.root ∉ p) :
    ∃ more, levels ≤ more ∧ (l.walk p).origin = .above more := by
  induction p generalizing l levels with
  | nil => exact ⟨levels, Nat.le_refl levels, hl⟩
  | cons part rest ih =>
      rw [List.mem_cons, not_or] at hp
      cases part with
      | root => exact absurd rfl hp.1
      | here => exact ih l levels hl hp.2
      | name text => exact ih _ levels hl hp.2
      | parent =>
          by_cases hnames : l.names = []
          · have hup : (l.step .parent).origin = .above (levels + 1) := by
              rw [step, if_pos hnames, hl]
              rfl
            rcases ih _ (levels + 1) hup hp.2 with ⟨more, hle, hmore⟩
            exact ⟨more, by omega, hmore⟩
          · have hstay : (l.step .parent).origin = .above levels := by
              rw [step, if_neg hnames]
              exact hl
            exact ih _ levels hstay hp.2

end Location

namespace Path

open Location

/-! ### Normalising and joining -/

/-- The stack that normalising keeps is the spelling of the place reached, backwards. Here the two
    definitions meet, so all pairs of an end of the spelling and a component have to be gone
    through. -/
theorem push_toPath (l : Location) (part : Component) (hpart : part ≠ .root) :
    push l.toPath.reverse part = (l.step part).toPath.reverse := by
  rcases l with ⟨origin, names⟩
  -- The end of the spelling is the last name, or else the end of the origin's.
  rcases List.eq_nil_or_concat names with rfl | ⟨names, last, rfl⟩
  · cases origin with
    | top =>
        cases part with
        | root => exact absurd rfl hpart
        | here | parent | name => rfl
    | above levels =>
        have horigin : toPath ⟨.above levels, []⟩ = List.replicate levels .parent := by
          simp only [toPath, Origin.toPath, List.map_nil, List.append_nil]
        rw [horigin, List.reverse_replicate]
        cases part with
        | root => exact absurd rfl hpart
        | here =>
            rw [step, horigin, List.reverse_replicate]
            cases levels <;> rfl
        | parent =>
            have hup : (step ⟨.above levels, []⟩ .parent).toPath
                = List.replicate (levels + 1) .parent := by
              simp only [step, if_true, toPath, Origin.up, Origin.toPath, List.map_nil,
                List.append_nil]
            rw [hup, List.reverse_replicate]
            cases levels <;> rfl
        | name text =>
            have hdown : (step ⟨.above levels, []⟩ (.name text)).toPath
                = List.replicate levels .parent ++ [.name text] := rfl
            rw [hdown, List.reverse_append, List.reverse_replicate]
            cases levels <;> rfl
  · have hend : toPath ⟨origin, names.concat last⟩ = toPath ⟨origin, names⟩ ++ [.name last] := by
      simp only [toPath, List.concat_eq_append, List.map_append, List.map_cons, List.map_nil,
        List.append_assoc]
    rw [hend, List.reverse_append, List.reverse_singleton, List.singleton_append]
    cases part with
    | root => exact absurd rfl hpart
    | here =>
        rw [step, hend, List.reverse_append]
        rfl
    | parent =>
        have hne : names.concat last ≠ [] := by
          simp only [List.concat_eq_append, ne_eq, List.append_eq_nil_iff, List.cons_ne_self,
            and_false, not_false_eq_true]
        rw [step, if_neg hne, List.concat_eq_append, List.dropLast_concat]
        rfl
    | name text =>
        have hmore : step ⟨origin, names.concat last⟩ (.name text)
            = ⟨origin, names.concat last ++ [text]⟩ := rfl
        rw [hmore]
        simp only [toPath, List.concat_eq_append, List.map_append, List.map_cons, List.map_nil,
          List.reverse_append, List.reverse_singleton, List.singleton_append]
        rfl

theorem foldl_push_toPath (l : Location) (p : Path) (hp : Component.root ∉ p) :
    p.foldl push l.toPath.reverse = (l.walk p).toPath.reverse := by
  induction p generalizing l with
  | nil => rfl
  | cons part rest ih =>
      rw [List.mem_cons, not_or] at hp
      rw [List.foldl_cons, push_toPath l part (Ne.symm hp.1)]
      exact ih _ hp.2

/-- A normalised path spells the place where the path leads. The stack begins with the root, which
    is the spelling of the top, or empty, which is that of the start. -/
theorem normalize_eq_toPath (p : Path) (hp : Rooted p ∨ Component.root ∉ p) :
    p.normalize = (start.walk p).toPath := by
  unfold normalize
  rcases hp with ⟨rest, rfl, hrest⟩ | hp
  · have hrun := foldl_push_toPath ⟨.top, []⟩ rest hrest
    have htop : push [] .root = (toPath ⟨.top, []⟩).reverse := rfl
    rw [List.foldl_cons, htop, hrun, List.reverse_reverse]
    rfl
  · have hrun := foldl_push_toPath start p hp
    have hstart : start.toPath.reverse = [] := rfl
    rw [hstart] at hrun
    rw [hrun, List.reverse_reverse]

theorem rooted_or_toPath (l : Location) : Rooted l.toPath ∨ Component.root ∉ l.toPath := by
  have hnames : Component.root ∉ l.names.map Component.name := by
    intro hmem
    rcases List.mem_map.mp hmem with ⟨text, -, htext⟩
    cases htext
  unfold toPath
  cases l.origin with
  | top => exact Or.inl ⟨_, rfl, hnames⟩
  | above levels =>
      refine Or.inr fun hmem => ?_
      rcases List.mem_append.mp hmem with h | h
      · cases List.eq_of_mem_replicate h
      · exact hnames h

/-- Joined paths lead where a walk leads that goes along the one and then along the other. An
    absolute path leads to the same place from anywhere, so nothing is lost with the first one. -/
theorem normalize_join_eq_toPath (base p : Path) (hbase : Rooted base ∨ Component.root ∉ base)
    (hp : Rooted p ∨ Component.root ∉ p) :
    (base.join p).normalize = ((start.walk base).walk p).toPath := by
  rcases hp with hp | hp
  · have habs := (isAbsolute_iff_rooted p (Or.inl hp)).mpr hp
    rw [join_of_isAbsolute base p habs, normalize_eq_toPath p (Or.inl hp),
      walk_of_rooted (start.walk base) p hp]
  · have hshape : Rooted (base.join p) ∨ Component.root ∉ base.join p :=
      hbase.imp (fun h => rooted_join base p h (Or.inr hp)) fun h => root_not_mem_join base p h hp
    rw [normalize_eq_toPath _ hshape]
    by_cases hempty : base = []
    · rw [hempty, join_nil]
      rfl
    · rw [join_of_ne_nil base p (isAbsolute_of_not_mem p hp) hempty, walk_append, walk_filter_here]

/-- A path that is joined to the spelling of a place leads where a walk on from the place leads. -/
theorem normalize_join (l : Location) (p : Path) (hp : Rooted p ∨ Component.root ∉ p) :
    (l.toPath.join p).normalize = (l.walk p).toPath := by
  rw [normalize_join_eq_toPath l.toPath p (rooted_or_toPath l) hp, walk_toPath]

/-! ### Leading parts of spellings -/

theorem map_name_prefix_iff (names more : List String) :
    names.map Component.name <+: more.map .name ↔ names <+: more := by
  constructor
  · intro h
    induction names generalizing more with
    | nil => exact List.nil_prefix
    | cons name names ih =>
        cases more with
        | nil => exact absurd (List.prefix_nil.mp h) (List.cons_ne_nil _ _)
        | cons other more =>
            rw [List.map_cons, List.map_cons, List.cons_prefix_cons, Component.name.injEq] at h
            rw [List.cons_prefix_cons]
            exact ⟨h.1, ih more h.2⟩
  · intro h
    exact h.map _

/-- Levels above the start and then names: more levels pass for something below if there are no
    names. -/
theorem parents_prefix_iff (levels more : Nat) (names others : List String) :
    List.replicate levels Component.parent ++ names.map .name
        <+: List.replicate more .parent ++ others.map .name ↔
      (levels = more ∧ names <+: others) ∨ (names = [] ∧ levels ≤ more) := by
  -- A `..` is taken off on both sides as long as there is one on both.
  induction levels generalizing more with
  | zero =>
      cases more with
      | zero =>
          rw [List.replicate_zero, List.nil_append, List.nil_append, map_name_prefix_iff]
          constructor
          · intro h
            exact Or.inl ⟨rfl, h⟩
          · rintro (⟨-, h⟩ | ⟨rfl, -⟩)
            · exact h
            · exact List.nil_prefix
      | succ more =>
          rw [List.replicate_zero, List.nil_append, List.replicate_succ, List.cons_append]
          constructor
          · intro h
            -- A name is no `..`, so there can be none.
            cases names with
            | nil => exact Or.inr ⟨rfl, Nat.zero_le _⟩
            | cons name names =>
                rw [List.map_cons, List.cons_prefix_cons] at h
                cases h.1
          · rintro (⟨hlevels, -⟩ | ⟨rfl, -⟩)
            · omega
            · exact List.nil_prefix
  | succ levels ih =>
      cases more with
      | zero =>
          rw [List.replicate_succ, List.cons_append, List.replicate_zero, List.nil_append]
          constructor
          · intro h
            exfalso
            cases others with
            | nil => exact absurd (List.prefix_nil.mp h) (List.cons_ne_nil _ _)
            | cons other others =>
                rw [List.map_cons, List.cons_prefix_cons] at h
                cases h.1
          · rintro (⟨hlevels, -⟩ | ⟨-, hlevels⟩) <;> omega
      | succ more =>
          rw [List.replicate_succ, List.replicate_succ, List.cons_append, List.cons_append,
            List.cons_prefix_cons, ih more]
          constructor
          · rintro ⟨-, ⟨rfl, h⟩ | ⟨hnames, hle⟩⟩
            · exact Or.inl ⟨rfl, h⟩
            · exact Or.inr ⟨hnames, by omega⟩
          · rintro (⟨hlevels, h⟩ | ⟨hnames, hle⟩)
            · exact ⟨rfl, Or.inl ⟨by omega, h⟩⟩
            · exact ⟨rfl, Or.inr ⟨hnames, by omega⟩⟩

/-- The spelling of a place begins with that of another if it lies at or below the other, or if the
    other is spelled by `..` alone, of which there are at least as many, or by nothing. The first is
    what a comparison of spellings is meant to find out, the second is what it finds besides. -/
theorem toPath_prefix_iff (base place : Location) :
    base.toPath <+: place.toPath ↔ place.Below base ∨
      ∃ levels, base = ⟨.above levels, []⟩ ∧
        (levels = 0 ∨ ∃ more, place.origin = .above more ∧ levels ≤ more) := by
  rcases base with ⟨origin, names⟩
  rcases place with ⟨other, others⟩
  unfold toPath Below
  cases origin with
  | top =>
      cases other with
      | top =>
          simp only [Origin.toPath, List.singleton_append, List.cons_prefix_cons, true_and,
            map_name_prefix_iff, Location.mk.injEq, reduceCtorEq, false_and, exists_false, or_false]
      | above more =>
          -- The top is nowhere in the spelling of the place.
          have hroot : Component.root
              ∉ List.replicate more Component.parent ++ others.map .name := by
            intro hmem
            rcases List.mem_append.mp hmem with h | h
            · cases List.eq_of_mem_replicate h
            · rcases List.mem_map.mp h with ⟨text, -, htext⟩
              cases htext
          simp only [Origin.toPath, reduceCtorEq, false_and, Location.mk.injEq, exists_false,
            or_false, iff_false]
          intro h
          exact hroot (h.subset List.mem_cons_self)
  | above levels =>
      cases other with
      | above more =>
          simp only [Origin.toPath, parents_prefix_iff, Origin.above.injEq, Location.mk.injEq]
          constructor
          · rintro (⟨rfl, h⟩ | ⟨rfl, hle⟩)
            · exact Or.inl ⟨rfl, h⟩
            · exact Or.inr ⟨levels, ⟨rfl, rfl⟩, Or.inr ⟨more, rfl, hle⟩⟩
          · rintro (⟨rfl, h⟩ | ⟨_, ⟨rfl, rfl⟩, rfl | ⟨_, rfl, hle⟩⟩)
            · exact Or.inl ⟨rfl, h⟩
            · exact Or.inr ⟨rfl, Nat.zero_le more⟩
            · exact Or.inr ⟨rfl, hle⟩
      | top =>
          simp only [reduceCtorEq, false_and, exists_false, or_false, false_or, Location.mk.injEq,
            Origin.above.injEq]
          constructor
          · intro h
            cases levels with
            | succ levels =>
                simp only [Origin.toPath, List.replicate_succ, List.cons_append, List.nil_append,
                  List.cons_prefix_cons] at h
                cases h.1
            | zero =>
                cases names with
                | nil => exact ⟨0, ⟨rfl, rfl⟩, rfl⟩
                | cons name names =>
                    simp only [Origin.toPath, List.replicate_zero, List.nil_append, List.map_cons,
                      List.cons_append, List.cons_prefix_cons] at h
                    cases h.1
          · rintro ⟨_, ⟨rfl, rfl⟩, rfl⟩
            exact List.nil_prefix

theorem exists_levels_of_not_anchored (base : Location) (h : ¬ base.Anchored) :
    ∃ levels, base = ⟨.above levels, []⟩ := by
  rcases base with ⟨origin, names⟩
  unfold Anchored at h
  rw [not_or, Classical.not_not] at h
  rcases h with ⟨htop, rfl⟩
  cases origin with
  | top => exact absurd rfl htop
  | above levels => exact ⟨levels, rfl⟩

/-- From a place that is spelled by `..` alone, only an absolute path leads to a spelling that does
    not begin with the same `..`. -/
theorem loose_prefix_iff (levels : Nat) (p : Path) (hp : Rooted p ∨ Component.root ∉ p) :
    toPath ⟨.above levels, []⟩ <+: (walk ⟨.above levels, []⟩ p).toPath ↔
      ¬ (p.isAbsolute = true ∧ levels ≠ 0) := by
  rw [toPath_prefix_iff, isAbsolute_iff_rooted p hp]
  by_cases hrooted : Rooted p
  · have hend := origin_walk_of_rooted ⟨.above levels, []⟩ p hrooted
    constructor
    · rintro (⟨horigin, -⟩ | ⟨_, hbase, hzero | ⟨more, horigin, -⟩⟩)
      · rw [hend] at horigin
        cases horigin
      · cases hbase
        exact fun h => h.2 hzero
      · rw [hend] at horigin
        cases horigin
    · intro h
      have hzero : levels = 0 := Classical.not_not.mp fun hlevels => h ⟨hrooted, hlevels⟩
      exact Or.inr ⟨levels, rfl, Or.inl hzero⟩
  · rcases exists_levels_walk ⟨.above levels, []⟩ levels rfl p (hp.resolve_left hrooted) with
      ⟨more, hle, hmore⟩
    exact ⟨fun _ h => hrooted h.1, fun _ => Or.inr ⟨levels, rfl, Or.inr ⟨more, hmore, hle⟩⟩⟩

/-! ### Confinement -/

/-- Confinement answers with the place where the walk ends, if its spelling begins with that of the
    root. Normalising and joining are gone after this. -/
theorem confine?_eq (root path : Path) (hroot : Rooted root ∨ Component.root ∉ root)
    (hpath : Rooted path ∨ Component.root ∉ path) :
    confine? root path
      = if (start.walk root).toPath <+: ((start.walk root).walk path).toPath
        then some ((start.walk root).walk path).toPath else none := by
  have hplace := normalize_join (start.walk root) path hpath
  unfold confine?
  simp only [normalize_eq_toPath root hroot, hplace, List.isPrefixOf_iff_prefix]

/-- Confinement and the walk from the root along the path. Where the walk ends at or below the root,
    the answer is that place. Below a root whose spelling has the top or a name in it nothing else
    is answered, and the answer goes on from the root with names only. Any other root is no
    hindrance: there every relative path has an answer, and below the starting place every absolute
    one too. -/
theorem confine?_iff_below (root path : String) :
    (((start.walk (ofString root)).walk (ofString path)).Below (start.walk (ofString root)) →
      confine? (ofString root) (ofString path)
        = some ((start.walk (ofString root)).walk (ofString path)).toPath) ∧
    ((start.walk (ofString root)).Anchored →
      ∀ p, confine? (ofString root) (ofString path) = some p →
        ((start.walk (ofString root)).walk (ofString path)).Below (start.walk (ofString root)) ∧
        p = ((start.walk (ofString root)).walk (ofString path)).toPath ∧
        ∃ names : List String, p = (ofString root).normalize ++ names.map .name) ∧
    (¬ (start.walk (ofString root)).Anchored →
      confine? (ofString root) (ofString path)
        = if (ofString path).isAbsolute ∧ start.walk (ofString root) ≠ start then none
          else some ((start.walk (ofString root)).walk (ofString path)).toPath) := by
  have hroot : Rooted (ofString root) ∨ Component.root ∉ ofString root := rooted_or_ofChars _
  have hpath : Rooted (ofString path) ∨ Component.root ∉ ofString path := rooted_or_ofChars _
  rw [confine?_eq _ _ hroot hpath, normalize_eq_toPath _ hroot]
  -- Only the place of the root matters from here on, and the walk from it.
  generalize ofString path = path at hpath ⊢
  generalize start.walk (ofString root) = base
  refine ⟨fun hbelow => ?_, fun hanchored p hp => ?_, fun hloose => ?_⟩
  · rw [if_pos ((toPath_prefix_iff _ _).mpr (Or.inl hbelow))]
  · split at hp
    · rename_i hprefix
      rw [Option.some.injEq] at hp
      rcases (toPath_prefix_iff _ _).mp hprefix with hbelow | ⟨levels, hbase, -⟩
      · refine ⟨hbelow, hp.symm, ?_⟩
        rcases hbelow with ⟨horigin, names, hnames⟩
        refine ⟨names, ?_⟩
        rw [← hp, toPath, toPath, horigin, ← hnames, List.map_append, List.append_assoc]
      · -- Such a root is spelled by `..` alone.
        rw [hbase] at hanchored
        rcases hanchored with h | h
        · cases h
        · exact absurd rfl h
    · cases hp
  · rcases exists_levels_of_not_anchored base hloose with ⟨levels, rfl⟩
    have hstart : (⟨.above levels, []⟩ : Location) ≠ start ↔ levels ≠ 0 := by
      simp only [start, ne_eq, Location.mk.injEq, Origin.above.injEq, and_true]
    by_cases hout : path.isAbsolute = true ∧ levels ≠ 0
    · rw [if_neg fun h => (loose_prefix_iff levels path hpath).mp h hout,
        if_pos ⟨hout.1, hstart.mpr hout.2⟩]
    · rw [if_pos ((loose_prefix_iff levels path hpath).mpr hout),
        if_neg fun h => hout ⟨h.1, hstart.mp h.2⟩]

/-- Below a root with a name in it: a detour is followed, and the way out is refused. -/
theorem confine?_iff_below_project :
    confine? (ofString "../proj") (ofString "out/../map.json")
        = some [.parent, .name "proj", .name "map.json"] ∧
      (∃ names : List String, [.parent, .name "proj", .name "map.json"]
        = (ofString "../proj").normalize ++ names.map .name) ∧
      confine? (ofString "..") (ofString "../map.json")
        = some [.parent, .parent, .name "map.json"] := by
  have hanswer := (confine?_iff_below "../proj" "out/../map.json").1 (by decide +kernel)
  have hplace : ((start.walk (ofString "../proj")).walk (ofString "out/../map.json")).toPath
      = [.parent, .name "proj", .name "map.json"] := by decide +kernel
  rw [hplace] at hanswer
  refine ⟨hanswer, ?_, ?_⟩
  · exact ((confine?_iff_below "../proj" "out/../map.json").2.1 (by decide +kernel) _ hanswer).2.2
  · rw [(confine?_iff_below ".." "../map.json").2.2 (by decide +kernel)]
    decide +kernel

/-- A root that is spelled by nothing or by `..` alone is left by a relative path, and a root that
    is spelled by nothing by an absolute one too. -/
theorem confine?_leaves_root :
    confine? (ofString ".") (ofString "../outside.json") = some [.parent, .name "outside.json"] ∧
    confine? (ofString "") (ofString "/etc/passwd") = some [.root, .name "etc", .name "passwd"] ∧
    confine? (ofString "..") (ofString "../x") = some [.parent, .parent, .name "x"] ∧
    ∀ names : List String,
      [Component.parent, .name "outside.json"] ≠ (ofString ".").normalize ++ names.map .name := by
  refine ⟨by decide +kernel, by decide +kernel, by decide +kernel, fun names h => ?_⟩
  have hnormal : (ofString ".").normalize = [] := by decide +kernel
  rw [hnormal, List.nil_append] at h
  cases names with
  | nil => cases h
  | cons name names => cases h

end Path

end ClassVeil
