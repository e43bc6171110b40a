import ClassVeil.Proofs.Path.Location

/-!
# One spelling for each place

Many paths lead to one place. Normalising chooses the one without detours: it has no `.`, no `..`
where there is a name to take off instead, and none at all where there is the root to stay at. A
path of that shape is `Normal`. There is one for each place, so two paths have the same normal form
exactly if they lead to the same place.

From this everything else follows without another look at the stack that normalising keeps. A normal
form is normal already, so it is its own normal form. And where a walk goes on to does not depend on
how it came to where it is, so a path can be normalised before another one is joined to it, even if
the other one climbs back through all of it and beyond its start.

A program hands paths around as texts, and the text of a normal form is read again wherever it goes.
Nothing changes by this, because its names are names that were read before.

The shape is defined by what does not occur in a path, so that it can be checked against a path at
hand. What is used of it is that such a path is the spelling of a place: behind the first name there
are only names, and in front of it there is the root or there are only `..`.

## Main definitions

* `Path.Normal`: A path without detours.
* `Path.normalText`: The text of a normal form.

## Theorems

* `normal_toPath`, `exists_toPath_of_normal`: Normal paths are the spellings of places.
* `normalize_eq_self_iff`: The paths that normalising leaves alone are the normal ones.
* `normalize_eq_normalize_iff`: Normal forms tell places apart, and nothing else.
* `normalize_join_normalize`: A path can be normalised before another one is joined to it.
* `ofString_normalText`: The text of a normal form is read as that normal form.
* `normalize_canonical`: Normalising is canonical.
-/

namespace ClassVeil

namespace Path

open Location

/-- A path without detours: no `.`, no `..` behind a name, and no `..` at all behind the root. -/
structure Normal (p : Path) : Prop where
  noHere : Component.here ∉ p
  noReturn : p.Pairwise fun front behind => ∀ text, front = .name text → behind ≠ .parent
  noParent : p.isAbsolute = true → Component.parent ∉ p

/-! ### Spellings of places -/

theorem eq_of_mem_origin (origin : Origin) (part : Component) (h : part ∈ origin.toPath) :
    part = .root ∨ part = .parent := by
  cases origin with
  | top => exact Or.inl (List.mem_singleton.mp h)
  | above levels => exact Or.inr (List.eq_of_mem_replicate h)

theorem isAbsolute_toPath (l : Location) : l.toPath.isAbsolute = true ↔ l.origin = .top := by
  rcases l with ⟨origin, names⟩
  cases origin with
  | top => exact ⟨fun _ => rfl, fun _ => rfl⟩
  | above levels =>
      have hrelative : (toPath ⟨.above levels, names⟩).isAbsolute = false := by
        cases levels with
        | succ levels => rfl
        | zero => cases names <;> rfl
      rw [hrelative]
      simp only [Bool.false_eq_true, reduceCtorEq]

/-- The spelling of a place has no detours. This is one half of the reason why normalising twice is
    normalising once; the other is that such a path is left alone. -/
theorem normal_toPath (l : Location) : Normal l.toPath := by
  -- In front of the names there are none, and behind the first one there is nothing else.
  have horigin : ∀ part ∈ l.origin.toPath, part ≠ .here ∧ ∀ text, part ≠ .name text := by
    intro part hpart
    rcases eq_of_mem_origin _ _ hpart with rfl | rfl
    · exact ⟨Component.noConfusion, fun _ => Component.noConfusion⟩
    · exact ⟨Component.noConfusion, fun _ => Component.noConfusion⟩
  have hname : ∀ part ∈ l.names.map Component.name, part ≠ .here ∧ part ≠ .parent := by
    intro part hpart
    rcases List.mem_map.mp hpart with ⟨text, -, rfl⟩
    exact ⟨Component.noConfusion, Component.noConfusion⟩
  -- Two components are both in front, both among the names, or one of each.
  refine ⟨fun hmem => ?_, List.pairwise_append.mpr ⟨?_, ?_, ?_⟩, fun habs hmem => ?_⟩
  · rcases List.mem_append.mp hmem with h | h
    · exact (horigin _ h).1 rfl
    · exact (hname _ h).1 rfl
  · exact List.pairwise_of_forall_mem_list fun front hfront _ _ text htext =>
      absurd htext ((horigin front hfront).2 text)
  · exact List.pairwise_of_forall_mem_list fun _ _ behind hbehind _ _ => (hname behind hbehind).2
  · exact fun front hfront _ _ text htext => absurd htext ((horigin front hfront).2 text)
  · rw [toPath, (isAbsolute_toPath l).mp habs] at hmem
    rcases List.mem_append.mp hmem with h | h
    · cases List.mem_singleton.mp h
    · exact (hname _ h).2 rfl

theorem exists_names (p : Path) (hroot : Component.root ∉ p) (hhere : Component.here ∉ p)
    (hparent : Component.parent ∉ p) : ∃ names : List String, p = names.map .name := by
  induction p with
  | nil => exact ⟨[], rfl⟩
  | cons part rest ih =>
      rw [List.mem_cons, not_or] at hroot hhere hparent
      rcases ih hroot.2 hhere.2 hparent.2 with ⟨names, rfl⟩
      cases part with
      | root => exact absurd rfl hroot.1
      | here => exact absurd rfl hhere.1
      | parent => exact absurd rfl hparent.1
      | name text => exact ⟨text :: names, rfl⟩

/-- Behind the first name of a relative path without detours there are only names. In front of it
    there are only steps up, so such a path is a number and a list of names. -/
theorem exists_levels_names (p : Path) (hroot : Component.root ∉ p) (hhere : Component.here ∉ p)
    (hreturn : p.Pairwise fun front behind => ∀ text, front = .name text → behind ≠ .parent) :
    ∃ (levels : Nat) (names : List String),
      p = List.replicate levels .parent ++ names.map .name := by
  induction p with
  | nil => exact ⟨0, [], rfl⟩
  | cons part rest ih =>
      rw [List.mem_cons, not_or] at hroot hhere
      rw [List.pairwise_cons] at hreturn
      cases part with
      | root => exact absurd rfl hroot.1
      | here => exact absurd rfl hhere.1
      | parent =>
          rcases ih hroot.2 hhere.2 hreturn.2 with ⟨levels, names, rfl⟩
          exact ⟨levels + 1, names, rfl⟩
      | name text =>
          have hparent : Component.parent ∉ rest :=
            fun hmem => hreturn.1 .parent hmem text rfl rfl
          rcases exists_names rest hroot.2 hhere.2 hparent with ⟨names, rfl⟩
          exact ⟨0, text :: names, rfl⟩

/-- A path without detours is the spelling of a place. If it is absolute, only names are left behind
    the root; if it is not, some `..` may come first. -/
theorem exists_toPath_of_normal (p : Path) (hp : Rooted p ∨ Component.root ∉ p)
    (hnormal : Normal p) : ∃ l : Location, p = l.toPath := by
  rcases hp with ⟨rest, rfl, hroot⟩ | hroot
  · -- Behind the root nothing but names is left.
    have hhere := hnormal.noHere
    have hparent := hnormal.noParent rfl
    rw [List.mem_cons, not_or] at hhere hparent
    rcases exists_names rest hroot hhere.2 hparent.2 with ⟨names, rfl⟩
    exact ⟨⟨.top, names⟩, rfl⟩
  · rcases exists_levels_names p hroot hnormal.noHere hnormal.noReturn with ⟨levels, names, rfl⟩
    exact ⟨⟨.above levels, names⟩, rfl⟩

/-! ### Normal forms -/

theorem normalize_toPath (l : Location) : l.toPath.normalize = l.toPath := by
  rw [normalize_eq_toPath _ (rooted_or_toPath l), walk_toPath]

theorem normal_normalize (p : Path) (hp : Rooted p ∨ Component.root ∉ p) : Normal p.normalize := by
  rw [normalize_eq_toPath p hp]
  exact normal_toPath _

/-- The paths that normalising leaves alone are the normal ones. A normal path is the spelling of a
    place, and the walk along it leads to that place and is spelled the same. -/
theorem normalize_eq_self_iff (p : Path) (hp : Rooted p ∨ Component.root ∉ p) :
    p.normalize = p ↔ Normal p := by
  constructor
  · intro h
    rw [← h]
    exact normal_normalize p hp
  · intro h
    rcases exists_toPath_of_normal p hp h with ⟨l, rfl⟩
    exact normalize_toPath l

theorem normalize_normalize (p : Path) (hp : Rooted p ∨ Component.root ∉ p) :
    p.normalize.normalize = p.normalize := by
  rw [normalize_eq_toPath p hp, normalize_toPath]

/-- A normal form is absolute exactly if the path is. -/
theorem isAbsolute_normalize (p : Path) (hp : Rooted p ∨ Component.root ∉ p) :
    p.normalize.isAbsolute = p.isAbsolute := by
  rw [Bool.eq_iff_iff, normalize_eq_toPath p hp, isAbsolute_toPath, isAbsolute_iff_rooted p hp]
  constructor
  · intro htop
    refine hp.resolve_right fun hroot => ?_
    -- Without a root in the path the walk counts levels from its start.
    rcases exists_levels_walk start 0 rfl p hroot with ⟨levels, -, hlevels⟩
    rw [hlevels] at htop
    cases htop
  · exact origin_walk_of_rooted start p

/-- Normal forms tell places apart, and nothing else. One direction is that a place can be told from
    its spelling. -/
theorem normalize_eq_normalize_iff (p q : Path) (hp : Rooted p ∨ Component.root ∉ p)
    (hq : Rooted q ∨ Component.root ∉ q) :
    p.normalize = q.normalize ↔ start.walk p = start.walk q := by
  rw [normalize_eq_toPath p hp, normalize_eq_toPath q hq]
  constructor
  · intro h
    rw [← walk_toPath (start.walk p), h, walk_toPath]
  · intro h
    rw [h]

/-- A path can be normalised before another one is joined to it, since both lead to the same place
    and the walk goes on from there. -/
theorem normalize_join_normalize (p q : Path) (hp : Rooted p ∨ Component.root ∉ p)
    (hq : Rooted q ∨ Component.root ∉ q) :
    (p.normalize.join q).normalize = (p.join q).normalize := by
  rw [normalize_eq_toPath p hp, normalize_join _ q hq, normalize_join_eq_toPath p q hp hq]

/-! ### Texts of normal forms -/

/-- The names of the place reached are names that the walk met. A walk makes up no names, and those
    that are dropped on a step up are not put back. -/
theorem name_mem_of_mem_walk (l : Location) (p : Path) (text : String)
    (h : text ∈ (l.walk p).names) : text ∈ l.names ∨ Component.name text ∈ p := by
  -- The names at the end are those at hand after the first step, or come later.
  induction p generalizing l with
  | nil => exact Or.inl h
  | cons part rest ih =>
      rcases ih (l.step part) h with hstep | hrest
      · cases part with
        | root => cases hstep
        | here => exact Or.inl hstep
        | parent =>
            -- Going up takes a name off and adds none.
            rw [Location.step] at hstep
            split at hstep
            · exact Or.inl hstep
            · exact Or.inl (List.dropLast_subset _ hstep)
        | name other =>
            rcases List.mem_append.mp hstep with hold | hnew
            · exact Or.inl hold
            · rw [List.mem_singleton.mp hnew]
              exact Or.inr List.mem_cons_self
      · exact Or.inr (List.mem_cons_of_mem part hrest)

/-- The text of the normal form of a path. -/
def normalText (text : String) : String := (ofString text).normalize.toString

/-- The text of a normal form is read as that normal form. For this its components have to be
    spelled as they were read, and all of them were: the names are names of the text, and `..` is
    spelled like itself. -/
theorem ofString_normalText (text : String) :
    ofString (normalText text) = (ofString text).normalize := by
  have hshape : Rooted (ofString text) ∨ Component.root ∉ ofString text := rooted_or_ofChars _
  rw [normalText, normalize_eq_toPath _ hshape]
  refine ofString_toString _ (rooted_or_toPath _) fun part hpart hroot => ?_
  rcases List.mem_append.mp hpart with horigin | hname
  · rw [(eq_of_mem_origin _ _ horigin).resolve_left hroot]
    exact ⟨by decide, by decide⟩
  · rcases List.mem_map.mp hname with ⟨name, hmem, rfl⟩
    -- It is a name of the text, so it is spelled as it was read.
    have hmet := (name_mem_of_mem_walk start _ name hmem).resolve_left List.not_mem_nil
    exact spelled_of_mem_parts text.toList _
      (mem_parts_of_mem_ofChars _ _ hmet Component.noConfusion Component.noConfusion)

/-! ### Canonical forms -/

/-- Normalising is canonical. A normal form has no `.`, no `..` behind a name, and no `..` at all if
    the path is absolute, which it is exactly if the normal form is. It is its own normal form, as
    are the paths of that shape and no others, and two paths have the same one exactly if they lead
    to the same place. A path can be normalised before another one is joined to it; an absolute one
    does not depend on what it is joined to. It is the same with texts: a text is absolute if it
    starts with a slash, joined texts are read as joined paths, and the text of a normal form is
    read as that normal form. -/
theorem normalize_canonical (a b : String) :
    (ofString a).normalize.Normal ∧
    ((ofString a).isAbsolute = true → Component.parent ∉ (ofString a).normalize) ∧
    (ofString a).normalize.isAbsolute = (ofString a).isAbsolute ∧
    (ofString a).normalize.normalize = (ofString a).normalize ∧
    ((ofString a).normalize = ofString a ↔ (ofString a).Normal) ∧
    ((ofString a).normalize = (ofString b).normalize ↔
      start.walk (ofString a) = start.walk (ofString b)) ∧
    ((ofString a).join (ofString b)).normalize
      = ((ofString a).normalize.join (ofString b)).normalize ∧
    ((ofString b).isAbsolute = true → (ofString a).join (ofString b) = ofString b) ∧
    ((ofString a).isAbsolute = true ↔ a.toList.head? = some '/') ∧
    ofString (joinText a b) = (ofString a).join (ofString b) ∧
    ofString (normalText a) = (ofString a).normalize ∧
    normalText (normalText a) = normalText a ∧
    normalText (joinText a b) = normalText (joinText (normalText a) b) := by
  have ha : Rooted (ofString a) ∨ Component.root ∉ ofString a := rooted_or_ofChars _
  have hb : Rooted (ofString b) ∨ Component.root ∉ ofString b := rooted_or_ofChars _
  have hnormal := normal_normalize _ ha
  have habsolute := isAbsolute_normalize _ ha
  have hjoin := normalize_join_normalize _ _ ha hb
  have htwice := normalize_normalize _ ha
  refine ⟨hnormal, fun habs => hnormal.noParent (habsolute.trans habs), habsolute, htwice,
    normalize_eq_self_iff _ ha, normalize_eq_normalize_iff _ _ ha hb, hjoin.symm,
    join_of_isAbsolute _ _, isAbsolute_ofChars _, ofString_joinText a b, ofString_normalText a,
    ?_, ?_⟩
  · rw [normalText, ofString_normalText, htwice, normalText]
  · rw [normalText, normalText, ofString_joinText, ofString_joinText, ofString_normalText, hjoin]

/-- A path that climbs back through the one it is joined to, and above the start of that one. -/
theorem normalize_canonical_climb :
    normalText (joinText "lib/./css" "../../../src") = "../src" ∧
    normalText (joinText (normalText "lib/./css") "../../../src") = "../src" ∧
    Component.parent ∉ (ofString "/../srv//www/..").normalize ∧
    (ofString "lib/./css").join (ofString "/srv/./www") = ofString "/srv/./www" := by
  rcases normalize_canonical "lib/./css" "../../../src" with
    ⟨-, -, -, -, -, -, -, -, -, -, -, -, hclimb⟩
  rcases normalize_canonical "lib/./css" "/srv/./www" with ⟨-, -, -, -, -, -, -, hjoin, -⟩
  have hplace : normalText (joinText "lib/./css" "../../../src") = "../src" := by decide +kernel
  exact ⟨hplace, hclimb.symm.trans hplace,
    (normalize_canonical "/../srv//www/.." "").2.1 (by decide +kernel), hjoin (by decide +kernel)⟩

end Path

end ClassVeil
