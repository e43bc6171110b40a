import ClassVeil.Store.FileSystem

/-!
# Replacing a file

What a replacement does to the place it is about. When it succeeds, the file is found there with the
bytes that were given. When it fails, whatever was found there is still found, unchanged.

Both rest on how the way to a place and the making of directories fit together. A place is found by
walking through directories, and making directories along a way that can be walked changes nothing.
So a failure comes either before anything was there, or after the directories, when the last step
refuses and leaves the table as it is.

The table of a file system is a list of places with their entries, and nothing in it says that the
place above an entry is a directory. So being in the table and being found are two things, and the
lemmas on the table come first, those on walks after them. A walk is a recursion over names, and so
is the making of directories; they are compared by induction over the names, with the base moving
along and the bound on depths kept by that.

Somebody else may act in other places between two looks. `SameAt` is what such a change may do as
far as one place is concerned, and `Settled` is what it must not disturb: an entry that is in the
table without being reachable could come to light when a directory above it is made.

## Main definitions

* `FileSystem.Settled`: What is in the table for a place is found there.
* `FileSystem.SameAt`: A place looks the same in two file systems.

## Theorems

* `makeAlong_of_walk`: Making directories along a way that can be walked changes nothing.
* `walk_of_makeAlong`: Directories that were made can be walked through.
* `find_replace`: After a replacement the file is found.
* `find_replace_error`: After a failure, what was found is found.
* `sameAt_replace_error`: A failed replacement does not change what a settled place looks like.
-/

namespace ClassVeil

namespace FileSystem

/-! ### The table -/

/-- The table answers with the new entry for its place and as before for all others. The entry may
    have replaced one or come in addition. -/
theorem lookup_putEntry (place other : Place) (entry : Entry) (entries : List (Place × Entry)) :
    (putEntry place entry entries).lookup other
      = if other = place then some entry else entries.lookup other := by
  -- An entry for the place is overwritten where it is, and put at the end if there is none.
  induction entries with
  | nil =>
      rw [putEntry, List.lookup_cons]
      by_cases h : other = place
      · rw [if_pos h, h, beq_self_eq_true]
      · rw [if_neg h, beq_eq_false_iff_ne.mpr h]
  | cons pair rest ih =>
      rcases pair with ⟨p, e⟩
      rw [putEntry]
      by_cases hp : p = place
      · rw [if_pos hp, List.lookup_cons, List.lookup_cons, hp]
        by_cases h : other = place
        · rw [if_pos h, h, beq_self_eq_true]
        · rw [if_neg h, beq_eq_false_iff_ne.mpr h]
      · rw [if_neg hp, List.lookup_cons, List.lookup_cons, ih]
        by_cases h : other = place
        · have hop : other ≠ p := fun hcon => hp (hcon.symm.trans h)
          rw [beq_eq_false_iff_ne.mpr hop, if_pos h]
        · rw [if_neg h, if_neg h]

theorem entryAt?_put (fs : FileSystem) (place other : Place) (entry : Entry) (hplace : place ≠ []) :
    (fs.put place entry).entryAt? other
      = if other = place then some entry else fs.entryAt? other := by
  rw [entryAt?, entryAt?]
  by_cases hroot : other = []
  · rw [if_pos hroot, if_pos hroot, hroot, if_neg (Ne.symm hplace)]
  · rw [if_neg hroot, if_neg hroot]
    exact lookup_putEntry place other entry fs.entries

theorem entryAt?_putNow (fs : FileSystem) (place other : Place) (entry : Nat → Entry)
    (hplace : place ≠ []) : (fs.putNow place entry).entryAt? other
      = if other = place then some (entry fs.clock) else fs.entryAt? other :=
  entryAt?_put fs place other (entry fs.clock) hplace

/-! ### Walking -/

/-- A walk depends on the entries along its way only, none of which is deeper than its end. The
    bound is on depths and not on the way itself, since that is all that is needed of a change below
    the end. -/
theorem walk_congr (fs gs : FileSystem) (base : Place) (entry : Entry) (names : List String)
    (h : ∀ q : Place, q.length ≤ base.length + names.length → fs.entryAt? q = gs.entryAt? q) :
    fs.walk base entry names = gs.walk base entry names := by
  -- The bound is kept by the steps of a walk: the base gets longer by what the names lose.
  induction names generalizing base entry with
  | nil => rw [walk, walk]
  | cons name rest ih =>
      cases entry with
      | file modified bytes => rw [walk, walk]
      | directory modified =>
          have hstep : fs.entryAt? (base ++ [name]) = gs.entryAt? (base ++ [name]) := by
            refine h _ ?_
            simp only [List.length_append, List.length_cons, List.length_nil]
            omega
          have hrest : ∀ e, fs.walk (base ++ [name]) e rest = gs.walk (base ++ [name]) e rest := by
            intro e
            refine ih _ e (fun q hq => h q ?_)
            simp only [List.length_append, List.length_cons, List.length_nil] at hq ⊢
            omega
          rw [walk, walk, hstep]
          split
          · rfl
          · split
            · rfl
            · exact hrest _

/-- A walk along some names and then along others is a walk along all of them, unless it fails on
    the way. -/
theorem walk_append (fs : FileSystem) (base : Place) (entry : Entry) (names more : List String) :
    fs.walk base entry (names ++ more) = match fs.walk base entry names with
      | .error e => .error e
      | .ok entry => fs.walk (base ++ names) entry more := by
  -- On both sides the first step is the same, and it fails on both or on neither.
  induction names generalizing base entry with
  | nil => rw [List.nil_append, List.append_nil, walk]
  | cons name rest ih =>
      cases entry with
      | file modified bytes => rw [List.cons_append, walk, walk]
      | directory modified =>
          rw [List.cons_append, walk, walk]
          split
          · rfl
          · cases fs.entryAt? (base ++ [name]) with
            | none => rfl
            | some next =>
                simp only []
                rw [ih, List.append_assoc, List.singleton_append]

/-- One step of a walk, out of a directory. -/
theorem walk_singleton (fs : FileSystem) (base : Place) (modified : Nat) (name : String) :
    fs.walk base (.directory modified) [name] = if isTooLong name then .error .nameTooLong
      else match fs.entryAt? (base ++ [name]) with
        | none => .error .notFound
        | some entry => .ok entry := by
  rw [walk]
  split
  · rfl
  · cases fs.entryAt? (base ++ [name]) with
    | none => rfl
    | some entry =>
        simp only []
        rw [walk]

/-! ### Making directories -/

/-- Making directories along a way that can be walked changes nothing: all but its end are
    directories already. The end is left out because it may be a file, which is what will be
    replaced. -/
theorem makeAlong_of_walk (fs : FileSystem) (base : Place) (modified : Nat) (names : List String)
    (entry : Entry) (h : fs.walk base (.directory modified) names = .ok entry) :
    makeAlong fs base names.dropLast = (none, fs) := by
  -- The last name is never made, so the induction is on lists with two names at least.
  induction names generalizing base modified with
  | nil => rw [List.dropLast_nil, makeAlong]
  | cons name rest ih =>
      cases rest with
      | nil => rw [List.dropLast_singleton, makeAlong]
      | cons next rest =>
          rw [walk] at h
          rw [List.dropLast_cons_of_ne_nil (List.cons_ne_nil next rest), makeAlong]
          split at h
          · cases h
          · rename_i hlong
            rw [if_neg hlong]
            cases hentry : fs.entryAt? (base ++ [name]) with
            | none => rw [hentry] at h; cases h
            | some found =>
                rw [hentry] at h
                -- A walk that goes on has come to a directory, so none has to be made here.
                cases found with
                | directory m => exact ih _ m h
                | file m bytes => simp only [walk] at h; cases h

/-- Making directories does not touch entries above its way or deeper than its end. What it makes
    lies on the way, and a place says by its length that it does not. -/
theorem entryAt?_makeAlong (fs fs' : FileSystem) (base : Place) (names : List String)
    (failure : Option OsError) (h : makeAlong fs base names = (failure, fs')) (q : Place)
    (hq : q.length ≤ base.length ∨ base.length + names.length < q.length) :
    fs'.entryAt? q = fs.entryAt? q := by
  -- Each directory made is one deeper than the base, and the base moves along.
  induction names generalizing fs base with
  | nil =>
      rw [makeAlong, Prod.mk.injEq] at h
      rw [h.2]
  | cons name rest ih =>
      have hlen : (base ++ [name]).length = base.length + 1 := by
        rw [List.length_append, List.length_singleton]
      -- The directory that is made next is neither above the base nor deeper than the end.
      have hdeep : q.length ≤ (base ++ [name]).length
          ∨ (base ++ [name]).length + rest.length < q.length := by
        rw [List.length_cons] at hq
        omega
      rw [makeAlong] at h
      split at h
      · rw [Prod.mk.injEq] at h
        rw [h.2]
      · split at h
        · rw [ih _ _ h hdeep, entryAt?_putNow _ _ _ _ (List.append_ne_nil_of_right_ne_nil _
            (List.cons_ne_nil name [])), if_neg]
          rintro rfl
          rw [List.length_cons] at hq
          omega
        · exact ih _ _ h hdeep
        · rw [Prod.mk.injEq] at h
          rw [h.2]

/-- Directories that were made can be walked through. Those made later are deeper, so the walk
    through the first ones is not disturbed by them. -/
theorem walk_of_makeAlong (fs fs' : FileSystem) (base : Place) (names : List String)
    (h : makeAlong fs base names = (none, fs')) (modified : Nat) :
    ∃ m, fs'.walk base (.directory modified) names = .ok (.directory m) := by
  induction names generalizing fs base modified with
  | nil => exact ⟨modified, by rw [walk]⟩
  | cons name rest ih =>
      have hne : base ++ [name] ≠ [] :=
        List.append_ne_nil_of_right_ne_nil _ (List.cons_ne_nil name [])
      rw [makeAlong] at h
      split at h
      · cases h
      · rename_i hlong
        -- The next name leads to a directory, one that was there or one that is made now.
        have hdir : ∃ gs m, makeAlong gs (base ++ [name]) rest = (none, fs')
            ∧ gs.entryAt? (base ++ [name]) = some (.directory m) := by
          split at h
          · exact ⟨_, _, h, by rw [entryAt?_putNow _ _ _ _ hne, if_pos rfl]⟩
          · rename_i m hm
            exact ⟨fs, m, h, hm⟩
          · cases h
        rcases hdir with ⟨gs, m, hmake, hentry⟩
        rcases ih gs (base ++ [name]) hmake m with ⟨k, hk⟩
        refine ⟨k, ?_⟩
        rw [walk, if_neg hlong, entryAt?_makeAlong gs fs' _ _ _ hmake _ (Or.inl (Nat.le_refl _)),
          hentry]
        exact hk

/-! ### Replacing -/

theorem place_eq_append (place : Place) (name : String) (h : place.getLast? = some name) :
    place = place.dropLast ++ [name] := by
  rcases List.getLast?_eq_some_iff.mp h with ⟨init, rfl⟩
  rw [List.dropLast_concat]

theorem hasNul_append (place : Place) (name : String) :
    Place.hasNul (place ++ [name]) = (place.hasNul || name.toList.contains '\x00') := by
  rw [Place.hasNul, Place.hasNul, List.any_append, List.any_cons, List.any_nil, Bool.or_false]

theorem find_append (fs : FileSystem) (place : Place) (name : String) (modified : Nat)
    (hnul : place.hasNul = false) (hname : name.toList.contains '\x00' = false)
    (hwalk : fs.walk [] (.directory 0) place = .ok (.directory modified)) :
    fs.find (place ++ [name]) = if isTooLong name then .error .nameTooLong
      else match fs.entryAt? (place ++ [name]) with
        | none => .error .notFound
        | some entry => .ok entry := by
  rw [find, hasNul_append, hnul, hname, walk_append, hwalk]
  simp only [Bool.or_self, Bool.false_eq_true, if_false, List.nil_append]
  exact walk_singleton fs place modified name

/-- A renaming that succeeds has a name to give, which is no name of a directory that is there, and
    puts the file into the table. This is its inversion: all checks it makes are in the conclusion.
    -/
theorem rename_ok (fs fs' : FileSystem) (place : Place) (bytes : List UInt8)
    (h : fs.rename place bytes = (none, fs')) :
    ∃ name, place.getLast? = some name ∧ name.toList.contains '\x00' = false ∧
      ¬ isTooLong name = true ∧ fs' = fs.putNow place (.file · bytes) := by
  rw [rename] at h
  cases hlast : place.getLast? with
  | none => rw [hlast] at h; cases h
  | some name =>
      rw [hlast] at h
      simp only [] at h
      split at h
      · cases h
      · rename_i hname
        split at h
        · cases h
        · rename_i hlong
          refine ⟨name, rfl, Bool.eq_false_iff.mpr hname, hlong, ?_⟩
          split at h
          · cases h
          · exact (Prod.mk.inj h).2.symm

/-- A renaming that fails changes nothing. -/
theorem rename_error (fs fs' : FileSystem) (place : Place) (bytes : List UInt8) (e : OsError)
    (h : fs.rename place bytes = (some e, fs')) : fs' = fs := by
  rw [rename] at h
  split at h
  · exact (Prod.mk.inj h).2.symm
  · split at h
    · exact (Prod.mk.inj h).2.symm
    · split at h
      · exact (Prod.mk.inj h).2.symm
      · split at h
        · exact (Prod.mk.inj h).2.symm
        · cases h

/-- A replacement that succeeds has made the directories above the place, if they were not there,
    and has then put the file into the table. -/
theorem replace_ok (fs fs' : FileSystem) (place : Place) (bytes : List UInt8)
    (h : fs.replace place bytes = (none, fs')) :
    ∃ gs, fs.makeDirectories place.dropLast = (none, gs) ∧ gs.rename place bytes = (none, fs') := by
  rw [replace] at h
  cases hmake : fs.makeDirectories place.dropLast with
  | mk failure gs =>
      rw [hmake] at h
      cases failure with
      | some e => cases h
      | none => exact ⟨gs, rfl, h⟩

/-- After a replacement the file is found, with the bytes that were given. The directories above it
    can be walked since they were made, and the last step finds the entry that was put there. -/
theorem find_replace (fs fs' : FileSystem) (place : Place) (bytes : List UInt8)
    (h : fs.replace place bytes = (none, fs')) :
    (∃ time, fs'.find place = .ok (.file time bytes) ∧ fs'.entryAt? place = some (.file time bytes))
      ∧ place ≠ [] := by
  rcases replace_ok fs fs' place bytes h with ⟨gs, hmake, hrename⟩
  rcases rename_ok gs fs' place bytes hrename with ⟨name, hlast, hname, hlong, hput⟩
  have hplace := place_eq_append place name hlast
  have hne : place ≠ [] := by
    rintro rfl
    cases hlast
  -- A name with a null character would have failed by now.
  rw [makeDirectories] at hmake
  split at hmake
  · cases hmake
  · rename_i hnul
    rcases walk_of_makeAlong fs gs [] place.dropLast hmake 0 with ⟨m, hm⟩
    have hentry : fs'.entryAt? place = some (.file gs.clock bytes) := by
      rw [hput, entryAt?_putNow _ _ _ _ hne, if_pos rfl]
    -- The file is deeper than the directories above it, so the way to these is still the same.
    have hwalk : fs'.walk [] (.directory 0) place.dropLast = .ok (.directory m) := by
      rw [← hm]
      refine walk_congr fs' gs _ _ _ (fun q hq => ?_)
      rw [hput, entryAt?_putNow _ _ _ _ hne, if_neg]
      rintro rfl
      have hlen := congrArg List.length hplace
      simp only [List.length_append, List.length_cons, List.length_nil] at hlen hq
      omega
    have hfind := find_append fs' place.dropLast name m (Bool.eq_false_iff.mpr hnul) hname hwalk
    rw [← hplace, hentry, if_neg hlong] at hfind
    exact ⟨⟨gs.clock, hfind, hentry⟩, hne⟩

theorem makeDirectories_of_find (fs : FileSystem) (place : Place) (entry : Entry)
    (h : fs.find place = .ok entry) : fs.makeDirectories place.dropLast = (none, fs) := by
  rw [find] at h
  split at h
  · cases h
  · rename_i hnul
    -- A part of a good name is good.
    have hdrop : ¬ Place.hasNul place.dropLast = true := by
      intro hcon
      rw [Place.hasNul, List.any_eq_true] at hcon
      rcases hcon with ⟨name, hmem, hname⟩
      exact hnul (List.any_eq_true.mpr ⟨name, List.dropLast_subset place hmem, hname⟩)
    rw [makeDirectories, if_neg hdrop]
    exact makeAlong_of_walk fs [] 0 place entry h

/-- After a failure, what was found in the place is found there, unchanged. That it was found means
    that its directories are there, so nothing was made before the failure. -/
theorem find_replace_error (fs fs' : FileSystem) (place : Place) (bytes : List UInt8) (e : OsError)
    (h : fs.replace place bytes = (some e, fs')) (entry : Entry)
    (hfind : fs.find place = .ok entry) : fs' = fs := by
  rw [replace, makeDirectories_of_find fs place entry hfind] at h
  exact rename_error fs fs' place bytes e h

/-- What is in the table for a place is found there. It holds of the root of an empty file system
    and is kept by all that is done here; it is no law of tables. -/
def Settled (fs : FileSystem) (place : Place) : Prop :=
  ∀ entry, fs.entryAt? place = some entry → fs.find place = .ok entry

/-- A place looks the same in two file systems: it has the same entry, and what is found there in
    one is found there in the other. -/
def SameAt (place : Place) (fs gs : FileSystem) : Prop :=
  gs.entryAt? place = fs.entryAt? place ∧
    ∀ entry, gs.find place = .ok entry ↔ fs.find place = .ok entry

theorem sameAt_refl (place : Place) (fs : FileSystem) : SameAt place fs fs :=
  ⟨rfl, fun _ => Iff.rfl⟩

theorem settled_of_sameAt (place : Place) (fs gs : FileSystem) (h : SameAt place fs gs)
    (hfs : fs.Settled place) : gs.Settled place := by
  intro entry hentry
  rw [h.1] at hentry
  exact (h.2 entry).mpr (hfs entry hentry)

/-- What is found in a place is in the table. A place is found by walking to it, and the last step
    of the walk is a look at the table. -/
theorem entryAt?_of_find (fs : FileSystem) (place : Place) (entry : Entry)
    (h : fs.find place = .ok entry) : fs.entryAt? place = some entry := by
  rw [find] at h
  split at h
  · cases h
  · cases hlast : place.getLast? with
    | none =>
        rw [List.getLast?_eq_none_iff.mp hlast] at h ⊢
        rw [walk, Except.ok.injEq] at h
        rw [entryAt?, if_pos rfl, h]
    | some name =>
        -- The way to the place and its last step are told apart, and only the last one looks at its
        -- entry.
        have hplace := place_eq_append place name hlast
        rw [hplace, walk_append] at h
        rw [hplace]
        split at h
        · cases h
        · rename_i found _
          cases found with
          | file m bytes => rw [walk] at h; cases h
          | directory m =>
              rw [List.nil_append, walk_singleton] at h
              split at h
              · cases h
              · split at h
                · cases h
                · rename_i hentry
                  rw [hentry, Except.ok.inj h]

/-- Making the directories above a place does not put anything there. -/
theorem entryAt?_makeDirectories (fs gs : FileSystem) (place : Place) (hne : place ≠ [])
    (failure : Option OsError) (h : fs.makeDirectories place.dropLast = (failure, gs)) :
    gs.entryAt? place = fs.entryAt? place := by
  rw [makeDirectories] at h
  split at h
  · rw [← (Prod.mk.inj h).2]
  -- The place is deeper than the directories above it.
  · refine entryAt?_makeAlong fs gs [] place.dropLast failure h place (Or.inr ?_)
    have hpos := List.length_pos_iff.mpr hne
    rw [List.length_dropLast, List.length_nil]
    omega

theorem entryAt?_replace_error (fs fs' : FileSystem) (place : Place) (hne : place ≠ [])
    (bytes : List UInt8) (e : OsError) (h : fs.replace place bytes = (some e, fs')) :
    fs'.entryAt? place = fs.entryAt? place := by
  rw [replace] at h
  cases hmake : fs.makeDirectories place.dropLast with
  | mk failure gs =>
      rw [hmake] at h
      cases failure with
      | some f =>
          rw [← (Prod.mk.inj h).2]
          exact entryAt?_makeDirectories fs gs place hne _ hmake
      | none =>
          rw [rename_error gs fs' place bytes e h]
          exact entryAt?_makeDirectories fs gs place hne _ hmake

/-- A failed replacement does not change what a settled place looks like. It may have made
    directories on the way there, so it is the place that is spoken of, and not the file system. -/
theorem sameAt_replace_error (fs fs' : FileSystem) (place : Place) (bytes : List UInt8)
    (e : OsError) (h : fs.replace place bytes = (some e, fs')) (hfs : fs.Settled place) :
    SameAt place fs fs' := by
  cases hentry : fs.entryAt? place with
  | some entry =>
      -- Something is there, so nothing has to be made and nothing changes.
      rw [find_replace_error fs fs' place bytes e h entry (hfs entry hentry)]
      exact sameAt_refl place fs
  | none =>
      -- Nothing is there, before and after, so nothing is found either time.
      have hne : place ≠ [] := by
        rintro rfl
        rw [entryAt?, if_pos rfl] at hentry
        cases hentry
      have hafter := entryAt?_replace_error fs fs' place hne bytes e h
      refine ⟨hafter, fun entry => ⟨fun hfind => ?_, fun hfind => ?_⟩⟩
      · rw [← hafter, entryAt?_of_find fs' place entry hfind] at hentry
        cases hentry
      · rw [entryAt?_of_find fs place entry hfind] at hentry
        cases hentry

end FileSystem

end ClassVeil
