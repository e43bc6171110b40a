import ClassVeil.Proofs.Store.Replace
import ClassVeil.Store.Temporary

/-!
# Replacing a file through a temporary one

A replacement goes through several steps, and the system can refuse each of them. The temporary file
has a name that was not in use, so removing it gives the table back as it was, and renaming it is
the step in which a replacement is told elsewhere. What it comes to is therefore told without it:
directories are made, then something is refused or the file is put in its place. A replacement that
goes through is the one in one step, and one that does not has made directories at most.

The equation `replaceBeside_eq` is where the temporary file leaves the stage. Up to it the lemmas
are about one new entry in a table: that putting it there and taking it away again cancel out, and
that writing to it twice is writing once. Behind it only directories are left to be compared, and
what has become of the other places.

Of a failed replacement one would like to say that it has changed nothing, and that is not so: the
directories that it needed are still there. `OnlyMade` is the most that can be said, place by place,
and it is enough, since a directory that is new hides nothing that was found before.

## Main definitions

* `System.Allows`: A system that refuses nothing.
* `FileSystem.refusal?`: What a system refuses of a temporary file.
* `FileSystem.OnlyMade`: The entry of a place is as it was, or a directory on the way to another.

## Theorems

* `discard_put`: Removing a file with a new name gives the table back.
* `replaceBeside_eq`: A replacement through a temporary file, told without it.
* `onlyMade_of_replaceBeside`: If it fails, it has made directories at most.
* `replace_of_replaceBeside`: If it goes through, it is the replacement in one step.
* `replaceBeside_of_allows`: So it is if nothing is refused.
* `elsewhere_of_replace`: A replacement leaves the other places alone.
-/

namespace ClassVeil

/-- A system that refuses nothing, with names for temporary files. -/
def System.calm (names : List String) : System := ⟨names, [], fun _ => none, none, none, none⟩

/-- A system that refuses nothing, and has a name for a file beside a place. -/
structure System.Allows (sys : System) (fs : FileSystem) (place : Place) : Prop where
  makes : ∀ q, sys.refusesDirectory q = none
  creates : sys.refusesCreation = none
  writes : sys.refusesWriting = none
  renames : sys.refusesRenaming = none
  free : ∃ name ∈ sys.names, fs.entryAt? (place.dropLast ++ [name]) = none

namespace FileSystem

/-! ### The temporary file -/

theorem putEntry_of_lookup_eq_none (place : Place) (entry : Entry)
    (entries : List (Place × Entry)) (h : entries.lookup place = none) :
    putEntry place entry entries = entries ++ [(place, entry)] := by
  induction entries with
  | nil => rfl
  | cons pair rest ih =>
      rcases pair with ⟨p, e⟩
      rw [List.lookup_cons] at h
      by_cases hp : p = place
      · rw [hp, beq_self_eq_true] at h
        cases h
      · rw [beq_eq_false_iff_ne.mpr (Ne.symm hp)] at h
        rw [putEntry, if_neg hp, ih h]
        rfl

theorem putEntry_putEntry (place : Place) (entry other : Entry) (entries : List (Place × Entry)) :
    putEntry place other (putEntry place entry entries) = putEntry place other entries := by
  induction entries with
  | nil => rw [putEntry, putEntry, putEntry, if_pos rfl]
  | cons pair rest ih =>
      rcases pair with ⟨p, e⟩
      by_cases hp : p = place
      · rw [putEntry, if_pos hp, putEntry, if_pos rfl, putEntry, if_pos hp]
      · rw [putEntry, if_neg hp, putEntry, if_neg hp, ih, putEntry, if_neg hp]

theorem put_put (fs : FileSystem) (place : Place) (entry other : Entry) :
    (fs.put place entry).put place other = fs.put place other := by
  rw [put, put, put, putEntry_putEntry]

/-- A file with a new name that is removed again leaves nothing behind, not even a change in the
    order of the table. The removal drops all entries of that name, so it must not have been in use.
    -/
theorem discard_put (fs : FileSystem) (place : Place) (entry : Entry)
    (h : fs.entryAt? place = none) : (fs.put place entry).discard place = fs := by
  have hne : place ≠ [] := by
    rintro rfl
    cases h
  rw [entryAt?, if_neg hne] at h
  have hkeep : fs.entries.filter (fun pair => decide (pair.1 ≠ place)) = fs.entries := by
    refine List.filter_eq_self.mpr fun pair hpair => ?_
    have hother := List.lookup_eq_none_iff.mp h pair hpair
    rw [bne_iff_ne] at hother
    exact decide_eq_true (Ne.symm hother)
  rw [discard, put, putEntry_of_lookup_eq_none place entry fs.entries h]
  simp only [List.filter_append, hkeep, List.filter_cons, ne_eq, not_true_eq_false, decide_false,
    Bool.false_eq_true, if_false, List.filter_nil, List.append_nil]

/-- A temporary file is renamed as if it were put in its place at once. When the renaming is
    refused, it is still there, and somebody has to remove it. -/
theorem move_put (fs : FileSystem) (temp place : Place) (bytes : List UInt8)
    (htemp : fs.entryAt? temp = none) :
    (fs.put temp (.file fs.clock bytes)).move temp place = match fs.rename place bytes with
      | (some e, _) => (some e, fs.put temp (.file fs.clock bytes))
      | (none, fs') => (none, fs') := by
  have hne : temp ≠ [] := by
    rintro rfl
    cases htemp
  rw [move, entryAt?_put fs temp temp _ hne, if_pos rfl]
  cases hrename : fs.rename place bytes with
  | mk failure gs => cases failure <;> simp only [discard_put fs temp _ htemp, hrename]

/-- The temporary file has a name that was not in use. So it covers nothing, and when it is removed
    again the table is what it was. -/
theorem createIn_ok (sys : System) (fs fs' : FileSystem) (dir temp : Place)
    (h : fs.createIn sys dir = .ok (temp, fs')) :
    fs.entryAt? temp = none ∧ fs' = fs.put temp (.file fs.clock []) := by
  rw [createIn] at h
  split at h
  · cases h
  · split at h
    · cases h
    · cases h
    · split at h
      · cases h
      · rename_i name hname
        have hfree := List.find?_some hname
        simp only [Option.isNone_iff_eq_none] at hfree
        cases h
        exact ⟨hfree, rfl⟩

/-- What a system refuses of a temporary file, from creating it to renaming it. -/
def refusal? (sys : System) (fs : FileSystem) (dir : Place) : Option OsError :=
  match fs.createIn sys dir with
  | .error e => some e
  | .ok _ => (sys.refusesWriting.map Prod.snd).or sys.refusesRenaming

/-- A temporary file that has been created is gone in the end, be it that it got its place or that
    it was removed. The cases are those in which something can be refused: the writing, after some
    of the bytes, then the renaming by the system, then the renaming by what is there. -/
theorem cleanUp_finish (sys : System) (fs : FileSystem) (temp place : Place) (bytes : List UInt8)
    (htemp : fs.entryAt? temp = none) :
    cleanUp temp ((fs.put temp (.file fs.clock [])).finish sys temp place bytes)
      = match (sys.refusesWriting.map Prod.snd).or sys.refusesRenaming with
        | some e => (some e, fs)
        | none => fs.rename place bytes := by
  have hclock : (fs.put temp (.file fs.clock [])).clock = fs.clock := rfl
  rw [finish]
  cases sys.refusesWriting with
  | some refusal =>
      simp only [cleanUp, put_put, discard_put fs temp _ htemp, Option.map_some, Option.some_or]
  | none =>
      simp only [put_put, hclock, Option.map_none, Option.none_or]
      cases sys.refusesRenaming with
      | some e => simp only [cleanUp, discard_put fs temp _ htemp]
      | none =>
          simp only [move_put fs temp place bytes htemp]
          cases hrename : fs.rename place bytes with
          | mk failure gs =>
              cases failure with
              | none => rfl
              | some e =>
                  simp only [cleanUp, discard_put fs temp _ htemp,
                    rename_error fs gs place bytes e hrename]

/-- Behind the making of directories, a replacement through a temporary file is refused and changes
    nothing, or it is the renaming that a replacement in one step consists of. -/
theorem replaceBeside_eq (sys : System) (fs : FileSystem) (place : Place) (bytes : List UInt8) :
    fs.replaceBeside sys place bytes = match fs.makeDirectoriesWith sys place.dropLast with
      | (some e, gs) => (some e, gs)
      | (none, gs) =>
        match gs.refusal? sys (if place = [] then sys.current else place.dropLast) with
        | some e => (some e, gs)
        | none => gs.rename place bytes := by
  rw [replaceBeside]
  cases fs.makeDirectoriesWith sys place.dropLast with
  | mk failure gs =>
      cases failure with
      | some e => rfl
      | none =>
          simp only [refusal?]
          -- If not even the temporary file can be created, then nothing has to be removed.
          cases hcreate : gs.createIn sys (if place = [] then sys.current else place.dropLast) with
          | error e => rfl
          | ok created =>
              rcases created with ⟨temp, hs⟩
              rcases createIn_ok sys gs hs _ temp hcreate with ⟨htemp, rfl⟩
              exact cleanUp_finish sys gs temp place bytes htemp

/-! ### The directories -/

/-- The entry of a place is as it was, or there was none and there is a directory now, on the way to
    another place. -/
def OnlyMade (fs gs : FileSystem) (place q : Place) : Prop :=
  gs.entryAt? q = fs.entryAt? q ∨
    (fs.entryAt? q = none ∧ (∃ time, gs.entryAt? q = some (.directory time)) ∧ q <+: place.dropLast)

/-- Making directories changes a place only by making a directory there, where nothing was, and only
    on the way. It does not matter whether it comes through, or what the system refuses. -/
theorem onlyMade_makeAlongWith (sys : System) (fs gs : FileSystem) (base : Place)
    (names : List String) (failure : Option OsError)
    (h : makeAlongWith sys fs base names = (failure, gs)) (q : Place) :
    gs.entryAt? q = fs.entryAt? q ∨ (fs.entryAt? q = none ∧
      (∃ time, gs.entryAt? q = some (.directory time)) ∧ q <+: base ++ names) := by
  -- What has been made before a step is on the way that is left behind, which is a part of all.
  induction names generalizing fs base with
  | nil =>
      rw [makeAlongWith, Prod.mk.injEq] at h
      exact Or.inl (by rw [h.2])
  | cons name rest ih =>
      have hne : base ++ [name] ≠ [] :=
        List.append_ne_nil_of_right_ne_nil _ (List.cons_ne_nil name [])
      rw [makeAlongWith] at h
      split at h
      · exact Or.inl (by rw [← (Prod.mk.inj h).2])
      · split at h
        · rename_i hentry
          split at h
          · exact Or.inl (by rw [← (Prod.mk.inj h).2])
          · have hstep := ih _ _ h
            rw [entryAt?_putNow _ _ _ _ hne, ← List.append_cons] at hstep
            -- The directory made in this step is looked at by itself, and it is not made again.
            by_cases hq : q = base ++ [name]
            · rw [if_pos hq] at hstep
              rcases hstep with hsame | ⟨hnone, -⟩
              · refine Or.inr ⟨by rw [hq, hentry], ⟨_, hsame⟩, ?_⟩
                rw [hq, List.append_cons base name rest]
                exact List.prefix_append _ rest
              · cases hnone
            · rw [if_neg hq] at hstep
              exact hstep
        · have hstep := ih _ _ h
          rw [← List.append_cons] at hstep
          exact hstep
        · exact Or.inl (by rw [← (Prod.mk.inj h).2])

theorem onlyMade_makeDirectoriesWith (sys : System) (fs gs : FileSystem) (place : Place)
    (failure : Option OsError) (h : fs.makeDirectoriesWith sys place.dropLast = (failure, gs))
    (q : Place) : fs.OnlyMade gs place q := by
  rw [makeDirectoriesWith] at h
  split at h
  · exact Or.inl (by rw [← (Prod.mk.inj h).2])
  · exact onlyMade_makeAlongWith sys fs gs [] place.dropLast failure h q

/-- Directories that a system lets be made are those that are made elsewhere. A refusal could only
    have ended it early, and it has come to its end. -/
theorem makeAlong_of_makeAlongWith (sys : System) (fs gs : FileSystem) (base : Place)
    (names : List String) (h : makeAlongWith sys fs base names = (none, gs)) :
    makeAlong fs base names = (none, gs) := by
  induction names generalizing fs base with
  | nil => exact h
  | cons name rest ih =>
      rw [makeAlongWith] at h
      rw [makeAlong]
      by_cases hlong : isTooLong name = true
      · rw [if_pos hlong] at h
        cases h
      · rw [if_neg hlong] at h ⊢
        cases hentry : fs.entryAt? (base ++ [name]) with
        | none =>
            rw [hentry] at h
            cases hrefused : sys.refusesDirectory (base ++ [name]) with
            | some e => simp only [hrefused, Prod.mk.injEq, reduceCtorEq, false_and] at h
            | none =>
                simp only [hrefused] at h
                exact ih _ _ h
        | some entry =>
            rw [hentry] at h
            cases entry with
            | directory m => exact ih _ _ h
            | file m bytes => cases h

/-- A system that refuses no directory makes them as they are made elsewhere. -/
theorem makeAlongWith_eq (sys : System) (hsys : ∀ q, sys.refusesDirectory q = none)
    (fs : FileSystem) (base : Place) (names : List String) :
    makeAlongWith sys fs base names = makeAlong fs base names := by
  induction names generalizing fs base with
  | nil => rfl
  | cons name rest ih =>
      rw [makeAlongWith, makeAlong, hsys]
      cases hentry : fs.entryAt? (base ++ [name]) with
      | none => simp only [ih]
      | some entry => cases entry <;> simp only [ih]

theorem makeDirectories_of_makeDirectoriesWith (sys : System) (fs gs : FileSystem) (place : Place)
    (h : fs.makeDirectoriesWith sys place = (none, gs)) :
    fs.makeDirectories place = (none, gs) := by
  rw [makeDirectoriesWith] at h
  rw [makeDirectories]
  split at h
  · cases h
  · rename_i hnul
    rw [if_neg hnul]
    exact makeAlong_of_makeAlongWith sys fs gs [] place h

theorem makeDirectoriesWith_eq (sys : System) (hsys : ∀ q, sys.refusesDirectory q = none)
    (fs : FileSystem) (place : Place) :
    fs.makeDirectoriesWith sys place = fs.makeDirectories place := by
  rw [makeDirectoriesWith, makeDirectories, makeAlongWith_eq sys hsys]

/-! ### The other places -/

/-- A way that can be walked can still be walked if the directories are kept, and the end of it.
    Nothing need be known of other entries, in particular not of files, for no walk goes on behind a
    file. -/
theorem walk_of_kept (fs gs : FileSystem) (base : Place) (modified : Nat) (names : List String)
    (entry : Entry)
    (hdirectories : ∀ q time, fs.entryAt? q = some (.directory time) →
      gs.entryAt? q = some (.directory time))
    (hend : gs.entryAt? (base ++ names) = fs.entryAt? (base ++ names))
    (h : fs.walk base (.directory modified) names = .ok entry) :
    gs.walk base (.directory modified) names = .ok entry := by
  induction names generalizing base modified with
  | nil =>
      rw [walk] at h ⊢
      exact h
  | cons name rest ih =>
      rw [walk] at h ⊢
      split at h
      · cases h
      · rename_i hlong
        rw [if_neg hlong]
        cases hentry : fs.entryAt? (base ++ [name]) with
        | none =>
            rw [hentry] at h
            cases h
        | some found =>
            rw [hentry] at h
            cases found with
            | directory m =>
                rw [hdirectories _ m hentry]
                exact ih _ m (by rw [← List.append_cons, hend]) h
            | file m bytes =>
                -- A file ends the walk, so it is the entry that is kept.
                cases rest with
                | nil =>
                    rw [hend, hentry]
                    exact h
                | cons next rest =>
                    simp only [walk] at h
                    cases h

theorem find_of_kept (fs gs : FileSystem) (q : Place) (entry : Entry)
    (hdirectories : ∀ p time, fs.entryAt? p = some (.directory time) →
      gs.entryAt? p = some (.directory time))
    (hend : gs.entryAt? q = fs.entryAt? q) (h : fs.find q = .ok entry) :
    gs.find q = .ok entry := by
  rw [find] at h ⊢
  split at h
  · cases h
  · rename_i hnul
    rw [if_neg hnul]
    exact walk_of_kept fs gs [] 0 q entry hdirectories hend h

theorem entryAt?_of_onlyMade (fs gs : FileSystem) (place q : Place) (entry : Entry)
    (h : fs.OnlyMade gs place q) (hentry : fs.entryAt? q = some entry) :
    gs.entryAt? q = fs.entryAt? q := by
  rcases h with h | ⟨hnone, -⟩
  · exact h
  · rw [hentry] at hnone
    cases hnone

/-- Where directories have been made at most, everything that was found is found. What was found had
    an entry, and entries that were there are as they were. -/
theorem find_of_onlyMade (fs gs : FileSystem) (place : Place)
    (h : ∀ q, fs.OnlyMade gs place q) (q : Place) (entry : Entry)
    (hfind : fs.find q = .ok entry) : gs.find q = .ok entry := by
  refine find_of_kept fs gs q entry (fun p time hp => ?_) ?_ hfind
  · rw [entryAt?_of_onlyMade fs gs place p _ (h p) hp, hp]
  · exact entryAt?_of_onlyMade fs gs place q entry (h q) (entryAt?_of_find fs q entry hfind)

/-- The place of the file is not on the way to itself, so it has no new directory in it either. The
    root is its own way, and it was there before. -/
theorem entryAt?_of_onlyMade_self (fs gs : FileSystem) (place : Place)
    (h : fs.OnlyMade gs place place) : gs.entryAt? place = fs.entryAt? place := by
  rcases h with h | ⟨hnone, -, hway⟩
  · exact h
  · have hlength := hway.length_le
    rw [List.length_dropLast] at hlength
    have hempty : place = [] := List.eq_nil_of_length_eq_zero (by omega)
    rw [hempty, entryAt?, if_pos rfl] at hnone
    cases hnone

/-! ### Replacements -/

theorem onlyMade_makeDirectories (fs gs : FileSystem) (place : Place) (failure : Option OsError)
    (h : fs.makeDirectories place.dropLast = (failure, gs)) (q : Place) :
    fs.OnlyMade gs place q := by
  -- The making of directories without a system is that under one which refuses nothing.
  rw [← makeDirectoriesWith_eq (System.calm []) (fun _ => rfl)] at h
  exact onlyMade_makeDirectoriesWith (System.calm []) fs gs place failure h q

theorem onlyMade_of_replace (fs fs' : FileSystem) (place : Place) (bytes : List UInt8) (e : OsError)
    (h : fs.replace place bytes = (some e, fs')) (q : Place) : fs.OnlyMade fs' place q := by
  rw [replace] at h
  cases hmake : fs.makeDirectories place.dropLast with
  | mk failure gs =>
      rw [hmake] at h
      cases failure with
      | some f =>
          rw [← (Prod.mk.inj h).2]
          exact onlyMade_makeDirectories fs gs place _ hmake q
      | none =>
          rw [rename_error gs fs' place bytes e h]
          exact onlyMade_makeDirectories fs gs place _ hmake q

/-- A replacement through a temporary file that fails has made directories at most. The temporary
    file is removed again, and the file itself is touched by the last step only. -/
theorem onlyMade_of_replaceBeside (sys : System) (fs fs' : FileSystem) (place : Place)
    (bytes : List UInt8) (e : OsError)
    (h : fs.replaceBeside sys place bytes = (some e, fs')) (q : Place) :
    fs.OnlyMade fs' place q := by
  rw [replaceBeside_eq] at h
  cases hmake : fs.makeDirectoriesWith sys place.dropLast with
  | mk failure gs =>
      have hmade := onlyMade_makeDirectoriesWith sys fs gs place failure hmake q
      rw [hmake] at h
      cases failure with
      | some f =>
          rw [← (Prod.mk.inj h).2]
          exact hmade
      | none =>
          simp only [] at h
          split at h
          · rw [← (Prod.mk.inj h).2]
            exact hmade
          · rw [rename_error gs fs' place bytes e h]
            exact hmade

/-- A replacement through a temporary file that goes through is the replacement in one step: the
    same answer and the same table, whatever system it was that has not refused anything. -/
theorem replace_of_replaceBeside (sys : System) (fs fs' : FileSystem) (place : Place)
    (bytes : List UInt8) (h : fs.replaceBeside sys place bytes = (none, fs')) :
    fs.replace place bytes = (none, fs') := by
  rw [replaceBeside_eq] at h
  cases hmake : fs.makeDirectoriesWith sys place.dropLast with
  | mk failure gs =>
      rw [hmake] at h
      cases failure with
      | some e => cases h
      | none =>
          simp only [] at h
          split at h
          · cases h
          · rw [replace, makeDirectories_of_makeDirectoriesWith sys fs gs _ hmake]
            exact h

/-- The directories above a place are there when they have been made. -/
theorem find_of_makeDirectories (fs gs : FileSystem) (place : Place)
    (h : fs.makeDirectories place = (none, gs)) :
    ∃ time, gs.find place = .ok (.directory time) := by
  rw [makeDirectories] at h
  split at h
  · cases h
  · rename_i hnul
    rw [find, if_neg hnul]
    exact walk_of_makeAlong fs gs [] place h 0

/-- A system that refuses nothing creates the temporary file, since it has a name for it that is not
    in use in the directory that was made. -/
theorem createIn_of_allows (sys : System) (fs gs : FileSystem) (place : Place)
    (hsys : sys.Allows fs place) (hmake : fs.makeDirectories place.dropLast = (none, gs)) :
    ∃ created, gs.createIn sys place.dropLast = .ok created := by
  rcases hsys.free with ⟨name, hname, hfree⟩
  rcases find_of_makeDirectories fs gs place.dropLast hmake with ⟨time, hfind⟩
  -- What is made lies on the way to the directory, and the new name lies behind it.
  have hunused : gs.entryAt? (place.dropLast ++ [name]) = none := by
    rw [← hfree]
    have hmade := onlyMade_makeDirectories fs gs (place.dropLast ++ [name]) none
      (by rw [List.dropLast_concat]; exact hmake)
    exact entryAt?_of_onlyMade_self fs gs _ (hmade _)
  rw [createIn, hsys.creates, hfind]
  simp only []
  cases hpick : sys.names.find? fun name => (gs.entryAt? (place.dropLast ++ [name])).isNone with
  | none =>
      have hused := List.find?_eq_none.mp hpick name hname
      rw [hunused] at hused
      exact absurd rfl hused
  | some picked => exact ⟨_, rfl⟩

/-- With nothing refused, a replacement through a temporary file is the replacement in one step. -/
theorem replaceBeside_of_allows (sys : System) (fs : FileSystem) (place : Place)
    (bytes : List UInt8) (hne : place ≠ []) (hsys : sys.Allows fs place) :
    fs.replaceBeside sys place bytes = fs.replace place bytes := by
  rw [replaceBeside_eq, replace, makeDirectoriesWith_eq sys hsys.makes, if_neg hne]
  cases hmake : fs.makeDirectories place.dropLast with
  | mk failure gs =>
      cases failure with
      | some e => rfl
      | none =>
          rcases createIn_of_allows sys fs gs place hsys hmake with ⟨created, hcreate⟩
          simp only [refusal?, hcreate, hsys.writes, hsys.renames, Option.map_none, Option.or_none]

/-- No directory is replaced. -/
theorem not_directory_of_rename (fs fs' : FileSystem) (place : Place) (bytes : List UInt8)
    (h : fs.rename place bytes = (none, fs')) (time : Nat) :
    fs.entryAt? place ≠ some (.directory time) := by
  intro hentry
  rw [rename, hentry] at h
  split at h
  · cases h
  · split at h
    · cases h
    · split at h <;> cases h

/-- A replacement that goes through has made directories besides, and whatever else was found is
    found. The way to another place may not lead over the file, since no directory has been turned
    into one. -/
theorem elsewhere_of_replace (fs fs' : FileSystem) (place : Place) (bytes : List UInt8)
    (h : fs.replace place bytes = (none, fs')) (q : Place) (hq : q ≠ place) :
    fs.OnlyMade fs' place q ∧ ∀ entry, fs.find q = .ok entry → fs'.find q = .ok entry := by
  rcases replace_ok fs fs' place bytes h with ⟨gs, hmake, hrename⟩
  rcases rename_ok gs fs' place bytes hrename with ⟨name, hlast, -, -, hput⟩
  have hne : place ≠ [] := by
    rintro rfl
    cases hlast
  have hentry : ∀ p, p ≠ place → fs'.entryAt? p = gs.entryAt? p := by
    intro p hp
    rw [hput, entryAt?_putNow _ _ _ _ hne, if_neg hp]
  have hmade := onlyMade_makeDirectories fs gs place none hmake
  refine ⟨?_, fun entry hfind => ?_⟩
  · rw [OnlyMade, hentry q hq]
    exact hmade q
  · have hgs := find_of_onlyMade fs gs place hmade q entry hfind
    refine find_of_kept gs fs' q entry (fun p time hp => ?_) (hentry q hq) hgs
    -- The only entry that has changed was no directory.
    have hother : p ≠ place := by
      rintro rfl
      exact not_directory_of_rename gs fs' p bytes hrename time hp
    rw [hentry p hother, hp]

end FileSystem

end ClassVeil
