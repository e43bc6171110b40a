import ClassVeil.Proofs.Store.Lifetime

/-!
# What a success promises

A flush is left out when a store has nothing to write. So a success says that the map is in the file
only if the store tells the truth about that: a store that is clean has its whole map in the file,
or an empty map (`Store.UpToDate`). Everything that can happen keeps this up. A new id makes the
store dirty, a flush that fails leaves it dirty if it was, and a flush that succeeds puts the whole
map there, those ids included that earlier failures have left behind.

A flush can fail for reasons that the files do not show, such as a disk that is full. It is then
prevented: it answers with some failure, and the place of the map looks as it did.

How a flush, a transformation and the end of a store come out is said by a relation each, and each
relation has one lemma that tells its cases apart. What comes later goes by these cases and does not
look at the programs again.

A desk is a store that is used for a while, by one caller after the other. It keeps the classes of
all files that have been transformed, also of those whose transformation has failed in the end: the
ids were assigned before the flush was tried, and they stay assigned. That a file can be transformed
once more with the same result rests on this. The ids are all there, so the second time nothing new
is asked for, and what a known class is answered does not depend on anything else.

## Main definitions

* `Store.FileHas`: A pair is in the file of the map.
* `Store.UpToDate`: A clean store has its map in the file.
* `Store.Flushes`, `Store.Transforms`, `Store.Closes`: How a flush, a transformation and the end of
  a store can come out.
* `Job.outcome?`, `Job.met`: What a file is turned into, and the classes met in it.
* `Desk`, `Desk.Step`, `Desk.Run`: A store at work, with a record of the classes of all files that
  are done.

## Theorems

* `holds_of_failure`: A flush that fails leaves a map in its place.
* `flushes_cases`, `transforms_cases`: How a flush and a transformation come out, case by case.
* `fileHas_of_flushes`, `fileHas_of_closes`: What is in the file after a success.
* `transform_of_failure`, `renamedBy_of_failure`: A failure of the flush, and what it leaves.
* `consistent_step`, `consistent_run`: The store stays up to date, and no id of a file gets lost.
* `transform_again`: A transformation that is repeated.
* `success_is_durable`: What a success promises, and what a failure leaves behind.
-/

namespace ClassVeil

namespace Memory

theorem flushedGeneration_getOrCreateAll (naming : Naming) (names : List String) (m : Memory) :
    (getOrCreateAll naming m names).2.flushedGeneration = m.flushedGeneration :=
  getOrCreateAll_induction naming (fun later => later.flushedGeneration = m.flushedGeneration)
    (fun later name h => (flushedGeneration_getOrCreate naming later name).trans h) names m rfl

/-- A memory that counts no more as written than it has assigned is clean once all of it is
    counted. -/
theorem isDirty_markFlushed (m : Memory) (hm : m.flushedGeneration ≤ m.generation) :
    (m.markFlushed m.generation).isDirty = false := by
  unfold isDirty markFlushed
  rw [bne_eq_false_iff_eq]
  -- The count is raised, or it was as high as that already.
  by_cases h : m.flushedGeneration < m.generation
  · rw [if_pos h]
  · rw [if_neg h]
    omega

end Memory

namespace Store

/-- A pair is in the file of the map. -/
def FileHas (s : Store) (fs : FileSystem) (pair : String × String) : Prop :=
  ∃ map, s.readMap fs = .ok (some map) ∧ pair ∈ map

/-- The file holds the map. -/
def Holds (s : Store) (fs : FileSystem) : Prop :=
  ∃ time, fs.find s.file = .ok (.file time s.memory.map.fileBytes)

/-- A clean store has its map in the file, unless the map is empty. -/
def UpToDate (s : Store) (fs : FileSystem) : Prop :=
  s.isDirty = false → s.memory.map = [] ∨ s.Holds fs

/-- A clean store that is up to date has all its pairs in the file. -/
theorem fileHas_of_upToDate (s : Store) (fs : FileSystem) (hsound : s.memory.Sound)
    (hs : s.UpToDate fs) (hclean : s.isDirty = false) (pair : String × String)
    (hpair : pair ∈ s.memory.map) : s.FileHas fs pair := by
  rcases hs hclean with hempty | ⟨time, hfind⟩
  · rw [hempty] at hpair
    cases hpair
  · exact ⟨_, readMap_of_find s fs time s.memory.map hsound.nodup hfind, hpair⟩

theorem upToDate_of_sameAt (s : Store) (fs fs' : FileSystem)
    (h : FileSystem.SameAt s.file fs fs') (hs : s.UpToDate fs) : s.UpToDate fs' := by
  intro hclean
  rcases hs hclean with hempty | ⟨time, hfind⟩
  · exact Or.inl hempty
  · exact Or.inr ⟨time, (h.2 _).mpr hfind⟩

/-- A map that grows makes the store dirty, because no more is counted as written than there was
    before. -/
theorem upToDate_of_grown (s : Store) (memory : Memory) (fs : FileSystem) (hs : s.UpToDate fs)
    (hstep : s.memory.InStep) (hafter : memory.InStep) (hgrow : s.memory.map <+: memory.map)
    (hflushed : memory.flushedGeneration = s.memory.flushedGeneration) :
    UpToDate { s with memory := memory } fs := by
  intro hclean
  have hcount : memory.generation = memory.flushedGeneration := bne_eq_false_iff_eq.mp hclean
  -- Clean with an old count means that there is nothing more to count.
  have hsame : s.memory.map = memory.map := by
    refine hgrow.eq_of_length ?_
    have hle := hgrow.length_le
    have hold := hstep.flushed
    have hgeneration := hstep.generation
    have hlater := hafter.generation
    omega
  -- Nothing has been added, so the store was clean before.
  have hbefore : s.isDirty = false := by
    refine bne_eq_false_iff_eq.mpr ?_
    rw [hstep.generation, hsame, ← hafter.generation, hcount, hflushed]
  rcases hs hbefore with hempty | ⟨time, hfind⟩
  · exact Or.inl (hsame.symm.trans hempty)
  · refine Or.inr ⟨time, ?_⟩
    simp only []
    rw [← hsame]
    exact hfind

/-! ### Flushes -/

/-- A flush comes out as the files decide, or it is prevented. -/
inductive Flushes (s : Store) (fs : FileSystem) : Option StoreError → Store → FileSystem → Prop
  | tried : Flushes s fs (s.flush fs).1 (s.flush fs).2.1 (s.flush fs).2.2
  | prevented (e : StoreError) (fs' : FileSystem) :
      FileSystem.SameAt s.file fs fs' → Flushes s fs (some e) s fs'

/-- What is in the place of the map stays there when a flush fails. A replacement changes the file
    in its last step, and one that fails has not come to that. -/
theorem holds_of_failure (s : Store) (hs : s.Confined) (fs fs' : FileSystem) (e : StoreError)
    (h : s.flush fs = (some e, s, fs')) (hholds : s.Holds fs) : s.Holds fs' := by
  rcases hholds with ⟨time, hfind⟩
  rw [flush, writeOut_of_confined s hs] at h
  rcases hreplace : fs.replace s.file s.snapshot.bytes with ⟨_ | e', gs⟩
  · rw [hreplace] at h
    cases h
  · -- Where something is found, a replacement that fails changes no file at all.
    have hsame := FileSystem.find_replace_error fs gs s.file _ e' hreplace _ hfind
    rw [hreplace] at h
    cases h
    rw [hsame]
    exact ⟨time, hfind⟩

/-- A flush that fails leaves the store as it was. One that succeeds puts the map into the file and
    counts all of it as written. -/
theorem flushes_cases (s s' : Store) (fs fs' : FileSystem) (failure : Option StoreError)
    (h : s.Flushes fs failure s' fs') (hconfined : s.Confined) (hs : s.UpToDate fs) :
    (∃ e, failure = some e ∧ s' = s ∧ s.UpToDate fs') ∨
    (failure = none ∧ s' = { s with memory := s.memory.markFlushed s.memory.generation } ∧
      s.Holds fs') := by
  cases h with
  | prevented e _ hsame => exact Or.inl ⟨e, rfl, rfl, upToDate_of_sameAt s fs fs' hsame hs⟩
  | tried =>
      rcases flush_cases s fs with ⟨e, gs, heq⟩ | ⟨gs, heq⟩
      -- The flush was tried and failed; whatever the store had in the file is there still.
      · have hkeeps := holds_of_failure s hconfined fs gs e heq
        rw [heq]
        refine Or.inl ⟨e, rfl, rfl, fun hclean => ?_⟩
        rcases hs hclean with hempty | hholds
        · exact Or.inl hempty
        · exact Or.inr (hkeeps hholds)
      -- It has come through, and the file has been found to hold what was written.
      · have hfind := find_of_flush s _ hconfined fs gs heq
        rw [heq]
        exact Or.inr ⟨rfl, rfl, hfind⟩

/-- A flush that succeeds has all pairs in the file, also if there was nothing to be written: then
    the file was up to date before. -/
theorem fileHas_of_flushes (s s' : Store) (fs fs' : FileSystem) (hconfined : s.Confined)
    (hsound : s.memory.Sound) (hs : s.UpToDate fs) (h : s.Flushes fs none s' fs')
    (pair : String × String) (hpair : pair ∈ s.memory.map) : s'.FileHas fs' pair := by
  rcases flushes_cases s s' fs fs' none h hconfined hs with ⟨e, hnone, -⟩ | ⟨-, rfl, time, hfind⟩
  · cases hnone
  · exact ⟨_, readMap_of_find s fs' time s.memory.map hsound.nodup hfind, hpair⟩

theorem advances_flushes (s s' : Store) (fs fs' : FileSystem) (failure : Option StoreError)
    (h : s.Flushes fs failure s' fs') : s.Advances s' := by
  cases h with
  | tried => exact advances_flush s fs
  | prevented e _ _ => exact advances_of_memory s s rfl rfl

/-! ### The end of a store -/

/-- The end of a store comes out as the files decide, or its flush is prevented. -/
inductive Closes (s : Store) (fs : FileSystem) : Option StoreError → FileSystem → Prop
  | tried : Closes s fs (s.close fs).1 (s.close fs).2
  | prevented (e : StoreError) (fs' : FileSystem) : s.isDirty = true →
      FileSystem.SameAt s.file fs fs' → Closes s fs (some e) fs'

/-- A store that has come to its end has had nothing to write, or has written it. -/
theorem closes_cases (s : Store) (fs fs' : FileSystem) (h : s.Closes fs none fs') :
    (s.isDirty = false ∧ fs' = fs) ∨ ∃ s', s.Flushes fs none s' fs' := by
  generalize hfailure : (none : Option StoreError) = failure at h
  cases h with
  | prevented e _ _ _ => cases hfailure
  | tried =>
      have hclose : s.close fs = ((s.flushIfDirty fs).1, (s.flushIfDirty fs).2.2) := rfl
      rw [hclose, flushIfDirty]
      by_cases hdirty : s.isDirty = true
      · rw [if_pos hdirty]
        exact Or.inr ⟨(s.flush fs).2.1, Flushes.tried⟩
      · rw [if_neg hdirty]
        exact Or.inl ⟨Bool.eq_false_iff.mpr hdirty, rfl⟩

/-- The end of a store that succeeds has all pairs in the file. A clean store is not flushed at its
    end, so what is known of a clean store is needed as well as what is known of a flush. -/
theorem fileHas_of_closes (s : Store) (fs fs' : FileSystem) (hconfined : s.Confined)
    (hsound : s.memory.Sound) (hs : s.UpToDate fs) (h : s.Closes fs none fs')
    (pair : String × String) (hpair : pair ∈ s.memory.map) : s.FileHas fs' pair := by
  rcases closes_cases s fs fs' h with ⟨hclean, rfl⟩ | ⟨s', hflush⟩
  · exact fileHas_of_upToDate s fs' hsound hs hclean pair hpair
  · have hhas := fileHas_of_flushes s s' fs fs' hconfined hsound hs hflush pair hpair
    rcases flushes_cases s s' fs fs' none hflush hconfined hs with ⟨e, hnone, -⟩ | ⟨-, rfl, -⟩
    · cases hnone
    · exact hhas

/-! ### Transformations -/

/-- A transformation comes out as the files decide, or its flush is prevented. -/
inductive Transforms (s : Store) (fs : FileSystem) (options : TransformOptions) (job : Job) :
    Except TransformError Transformed → Store → FileSystem → Prop
  | tried : Transforms s fs options job (s.transform fs options job).1
      (s.transform fs options job).2.1 (s.transform fs options job).2.2
  | prevented (rename : Renamer → List Char × Renamer) (e : StoreError) (fs' : FileSystem) :
      job.rename? s.naming options.classAttributes = some rename →
      options.flushAfterTransform = true → (s.renamedBy rename).isDirty = true →
      FileSystem.SameAt s.file fs fs' →
      Transforms s fs options job (.error (.store e)) (s.renamedBy rename) fs'

theorem transforms_of_eq (s s' : Store) (fs fs' : FileSystem) (options : TransformOptions)
    (job : Job) (answer : Except TransformError Transformed)
    (h : s.transform fs options job = (answer, s', fs')) :
    s.Transforms fs options job answer s' fs' := by
  have htried : s.Transforms fs options job _ _ _ := Transforms.tried
  rw [h] at htried
  exact htried

end Store

/-- What a file is turned into, if it can be read. -/
def Job.outcome? (job : Job) (s : Store) (options : TransformOptions) : Option Transformed :=
  (job.rename? s.naming options.classAttributes).map s.outcome

/-- The classes that are met in a file, with their ids. -/
def Job.met (job : Job) (s : Store) (options : TransformOptions) : ClassMap :=
  match job.outcome? s options with
  | some t => t.classMap
  | none => []

namespace Store

/-- A file cannot be read, and nothing happens. Or it is renamed; and then nothing is to be flushed,
    or there is a flush, whose failure is that of the transformation. Whether the flush was tried or
    prevented makes no difference to these cases. -/
theorem transforms_cases (s s' : Store) (fs fs' : FileSystem) (options : TransformOptions)
    (job : Job) (answer : Except TransformError Transformed)
    (h : s.Transforms fs options job answer s' fs') :
    (job.rename? s.naming options.classAttributes = none ∧ answer = .error .unreadable ∧
      s' = s ∧ fs' = fs) ∨
    ∃ rename, job.rename? s.naming options.classAttributes = some rename ∧
      ((answer = .ok (s.outcome rename) ∧ s' = s.renamedBy rename ∧ fs' = fs ∧
          (options.flushAfterTransform = true → (s.renamedBy rename).isDirty = false)) ∨
        (s.renamedBy rename).isDirty = true ∧
          (((s.renamedBy rename).Flushes fs none s' fs' ∧ answer = .ok (s.outcome rename)) ∨
            ∃ e, (s.renamedBy rename).Flushes fs (some e) s' fs' ∧
              answer = .error (.store e))) := by
  cases h with
  | prevented rename e _ hrename _ hdirty hsame =>
      have hflush : (s.renamedBy rename).Flushes fs (some e) _ fs' := Flushes.prevented e fs' hsame
      exact Or.inr ⟨rename, hrename, Or.inr ⟨hdirty, Or.inr ⟨e, hflush, rfl⟩⟩⟩
  | tried =>
      cases hrename : job.rename? s.naming options.classAttributes with
      | none =>
          rw [transform_of_unreadable s fs options job hrename]
          exact Or.inl ⟨rfl, rfl, rfl, rfl⟩
      | some rename =>
          refine Or.inr ⟨rename, rfl, ?_⟩
          have hflushed : (s.renamedBy rename).Flushes fs _ _ _ := Flushes.tried
          rw [transform_of_rename s fs options job rename hrename]
          -- A flush is due if it has been asked for and the store is dirty after the renaming.
          by_cases hdue : (options.flushAfterTransform && (s.renamedBy rename).isDirty) = true
          · rw [if_pos hdue]
            refine Or.inr ⟨(Bool.and_eq_true_iff.mp hdue).2, ?_⟩
            rcases flush_cases (s.renamedBy rename) fs with ⟨e, gs, heq⟩ | ⟨gs, heq⟩
            · rw [heq] at hflushed ⊢
              exact Or.inr ⟨e, hflushed, rfl⟩
            · rw [heq] at hflushed ⊢
              exact Or.inl ⟨hflushed, rfl⟩
          · rw [if_neg hdue]
            refine Or.inl ⟨rfl, rfl, rfl, fun hflag => ?_⟩
            rw [hflag, Bool.true_and] at hdue
            exact Bool.eq_false_iff.mpr hdue

/-- A file that cannot be read changes nothing, however the transformation comes out. -/
theorem transforms_unreadable (s s' : Store) (fs fs' : FileSystem) (options : TransformOptions)
    (job : Job) (answer : Except TransformError Transformed)
    (h : s.Transforms fs options job answer s' fs')
    (hnone : job.rename? s.naming options.classAttributes = none) :
    answer = .error .unreadable ∧ s' = s ∧ fs' = fs := by
  rcases transforms_cases s s' fs fs' options job answer h with
    ⟨-, hanswer, hs, hfs⟩ | ⟨rename, hrename, -⟩
  · exact ⟨hanswer, hs, hfs⟩
  · rw [hnone] at hrename
    cases hrename

/-- A transformation that is to flush and cannot answers with the failure of the flush. So an answer
    is never given for classes that are not in the file, if that was asked for. -/
theorem transform_of_failure (s : Store) (fs : FileSystem) (options : TransformOptions) (job : Job)
    (rename : Renamer → List Char × Renamer) (e : StoreError)
    (hflag : options.flushAfterTransform = true)
    (hrename : job.rename? s.naming options.classAttributes = some rename)
    (hdirty : (s.renamedBy rename).isDirty = true)
    (he : ((s.renamedBy rename).flush fs).1 = some e) :
    (s.transform fs options job).1 = .error (.store e) := by
  rw [transform_of_rename s fs options job rename hrename, hflag, hdirty]
  rcases flush_cases (s.renamedBy rename) fs with ⟨e', gs, heq⟩ | ⟨gs, heq⟩
  · rw [heq] at he ⊢
    rw [Option.some.inj he]
    rfl
  · rw [heq] at he
    cases he

/-- A transformation fails by its flush only if there is something to write, and then it leaves
    what the renaming has left. -/
theorem renamedBy_of_failure (s s' : Store) (fs fs' : FileSystem) (options : TransformOptions)
    (job : Job) (e : StoreError) (h : s.Transforms fs options job (.error (.store e)) s' fs') :
    ∃ rename, job.rename? s.naming options.classAttributes = some rename ∧
      s' = s.renamedBy rename ∧ s'.isDirty = true := by
  rcases transforms_cases s s' fs fs' options job _ h with
    ⟨-, hanswer, -⟩ | ⟨rename, hrename, ⟨hanswer, -⟩ | ⟨hdirty, ⟨-, hanswer⟩ | ⟨e', hflush, -⟩⟩⟩
  · cases hanswer
  · cases hanswer
  · cases hanswer
  · -- The flush has failed, so it has not touched the store.
    have hsame : s' = s.renamedBy rename := by
      generalize hfailure : some e' = failure at hflush
      cases hflush with
      | prevented _ _ _ => rfl
      | tried =>
          rcases flush_cases (s.renamedBy rename) fs with ⟨e'', gs, heq⟩ | ⟨gs, heq⟩
          · rw [heq]
          · rw [heq] at hfailure
            cases hfailure
    rw [hsame]
    exact ⟨rename, hrename, rfl, hdirty⟩

/-- The classes that a renaming meets are in the memory afterwards. -/
theorem mem_map_of_met (s : Store) (options : TransformOptions) (job : Job)
    (rename : Renamer → List Char × Renamer)
    (h : job.rename? s.naming options.classAttributes = some rename) (pair : String × String)
    (hpair : pair ∈ job.met s options) : pair ∈ (s.renamedBy rename).memory.map := by
  rcases Job.exists_asks s.naming options.classAttributes job rename h with ⟨words, hasks⟩
  have hkeeps : (rename ⟨s.memory, []⟩).2.Keeps :=
    hasks.keeps _ fun pair hpair => absurd hpair List.not_mem_nil
  rw [Job.met, Job.outcome?, h] at hpair
  exact hkeeps pair hpair

/-- A transformation that is repeated comes to the same. It assigns nothing, so it succeeds if
    nothing has to be written any more or if that can be done. -/
theorem transform_again (s later : Store) (fs : FileSystem) (options : TransformOptions) (job : Job)
    (rename : Renamer → List Char × Renamer)
    (h : job.rename? s.naming options.classAttributes = some rename)
    (hlater : (s.renamedBy rename).Advances later) (hgone : (later.flush fs).1 = none) :
    ∃ after fs', later.transform fs options job = (.ok (s.outcome rename), after, fs') ∧
      after.memory.map = later.memory.map := by
  rcases Job.exists_asks s.naming options.classAttributes job rename h with ⟨words, hasks⟩
  have hagain := hasks.again ⟨s.memory, []⟩ later.memory hlater.grows
  have hrename : job.rename? later.naming options.classAttributes = some rename := by
    rw [hlater.naming]
    exact h
  -- All that it asks for has been assigned, so the memory stays as it is.
  have hstore : later.renamedBy rename = later := by
    rw [renamedBy, hagain]
  have houtcome : later.outcome rename = s.outcome rename := by
    rw [outcome, hagain]
    rfl
  rw [transform_of_rename later fs options job rename hrename, hstore, houtcome]
  split
  · rcases flush_cases later fs with ⟨e, gs, heq⟩ | ⟨gs, heq⟩
    · rw [heq] at hgone
      cases hgone
    · rw [heq]
      exact ⟨_, gs, rfl, Memory.map_markFlushed _ _⟩
  · exact ⟨later, fs, rfl, rfl⟩

end Store

/-! ### A store at work -/

/-- A store at work, and the files. The classes of all files that are done are kept for the record,
    whether their transformation has succeeded or failed. -/
structure Desk where
  store : Store
  fs : FileSystem
  completed : ClassMap := []

namespace Desk

/-- Something is done with the store, time goes by, or others change files but not that of the
    map. -/
inductive Step : Desk → Desk → Prop
  | transform (d : Desk) (options : TransformOptions) (job : Job)
      (answer : Except TransformError Transformed) (s : Store) (fs : FileSystem) :
      d.store.Transforms d.fs options job answer s fs →
      Step d ⟨s, fs, d.completed ++ job.met d.store options⟩
  | flush (d : Desk) (failure : Option StoreError) (s : Store) (fs : FileSystem) :
      d.store.Flushes d.fs failure s fs → Step d { d with store := s, fs := fs }
  | request (d : Desk) (name : String) : Step d { d with store := (d.store.getOrCreate name).2 }
  | wait (d : Desk) (now : Nat) :
      Step d { d with store := { d.store with memory := { d.store.memory with now := now } } }
  | files (d : Desk) (fs : FileSystem) : FileSystem.SameAt d.store.file d.fs fs →
      Step d { d with fs := fs }

/-- Any number of steps. -/
abbrev Run : Desk → Desk → Prop := Relation.ReflTransGen Step

/-- What holds at any time. -/
structure Consistent (d : Desk) : Prop where
  confined : d.store.Confined
  reached : Memory.Reached d.store.naming d.store.memory
  /-- The classes of the files that are done have kept their ids. -/
  kept : ∀ pair ∈ d.completed, pair ∈ d.store.memory.map
  upToDate : d.store.UpToDate d.fs

theorem inStep_of_consistent (d : Desk) (hd : d.Consistent) : d.store.memory.InStep :=
  Memory.inStep_of_reached d.store.naming d.store.memory hd.reached

/-- The memory may go on to another one that can be reached, as long as nothing more is counted as
    written. -/
theorem consistent_remember (d : Desk) (hd : d.Consistent) (memory : Memory)
    (hreached : Memory.Reached d.store.naming memory) (hgrow : d.store.memory.map <+: memory.map)
    (hflushed : memory.flushedGeneration = d.store.memory.flushedGeneration) :
    Consistent { d with store := { d.store with memory := memory } } where
  confined := hd.confined
  reached := hreached
  kept := fun pair hpair => hgrow.subset (hd.kept pair hpair)
  upToDate := Store.upToDate_of_grown d.store memory d.fs hd.upToDate (inStep_of_consistent d hd)
    (Memory.inStep_of_reached d.store.naming memory hreached) hgrow hflushed

/-- A flush keeps the desk consistent, and a success leaves the store clean. If it has failed there
    is only the file to be looked at; if not, all of the map is in it, and counted. -/
theorem consistent_flush (d : Desk) (hd : d.Consistent) (failure : Option StoreError) (s : Store)
    (fs : FileSystem) (h : d.store.Flushes d.fs failure s fs) :
    Consistent { d with store := s, fs := fs } ∧ (failure = none → s.isDirty = false) := by
  rcases Store.flushes_cases d.store s d.fs fs failure h hd.confined hd.upToDate with
    ⟨e, rfl, rfl, htrue⟩ | ⟨rfl, rfl, time, hfind⟩
  · exact ⟨⟨hd.confined, hd.reached, hd.kept, htrue⟩, fun hnone => by cases hnone⟩
  · -- The map in the file is that of the store, also after the count.
    have hmap := Memory.map_markFlushed d.store.memory d.store.memory.generation
    refine ⟨⟨hd.confined, ?_, ?_, fun _ => Or.inr ⟨time, ?_⟩⟩, fun _ => ?_⟩
    · exact Memory.Reached.markFlushed d.store.memory _ (Nat.le_refl _) hd.reached
    · intro pair hpair
      simp only [hmap]
      exact hd.kept pair hpair
    · simp only [hmap]
      exact hfind
    · exact Memory.isDirty_markFlushed d.store.memory (inStep_of_consistent d hd).flushed

/-- After a renaming the classes that were met belong to a file that is done. -/
theorem consistent_renamedBy (d : Desk) (hd : d.Consistent) (options : TransformOptions) (job : Job)
    (rename : Renamer → List Char × Renamer)
    (h : job.rename? d.store.naming options.classAttributes = some rename) :
    Consistent ⟨d.store.renamedBy rename, d.fs, d.completed ++ job.met d.store options⟩ := by
  rcases Job.exists_asks d.store.naming options.classAttributes job rename h with ⟨words, hasks⟩
  have hadvances := Store.advances_renamedBy d.store options.classAttributes job rename h
  -- A renaming makes requests and counts nothing as written.
  have hbefore := consistent_remember d hd (d.store.renamedBy rename).memory
    (hadvances.reached hd.reached) hadvances.grows (by
      simp only [Store.renamedBy, hasks.memory]
      exact Memory.flushedGeneration_getOrCreateAll d.store.naming _ d.store.memory)
  refine ⟨hbefore.confined, hbefore.reached, fun pair hpair => ?_, hbefore.upToDate⟩
  rcases List.mem_append.mp hpair with hold | hmet
  · exact hbefore.kept pair hold
  · exact Store.mem_map_of_met d.store options job rename h pair hmet

theorem met_of_unreadable (s : Store) (options : TransformOptions) (job : Job)
    (h : job.rename? s.naming options.classAttributes = none) : job.met s options = [] := by
  rw [Job.met, Job.outcome?, h]
  rfl

/-- A transformation keeps the desk consistent. If it was to flush and has succeeded, the store is
    clean. -/
theorem consistent_transform (d : Desk) (hd : d.Consistent) (options : TransformOptions) (job : Job)
    (answer : Except TransformError Transformed) (s : Store) (fs : FileSystem)
    (h : d.store.Transforms d.fs options job answer s fs) :
    Consistent ⟨s, fs, d.completed ++ job.met d.store options⟩ ∧
      (options.flushAfterTransform = true → ∀ t, answer = .ok t →
        s.isDirty = false ∧ t.classMap = job.met d.store options) := by
  rcases Store.transforms_cases d.store s d.fs fs options job answer h with
    ⟨hnone, rfl, rfl, rfl⟩ | ⟨rename, hrename, hafter⟩
  · rw [met_of_unreadable d.store options job hnone, List.append_nil]
    exact ⟨hd, fun _ t ht => by cases ht⟩
  · have hrenamed := consistent_renamedBy d hd options job rename hrename
    have hmet : (d.store.outcome rename).classMap = job.met d.store options := by
      rw [Job.met, Job.outcome?, hrename]
      rfl
    rcases hafter with ⟨rfl, rfl, rfl, hclean⟩ | ⟨-, ⟨hflush, rfl⟩ | ⟨e, hflush, rfl⟩⟩
    · refine ⟨hrenamed, fun hflag t ht => ?_⟩
      rw [← Except.ok.inj ht]
      exact ⟨hclean hflag, hmet⟩
    · have hflushed := consistent_flush _ hrenamed none s fs hflush
      refine ⟨hflushed.1, fun _ t ht => ?_⟩
      rw [← Except.ok.inj ht]
      exact ⟨hflushed.2 rfl, hmet⟩
    · exact ⟨(consistent_flush _ hrenamed (some e) s fs hflush).1, fun _ t ht => by cases ht⟩

/-- A step keeps the desk consistent. A request and the time change the memory alone, and other
    people's files do not concern the place of the map. -/
theorem consistent_step (d d' : Desk) (h : Step d d') (hd : d.Consistent) : d'.Consistent := by
  cases h with
  | transform options job answer s fs hout =>
      exact (consistent_transform d hd options job answer s fs hout).1
  | flush failure s fs hout => exact (consistent_flush d hd failure s fs hout).1
  | request name =>
      exact consistent_remember d hd _ (Memory.Reached.getOrCreate _ name hd.reached)
        (Memory.prefix_getOrCreate _ _ name) (Memory.flushedGeneration_getOrCreate _ _ name)
  | wait now =>
      exact consistent_remember d hd _ (Memory.Reached.wait _ now hd.reached)
        (List.prefix_refl _) rfl
  | files fs hsame =>
      exact ⟨hd.confined, hd.reached, hd.kept,
        Store.upToDate_of_sameAt d.store d.fs fs hsame hd.upToDate⟩

theorem consistent_run (d d' : Desk) (h : Run d d') (hd : d.Consistent) : d'.Consistent := by
  induction h with
  | refl => exact hd
  | tail _ hstep ih => exact consistent_step _ _ hstep ih

/-- All pairs of a clean desk are in the file. -/
theorem fileHas_of_clean (d : Desk) (hd : d.Consistent) (hclean : d.store.isDirty = false)
    (pair : String × String) (hpair : pair ∈ d.completed) : d.store.FileHas d.fs pair :=
  Store.fileHas_of_upToDate d.store d.fs (Memory.sound_of_reached _ _ hd.reached) hd.upToDate
    hclean pair (hd.kept pair hpair)

/-- Whatever happens on a desk, its store advances. Failed flushes and sources that cannot be read
    are among these steps. -/
theorem advances_step (d d' : Desk) (h : Step d d') : d.store.Advances d'.store := by
  cases h with
  | transform options job answer s fs hout =>
      rcases Store.transforms_cases d.store s d.fs fs options job answer hout with
        ⟨-, -, rfl, -⟩ | ⟨rename, hrename, hafter⟩
      · exact Store.advances_of_memory _ _ rfl rfl
      · have hrenamed := Store.advances_renamedBy d.store options.classAttributes job rename hrename
        -- The renaming comes first, and the flush goes on from where it has led.
        have hflush : ∀ failure, (d.store.renamedBy rename).Flushes d.fs failure s fs →
            d.store.Advances s := fun failure hout =>
          Store.advances_trans _ _ _ hrenamed (Store.advances_flushes _ s d.fs fs failure hout)
        rcases hafter with ⟨-, rfl, -⟩ | ⟨-, ⟨hout, -⟩ | ⟨e, hout, -⟩⟩
        · exact hrenamed
        · exact hflush none hout
        · exact hflush (some e) hout
  | flush failure s fs hout => exact Store.advances_flushes d.store s d.fs fs failure hout
  | request name => exact Store.advances_getOrCreate d.store name
  | wait now => exact ⟨rfl, List.prefix_refl _, Memory.Reached.wait d.store.memory now⟩
  | files fs hsame => exact Store.advances_of_memory _ _ rfl rfl

theorem advances_run (d d' : Desk) (h : Run d d') : d.store.Advances d'.store := by
  induction h with
  | refl => exact Store.advances_of_memory _ _ rfl rfl
  | tail _ hstep ih => exact Store.advances_trans _ _ _ ih (advances_step _ _ hstep)

end Desk

/-- Files are transformed with a store, at once flushed or not, the store is flushed now and then,
    and any of this may fail while nobody else changes the file of the map. A transformation that
    was to flush, a flush and the end of a store promise by their success that the file has all
    classes with their ids that were met in any file so far, whatever became of its transformation.
    If the flush of a transformation fails, so does the transformation; the ids stay in the store,
    which is dirty, and the same file can be transformed at any later time, with the same result and
    without new ids, when a flush is possible again. A script that cannot be read changes
    nothing. -/
theorem success_is_durable (current root : String) (config : Config) (stream : Nat → String)
    (start d : Desk) (hcurrent : current.toList.head? = some '/')
    (hopen : Store.openAt current root config stream = .ok start.store)
    (hstart : start.completed = []) (hrun : Desk.Run start d) :
    (∀ options job t s fs, options.flushAfterTransform = true →
      d.store.Transforms d.fs options job (.ok t) s fs →
        t.classMap = job.met d.store options ∧
          ∀ pair ∈ d.completed ++ t.classMap, s.FileHas fs pair) ∧
    (∀ s fs, d.store.Flushes d.fs none s fs → ∀ pair ∈ d.completed, s.FileHas fs pair) ∧
    (∀ fs, d.store.Closes d.fs none fs → ∀ pair ∈ d.completed, d.store.FileHas fs pair) ∧
    (∀ options job rename e, options.flushAfterTransform = true →
      job.rename? d.store.naming options.classAttributes = some rename →
      (d.store.renamedBy rename).isDirty = true →
      ((d.store.renamedBy rename).flush d.fs).1 = some e →
        (d.store.transform d.fs options job).1 = .error (.store e)) ∧
    (∀ options job e s fs, d.store.Transforms d.fs options job (.error (.store e)) s fs →
      s.isDirty = true ∧ (∀ pair ∈ job.met d.store options, pair ∈ s.memory.map) ∧
        ∀ later, Desk.Run ⟨s, fs, d.completed ++ job.met d.store options⟩ later →
          (later.store.flush later.fs).1 = none →
            ∃ t after fs', later.store.transform later.fs options job = (.ok t, after, fs') ∧
              job.outcome? d.store options = some t ∧
              after.memory.map = later.store.memory.map) ∧
    (∀ options name source answer s fs,
      Script.readMarked (Script.Dialect.ofFile name) source = none →
      d.store.Transforms d.fs options (.script name source) answer s fs →
        answer = .error .unreadable ∧ s = d.store ∧ fs = d.fs) := by
  have hd : d.Consistent := by
    refine Desk.consistent_run start d hrun ?_
    rcases Store.memory_of_openAt current root config stream start.store hopen with ⟨hempty, -⟩
    refine ⟨Store.confined_of_openAt current root config stream start.store hcurrent hopen, ?_, ?_,
      ?_⟩
    · rw [hempty]
      exact Memory.Reached.empty
    · rw [hstart]
      exact fun pair hpair => absurd hpair List.not_mem_nil
    · intro _
      rw [hempty]
      exact Or.inl rfl
  have hsound := Memory.sound_of_reached _ _ hd.reached
  refine ⟨fun options job t s fs hflag hout => ?_, fun s fs hout pair hpair => ?_,
    fun fs hout pair hpair => ?_, fun options job rename e hflag hrename hdirty he => ?_,
    fun options job e s fs hout => ?_, fun options name source answer s fs hread hout => ?_⟩
  -- The success leaves the store clean, and a clean store has everything in the file.
  · rcases Desk.consistent_transform d hd options job _ s fs hout with ⟨hafter, hclean⟩
    rcases hclean hflag t rfl with ⟨hclean, hmet⟩
    rw [hmet]
    exact ⟨rfl, Desk.fileHas_of_clean _ hafter hclean⟩
  · exact Store.fileHas_of_flushes d.store s d.fs fs hd.confined hsound hd.upToDate hout pair
      (hd.kept pair hpair)
  · exact Store.fileHas_of_closes d.store d.fs fs hd.confined hsound hd.upToDate hout pair
      (hd.kept pair hpair)
  · exact Store.transform_of_failure d.store d.fs options job rename e hflag hrename hdirty he
  -- The failure was that of the flush, so the renaming has been made and its ids are in the map.
  · rcases Store.renamedBy_of_failure d.store s d.fs fs options job e hout with
      ⟨rename, hrename, rfl, hdirty⟩
    refine ⟨hdirty, Store.mem_map_of_met d.store options job rename hrename, ?_⟩
    intro later hlater hgone
    rcases Store.transform_again d.store later.store later.fs options job rename hrename
      (Desk.advances_run _ later hlater) hgone with ⟨after, fs', hagain, hmap⟩
    refine ⟨_, after, fs', hagain, ?_, hmap⟩
    rw [Job.outcome?, hrename]
    rfl
  · refine Store.transforms_unreadable d.store s d.fs fs options _ answer hout ?_
    rw [Job.rename?, hread]
    rfl

/-- A document with one class. -/
def oneClass : Job := .html "<p class=p-4>".toList

/-- The file cannot be replaced when the document is transformed. Later it can, and the class is in
    the file. -/
theorem success_is_durable_oneClass : ∃ d t s fs,
    Desk.Run ⟨openedWorld.store, openedWorld.fs, []⟩ d ∧ d.completed = [("p-4", "abcdefgh")] ∧
      d.store.Transforms d.fs {} oneClass (.ok t) s fs ∧ s.FileHas fs ("p-4", "abcdefgh") := by
  let rename := Html.transform (Renamer.renameClasses openedWorld.store.naming)
    "<p class=p-4>".toList
  have hfails : openedWorld.store.Transforms openedWorld.fs {} oneClass _ _ openedWorld.fs :=
    Store.Transforms.prevented rename (.writeFailure "/m.json" .busy) openedWorld.fs rfl rfl
      (by decide +kernel) (FileSystem.sameAt_refl _ _)
  have hmet : oneClass.met openedWorld.store {} = [("p-4", "abcdefgh")] := by
    decide +kernel
  have hrun := Relation.ReflTransGen.single (Desk.Step.transform
    ⟨openedWorld.store, openedWorld.fs, []⟩ {} oneClass _ _ _ hfails)
  -- What the failure has promised is a transformation that succeeds.
  rcases (success_is_durable "/" "." { mapPath := "m.json" } (fun _ => "abcdefgh")
    ⟨openedWorld.store, openedWorld.fs, []⟩ _ rfl rfl rfl Relation.ReflTransGen.refl).2.2.2.2.1
    {} oneClass _ _ _ hfails with ⟨-, -, hagain⟩
  rcases hagain _ Relation.ReflTransGen.refl (by decide +kernel) with ⟨t, s, fs, hagain, -⟩
  have hsucceeds := Store.transforms_of_eq _ s _ fs {} oneClass _ hagain
  have hhas := (success_is_durable "/" "." { mapPath := "m.json" } (fun _ => "abcdefgh")
    ⟨openedWorld.store, openedWorld.fs, []⟩ _ rfl rfl rfl hrun).1 {} oneClass t s fs rfl hsucceeds
  refine ⟨_, t, s, fs, hrun, ?_, hsucceeds, hhas.2 _ (List.mem_append_left _ ?_)⟩
  · exact hmet
  · rw [hmet]
    exact List.mem_singleton_self _

end ClassVeil
