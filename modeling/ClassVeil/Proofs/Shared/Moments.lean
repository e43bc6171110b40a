import ClassVeil.Proofs.Shared.Loading
import Mathlib.Data.Nat.Init

/-!
# The moments of a load

A load takes a while, and the file may be replaced meanwhile, more than once. What it returns is the
map that was in the file at some moment between its first look and its end. So loads behave as if
each happened in an instant, and a load that begins after another has ended never goes back in time.

A run is a sequence of scenes, one for each moment, so that moments can be compared. The versions of
the file are counted along it. A load that returns a map knows the number of its version, which lies
between the counts at its beginning and at its end; and since the count goes up by one at a time,
there was a moment when this version was the last (`exists_moment`).

That a load has nothing older than its beginning is an invariant of its phases already. Here it is
followed from moment to moment (`fits_runs`), while other threads and loads go on. Only two things
can happen to it with a step: the record of versions grows, which leaves what it has as it is, or
the load itself goes on, and then the world stands still.

For two loads of one reader the moments are not enough, since both could return the version of any
moment in between. But the one that begins later begins with a count that the other had already
reached, so its version has a number that is not smaller, and the maps of the record extend each
other in the order of their numbers.

## Main definitions

* `Scene.Runs`: A sequence of scenes in which each follows from the one before.
* `Begins`, `Ends`: The moments between which a load goes on.
* `Taken`: The map has been taken by some flush as a snapshot.

## Theorems

* `consistent_runs`: Every scene of a run is consistent.
* `exists_moment`: Every version was the last one at some moment.
* `fits_runs`: What a load has at any later moment is not older than its beginning.
* `taken_of_mem_versions`: What is in the file has been taken by a flush as a snapshot.
* `loads_follow_flushes`: What loads return, and in which order.
-/

namespace ClassVeil

namespace Scene

/-- A sequence of scenes in which each is the one before, or follows from it by one step. -/
def Runs (run : Nat → Scene) : Prop := ∀ i, run (i + 1) = run i ∨ Step (run i) (run (i + 1))

variable (run : Nat → Scene)

/-- The load `l` of the reader `r` begins at the moment `i`. -/
def Begins (l r i : Nat) : Prop :=
  (run i).load l = none ∧ ∃ p, (run (i + 1)).load l = some (r, p)

/-- The load `l` of the reader `r` ends at the moment `j` with an answer. -/
def Ends (l r j : Nat) (answer : Except StoreError (Option Loaded)) : Prop :=
  (run j).load l ≠ some (r, .ended answer) ∧ (run (j + 1)).load l = some (r, .ended answer)

/-- Before the moment `i` some flush took this map as its snapshot. -/
def Taken (i : Nat) (map : ClassMap) : Prop :=
  ∃ k t, k < i ∧ (run k).world.phase t = .locked ∧ (run k).world.store.memory.map = map ∧
    (run (k + 1)).world.phase t = .ready (run k).world.store.snapshot map

/-! ### The versions along a run -/

variable {run}

/-- Consistent worlds are followed by consistent ones in a run without end, at every moment of it.
    -/
theorem consistent_runs (hrun : Runs run) (hstart : (run 0).Consistent)
    (hdistinct : ∀ i, (run i).Distinct) (i : Nat) : (run i).Consistent := by
  induction i with
  | zero => exact hstart
  | succ i ih =>
      rcases hrun i with heq | hnext
      · rw [heq]
        exact ih
      · exact consistent_step _ _ hnext ih (hdistinct i)

/-- One step adds one version at most. -/
theorem versions_step (c c' : Scene) (h : Step c c') (hc : c.Consistent) :
    c'.world.versions = c.world.versions ∨ ∃ v, c'.world.versions = c.world.versions ++ [v] := by
  cases h with
  | thread world hstep =>
      rcases World.versions_step _ _ hstep hc.world hc.settled with ⟨heq, -⟩ | ⟨v, heq, -⟩
      · exact Or.inl heq
      · exact Or.inr ⟨v, heq⟩
  | _ => exact Or.inl rfl

theorem versions_succ (hrun : Runs run) (hall : ∀ i, (run i).Consistent) (i : Nat) :
    (run (i + 1)).world.versions = (run i).world.versions ∨
      ∃ v, (run (i + 1)).world.versions = (run i).world.versions ++ [v] := by
  rcases hrun i with heq | hnext
  · rw [heq]
    exact Or.inl rfl
  · exact versions_step _ _ hnext (hall i)

theorem versions_prefix (hrun : Runs run) (hall : ∀ i, (run i).Consistent) (i j : Nat)
    (hij : i ≤ j) : (run i).world.versions <+: (run j).world.versions := by
  induction j, hij using Nat.le_induction with
  | base => exact List.prefix_refl _
  | succ j _ ih =>
      rcases versions_succ hrun hall j with heq | ⟨v, heq⟩
      · rw [heq]
        exact ih
      · rw [heq]
        exact ih.trans (List.prefix_append _ _)

/-- Every version that came between two moments was the last one at some moment between them. The
    proof goes back from the later moment to the step that the version came with. -/
theorem exists_moment (hrun : Runs run) (hall : ∀ i, (run i).Consistent) (i j later : Nat)
    (v : Version) (hij : i ≤ j) (hi : (run i).world.versions.length ≤ later + 1)
    (hj : (run j).world.versions[later]? = some v) :
    ∃ k, i ≤ k ∧ k ≤ j ∧ (run k).world.versions.getLast? = some v := by
  -- Where the count has not gone past the version, the version is the last one as soon as it is
  -- there.
  have hlast : ∀ k, (run k).world.versions.length ≤ later + 1 →
      (run k).world.versions[later]? = some v → (run k).world.versions.getLast? = some v := by
    intro k hle hk
    have hlt := (List.getElem?_eq_some_iff.mp hk).1
    rw [List.getLast?_eq_getElem?, ← hk]
    congr 1
    omega
  induction j, hij using Nat.le_induction with
  | base => exact ⟨i, Nat.le_refl i, Nat.le_refl i, hlast i hi hj⟩
  | succ j hij ih =>
      by_cases hold : (run j).world.versions[later]? = some v
      · rcases ih hold with ⟨k, hik, hkj, hk⟩
        exact ⟨k, hik, by omega, hk⟩
      · -- The version came with this very step, so it is the last one now.
        refine ⟨j + 1, by omega, Nat.le_refl _, hlast (j + 1) ?_ hj⟩
        rcases versions_succ hrun hall j with heq | ⟨u, heq⟩
        · rw [heq] at hj
          exact absurd hj hold
        · have hge : (run j).world.versions.length ≤ later := by
            refine Nat.le_of_not_lt fun hlt => hold ?_
            rw [heq, List.getElem?_append_left hlt] at hj
            exact hj
          rw [heq, List.length_append, List.length_singleton]
          omega

/-! ### A load along a run -/

/-- A step that is not one of a load leaves the load as it is, and a step of a load leaves the world
    as it is. -/
theorem load_step (c c' : Scene) (h : Step c c') (l : Nat) :
    c'.load l = c.load l ∨
      (c'.world = c.world ∧ ((c.load l = none ∧ ∃ r, c' = c.advance l r .begun) ∨
        ∃ r p, c.load l = some (r, p) ∧ c' = c.advance l r p)) := by
  cases h with
  | thread world hstep => exact Or.inl rfl
  | foreign fs hsame => exact Or.inl rfl
  | begin l' r hl' =>
      by_cases heq : l = l'
      · rw [heq]
        exact Or.inr ⟨rfl, Or.inl ⟨hl', r, rfl⟩⟩
      · exact Or.inl (if_neg heq)
  | next l' r p hl' =>
      by_cases heq : l = l'
      · rw [heq]
        exact Or.inr ⟨rfl, Or.inr ⟨r, p, hl', rfl⟩⟩
      · exact Or.inl (if_neg heq)

theorem load_advance (c : Scene) (l r : Nat) (p : LoadPhase) :
    (c.advance l r p).load l = some (r, (p.next (c.reader r) c.world.fs).1) := by
  rw [advance]
  exact if_pos rfl

/-- What a load has at any moment after its beginning is not older than its beginning. The induction
    is on the moment; what is carried along is the phase of the load, and that it fits the versions
    that there are by then, counted from those at the beginning. -/
theorem fits_runs (hrun : Runs run) (hall : ∀ i, (run i).Consistent)
    (hdistinct : ∀ i, (run i).Distinct) (l r i j : Nat) (hbegins : Begins run l r i)
    (hij : i + 1 ≤ j) :
    ∃ p, (run j).load l = some (r, p) ∧
      p.Fits (run j).world.versions (run i).world.versions.length
        ((run i).world.fs.find (run i).world.store.file = .error .notFound) := by
  rcases hbegins with ⟨hnone, p, hp⟩
  induction j, hij using Nat.le_induction with
  | base =>
      rcases hrun i with heq | hnext
      · rw [heq, hnone] at hp
        cases hp
      -- The load is there only after this step, so the step is its first look.
      · rcases load_step _ _ hnext l with hload | ⟨hworld, ⟨-, q, heq⟩ | ⟨q, p', hsome, -⟩⟩
        · rw [hload, hnone] at hp
          cases hp
        · have hq := load_advance (run i) l q .begun
          rw [← heq, hp, Option.some.injEq, Prod.mk.injEq] at hq
          refine ⟨p, hp, ?_⟩
          rw [hworld, hq.2]
          exact (fits_start (run i) (hall i) q).1
        · rw [hnone] at hsome
          cases hsome
  | succ j _ ih =>
      rcases ih with ⟨p', hp', hfits⟩
      have hgrow := versions_prefix hrun hall j (j + 1) (Nat.le_succ j)
      -- Either the load stands where it stood, with more versions perhaps, or this is its next
      -- step.
      rcases hrun j with heq | hnext
      · exact ⟨p', by rw [heq]; exact hp', by rw [heq]; exact hfits⟩
      · rcases load_step _ _ hnext l with hload | ⟨hworld, ⟨hnone', -⟩ | ⟨q, p'', hsome, heq⟩⟩
        · exact ⟨p', hload.trans hp', LoadPhase.fits_of_isPrefix _ _ hgrow _ _ p' hfits⟩
        · rw [hp'] at hnone'
          cases hnone'
        · rw [hp', Option.some.injEq, Prod.mk.injEq] at hsome
          rcases hsome with ⟨rfl, rfl⟩
          refine ⟨_, by rw [heq]; exact load_advance (run j) l r p', ?_⟩
          rw [hworld]
          exact (fits_next (run j) (hall j) (hdistinct j) r _ _ p' hfits).1

/-- A load does not end before it begins: an ended load stays ended, so the beginning cannot come
    later. -/
theorem begins_le_ends (hrun : Runs run) (l r i j : Nat)
    (answer : Except StoreError (Option Loaded)) (hbegins : Begins run l r i)
    (hends : Ends run l r j answer) : i ≤ j := by
  refine Nat.le_of_not_lt fun hlt => ?_
  -- A load that has ended stays, so it could not begin later.
  have hstay : ∀ k, j + 1 ≤ k → (run k).load l ≠ none := by
    intro k hk
    induction k, hk using Nat.le_induction with
    | base =>
        rw [hends.2]
        exact Option.some_ne_none _
    | succ k _ ih =>
        rcases hrun k with heq | hnext
        · rw [heq]
          exact ih
        · rcases load_step _ _ hnext l with hload | ⟨-, ⟨hnone, -⟩ | ⟨q, p, -, heq⟩⟩
          · rw [hload]
            exact ih
          · exact absurd hnone ih
          · rw [heq, load_advance]
            exact Option.some_ne_none _
  exact hstay i hlt hbegins.1

/-- At its end a load has what it answers, and no version has come with this step. What it has is
    one of the versions since its beginning, or it was told that there is no file. -/
theorem fits_of_ends (hrun : Runs run) (hall : ∀ i, (run i).Consistent)
    (hdistinct : ∀ i, (run i).Distinct) (l r i j : Nat)
    (answer : Except StoreError (Option Loaded)) (hbegins : Begins run l r i)
    (hends : Ends run l r j answer) :
    LoadPhase.Fits (run j).world.versions (run i).world.versions.length
      ((run i).world.fs.find (run i).world.store.file = .error .notFound) (.ended answer) := by
  have hij := begins_le_ends hrun l r i j answer hbegins hends
  rcases fits_runs hrun hall hdistinct l r i (j + 1) hbegins (by omega) with ⟨p, hp, hfits⟩
  rw [hends.2, Option.some.injEq, Prod.mk.injEq] at hp
  rw [← hp.2] at hfits
  -- Ending is a step of the load, and the world does not change with it.
  have hworld : (run (j + 1)).world = (run j).world := by
    rcases hrun j with heq | hnext
    · rw [heq]
    · rcases load_step _ _ hnext l with hload | ⟨hworld, -⟩
      · exact absurd (hload.symm.trans hends.2) hends.1
      · exact hworld
  rw [hworld] at hfits
  exact hfits

/-! ### Where maps come from -/

theorem taken_mono (i j : Nat) (hij : i ≤ j) (map : ClassMap) (h : Taken run i map) :
    Taken run j map := by
  rcases h with ⟨k, t, hk, hrest⟩
  exact ⟨k, t, by omega, hrest⟩

/-- What is in the file, or is about to be, has been taken by a flush as a snapshot. The two are
    shown together, because a version comes from the snapshot that a thread had in hand one step
    before. -/
theorem taken_of_mem_versions (hrun : Runs run) (hstart : (run 0).Fresh) (i : Nat) :
    (∀ v ∈ (run i).world.versions, Taken run i v.map) ∧
      ∀ t snap map, (run i).world.phase t = .ready snap map → Taken run i map := by
  induction i with
  | zero =>
      refine ⟨fun v hv => ?_, fun t snap map hphase => ?_⟩
      · rw [hstart.world.versions] at hv
        exact absurd hv List.not_mem_nil
      · rw [hstart.world.phase t] at hphase
        cases hphase
  | succ i ih =>
      have hold : ∀ map, Taken run i map → Taken run (i + 1) map :=
        fun map => taken_mono i (i + 1) (Nat.le_succ i) map
      -- Nothing is to be shown where neither the record nor the phases change.
      have hsame : (run (i + 1)).world.versions = (run i).world.versions →
          (run (i + 1)).world.phase = (run i).world.phase →
          (∀ v ∈ (run (i + 1)).world.versions, Taken run (i + 1) v.map) ∧
            ∀ t snap map, (run (i + 1)).world.phase t = .ready snap map →
              Taken run (i + 1) map := by
        intro hversions hphase
        rw [hversions, hphase]
        exact ⟨fun v hv => hold _ (ih.1 v hv), fun t snap map h => hold _ (ih.2 t snap map h)⟩
      rcases hrun i with heq | hnext
      · exact hsame (by rw [heq]) (by rw [heq])
      · cases hc : run (i + 1) with
        | mk world reader load =>
          rw [hc] at hsame hnext
          cases hnext with
          | thread _ hstep =>
              refine ⟨fun v hv => ?_, fun t snap map hready => ?_⟩
              · rcases World.mem_versions_step _ _ hstep v hv with hv | ⟨t, snap, hready⟩
                · exact hold _ (ih.1 v hv)
                · exact hold _ (ih.2 t snap v.map hready)
              -- A snapshot in hand is an old one, or is being taken with this very step.
              · rcases World.ready_step _ _ hstep t snap map hready with
                  hready' | ⟨hlocked, hsnap, hmap⟩
                · exact hold _ (ih.2 t snap map hready')
                · refine ⟨i, t, Nat.lt_succ_self i, hlocked, hmap.symm, ?_⟩
                  rw [hc, ← hsnap]
                  exact hready
          | foreign fs _ => exact hsame rfl rfl
          | begin l r _ => exact hsame rfl rfl
          | next l r p _ => exact hsame rfl rfl

end Scene

/-- Threads ask one store for ids and flush it, and any number of stores load the file, in whatever
    order their steps come. A load that returns a map returns one that was in the file at some
    moment between its beginning and its end, and that a flush had taken as its snapshot. A load
    that returns none was begun when there was no file. And of two loads of a reader, the one that
    begins after the other has ended returns an extension of what that one returned. -/
theorem loads_follow_flushes (current root : String) (config : Config) (stream : Nat → String)
    (run : Nat → Scene) (hcurrent : current.toList.head? = some '/')
    (hopen : Store.openAt current root config stream = .ok (run 0).world.store)
    (hstart : (run 0).Fresh) (hrun : Scene.Runs run) (hdistinct : ∀ i, (run i).Distinct) :
    (∀ l r i j loaded, Scene.Begins run l r i → Scene.Ends run l r j (.ok (some loaded)) →
      ∃ k time, i ≤ k ∧ k ≤ j ∧ Scene.Taken run k loaded.map ∧
        (run k).world.fs.find (run k).world.store.file = .ok (.file time loaded.map.fileBytes)) ∧
    (∀ l r i j, Scene.Begins run l r i → Scene.Ends run l r j (.ok none) →
      ∃ k, i ≤ k ∧ k ≤ j ∧
        (run k).world.fs.find (run k).world.store.file = .error .notFound) ∧
    (∀ l l' r i i' j j' loaded loaded', Scene.Begins run l r i →
      Scene.Ends run l r j (.ok (some loaded)) → Scene.Begins run l' r i' →
      Scene.Ends run l' r j' (.ok (some loaded')) → j < i' → loaded.map <+: loaded'.map) := by
  have hall : ∀ i, (run i).Consistent := by
    refine Scene.consistent_runs hrun (Scene.consistent_fresh (run 0) hstart ?_) hdistinct
    exact World.consistent_fresh (run 0).world hstart.world
      (Store.confined_of_openAt current root config stream _ hcurrent hopen)
      (Store.memory_of_openAt current root config stream _ hopen).1
  refine ⟨fun l r i j loaded hbegins hends => ?_, fun l r i j hbegins hends => ?_,
    fun l l' r i i' j j' loaded loaded' hbegins hends hbegins' hends' hlater => ?_⟩
  · have hij := Scene.begins_le_ends hrun l r i j _ hbegins hends
    rcases Scene.fits_of_ends hrun hall hdistinct l r i j _ hbegins hends with
      ⟨later, v, hcount, hv, hmap⟩
    rcases Scene.exists_moment hrun hall i j later v hij hcount hv with ⟨k, hik, hkj, hlast⟩
    -- At that moment the version is the last one, so it is in the file.
    have htaken := (Scene.taken_of_mem_versions hrun hstart k).1 v (List.mem_of_getLast? hlast)
    rw [← hmap]
    exact ⟨k, v.modified, hik, hkj, htaken, (hall k).world.file v hlast⟩
  -- A load returns none only for what it saw at its first look, when there was no file.
  · exact ⟨i, Nat.le_refl i, Scene.begins_le_ends hrun l r i j _ hbegins hends,
      Scene.fits_of_ends hrun hall hdistinct l r i j _ hbegins hends⟩
  · have hij' := Scene.begins_le_ends hrun l' r i' j' _ hbegins' hends'
    rcases Scene.fits_of_ends hrun hall hdistinct l r i j _ hbegins hends with
      ⟨later, v, hcount, hv, hmap⟩
    rcases Scene.fits_of_ends hrun hall hdistinct l' r i' j' _ hbegins' hends' with
      ⟨later', v', hcount', hv', hmap'⟩
    -- Both versions are in the record at the end, the first not behind the second.
    have hgrow := Scene.versions_prefix hrun hall j i' (by omega)
    have hgrow' := Scene.versions_prefix hrun hall i' j' hij'
    have hle : later ≤ later' := by
      have hlt := (List.getElem?_eq_some_iff.mp hv).1
      have hlength := hgrow.length_le
      omega
    rcases List.getElem?_eq_some_iff.mp (getElem?_of_isPrefix _ _ (hgrow.trans hgrow') later v hv)
      with ⟨hlt, hget⟩
    rcases List.getElem?_eq_some_iff.mp hv' with ⟨hlt', hget'⟩
    rw [← hmap, ← hmap', ← hget, ← hget']
    rcases Nat.eq_or_lt_of_le hle with rfl | hless
    · exact List.prefix_refl _
    · exact List.pairwise_iff_getElem.mp (hall j').world.grows later later' hlt hlt' hless

/-! ### A run -/

/-- An id has been asked for and the write lock taken. -/
def lockedWorld : World :=
  World.enter { openedWorld.remember (openedWorld.store.getOrCreate "p-4").2.memory with
    lock := some 0 } 0 .locked

/-- The file has been replaced, and the generation not yet been counted. -/
def writtenWorld : World :=
  World.enter { lockedWorld.enter 0 (.ready lockedWorld.store.snapshot lockedWorld.store.memory.map)
    with
      fs := (lockedWorld.store.writeOut lockedWorld.fs lockedWorld.store.snapshot).2
      versions := [⟨0, lockedWorld.store.memory.map⟩] } 0
    (.written lockedWorld.store.snapshot.generation)

/-- A world and one reader of its file. -/
def readBy (world : World) : Scene := ⟨world, fun _ => openedWorld.store, fun _ => none⟩

/-- A thread asks for an id and flushes, and as soon as the file is there, it is loaded. -/
def shownRun : Nat → Scene
  | 0 => readBy openedWorld
  | 1 => readBy (openedWorld.remember (openedWorld.store.getOrCreate "p-4").2.memory)
  | 2 => readBy lockedWorld
  | 3 => readBy
      (lockedWorld.enter 0 (.ready lockedWorld.store.snapshot lockedWorld.store.memory.map))
  | 4 => readBy writtenWorld
  | 5 => (readBy writtenWorld).advance 0 0 .begun
  | 6 => ((readBy writtenWorld).advance 0 0 .begun).advance 0 0 (.found ⟨0, 23⟩)
  | 7 => (((readBy writtenWorld).advance 0 0 .begun).advance 0 0 (.found ⟨0, 23⟩)).advance 0 0
      (.missed ⟨0, 23⟩)
  | _ => ((((readBy writtenWorld).advance 0 0 .begun).advance 0 0 (.found ⟨0, 23⟩)).advance 0 0
      (.missed ⟨0, 23⟩)).advance 0 0 (.parsed ⟨0, 23⟩ [("p-4", "abcdefgh")])

theorem load_shownRun : (shownRun 7).load 0
    = some (0, .parsed ⟨0, 23⟩ [("p-4", "abcdefgh")]) := by
  have hread : openedWorld.store.readMap writtenWorld.fs = .ok (some [("p-4", "abcdefgh")]) :=
    Store.readMap_of_find openedWorld.store writtenWorld.fs 0 _ (by decide) rfl
  rw [show (shownRun 7).load 0
    = some (0, (LoadPhase.next openedWorld.store writtenWorld.fs (.missed ⟨0, 23⟩)).1) from rfl,
    LoadPhase.next, hread]

/-- Each moment of the run shown above follows from the one before by one of the steps. -/
theorem runs_shownRun : Scene.Runs shownRun := by
  intro i
  match i with
  | 0 =>
      exact Or.inr
        (Scene.Step.thread (shownRun 0) (shownRun 1).world (World.Step.request _ "p-4"))
  | 1 => exact Or.inr (Scene.Step.thread (shownRun 1) (shownRun 2).world
      (World.Step.acquire _ 0 rfl rfl))
  | 2 => exact Or.inr (Scene.Step.thread (shownRun 2) (shownRun 3).world
      (World.Step.snapshot _ 0 rfl))
  | 3 => exact Or.inr (Scene.Step.thread (shownRun 3) (shownRun 4).world
      (World.Step.write _ 0 _ _ 0 _ rfl rfl rfl))
  | 4 => exact Or.inr (Scene.Step.begin (shownRun 4) 0 0 rfl)
  | 5 => exact Or.inr (Scene.Step.next (shownRun 5) 0 0 (.found ⟨0, 23⟩) rfl)
  | 6 => exact Or.inr (Scene.Step.next (shownRun 6) 0 0 (.missed ⟨0, 23⟩) rfl)
  | 7 => exact Or.inr (Scene.Step.next (shownRun 7) 0 0 (.parsed ⟨0, 23⟩ _)
      load_shownRun)
  | _ + 8 => exact Or.inl rfl

/-- The map that the load of this run returns was in the file while it went on. It was written just
    before the load began. -/
theorem loads_follow_flushes_shownRun :
    ∃ k time, 4 ≤ k ∧ k ≤ 7 ∧ Scene.Taken shownRun k [("p-4", "abcdefgh")] ∧
      (shownRun k).world.fs.find (shownRun k).world.store.file
        = .ok (.file time (ClassMap.fileBytes [("p-4", "abcdefgh")])) := by
  have hfresh : (shownRun 0).Fresh :=
    ⟨⟨rfl, fun _ => rfl, rfl⟩, rfl, fun _ => rfl, fun _ => rfl, fun _ => rfl⟩
  have hdistinct : ∀ i, (shownRun i).Distinct := by
    intro i
    match i with
    | 0 | 1 | 2 | 3 => exact List.nodup_nil
    | 4 | 5 | 6 | 7 => exact List.pairwise_singleton _ _
    | _ + 8 => exact List.pairwise_singleton _ _
  refine (loads_follow_flushes "/" "." { mapPath := "m.json" } (fun _ => "abcdefgh") shownRun rfl
    rfl hfresh runs_shownRun hdistinct).1 0 0 4 7 ⟨_, ((shownRun 7).reader 0).nextSerial⟩
    ⟨rfl, _, rfl⟩ ⟨?_, rfl⟩
  rw [load_shownRun]
  exact fun h => by cases h

end ClassVeil
