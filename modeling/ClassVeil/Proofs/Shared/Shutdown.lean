import ClassVeil.Proofs.Shared.Watching
import ClassVeil.Proofs.Store.Durable

/-!
# Stopping a flusher

When the stopping of a flusher ends well, all ids are in the file that had been assigned before it
was asked for, whatever has failed in the background. When it fails, nothing is lost yet: the ids
are in the map, and the store is dirty or has them in the file already, so a later flush makes up
for it.

The statement is about moments of a run: what was assigned at one moment is in the file at another.
The link between the two is `Watch.Secures`, which holds from the first moment on. To find a moment
in the past, such as that of a decision, a run is searched backwards for the step at which a state
was entered (`Watch.exists_entry`).

This search is used twice. A stopping that has failed has come to be so by a step, and among all the
steps there are only those of its own flush that can do it (`failing_step`); by then the background
had ended. And a background that is in a flush has come to its decision by a step, which can only be
a look at a dirty store (`deciding_step`). In this way the two statements about the past are reduced
to statements about a single step, and these are case splits over the steps.

What a later flush does for the ids is not a matter of watches any more. A store of a run is
confined, sound and up to date, and for such a store it is known what a flush or its end achieves.

## Main definitions

* `Watch.Runs`: A sequence of watches, moment by moment.
* `Watch.Fresh`: Nothing has been flushed, and there is no background yet.

## Theorems

* `fileHas_of_saved`: What has been saved can be read from the file.
* `exists_entry`: The moment at which a state was entered.
* `secures_runs`: What was assigned when nobody had asked to stop is secured from then on.
* `exists_failure`, `exists_decision`: Where a failure has come from, and where a flush has.
* `shutdown_is_durable`: What the stopping of a flusher promises.
-/

namespace ClassVeil

namespace World

/-- What has been saved can be read from the file. The file holds the version that was written last,
    and what is read from it is its map. -/
theorem fileHas_of_saved (w : World) (hw : w.Consistent) (pair : String × String)
    (hpair : pair ∈ w.saved) : w.store.FileHas w.fs pair := by
  cases hlast : w.versions.getLast? with
  | none =>
      rw [saved, hlast] at hpair
      cases hpair
  -- The file holds the last version, which can be read because its names are distinct.
  | some v =>
      have hsaved : w.saved = v.map := by rw [saved, hlast]
      have hnodup : v.map.names.Nodup := by
        refine hw.sound.nodup.sublist ((List.IsPrefix.sublist ?_).map Prod.fst)
        rw [← hsaved]
        exact hw.reached
      rw [hsaved] at hpair
      exact ⟨v.map, Store.readMap_of_find w.store w.fs v.modified v.map hnodup (hw.file v hlast),
        hpair⟩

/-- A shared store is up to date. -/
theorem upToDate_of_consistent (w : World) (hw : w.Consistent) : w.store.UpToDate w.fs := by
  intro hclean
  have hsaved := saved_of_clean w hw hclean
  -- A clean store has saved all of its map; if no flush has been made there was nothing in it.
  cases hlast : w.versions.getLast? with
  | none =>
      rw [saved, hlast] at hsaved
      exact Or.inl hsaved.symm
  | some v =>
      rw [saved, hlast] at hsaved
      refine Or.inr ⟨v.modified, ?_⟩
      rw [← hsaved]
      exact hw.file v hlast

end World

namespace Watch

/-- A sequence of watches in which each is the one before, or follows from it by one step. -/
def Runs (run : Nat → Watch) : Prop := ∀ i, run (i + 1) = run i ∨ Step (run i) (run (i + 1))

/-- Nothing has been flushed, and there is no background yet. -/
structure Fresh (w : Watch) : Prop where
  world : w.world.Fresh
  guard : w.guard = .absent
  closer : w.closer = .absent
  stopping : w.stopping = false

variable {run : Nat → Watch}

theorem consistent_runs (hrun : Runs run) (hstart : (run 0).Consistent) (i : Nat) :
    (run i).Consistent := by
  induction i with
  | zero => exact hstart
  | succ i ih =>
      rcases hrun i with heq | hnext
      · rw [heq]
        exact ih
      · exact consistent_step _ _ hnext ih

theorem consistent_fresh (w : Watch) (hw : w.Fresh) (hworld : w.world.Consistent) :
    w.Consistent := by
  refine ⟨hworld, ?_, ?_⟩
  · intro hbusy
    exact absurd (hw.world.phase 0) hbusy
  · rw [hw.closer]
    exact nofun

/-- If a property holds at some moment but not at the first one, there is a last step that has
    brought it about, and from that step on it holds all the while. The induction goes back from the
    later moment, as long as the property holds. -/
theorem exists_entry (hrun : Runs run) (P : Watch → Prop) (hstart : ¬ P (run 0)) (j : Nat)
    (hj : P (run j)) :
    ∃ k < j, ¬ P (run k) ∧ Step (run k) (run (k + 1)) ∧ ∀ l, k < l → l ≤ j → P (run l) := by
  induction j with
  | zero => exact absurd hj hstart
  | succ j ih =>
      by_cases hbefore : P (run j)
      · -- It held a moment earlier, so the step is further back.
        rcases ih hbefore with ⟨k, hk, hnot, hstep, hall⟩
        refine ⟨k, by omega, hnot, hstep, fun l hkl hlj => ?_⟩
        rcases Nat.lt_or_eq_of_le hlj with hlt | heq
        · exact hall l hkl (by omega)
        · rw [heq]
          exact hj
      · refine ⟨j, by omega, hbefore, ?_, fun l hjl hlj => ?_⟩
        · rcases hrun j with heq | hnext
          · rw [heq] at hj
            exact absurd hj hbefore
          · exact hnext
        · have heq : l = j + 1 := by omega
          rw [heq]
          exact hj

/-- What was assigned when nobody had asked to stop is secured from then on. At that moment there is
    nothing to be shown but that the map is there, and from then on each step preserves what is
    owed. -/
theorem secures_runs (hrun : Runs run) (hall : ∀ i, (run i).Consistent) (i j : Nat) (hij : i ≤ j)
    (hi : (run i).closer = .absent) : (run j).Secures (run i).world.store.memory.map := by
  induction j, hij using Nat.le_induction with
  | base =>
      refine ⟨List.prefix_refl _, ?_, ?_⟩
      · rw [hi]
        exact nofun
      · rw [hi]
        exact nofun
  | succ j _ ih =>
      rcases hrun j with heq | hnext
      · rw [heq]
        exact ih
      · exact secures_step _ _ _ hnext (hall j) ih

theorem map_prefix (hrun : Runs run) (i j : Nat) (hij : i ≤ j) :
    (run i).world.store.memory.map <+: (run j).world.store.memory.map := by
  induction j, hij using Nat.le_induction with
  | base => exact List.prefix_refl _
  | succ j _ ih =>
      rcases hrun j with heq | hnext
      · rw [heq]
        exact ih
      · exact ih.trans (map_prefix_of_step _ _ hnext)

/-- The stopping comes to have failed by a failing step of its own flush, and in no other way. So
    the failure that it reports is one of writing the file after the background has ended. -/
theorem failing_step (w w' : Watch) (h : Step w w') (e : StoreError)
    (hnot : ¬ (w.closer = .flushing (some e) ∨ w.closer = .ended (some e)))
    (hfailed : w'.closer = .flushing (some e) ∨ w'.closer = .ended (some e)) :
    w.closer = .flushing none ∧ World.Continues 1 w.world (some e) w'.world := by
  cases h with
  | closerFlush world failure hflushing hcontinues =>
      rcases hfailed with hfailed | hended
      · rw [Closer.flushing.injEq] at hfailed
        rw [hfailed] at hcontinues
        exact ⟨hflushing, hcontinues⟩
      · cases hended
  | closerRelease failure hflushing _ =>
      rcases hfailed with hfailed | hended
      · cases hfailed
      · rw [Closer.ended.injEq] at hended
        rw [hended] at hflushing
        exact absurd (Or.inl hflushing) hnot
  | around world _ _ _ => exact absurd hfailed hnot
  | takeError => exact absurd hfailed hnot
  | look guard _ => exact absurd hfailed hnot
  | guardAcquire _ _ _ => exact absurd hfailed hnot
  | guardFlush world failure _ _ => exact absurd hfailed hnot
  | guardRelease failure _ _ => exact absurd hfailed hnot
  -- All other steps of the stopping lead to a place without a failure.
  | _ => exact hfailed.elim nofun nofun

/-- The background comes to a decision by a look at a dirty store, and in no other way. It has not
    decided in any of the places that come before that look. -/
theorem deciding_step (w w' : Watch) (h : Step w w') (hnot : ¬ w.guard.hasDecided = true)
    (hdecided : w'.guard.hasDecided = true) :
    w.guard = .looking ∧ w.world.store.isDirty = true := by
  cases h with
  | look guard hnext =>
      cases hguard : w.guard with
      -- This is the look: it leads to a decision only if the store is dirty.
      | looking =>
          refine ⟨rfl, ?_⟩
          cases hdirty : w.world.store.isDirty with
          | true => rfl
          | false =>
              rw [hguard, hdirty, Guard.next, Option.some.injEq] at hnext
              rw [← hnext] at hdecided
              cases hdecided
      -- From here on the decision has been made already.
      | seen =>
          rw [hguard] at hnot
          exact absurd rfl hnot
      | testing | checking =>
          rw [hguard, Guard.next, Option.some.injEq] at hnext
          rw [← hnext] at hdecided
          cases hstopping : w.stopping with
          | true =>
              rw [hstopping] at hdecided
              cases hdecided
          | false =>
              rw [hstopping] at hdecided
              cases hdecided
      -- And these lead to a place before it.
      | absent | entering | sleeping =>
          rw [hguard, Guard.next, Option.some.injEq] at hnext
          rw [← hnext] at hdecided
          cases hdecided
      | due | flushing failure | ended =>
          rw [hguard] at hnext
          cases hnext
  | guardAcquire hdue _ _ =>
      rw [hdue] at hnot
      exact absurd rfl hnot
  | guardFlush world failure hflushing _ =>
      rw [hflushing] at hnot
      exact absurd rfl hnot
  | guardRelease failure _ _ => cases hdecided
  | _ => exact absurd hdecided hnot

/-- The failure of a stopping is that of a step of its own flush, made after the background had
    ended. -/
theorem exists_failure (hrun : Runs run) (hall : ∀ i, (run i).Consistent)
    (hstart : (run 0).closer = .absent) (j : Nat) (e : StoreError)
    (hj : (run j).closer = .ended (some e)) :
    ∃ k < j, (run k).guard = .ended ∧ (run k).closer = .flushing none ∧
      World.Continues 1 (run k).world (some e) (run (k + 1)).world := by
  have hnotyet : ¬ ((run 0).closer = .flushing (some e) ∨ (run 0).closer = .ended (some e)) := by
    simp only [hstart, reduceCtorEq, or_self, not_false_eq_true]
  -- We look for the step with which the failure came.
  rcases exists_entry hrun
    (fun w => w.closer = .flushing (some e) ∨ w.closer = .ended (some e)) hnotyet j (Or.inr hj) with
    ⟨k, hk, hnot, hstep, hafter⟩
  have hfailed := hafter (k + 1) (by omega) (by omega)
  rcases failing_step _ _ hstep e hnot hfailed with ⟨hflushing, hcontinues⟩
  -- Who flushes to stop has seen the background end.
  have hended : (run k).guard = .ended := by
    refine (hall k).joined ?_
    rw [hflushing]
    rfl
  exact ⟨k, hk, hended, hflushing, hcontinues⟩

/-- When the background is in a flush, it has found the store dirty, and has done nothing since but
    come to this flush. -/
theorem exists_decision (hrun : Runs run) (hall : ∀ i, (run i).Consistent)
    (hstart : (run 0).guard = .absent) (j : Nat) (hj : (run j).world.phase 0 ≠ .idle) :
    ∃ k < j, (run k).guard = .looking ∧ (run k).world.store.isDirty = true ∧
      ∀ l, k < l → l ≤ j → (run l).guard.hasDecided = true := by
  have hnotyet : ¬ (run 0).guard.hasDecided = true := by
    rw [hstart]
    exact Bool.false_ne_true
  have hdecided : (run j).guard.hasDecided = true := by
    rcases (hall j).guard hj with ⟨failure, hguard⟩
    rw [hguard]
    rfl
  -- And here for the step with which the decision was made.
  rcases exists_entry hrun (fun w => w.guard.hasDecided = true) hnotyet j hdecided with
    ⟨k, hk, hnot, hstep, hafter⟩
  have hnext := hafter (k + 1) (by omega) (by omega)
  rcases deciding_step _ _ hstep hnot hnext with ⟨hlooking, hdirty⟩
  exact ⟨k, hk, hlooking, hdirty, hafter⟩

end Watch

/-- Threads ask for ids and flush, a flusher does so in the background, any flush may fail, and
    somebody stops the flusher. If that ends well, all ids that had been assigned before it was
    asked for are in the file from then on. If it ends with a failure, the failure is that of its
    own flush, made after the background had ended; the map has kept all these ids, each of them is
    in the file or else the store is dirty, and any later flush of the store or end of it that
    succeeds has them in the file. And whenever the background is in a flush, it has looked at the
    store before, found it dirty, and gone straight to this flush. -/
theorem shutdown_is_durable (current root : String) (config : Config) (stream : Nat → String)
    (run : Nat → Watch) (hcurrent : current.toList.head? = some '/')
    (hopen : Store.openAt current root config stream = .ok (run 0).world.store)
    (hstart : (run 0).Fresh) (hrun : Watch.Runs run) :
    (∀ i j, i ≤ j → (run i).closer = .absent → (run j).closer = .ended none →
      ∀ pair ∈ (run i).world.store.memory.map,
        (run j).world.store.FileHas (run j).world.fs pair) ∧
    (∀ j e, (run j).closer = .ended (some e) →
      (∃ k < j, (run k).guard = .ended ∧ (run k).closer = .flushing none ∧
        World.Continues 1 (run k).world (some e) (run (k + 1)).world) ∧
      ∀ i ≤ j, (run i).closer = .absent →
        (run i).world.store.memory.map <+: (run j).world.store.memory.map ∧
        ∀ pair ∈ (run i).world.store.memory.map,
          ((run j).world.store.FileHas (run j).world.fs pair ∨
            (run j).world.store.isDirty = true) ∧
          ∀ later ≥ j,
            (∀ s fs, (run later).world.store.Flushes (run later).world.fs none s fs →
              s.FileHas fs pair) ∧
            ∀ fs, (run later).world.store.Closes (run later).world.fs none fs →
              (run later).world.store.FileHas fs pair) ∧
    ∀ j, (run j).world.phase 0 ≠ .idle →
      ∃ k < j, (run k).guard = .looking ∧ (run k).world.store.isDirty = true ∧
        ∀ l, k < l → l ≤ j → (run l).guard.hasDecided = true := by
  have hall : ∀ i, (run i).Consistent := by
    refine Watch.consistent_runs hrun (Watch.consistent_fresh _ hstart ?_)
    exact World.consistent_fresh _ hstart.world
      (Store.confined_of_openAt current root config stream _ hcurrent hopen)
      (Store.memory_of_openAt current root config stream _ hopen).1
  refine ⟨fun i j hij hi hj pair hpair => ?_, fun j e hj => ⟨?_, fun i hij hi => ?_⟩, ?_⟩
  · have hsecures := Watch.secures_runs hrun hall i j hij hi
    exact World.fileHas_of_saved _ (hall j).world pair ((hsecures.ended hj).subset hpair)
  · exact Watch.exists_failure hrun hall hstart.closer j e hj
  -- The map only grows, so whatever a later flush writes has these ids in it.
  · have hkept : ∀ later, j ≤ later → ∀ pair ∈ (run i).world.store.memory.map,
        pair ∈ (run later).world.store.memory.map := by
      intro later hlater pair hpair
      exact (Watch.map_prefix hrun i later (by omega)).subset hpair
    refine ⟨Watch.map_prefix hrun i j hij, fun pair hpair => ⟨?_, fun later hlater => ⟨?_, ?_⟩⟩⟩
    · by_cases hdirty : (run j).world.store.isDirty = true
      · exact Or.inr hdirty
      · -- A clean store has saved its whole map.
        have hclean := Bool.eq_false_iff.mpr hdirty
        refine Or.inl (World.fileHas_of_saved _ (hall j).world pair ?_)
        rw [World.saved_of_clean _ (hall j).world hclean]
        exact hkept j (Nat.le_refl j) pair hpair
    · intro s fs hflush
      have hworld := (hall later).world
      exact Store.fileHas_of_flushes _ s _ fs hworld.confined hworld.sound
        (World.upToDate_of_consistent _ hworld) hflush pair (hkept later hlater pair hpair)
    · intro fs hclose
      have hworld := (hall later).world
      exact Store.fileHas_of_closes _ _ fs hworld.confined hworld.sound
        (World.upToDate_of_consistent _ hworld) hclose pair (hkept later hlater pair hpair)
  · exact Watch.exists_decision hrun hall hstart.guard

namespace Watch

/-- A run that begins one step earlier. -/
theorem runs_cons (a : Watch) (hstep : Step a (run 0)) (hrun : Runs run) :
    Runs fun i => if i = 0 then a else run (i - 1) := by
  intro i
  cases i with
  | zero => exact Or.inr hstep
  | succ i => exact hrun i

/-- Steps can be laid out as a run, with a moment for any watch on the way. The run stays where it
    is when there are no more steps. -/
theorem exists_runs (start w w' : Watch) (h : Relation.ReflTransGen Step start w)
    (hlater : Relation.ReflTransGen Step w w') :
    ∃ run i j, Runs run ∧ run 0 = start ∧ i ≤ j ∧ run i = w ∧ run j = w' := by
  induction h using Relation.ReflTransGen.head_induction_on with
  | refl =>
      induction hlater using Relation.ReflTransGen.head_induction_on with
      | refl => exact ⟨fun _ => w', 0, 0, fun _ => Or.inl rfl, rfl, Nat.le_refl 0, rfl, rfl⟩
      | head hstep _ ih =>
          rcases ih with ⟨run, i, j, hrun, hzero, hij, -, hj⟩
          rw [← hzero] at hstep
          exact ⟨_, 0, j + 1, runs_cons _ hstep hrun, rfl, Nat.zero_le _, rfl, hj⟩
  -- A step in front of a run gives a run, and all moments come one later.
  | head hstep _ ih =>
      rcases ih with ⟨run, i, j, hrun, hzero, hij, hi, hj⟩
      rw [← hzero] at hstep
      exact ⟨_, i + 1, j + 1, runs_cons _ hstep hrun, rfl, Nat.succ_le_succ hij, hi, hj⟩

end Watch

/-- A class is asked for, and then the flusher is stopped. The stopping has not failed, and the pair
    can be read from the file. -/
theorem shutdown_is_durable_openedWorld : ∃ run j, Watch.Runs run ∧
    (run 0).world = openedWorld ∧ (run j).closer = .ended none ∧
    (run j).world.store.FileHas (run j).world.fs ("p-4", "abcdefgh") := by
  let asked : World := openedWorld.remember (openedWorld.store.getOrCreate "p-4").2.memory
  let start : Watch := { world := openedWorld, flusher := ⟨100, none⟩ }
  have hasked := Relation.ReflTransGen.single (Watch.Step.around start asked
    (World.Move.step (World.Step.request openedWorld "p-4")) rfl rfl)
  let before : Watch := { start with world := asked }
  -- The background begins, the flag is raised, and the background sees it and ends.
  have hbegun := Relation.ReflTransGen.single (Watch.Step.look before .entering rfl)
  have hcalled := hbegun.tail (Watch.Step.call { before with guard := .entering } rfl nofun)
  have hflagged := hcalled.tail (Watch.Step.ask
    { before with guard := .entering, closer := .called } rfl rfl)
  have htested := hflagged.tail (Watch.Step.look
    { before with guard := .entering, closer := .asked, stopping := true } .testing rfl)
  have hended := htested.tail (Watch.Step.look
    { before with guard := .testing, closer := .asked, stopping := true } .ended rfl)
  have hjoined := hended.tail (Watch.Step.join
    { before with guard := .ended, closer := .asked, stopping := true } rfl rfl)
  rcases Watch.stop_steps { before with guard := .ended, closer := .joined, stopping := true }
    (rfl : openedWorld.store.Confined) rfl rfl rfl with ⟨last, hstopped, hcloser, -⟩
  have hanswer : (start.flusher.stop asked.store asked.fs).1 = none := by
    decide +kernel
  rcases Watch.exists_runs start before last hasked (hjoined.trans hstopped) with
    ⟨run, i, j, hrun, hzero, hij, hi, hj⟩
  have hdone : (run j).closer = .ended none := by
    rw [hj, hcloser, ← hanswer]
  have hopen : Store.openAt "/" "." { mapPath := "m.json" } (fun _ => "abcdefgh")
      = .ok (run 0).world.store := by
    rw [hzero]
    rfl
  have hstart : (run 0).Fresh := by
    rw [hzero]
    exact ⟨⟨rfl, fun _ => rfl, rfl⟩, rfl, rfl, rfl⟩
  have hmain := (shutdown_is_durable "/" "." { mapPath := "m.json" } (fun _ => "abcdefgh") run rfl
    hopen hstart hrun).1 i j hij (by rw [hi]) hdone ("p-4", "abcdefgh")
  refine ⟨run, j, hrun, by rw [hzero], hdone, hmain ?_⟩
  rw [hi]
  decide +kernel

end ClassVeil
