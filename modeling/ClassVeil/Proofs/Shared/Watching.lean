import ClassVeil.Proofs.Shared.Flushing
import ClassVeil.Store.Flusher

/-!
# A flusher at work

The background of a flusher is a thread like the others that share the store. It goes round and
round: it sleeps, looks whether the store is dirty, then whether it has been left alone, and if both
are the case it flushes. Who stops the flusher raises a flag, waits for the background to end, looks
whether the store is dirty and flushes what is left. Every look is a step of its own, and whatever
other threads do can come between any two of them.

The flag has a lock. The background holds it all the while except when it sleeps and when it
flushes, so it cannot miss that the flag has been raised. Sleep may end at any time: because it is
over, because somebody calls, or for no reason.

The thread 0 is the background, and the thread 1 is the one that stops it. As far as the store is
concerned they are threads like others, and each step of a watch is one of the world around it, or
nothing to it (`world_step`). So the map still grows and what has been saved stays saved, without
any new argument.

New is what ties the places of the two to each other. The background flushes only after it has
decided to, and the stopping goes past its wait only when the background has ended for good
(`Watch.Consistent`). And the stopping owes something to the ids that were there before it was
called: either its own flush carries them, or they have been saved when it ends well
(`Watch.Secures`). A flush of the background that fails does not enter into this, because the
stopping looks for itself whether there is anything left.

That these steps are those of the program is stated for a thread that nobody disturbs: its steps,
one after the other, are a round of the background (`tick_steps`), and the stopping of a flusher
(`stop_steps`).

## Main definitions

* `World.Continues`: One step of a thread within a flush.
* `Phase.Carries`: A flush that has not failed and has begun when a map was there.
* `Guard`, `Guard.next`: Where the background stands, and where it goes.
* `Closer`: Where the stopping stands.
* `Flusher.record`, `Flusher.settle`: What becomes of failures.
* `Watch`, `Watch.Step`: A shared store with a flusher, and one step of anybody.
* `Watch.Consistent`: What holds at any moment.
* `Watch.Secures`: What stopping owes to the ids that were assigned before it.

## Theorems

* `saved_of_clean`: What has been saved when a store is clean.
* `carries_continues`: A flush that goes on still carries the map, until it is saved.
* `tick_steps`, `stop_steps`: The steps that nobody disturbs are a round of the background, and the
  stopping of the flusher.
* `consistent_step`, `secures_step`: A step preserves consistency and what is owed.
-/

namespace ClassVeil

/-! ### A flush, step by step -/

namespace World

/-- One step of a thread within a flush, after it has taken the write lock and before it gives it
    back; with it the failure, if the flush fails at this step. -/
inductive Continues (t : Nat) : World → Option StoreError → World → Prop
  | snapshot (w : World) : w.phase t = .locked →
      Continues t w none (w.enter t (.ready w.store.snapshot w.store.memory.map))
  | write (w : World) (snap : Snapshot) (map : ClassMap) (time : Nat) (fs : FileSystem) :
      w.phase t = .ready snap map → w.store.writeOut w.fs snap = (none, fs) →
      fs.find w.store.file = .ok (.file time snap.bytes) →
      Continues t w none (enter { w with fs := fs, versions := w.versions ++ [⟨time, map⟩] } t
        (.written snap.generation))
  | refuse (w : World) (snap : Snapshot) (map : ClassMap) (e : StoreError) (fs : FileSystem) :
      w.phase t = .ready snap map → w.store.writeOut w.fs snap = (some e, fs) →
      Continues t w (some e) (enter { w with fs := fs } t .done)
  | abandon (w : World) (e : StoreError) (fs : FileSystem) :
      w.phase t = .locked ∨ (∃ snap map, w.phase t = .ready snap map) →
      FileSystem.SameAt w.store.file w.fs fs →
      Continues t w (some e) (enter { w with fs := fs } t .done)
  | raise (w : World) (generation : Nat) : w.phase t = .written generation →
      Continues t w none ((w.remember (w.store.memory.markFlushed generation)).enter t .done)

/-- It is a step of that thread. -/
theorem step_of_continues (t : Nat) (w w' : World) (failure : Option StoreError)
    (h : Continues t w failure w') : Step w w' := by
  cases h with
  | snapshot hphase => exact Step.snapshot w t hphase
  | write snap map time fs hphase hwrite hfind =>
      exact Step.write w t snap map time fs hphase hwrite hfind
  | refuse snap map e fs hphase hrefused => exact Step.refuse w t snap map e fs hphase hrefused
  | abandon e fs hphase hsame => exact Step.abandon w t fs hphase hsame
  | raise generation hphase => exact Step.raise w t generation hphase

theorem phase_enter_of_ne (w : World) (t u : Nat) (p : Phase) (h : u ≠ t) :
    (w.enter t p).phase u = w.phase u := if_neg h

/-- The other threads stay where they are. -/
theorem phase_continues (t u : Nat) (w w' : World) (failure : Option StoreError)
    (h : Continues t w failure w') (hu : u ≠ t) : w'.phase u = w.phase u := by
  cases h <;> exact phase_enter_of_ne _ t u _ hu

/-- The map only grows. -/
theorem map_prefix_of_move (w w' : World) (h : Move w w') :
    w.store.memory.map <+: w'.store.memory.map := by
  cases h with
  | foreign fs hsame => exact List.prefix_refl _
  | step hstep =>
      cases hstep with
      | request name => exact Memory.prefix_getOrCreate _ _ name
      | raise t generation hphase =>
          simp only [enter, remember, Memory.map_markFlushed]
          exact List.prefix_refl _
      | _ => exact List.prefix_refl _

/-- When a store is clean, what has been saved is the whole map. Cleanness is a comparison of two
    generations, and both of them count pairs. -/
theorem saved_of_clean (w : World) (hw : w.Consistent) (hclean : w.store.isDirty = false) :
    w.saved = w.store.memory.map := by
  -- What has been saved is a prefix of the map, and as long as the map.
  refine hw.reached.eq_of_length ?_
  have hcount : w.store.memory.generation = w.store.memory.flushedGeneration :=
    bne_eq_false_iff_eq.mp hclean
  have hflushed := hw.flushed
  have hgeneration := hw.sound.generation
  have hle := hw.reached.length_le
  omega

end World

/-- The flush of a thread in this phase has not failed, and it will save the map `m` or has done
    so. -/
def Phase.Carries (m saved : ClassMap) : Phase → Prop
  | .idle => False
  | .locked => True
  | .ready _ map => m <+: map
  | .written _ | .done => m <+: saved

theorem Phase.carries_of_isPrefix (m saved saved' : ClassMap) (h : saved <+: saved') (p : Phase)
    (hp : p.Carries m saved) : p.Carries m saved' := by
  cases p with
  | written generation => exact List.IsPrefix.trans hp h
  | done => exact List.IsPrefix.trans hp h
  | idle => exact hp
  | locked => exact hp
  | ready snap map => exact hp

/-- A flush that goes on still carries the map. It takes the map into its snapshot, which then
    becomes what has been saved. -/
theorem World.carries_continues (m : ClassMap) (t : Nat) (w w' : World)
    (hm : m <+: w.store.memory.map) (hcarries : (w.phase t).Carries m w.saved)
    (h : Continues t w none w') : (w'.phase t).Carries m w'.saved := by
  generalize hfailure : (none : Option StoreError) = failure at h
  cases h with
  | snapshot hphase =>
      rw [phase_enter]
      exact hm
  | write snap map time fs hphase _ _ =>
      rw [hphase] at hcarries
      rw [phase_enter, saved_enter, saved_append]
      exact hcarries
  | raise generation hphase =>
      rw [hphase] at hcarries
      rw [phase_enter]
      exact hcarries
  | refuse snap map e fs _ _ => cases hfailure
  | abandon e fs _ _ => cases hfailure

/-! ### The background and the stopping -/

/-- Where the background of a flusher stands. -/
inductive Guard where
  | absent
  /-- It waits for the lock of the flag. -/
  | entering
  /-- It is about to look at the flag, before sleep. -/
  | testing
  | sleeping
  /-- It is about to look at the flag, after sleep. -/
  | checking
  /-- It is about to look whether the store is dirty. -/
  | looking
  /-- It has seen a dirty store, and is about to look for how long it has been left alone. -/
  | seen
  /-- It has decided to flush. -/
  | due
  /-- It flushes, and has failed or not. -/
  | flushing (failure : Option StoreError)
  | ended

namespace Guard

/-- Where the background goes, if it is not in a flush or before one: by the flag, and by what it
    sees of the store. -/
def next (stopping dirty rested : Bool) : Guard → Option Guard
  | .absent => some .entering
  | .entering => some .testing
  | .testing => some (if stopping then .ended else .sleeping)
  | .sleeping => some .checking
  | .checking => some (if stopping then .ended else .looking)
  | .looking => some (if dirty then .seen else .testing)
  | .seen => some (if rested then .due else .testing)
  | .due | .flushing _ | .ended => none

/-- The background holds the lock of the flag. -/
def holdsFlag : Guard → Bool
  | .testing | .checking | .looking | .seen => true
  | _ => false

/-- The background has seen a dirty store and acts on it. -/
def hasDecided : Guard → Bool
  | .seen | .due | .flushing _ => true
  | _ => false

end Guard

/-- Where the stopping of a flusher stands. -/
inductive Closer where
  | absent
  | called
  /-- The flag is raised. -/
  | asked
  /-- The background has ended. -/
  | joined
  /-- The store was dirty. -/
  | due
  | flushing (failure : Option StoreError)
  | ended (failure : Option StoreError)

/-- The background has ended before. -/
def Closer.hasJoined : Closer → Bool
  | .joined | .due | .flushing _ | .ended _ => true
  | _ => false

namespace Flusher

/-- The flusher after a flush of the background: a failure is kept. -/
def record (f : Flusher) : Option StoreError → Flusher
  | none => f
  | some e => { f with lastError := some e }

/-- The flusher after the last flush: a success makes up for what has failed before. -/
def settle (f : Flusher) : Option StoreError → Flusher
  | none => f.takeError.2
  | some _ => f

end Flusher

/-- A shared store with a flusher. -/
structure Watch where
  world : World
  flusher : Flusher
  stopping : Bool := false
  guard : Guard := .absent
  closer : Closer := .absent

namespace Watch

/-- One step of the background, of the one who stops it, or of anybody else. -/
inductive Step : Watch → Watch → Prop
  /-- The other threads, the clock, and those who change other files. -/
  | around (w : Watch) (world : World) : World.Move w.world world →
      world.phase 0 = w.world.phase 0 → world.phase 1 = w.world.phase 1 →
      Step w { w with world := world }
  | takeError (w : Watch) : Step w { w with flusher := w.flusher.takeError.2 }
  | look (w : Watch) (guard : Guard) :
      w.guard.next w.stopping w.world.store.isDirty (w.flusher.isRested w.world.store)
        = some guard → Step w { w with guard := guard }
  | guardAcquire (w : Watch) : w.guard = .due → w.world.lock = none → w.world.phase 0 = .idle →
      Step w { w with
        world := World.enter { w.world with lock := some 0 } 0 .locked
        guard := .flushing none }
  | guardFlush (w : Watch) (world : World) (failure : Option StoreError) :
      w.guard = .flushing none → World.Continues 0 w.world failure world →
      Step w { w with world := world, guard := .flushing failure }
  | guardRelease (w : Watch) (failure : Option StoreError) : w.guard = .flushing failure →
      w.world.phase 0 = .done →
      Step w { w with
        world := World.enter { w.world with lock := none } 0 .idle
        flusher := w.flusher.record failure
        guard := .entering }
  | call (w : Watch) : w.closer = .absent → w.guard ≠ .absent → Step w { w with closer := .called }
  | ask (w : Watch) : w.closer = .called → w.guard.holdsFlag = false →
      Step w { w with stopping := true, closer := .asked }
  | join (w : Watch) : w.closer = .asked → w.guard = .ended → Step w { w with closer := .joined }
  | leave (w : Watch) : w.closer = .joined → w.world.store.isDirty = false →
      Step w { w with flusher := w.flusher.settle none, closer := .ended none }
  | stay (w : Watch) : w.closer = .joined → w.world.store.isDirty = true →
      Step w { w with closer := .due }
  | closerAcquire (w : Watch) : w.closer = .due → w.world.lock = none → w.world.phase 1 = .idle →
      Step w { w with
        world := World.enter { w.world with lock := some 1 } 1 .locked
        closer := .flushing none }
  | closerFlush (w : Watch) (world : World) (failure : Option StoreError) :
      w.closer = .flushing none → World.Continues 1 w.world failure world →
      Step w { w with world := world, closer := .flushing failure }
  | closerRelease (w : Watch) (failure : Option StoreError) : w.closer = .flushing failure →
      w.world.phase 1 = .done →
      Step w { w with
        world := World.enter { w.world with lock := none } 1 .idle
        flusher := w.flusher.settle failure
        closer := .ended failure }

/-- The world moves on, or nothing happens to it. So whatever is kept by the moves of a world holds
    at all times in a watch. -/
theorem world_step (w w' : Watch) (h : Step w w') :
    w'.world = w.world ∨ World.Move w.world w'.world := by
  cases h with
  | around world hmove _ _ => exact Or.inr hmove
  | guardAcquire _ hlock hidle =>
      exact Or.inr (World.Move.step (World.Step.acquire w.world 0 hlock hidle))
  | guardFlush world failure _ hcontinues =>
      exact Or.inr (World.Move.step (World.step_of_continues 0 _ _ failure hcontinues))
  | guardRelease failure _ hdone =>
      exact Or.inr (World.Move.step (World.Step.release w.world 0 hdone))
  | closerAcquire _ hlock hidle =>
      exact Or.inr (World.Move.step (World.Step.acquire w.world 1 hlock hidle))
  | closerFlush world failure _ hcontinues =>
      exact Or.inr (World.Move.step (World.step_of_continues 1 _ _ failure hcontinues))
  | closerRelease failure _ hdone =>
      exact Or.inr (World.Move.step (World.Step.release w.world 1 hdone))
  | _ => exact Or.inl rfl

theorem map_prefix_of_step (w w' : Watch) (h : Step w w') :
    w.world.store.memory.map <+: w'.world.store.memory.map := by
  rcases world_step w w' h with heq | hmove
  · rw [heq]
  · exact World.map_prefix_of_move _ _ hmove

theorem saved_prefix_of_step (w w' : Watch) (h : Step w w') (hw : w.world.Consistent) :
    w.world.saved <+: w'.world.saved := by
  rcases world_step w w' h with heq | hmove
  · rw [heq]
  · exact World.saved_prefix_of_move _ _ hmove hw

/-! ### Steps that nobody disturbs -/

/-- A flush whose steps are steps of a watch, at places that depend on its failure. One lemma serves
    the background and the stopping, which flush in the same way from different places. -/
theorem flush_steps (t : Nat) (world : World) (hworld : world.store.Confined)
    (hlocked : world.phase t = .locked) (place : World → Option StoreError → Watch)
    (hplace : ∀ before after failure, World.Continues t before failure after →
      Step (place before none) (place after failure)) :
    ∃ after, Relation.ReflTransGen Step (place world none)
        (place after (world.store.flush world.fs).1) ∧
      after.store = (world.store.flush world.fs).2.1 ∧
      after.fs = (world.store.flush world.fs).2.2 ∧ after.phase t = .done := by
  -- A snapshot is taken and written, and the count goes up if it could be written.
  have hready := Relation.ReflTransGen.single (hplace _ _ _ (.snapshot world hlocked))
  rw [Store.flush]
  rcases hwrite : world.store.writeOut world.fs world.store.snapshot with ⟨_ | e, fs⟩
  · rcases Store.find_of_writeOut world.store hworld world.fs fs _ hwrite with ⟨time, hfind⟩
    have hwritten := hready.tail (hplace _ _ _ (.write _ world.store.snapshot
      world.store.memory.map time fs (World.phase_enter _ t _) hwrite hfind))
    exact ⟨_, hwritten.tail (hplace _ _ _ (.raise _ world.store.snapshot.generation
      (World.phase_enter _ t _))), rfl, rfl, World.phase_enter _ t _⟩
  · exact ⟨_, hready.tail (hplace _ _ _ (.refuse _ world.store.snapshot world.store.memory.map e fs
      (World.phase_enter _ t _) hwrite)), rfl, rfl, World.phase_enter _ t _⟩

/-- The steps of the background that nobody disturbs, from its look at the store on, are a round of
    the flusher. -/
theorem tick_steps (w : Watch) (hw : w.world.store.Confined) (hlock : w.world.lock = none)
    (hidle : w.world.phase 0 = .idle) (hguard : w.guard = .looking) :
    ∃ w', Relation.ReflTransGen Step w w' ∧
      (w'.flusher, w'.world.store, w'.world.fs) = w.flusher.tick w.world.store w.world.fs ∧
      (w'.guard = .testing ∨ w'.guard = .entering) := by
  rw [Flusher.tick, Flusher.isDue]
  cases hdirty : w.world.store.isDirty with
  | false =>
      have hback := Step.look w .testing (by rw [hguard, hdirty]; rfl)
      refine ⟨_, Relation.ReflTransGen.single hback, ?_, Or.inl rfl⟩
      simp only [Bool.false_and, Bool.false_eq_true, if_false]
  | true =>
      have hseen := Relation.ReflTransGen.single
        (Step.look w .seen (by rw [hguard, hdirty]; rfl))
      -- A dirty store is flushed if it has been left alone for long enough.
      cases hrested : w.flusher.isRested w.world.store with
      | false =>
          have hback := Step.look { w with guard := .seen } .testing (by
            simp only [hrested]
            rfl)
          refine ⟨_, hseen.tail hback, ?_, Or.inl rfl⟩
          simp only [Bool.and_false, Bool.false_eq_true, if_false]
      | true =>
          have hdue := hseen.tail (Step.look { w with guard := .seen } .due (by
            simp only [hrested]
            rfl))
          have hlocked := hdue.tail (Step.guardAcquire { w with guard := .due } rfl hlock hidle)
          rcases flush_steps 0 (World.enter { w.world with lock := some 0 } 0 .locked) hw
            (World.phase_enter _ 0 _)
            (fun world failure => { w with world := world, guard := .flushing failure })
            (fun before after failure hcontinues => Step.guardFlush
              { w with world := before, guard := .flushing none } after failure rfl hcontinues) with
            ⟨after, hflush, hstore, hfs, hdone⟩
          have hreleased := (hlocked.trans hflush).tail (Step.guardRelease _ _ rfl hdone)
          refine ⟨_, hreleased, ?_, Or.inr rfl⟩
          simp only [World.enter] at hstore hfs ⊢
          rw [hstore, hfs]
          simp only [Bool.and_self, if_true]
          rcases w.world.store.flush w.world.fs with ⟨_ | e, s, fs⟩
          · rfl
          · rfl

/-- The steps that nobody disturbs of the one who stops a flusher whose background has ended are
    the stopping. -/
theorem stop_steps (w : Watch) (hw : w.world.store.Confined) (hlock : w.world.lock = none)
    (hidle : w.world.phase 1 = .idle) (hcloser : w.closer = .joined) :
    ∃ w', Relation.ReflTransGen Step w w' ∧
      w'.closer = .ended (w.flusher.stop w.world.store w.world.fs).1 ∧
      (w'.world.store, w'.world.fs) = (w.flusher.stop w.world.store w.world.fs).2 := by
  rw [Flusher.stop, Store.flushIfDirty]
  cases hdirty : w.world.store.isDirty with
  | false =>
      rw [if_neg Bool.false_ne_true]
      exact ⟨_, Relation.ReflTransGen.single (Step.leave w hcloser hdirty), rfl, rfl⟩
  -- What is left is flushed, by the same steps as in the background but under the other number.
  | true =>
      have hdue := Relation.ReflTransGen.single (Step.stay w hcloser hdirty)
      have hlocked := hdue.tail (Step.closerAcquire { w with closer := .due } rfl hlock hidle)
      rcases flush_steps 1 (World.enter { w.world with lock := some 1 } 1 .locked) hw
        (World.phase_enter _ 1 _)
        (fun world failure => { w with world := world, closer := .flushing failure })
        (fun before after failure hcontinues => Step.closerFlush
          { w with world := before, closer := .flushing none } after failure rfl hcontinues) with
        ⟨after, hflush, hstore, hfs, hdone⟩
      have hreleased := (hlocked.trans hflush).tail (Step.closerRelease _ _ rfl hdone)
      rw [if_pos rfl]
      refine ⟨_, hreleased, rfl, ?_⟩
      simp only [World.enter] at hstore hfs ⊢
      rw [hstore, hfs]

/-! ### What holds at any moment -/

/-- What holds at any moment. -/
structure Consistent (w : Watch) : Prop where
  world : w.world.Consistent
  /-- The background is in a flush only if it has decided to be. -/
  guard : w.world.phase 0 ≠ .idle → ∃ failure, w.guard = .flushing failure
  joined : w.closer.hasJoined = true → w.guard = .ended

/-- A step preserves consistency. The two fields are about the places of the background and of the
    stopping, and for each of them the steps of the other one change nothing: the stopping flushes
    under another number, and from its end the background does not come back. -/
theorem consistent_step (w w' : Watch) (h : Step w w') (hw : w.Consistent) : w'.Consistent := by
  have hworld : w'.world.Consistent := by
    rcases world_step w w' h with heq | hmove
    · rw [heq]
      exact hw.world
    · exact World.consistent_move _ _ hmove hw.world
  refine ⟨hworld, ?_, ?_⟩
  · have hother : ∀ p, (World.enter w.world 1 p).phase 0 = w.world.phase 0 :=
      fun p => World.phase_enter_of_ne w.world 1 0 p (by decide)
    cases h with
    | around world _ hphase _ =>
        rw [hphase]
        exact hw.guard
    | look guard hnext =>
        -- Outside of flushes the background is idle, so it can go anywhere.
        intro hbusy
        rcases hw.guard hbusy with ⟨failure, hguard⟩
        rw [hguard] at hnext
        cases hnext
    | guardAcquire _ _ _ => exact fun _ => ⟨none, rfl⟩
    | guardFlush world failure _ _ => exact fun _ => ⟨failure, rfl⟩
    | guardRelease failure _ _ => exact fun hbusy => absurd (World.phase_enter _ 0 .idle) hbusy
    | closerAcquire _ _ _ => exact hw.guard
    | closerFlush world failure _ hcontinues =>
        rw [World.phase_continues 1 0 _ _ failure hcontinues (by decide)]
        exact hw.guard
    | closerRelease failure _ _ => exact hw.guard
    | takeError => exact hw.guard
    | call _ _ => exact hw.guard
    | ask _ _ => exact hw.guard
    | join _ _ => exact hw.guard
    | leave _ _ => exact hw.guard
    | stay _ _ => exact hw.guard
  -- The second field: where the background has ended, it stays ended.
  · have hended : w.guard = .ended → ∀ failure, w.guard ≠ .flushing failure := by
      intro hguard failure hcon
      rw [hguard] at hcon
      cases hcon
    cases h with
    | look guard hnext =>
        -- From its end the background goes nowhere.
        intro hjoined
        rw [hw.joined hjoined] at hnext
        cases hnext
    | guardAcquire hdue _ _ =>
        intro hjoined
        rw [hw.joined hjoined] at hdue
        cases hdue
    | guardFlush world failure hflushing _ =>
        exact fun hjoined => absurd hflushing (hended (hw.joined hjoined) none)
    | guardRelease failure hflushing _ =>
        exact fun hjoined => absurd hflushing (hended (hw.joined hjoined) failure)
    | call _ _ => exact nofun
    | ask _ _ => exact nofun
    | join _ hguard => exact fun _ => hguard
    | leave hcloser _ => exact fun _ => hw.joined (by rw [hcloser]; rfl)
    | stay hcloser _ => exact fun _ => hw.joined (by rw [hcloser]; rfl)
    | closerAcquire hcloser _ _ => exact fun _ => hw.joined (by rw [hcloser]; rfl)
    | closerFlush world failure hcloser _ => exact fun _ => hw.joined (by rw [hcloser]; rfl)
    | closerRelease failure hcloser _ => exact fun _ => hw.joined (by rw [hcloser]; rfl)
    | around world _ _ _ => exact hw.joined
    | takeError => exact hw.joined

/-! ### What stopping owes -/

/-- What stopping owes to the ids that were assigned before it, those of the map `m`: its flush
    carries them as long as it has not failed, and when it has ended well they have been saved. -/
structure Secures (m : ClassMap) (w : Watch) : Prop where
  grows : m <+: w.world.store.memory.map
  carries : w.closer = .flushing none → (w.world.phase 1).Carries m w.world.saved
  ended : w.closer = .ended none → m <+: w.world.saved

/-- A step preserves what is owed. Until the stopping flushes nothing is owed, since the map keeps
    the ids by itself. The debt arises when it takes the write lock, and it is paid when the flush
    ends, or at once if the store is clean. -/
theorem secures_step (m : ClassMap) (w w' : Watch) (h : Step w w') (hw : w.Consistent)
    (hm : w.Secures m) : w'.Secures m := by
  have hsaved := saved_prefix_of_step w w' h hw.world
  -- Whoever is not the one who stops the flusher leaves that one where it is.
  have hquiet : w'.closer = w.closer → w'.world.phase 1 = w.world.phase 1 →
      (w'.closer = .flushing none → (w'.world.phase 1).Carries m w'.world.saved) ∧
        (w'.closer = .ended none → m <+: w'.world.saved) := by
    intro hcloser hphase
    rw [hcloser, hphase]
    exact ⟨fun hflushing => Phase.carries_of_isPrefix m _ _ hsaved _ (hm.carries hflushing),
      fun hended => (hm.ended hended).trans hsaved⟩
  have hgrows := hm.grows.trans (map_prefix_of_step w w' h)
  suffices howed : (w'.closer = .flushing none → (w'.world.phase 1).Carries m w'.world.saved) ∧
      (w'.closer = .ended none → m <+: w'.world.saved) from ⟨hgrows, howed.1, howed.2⟩
  cases h with
  | around world _ _ hphase => exact hquiet rfl hphase
  | takeError => exact hquiet rfl rfl
  | look guard _ => exact hquiet rfl rfl
  | guardAcquire _ _ _ => exact hquiet rfl rfl
  | guardFlush world failure _ hcontinues =>
      exact hquiet rfl (World.phase_continues 0 1 _ _ failure hcontinues (by decide))
  | guardRelease failure _ _ => exact hquiet rfl rfl
  | call _ _ => exact ⟨nofun, nofun⟩
  | ask _ _ => exact ⟨nofun, nofun⟩
  | join _ _ => exact ⟨nofun, nofun⟩
  | leave _ hclean =>
      -- The store is clean, so there is nothing left to flush.
      refine ⟨nofun, fun _ => ?_⟩
      simp only []
      rw [World.saved_of_clean w.world hw.world hclean]
      exact hm.grows
  | stay _ _ => exact ⟨nofun, nofun⟩
  -- With the write lock taken the flush is at its beginning, and the whole map is still to be
  -- copied.
  | closerAcquire _ _ _ =>
      refine ⟨fun _ => ?_, nofun⟩
      simp only [World.phase_enter]
      trivial
  | closerFlush world failure hflushing hcontinues =>
      refine ⟨fun hgoes => ?_, nofun⟩
      rw [Closer.flushing.injEq] at hgoes
      rw [hgoes] at hcontinues
      exact World.carries_continues m 1 w.world world hm.grows (hm.carries hflushing) hcontinues
  -- It has carried the ids to its end, and at the end of a flush that has not failed they are
  -- saved.
  | closerRelease failure hflushing hdone =>
      refine ⟨nofun, fun hended => ?_⟩
      rw [Closer.ended.injEq] at hended
      rw [hended] at hflushing
      have hcarries := hm.carries hflushing
      rw [hdone] at hcarries
      exact hcarries

end Watch

end ClassVeil
