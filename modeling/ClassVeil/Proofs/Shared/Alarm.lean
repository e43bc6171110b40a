import ClassVeil.Proofs.Shared.Shutdown

/-!
# The flag of a flusher and its bell

In a `Watch` the sleep of the background may end at any time, and it is not said what ends it. Here
it is. The flag that is raised to stop a flusher has a lock and a bell. Both the background and the
one who stops it need the lock to look at the flag or to raise it. The background gives the lock
back and begins to listen to the bell in one step; it listens until the bell is rung or its time is
up, and needs the lock again before it can go on. How long that time is depends on the quiet period
and on how long ago the store has changed, so it may be any time up to the quiet period.

An alarm is a watch that is looked at more closely. Seen from afar each of its steps is a step of
the watch or none at all, so what holds of any run of a watch holds of any run of an alarm.

Two things have to be known of every moment. One is about the flag, its lock and its bell
(`Orderly`): whoever stands at a spot where the lock is needed holds it, the flag is up from when
the stopping has raised it, and a background that listens after that has been rung for. The last of
these is what keeps the ring from being missed. Raising the flag and ringing need the lock, and the
background gives it back only while it begins to listen, so it has either seen the flag or hears the
bell. The other is about the store (`Engaged`): the background holds its write lock in the middle of
a flush and nowhere else. Both are kept by every step, whoever takes it.

## Main definitions

* `Alarm.Party`, `Alarm.Actor`: Who may hold the lock, and who may act.
* `Alarm.Spot`: Where the background stands.
* `Alarm.Hand`: Where the stopping stands.
* `Alarm`, `Alarm.Step`: A shared store with a flusher, and one step of anybody.
* `Alarm.watch`: An alarm seen from afar.
* `Alarm.Orderly`: What the lock, the flag and the bell have to do with each other.
* `Alarm.Engaged`: What the background has to do with the write lock of the store.

## Theorems

* `orderly_step`, `engaged_step`: A step preserves both.
* `watch_step`: A step of an alarm is a step of the watch, or none.
* `consistent_runs`: All of this holds at any moment of a run.
-/

namespace ClassVeil

namespace Alarm

/-- Who may hold the lock of the flag. -/
inductive Party where
  | background
  | closer

/-- Who may act: the background, the time that has been set for its sleep, the one who stops it, or
    anybody else. -/
inductive Actor where
  | background
  | clock
  | closer
  | other
deriving DecidableEq

/-- Where the background of a flusher stands. -/
inductive Spot where
  | absent
  /-- It waits for the lock. -/
  | entering
  /-- It is about to look at the flag, before sleep. -/
  | testing
  /-- It has not seen the flag, and is about to sleep for so long. -/
  | settling (patience : Nat)
  /-- It listens to the bell. -/
  | sleeping (deadline : Nat)
  /-- It listens no more, and waits for the lock. -/
  | woken
  /-- It is about to look at the flag, after sleep. -/
  | checking
  | looking
  | seen
  /-- It has decided to flush, and is about to give the lock back. -/
  | due
  /-- It has given the lock back, and is about to flush. -/
  | unlocked
  | flushing (failure : Option StoreError)
  | ended

namespace Spot

/-- The background holds the lock. -/
def holdsFlag : Spot → Bool
  | .testing | .settling _ | .checking | .looking | .seen | .due => true
  | _ => false

/-- The background is about to look at the flag. -/
def facesFlag : Spot → Bool
  | .testing | .checking => true
  | _ => false

/-- The background has looked at the flag, which was not raised, and has held the lock since. -/
def isUnwarned : Spot → Bool
  | .settling _ | .looking | .seen | .due => true
  | _ => false

/-- The background listens to the bell. -/
def isSleeping : Spot → Bool
  | .sleeping _ => true
  | _ => false

/-- The background flushes. -/
def isFlushing : Spot → Bool
  | .flushing _ => true
  | _ => false

/-- Where the background stands when the bell is rung. -/
def ring : Spot → Spot
  | .sleeping _ => .woken
  | spot => spot

/-- The place seen from afar. -/
def guard : Spot → Guard
  | .absent => .absent
  | .entering => .entering
  | .testing => .testing
  | .settling _ | .sleeping _ | .woken => .sleeping
  | .checking => .checking
  | .looking => .looking
  | .seen => .seen
  | .due | .unlocked => .due
  | .flushing failure => .flushing failure
  | .ended => .ended

theorem holdsFlag_of_isUnwarned (spot : Spot) (h : spot.isUnwarned = true) :
    spot.holdsFlag = true := by
  cases spot <;> first | rfl | cases h

theorem holdsFlag_of_facesFlag (spot : Spot) (h : spot.facesFlag = true) :
    spot.holdsFlag = true := by
  cases spot <;> first | rfl | cases h

theorem eq_of_facesFlag (spot : Spot) (h : spot.facesFlag = true) :
    spot = .testing ∨ spot = .checking := by
  cases spot <;> first | exact Or.inl rfl | exact Or.inr rfl | cases h

/-- What holds the lock seen from afar holds it. -/
theorem holdsFlag_of_guard (spot : Spot) (h : spot.guard.holdsFlag = true) :
    spot.holdsFlag = true := by
  cases spot <;> first | rfl | cases h

/-- The bell changes nothing for a background that does not listen, and one that does holds no
    lock. -/
theorem holdsFlag_ring (spot : Spot) : spot.ring.holdsFlag = spot.holdsFlag := by
  cases spot <;> rfl

theorem isUnwarned_ring (spot : Spot) : spot.ring.isUnwarned = spot.isUnwarned := by
  cases spot <;> rfl

/-- When the bell has been rung nobody listens any more. -/
theorem isSleeping_ring (spot : Spot) : spot.ring.isSleeping = false := by
  cases spot <;> rfl

theorem guard_ring (spot : Spot) : spot.ring.guard = spot.guard := by
  cases spot <;> rfl

end Spot

/-- Where the stopping of a flusher stands. -/
inductive Hand where
  | absent
  | called
  /-- It has the lock. -/
  | holding
  /-- The flag is raised. -/
  | raised
  /-- The lock is given back. -/
  | released
  /-- The bell has been rung. -/
  | rung
  /-- The background has ended. -/
  | joined
  /-- The store was dirty. -/
  | due
  | flushing (failure : Option StoreError)
  | ended (failure : Option StoreError)

namespace Hand

/-- The one who stops the flusher holds the lock. -/
def holdsFlag : Hand → Bool
  | .holding | .raised => true
  | _ => false

/-- The bell has been rung. -/
def hasRung : Hand → Bool
  | .rung | .joined | .due | .flushing _ | .ended _ => true
  | _ => false

/-- The flag has been raised. -/
def hasRaised (hand : Hand) : Bool :=
  match hand with
  | .raised | .released => true
  | _ => hand.hasRung

/-- The place seen from afar. -/
def closer : Hand → Closer
  | .absent => .absent
  | .called | .holding => .called
  | .raised | .released | .rung => .asked
  | .joined => .joined
  | .due => .due
  | .flushing failure => .flushing failure
  | .ended failure => .ended failure

theorem hasRaised_of_hasRung (hand : Hand) (h : hand.hasRung = true) : hand.hasRaised = true := by
  cases hand <;> first | rfl | cases h

end Hand

end Alarm

/-- A shared store with a flusher whose flag has a lock and a bell. -/
structure Alarm where
  world : World
  flusher : Flusher
  stopping : Bool := false
  /-- Who holds the lock of the flag. -/
  lock : Option Alarm.Party := none
  spot : Alarm.Spot := .absent
  hand : Alarm.Hand := .absent

namespace Alarm

/-- One step of the background, of its clock, of the one who stops it, or of anybody else. -/
inductive Step : Alarm → Actor → Alarm → Prop
  | around (a : Alarm) (world : World) : World.Move a.world world →
      world.phase 0 = a.world.phase 0 → world.phase 1 = a.world.phase 1 →
      Step a .other { a with world := world }
  | takeError (a : Alarm) : Step a .other { a with flusher := a.flusher.takeError.2 }
  | spawn (a : Alarm) : a.spot = .absent → Step a .other { a with spot := .entering }
  | enter (a : Alarm) : a.spot = .entering → a.lock = none →
      Step a .background { a with spot := .testing, lock := some .background }
  | test (a : Alarm) (patience : Nat) : a.spot = .testing → a.stopping = false →
      1 ≤ patience → patience ≤ max a.flusher.quiet 1 →
      Step a .background { a with spot := .settling patience }
  | sleep (a : Alarm) (patience : Nat) : a.spot = .settling patience →
      Step a .background { a with
        spot := .sleeping (a.world.store.memory.now + patience)
        lock := none }
  | timeout (a : Alarm) (deadline : Nat) : a.spot = .sleeping deadline →
      deadline ≤ a.world.store.memory.now → Step a .clock { a with spot := .woken }
  | wake (a : Alarm) : a.spot = .woken → a.lock = none →
      Step a .background { a with spot := .checking, lock := some .background }
  | check (a : Alarm) : a.spot = .checking → a.stopping = false →
      Step a .background { a with spot := .looking }
  | quit (a : Alarm) : a.spot.facesFlag = true → a.stopping = true →
      Step a .background { a with spot := .ended, lock := none }
  | look (a : Alarm) : a.spot = .looking →
      Step a .background { a with
        spot := if a.world.store.isDirty then .seen else .testing }
  | judge (a : Alarm) : a.spot = .seen →
      Step a .background { a with
        spot := if a.flusher.isRested a.world.store then .due else .testing }
  | unlock (a : Alarm) : a.spot = .due →
      Step a .background { a with spot := .unlocked, lock := none }
  | acquire (a : Alarm) : a.spot = .unlocked → a.world.lock = none → a.world.phase 0 = .idle →
      Step a .background { a with
        world := World.enter { a.world with lock := some 0 } 0 .locked
        spot := .flushing none }
  | flush (a : Alarm) (world : World) (failure : Option StoreError) :
      a.spot = .flushing none → World.Continues 0 a.world failure world →
      Step a .background { a with world := world, spot := .flushing failure }
  | release (a : Alarm) (failure : Option StoreError) : a.spot = .flushing failure →
      a.world.phase 0 = .done →
      Step a .background { a with
        world := World.enter { a.world with lock := none } 0 .idle
        flusher := a.flusher.record failure
        spot := .entering }
  | call (a : Alarm) : a.hand = .absent → a.spot.guard ≠ .absent →
      Step a .closer { a with hand := .called }
  | take (a : Alarm) : a.hand = .called → a.lock = none →
      Step a .closer { a with hand := .holding, lock := some .closer }
  | raise (a : Alarm) : a.hand = .holding →
      Step a .closer { a with hand := .raised, stopping := true }
  | giveBack (a : Alarm) : a.hand = .raised →
      Step a .closer { a with hand := .released, lock := none }
  | ring (a : Alarm) : a.hand = .released →
      Step a .closer { a with hand := .rung, spot := a.spot.ring }
  | join (a : Alarm) : a.hand = .rung → a.spot = .ended → Step a .closer { a with hand := .joined }
  | leave (a : Alarm) : a.hand = .joined → a.world.store.isDirty = false →
      Step a .closer { a with flusher := a.flusher.settle none, hand := .ended none }
  | stay (a : Alarm) : a.hand = .joined → a.world.store.isDirty = true →
      Step a .closer { a with hand := .due }
  | closerAcquire (a : Alarm) : a.hand = .due → a.world.lock = none → a.world.phase 1 = .idle →
      Step a .closer { a with
        world := World.enter { a.world with lock := some 1 } 1 .locked
        hand := .flushing none }
  | closerFlush (a : Alarm) (world : World) (failure : Option StoreError) :
      a.hand = .flushing none → World.Continues 1 a.world failure world →
      Step a .closer { a with world := world, hand := .flushing failure }
  | closerRelease (a : Alarm) (failure : Option StoreError) : a.hand = .flushing failure →
      a.world.phase 1 = .done →
      Step a .closer { a with
        world := World.enter { a.world with lock := none } 1 .idle
        flusher := a.flusher.settle failure
        hand := .ended failure }

/-! ### The lock, the flag and the bell -/

/-- What the lock, the flag and the bell have to do with each other. Who is in a place that needs
    the lock has it. The background has not been asked to stop as long as it goes by an old look at
    the flag, and when the bell has been rung it does not listen any more. -/
structure Orderly (a : Alarm) : Prop where
  background : a.lock = some .background ↔ a.spot.holdsFlag = true
  closer : a.lock = some .closer ↔ a.hand.holdsFlag = true
  raised : a.stopping = a.hand.hasRaised
  unwarned : a.spot.isUnwarned = true → a.stopping = false
  rung : a.hand.hasRung = true → a.spot.isSleeping = false
  begun : a.hand ≠ .absent → a.spot.guard ≠ .absent

/-- The background may go to another place without touching the lock, if it holds the lock in both
    places or in neither. It listens to the bell only after it has given the lock back. -/
theorem orderly_moved (a b : Alarm) (ha : a.Orderly) (hlock : b.lock = a.lock)
    (hstopping : b.stopping = a.stopping) (hhand : b.hand = a.hand)
    (hholds : b.spot.holdsFlag = a.spot.holdsFlag)
    (hunwarned : b.spot.isUnwarned = true → a.stopping = false)
    (hsleeping : b.spot.isSleeping = false) (hthere : b.spot.guard ≠ .absent) : b.Orderly where
  background := by rw [hlock, hholds, ha.background]
  closer := by rw [hlock, hhand, ha.closer]
  raised := by rw [hstopping, hhand, ha.raised]
  unwarned := by rw [hstopping]; exact hunwarned
  rung := fun _ => hsleeping
  begun := fun _ => hthere

/-- The background may take the lock if it is free. It is about to look at the flag then, so it goes
    by no old look, and it does not listen. -/
theorem orderly_taken (a b : Alarm) (ha : a.Orderly) (hfree : a.lock = none)
    (hlock : b.lock = some .background) (hstopping : b.stopping = a.stopping)
    (hhand : b.hand = a.hand) (hspot : b.spot = .testing ∨ b.spot = .checking) : b.Orderly where
  background := by
    rcases hspot with hspot | hspot
    · simp only [hlock, hspot, Spot.holdsFlag]
    · simp only [hlock, hspot, Spot.holdsFlag]
  closer := by
    have hnot := ha.closer
    rw [hfree] at hnot
    rw [hlock, hhand, ← hnot]
    simp only [Option.some.injEq, reduceCtorEq]
  raised := by rw [hstopping, hhand, ha.raised]
  unwarned := by
    rcases hspot with hspot | hspot
    · rw [hspot]; exact nofun
    · rw [hspot]; exact nofun
  rung := by
    rcases hspot with hspot | hspot
    · rw [hspot]; exact fun _ => rfl
    · rw [hspot]; exact fun _ => rfl
  begun := by
    rcases hspot with hspot | hspot
    · rw [hspot]; exact fun _ => nofun
    · rw [hspot]; exact fun _ => nofun

/-- The background may give the lock back if it has it. This is how it begins to listen to the bell,
    and then it must not have been rung for already: it has seen the flag down under this lock, and
    the bell is rung only when the flag is up. -/
theorem orderly_given (a b : Alarm) (ha : a.Orderly) (hholds : a.spot.holdsFlag = true)
    (hlock : b.lock = none) (hstopping : b.stopping = a.stopping) (hhand : b.hand = a.hand)
    (hfree : b.spot.holdsFlag = false) (hunwarned : b.spot.isUnwarned = false)
    (hsleeping : b.spot.isSleeping = true → a.stopping = false)
    (hthere : b.spot.guard ≠ .absent) : b.Orderly where
  background := by simp only [hlock, hfree, reduceCtorEq]
  closer := by
    -- The lock was with the background, so it is not with the one who stops it.
    have hnot := ha.closer
    rw [ha.background.mpr hholds] at hnot
    rw [hlock, hhand, ← hnot]
    simp only [Option.some.injEq, reduceCtorEq]
  raised := by rw [hstopping, hhand, ha.raised]
  unwarned := by rw [hunwarned]; exact nofun
  rung := by
    intro hrung
    rw [hhand] at hrung
    rw [← Bool.not_eq_true]
    intro hsleeps
    -- It would have looked at the flag before, and the flag is raised before the bell is rung.
    have hflag := hsleeping hsleeps
    rw [ha.raised, a.hand.hasRaised_of_hasRung hrung] at hflag
    cases hflag
  begun := fun _ => hthere

/-- The one who stops the flusher may go on without touching lock, flag and bell. -/
theorem orderly_acted (a b : Alarm) (ha : a.Orderly) (hlock : b.lock = a.lock)
    (hstopping : b.stopping = a.stopping) (hspot : b.spot = a.spot)
    (hholds : b.hand.holdsFlag = a.hand.holdsFlag)
    (hraised : b.hand.hasRaised = a.hand.hasRaised)
    (hrung : b.hand.hasRung = a.hand.hasRung) (hthere : a.spot.guard ≠ .absent) : b.Orderly where
  background := by rw [hlock, hspot, ha.background]
  closer := by rw [hlock, hholds, ha.closer]
  raised := by rw [hstopping, hraised, ha.raised]
  unwarned := by rw [hspot, hstopping]; exact ha.unwarned
  rung := by rw [hspot, hrung]; exact ha.rung
  begun := by rw [hspot]; exact fun _ => hthere

/-- While the background is without the lock, the flag may change and so may the place of the one
    who holds it. Nobody goes by an old look at the flag then, because that takes the lock. -/
theorem orderly_handled (a b : Alarm) (ha : a.Orderly) (hspot : b.spot = a.spot)
    (hnotthere : a.lock ≠ some .background) (hlock : b.lock ≠ some .background)
    (hcloser : b.lock = some .closer ↔ b.hand.holdsFlag = true)
    (hraised : b.stopping = b.hand.hasRaised) (hrung : b.hand.hasRung = false)
    (hthere : a.spot.guard ≠ .absent) : b.Orderly := by
  have hfree : a.spot.holdsFlag = false := by
    rw [← Bool.not_eq_true]
    exact fun hholds => hnotthere (ha.background.mpr hholds)
  refine ⟨?_, hcloser, hraised, fun hunwarned => ?_, ?_, ?_⟩
  · rw [hspot, hfree]
    simp only [hlock, Bool.false_eq_true]
  · rw [hspot] at hunwarned
    rw [a.spot.holdsFlag_of_isUnwarned hunwarned] at hfree
    cases hfree
  · rw [hrung]; exact nofun
  · rw [hspot]; exact fun _ => hthere

/-- A step preserves the order of the lock, the flag and the bell, whoever takes it. The steps fall
    into four groups: the background goes on without touching the lock, takes it or gives it back,
    or the one who stops it acts. Each group has a lemma above. Only the ring is in none of them,
    since it moves the background from outside. -/
theorem orderly_step (a b : Alarm) (who : Actor) (h : Step a who b) (ha : a.Orderly) :
    b.Orderly := by
  have hthere : ∀ hand, a.hand = hand → hand ≠ .absent → a.spot.guard ≠ .absent := by
    rintro _ rfl hne
    exact ha.begun hne
  cases h with
  | around world _ _ _ =>
      exact ⟨ha.background, ha.closer, ha.raised, ha.unwarned, ha.rung, ha.begun⟩
  | takeError => exact ⟨ha.background, ha.closer, ha.raised, ha.unwarned, ha.rung, ha.begun⟩
  -- The background goes from a place to the next one, and the lock stays where it is.
  | spawn hspot =>
      exact orderly_moved a _ ha rfl rfl rfl (by rw [hspot]; rfl) nofun rfl nofun
  -- It takes the lock, to look at the flag.
  | enter _ hfree => exact orderly_taken a _ ha hfree rfl rfl rfl (Or.inl rfl)
  | wake _ hfree => exact orderly_taken a _ ha hfree rfl rfl rfl (Or.inr rfl)
  | test patience hspot hflag _ _ =>
      exact orderly_moved a _ ha rfl rfl rfl (by rw [hspot]; rfl) (fun _ => hflag) rfl nofun
  | check hspot hflag =>
      exact orderly_moved a _ ha rfl rfl rfl (by rw [hspot]; rfl) (fun _ => hflag) rfl nofun
  | sleep patience hspot =>
      refine orderly_given a _ ha (by rw [hspot]; rfl) rfl rfl rfl rfl rfl (fun _ => ?_) nofun
      -- It has looked at the flag under the lock that it gives back only now.
      exact ha.unwarned (by rw [hspot]; rfl)
  | quit hfaces _ =>
      exact orderly_given a _ ha (a.spot.holdsFlag_of_facesFlag hfaces) rfl rfl rfl rfl rfl nofun
        nofun
  | unlock hspot => exact orderly_given a _ ha (by rw [hspot]; rfl) rfl rfl rfl rfl rfl nofun nofun
  | timeout deadline hspot _ =>
      exact orderly_moved a _ ha rfl rfl rfl (by rw [hspot]; rfl) nofun rfl nofun
  -- What it has seen of the flag is still true, for it has kept the lock since.
  | look hspot =>
      have hflag := ha.unwarned (by rw [hspot]; rfl)
      cases a.world.store.isDirty with
      | true =>
          exact orderly_moved a _ ha rfl rfl rfl (by rw [hspot]; rfl) (fun _ => hflag) rfl nofun
      | false =>
          exact orderly_moved a _ ha rfl rfl rfl (by rw [hspot]; rfl) (fun _ => hflag) rfl nofun
  | judge hspot =>
      have hflag := ha.unwarned (by rw [hspot]; rfl)
      cases a.flusher.isRested a.world.store with
      | true =>
          exact orderly_moved a _ ha rfl rfl rfl (by rw [hspot]; rfl) (fun _ => hflag) rfl nofun
      | false =>
          exact orderly_moved a _ ha rfl rfl rfl (by rw [hspot]; rfl) (fun _ => hflag) rfl nofun
  | acquire hspot _ _ =>
      exact orderly_moved a _ ha rfl rfl rfl (by rw [hspot]; rfl) nofun rfl nofun
  | flush world failure hspot _ =>
      exact orderly_moved a _ ha rfl rfl rfl (by rw [hspot]; rfl) nofun rfl nofun
  | release failure hspot _ =>
      exact orderly_moved a _ ha rfl rfl rfl (by rw [hspot]; rfl) nofun rfl nofun
  -- From here on it is the one who stops the flusher who acts.
  | call hhand hspot =>
      exact orderly_acted a _ ha rfl rfl rfl (by rw [hhand]; rfl) (by rw [hhand]; rfl)
        (by rw [hhand]; rfl) hspot
  | take hhand hfree =>
      refine orderly_handled a _ ha rfl (by rw [hfree]; exact nofun) nofun
        (by simp [Hand.holdsFlag]) ?_ rfl (hthere _ hhand nofun)
      rw [ha.raised, hhand]
      rfl
  | raise hhand =>
      have hlock := ha.closer.mpr (by rw [hhand]; rfl)
      refine orderly_handled a _ ha rfl (by rw [hlock]; exact nofun) (by rw [hlock]; exact nofun)
        ?_ rfl rfl (hthere _ hhand nofun)
      rw [hlock]
      simp [Hand.holdsFlag]
  | giveBack hhand =>
      have hlock := ha.closer.mpr (by rw [hhand]; rfl)
      refine orderly_handled a _ ha rfl (by rw [hlock]; exact nofun) nofun
        (by simp [Hand.holdsFlag]) ?_ rfl (hthere _ hhand nofun)
      rw [ha.raised, hhand]
      rfl
  -- The ring wakes the background wherever it listens, and it needs the lock to go on.
  | ring hhand =>
      refine ⟨?_, ?_, ?_, ?_, fun _ => a.spot.isSleeping_ring, ?_⟩
      · simp only [a.spot.holdsFlag_ring, ha.background]
      · have hcloser := ha.closer
        rw [hhand] at hcloser
        exact hcloser
      · rw [ha.raised, hhand]
        rfl
      · simp only [a.spot.isUnwarned_ring]
        exact ha.unwarned
      · simp only [a.spot.guard_ring]
        exact fun _ => hthere _ hhand nofun
  | join hhand _ =>
      exact orderly_acted a _ ha rfl rfl rfl (by rw [hhand]; rfl) (by rw [hhand]; rfl)
        (by rw [hhand]; rfl) (hthere _ hhand nofun)
  | leave hhand _ =>
      exact orderly_acted a _ ha rfl rfl rfl (by rw [hhand]; rfl) (by rw [hhand]; rfl)
        (by rw [hhand]; rfl) (hthere _ hhand nofun)
  | stay hhand _ =>
      exact orderly_acted a _ ha rfl rfl rfl (by rw [hhand]; rfl) (by rw [hhand]; rfl)
        (by rw [hhand]; rfl) (hthere _ hhand nofun)
  | closerAcquire hhand _ _ =>
      exact orderly_acted a _ ha rfl rfl rfl (by rw [hhand]; rfl) (by rw [hhand]; rfl)
        (by rw [hhand]; rfl) (hthere _ hhand nofun)
  | closerFlush world failure hhand _ =>
      exact orderly_acted a _ ha rfl rfl rfl (by rw [hhand]; rfl) (by rw [hhand]; rfl)
        (by rw [hhand]; rfl) (hthere _ hhand nofun)
  | closerRelease failure hhand _ =>
      exact orderly_acted a _ ha rfl rfl rfl (by rw [hhand]; rfl) (by rw [hhand]; rfl)
        (by rw [hhand]; rfl) (hthere _ hhand nofun)

/-! ### The write lock of the store -/

/-- What the background has to do with the write lock of the store: it has the lock only while it
    flushes, and it is in a flush all that while, to its end if the flush has failed. -/
structure Engaged (a : Alarm) : Prop where
  busy : ∀ failure, a.spot = .flushing failure → a.world.phase 0 ≠ .idle
  failed : ∀ e, a.spot = .flushing (some e) → a.world.phase 0 = .done
  owner : a.world.lock = some 0 → ∃ failure, a.spot = .flushing failure

/-- Whoever leaves the flush of the background as it is does not take its write lock either. -/
theorem engaged_kept (a b : Alarm) (ha : a.Engaged)
    (hspot : ∀ failure, b.spot = .flushing failure ↔ a.spot = .flushing failure)
    (hphase : b.world.phase 0 = a.world.phase 0)
    (hlock : b.world.lock = some 0 → a.world.lock = some 0) : b.Engaged where
  busy := fun failure h => by rw [hphase]; exact ha.busy failure ((hspot failure).mp h)
  failed := fun e h => by rw [hphase]; exact ha.failed e ((hspot (some e)).mp h)
  owner := fun h => by
    rcases ha.owner (hlock h) with ⟨failure, hflushing⟩
    exact ⟨failure, (hspot failure).mpr hflushing⟩

/-- Who takes the write lock enters a flush. -/
theorem lock_of_move (w w' : World) (h : World.Move w w') (hphase : w'.phase 0 = w.phase 0)
    (hlock : w'.lock = some 0) : w.lock = some 0 := by
  cases h with
  | foreign fs hsame => exact hlock
  | step hstep =>
      cases hstep with
      | acquire t _ hidle =>
          -- It would have to be the background itself, which then is idle no more.
          have hzero : t = 0 := Option.some.inj hlock
          rw [hzero, World.phase_enter] at hphase
          rw [hzero, ← hphase] at hidle
          cases hidle
      | release t _ => cases hlock
      | _ => exact hlock

theorem lock_continues (t : Nat) (w w' : World) (failure : Option StoreError)
    (h : World.Continues t w failure w') : w'.lock = w.lock := by
  cases h <;> rfl

/-- A step of a flush does not go back to its beginning, and a failure is the end of it. This is
    what keeps a background from flushing twice under one lock. -/
theorem phase_of_continues (t : Nat) (w w' : World) (failure : Option StoreError)
    (h : World.Continues t w failure w') :
    w'.phase t ≠ .idle ∧ ∀ e, failure = some e → w'.phase t = .done := by
  cases h with
  | snapshot _ =>
      rw [World.phase_enter]
      exact ⟨nofun, nofun⟩
  | write snap map time fs _ _ _ =>
      rw [World.phase_enter]
      exact ⟨nofun, nofun⟩
  | raise generation _ =>
      rw [World.phase_enter]
      exact ⟨nofun, nofun⟩
  | refuse snap map e fs _ _ =>
      rw [World.phase_enter]
      exact ⟨nofun, fun _ _ => rfl⟩
  | abandon e fs _ _ =>
      rw [World.phase_enter]
      exact ⟨nofun, fun _ _ => rfl⟩

/-- A step preserves what the background has to do with the write lock. Only its own steps in a
    flush change anything about it; the other flush that there may be is the last one, made by
    whoever stops it, under a number of its own. -/
theorem engaged_step (a b : Alarm) (who : Actor) (h : Step a who b) (ha : a.Engaged) :
    b.Engaged := by
  -- From one place outside of a flush to another one.
  have hmoved : ∀ spot next : Spot, a.spot = spot → spot.isFlushing = false →
      next.isFlushing = false →
      ∀ failure, next = .flushing failure ↔ a.spot = .flushing failure := by
    rintro spot next rfl hspot hnext failure
    refine iff_of_false (fun h => ?_) (fun h => ?_)
    · rw [h] at hnext
      cases hnext
    · rw [h] at hspot
      cases hspot
  -- The flush of the one who stops the flusher has another number.
  have hother : ∀ p, (World.enter a.world 1 p).phase 0 = a.world.phase 0 :=
    fun p => World.phase_enter_of_ne a.world 1 0 p (by decide)
  cases h with
  | around world hmove hphase _ =>
      exact engaged_kept a _ ha (fun _ => Iff.rfl) hphase (lock_of_move _ _ hmove hphase)
  | spawn hspot => exact engaged_kept a _ ha (hmoved _ _ hspot rfl rfl) rfl id
  | enter hspot _ => exact engaged_kept a _ ha (hmoved _ _ hspot rfl rfl) rfl id
  | test patience hspot _ _ _ => exact engaged_kept a _ ha (hmoved _ _ hspot rfl rfl) rfl id
  | sleep patience hspot => exact engaged_kept a _ ha (hmoved _ _ hspot rfl rfl) rfl id
  | timeout deadline hspot _ => exact engaged_kept a _ ha (hmoved _ _ hspot rfl rfl) rfl id
  | wake hspot _ => exact engaged_kept a _ ha (hmoved _ _ hspot rfl rfl) rfl id
  | check hspot _ => exact engaged_kept a _ ha (hmoved _ _ hspot rfl rfl) rfl id
  | quit hfaces _ =>
      rcases a.spot.eq_of_facesFlag hfaces with hspot | hspot
      · exact engaged_kept a _ ha (hmoved _ _ hspot rfl rfl) rfl id
      · exact engaged_kept a _ ha (hmoved _ _ hspot rfl rfl) rfl id
  | look hspot =>
      refine engaged_kept a _ ha (hmoved _ _ hspot rfl ?_) rfl id
      cases a.world.store.isDirty with
      | true => rfl
      | false => rfl
  | judge hspot =>
      refine engaged_kept a _ ha (hmoved _ _ hspot rfl ?_) rfl id
      cases a.flusher.isRested a.world.store with
      | true => rfl
      | false => rfl
  | unlock hspot => exact engaged_kept a _ ha (hmoved _ _ hspot rfl rfl) rfl id
  | acquire _ _ _ =>
      refine ⟨fun failure _ => ?_, nofun, fun _ => ⟨none, rfl⟩⟩
      simp only [World.phase_enter]
      exact nofun
  | flush world failure _ hcontinues =>
      rcases phase_of_continues 0 _ _ failure hcontinues with ⟨hbusy, hfailed⟩
      refine ⟨fun _ _ => hbusy, fun e hflushing => ?_, fun _ => ⟨failure, rfl⟩⟩
      rw [Spot.flushing.injEq] at hflushing
      exact hfailed e hflushing
  -- After the flush it has no lock, so there is nothing to be shown.
  | release failure _ _ => exact ⟨nofun, nofun, nofun⟩
  | ring _ =>
      refine engaged_kept a _ ha (fun failure => ?_) rfl id
      cases a.spot <;> simp only [Spot.ring, reduceCtorEq]
  | closerAcquire _ _ _ => exact engaged_kept a _ ha (fun _ => Iff.rfl) (hother _) nofun
  | closerFlush world failure _ hcontinues =>
      refine engaged_kept a _ ha (fun _ => Iff.rfl)
        (World.phase_continues 1 0 _ _ failure hcontinues (by decide)) fun hlock => ?_
      rw [← lock_continues 1 _ _ failure hcontinues]
      exact hlock
  | closerRelease failure _ _ => exact engaged_kept a _ ha (fun _ => Iff.rfl) (hother _) nofun
  | _ => exact engaged_kept a _ ha (fun _ => Iff.rfl) rfl id

/-! ### Seen from afar -/

/-- An alarm seen from afar. -/
def watch (a : Alarm) : Watch where
  world := a.world
  flusher := a.flusher
  stopping := a.stopping
  guard := a.spot.guard
  closer := a.hand.closer

/-- A step of an alarm is a step of the watch, or none. The steps that are none concern the lock,
    the bell and the time of a sleep, which a watch knows nothing of. Raising the flag is the one
    step that needs more than itself: in a watch it is allowed only while the background is not at
    work under the lock, and here the lock says so. -/
theorem watch_step (a b : Alarm) (who : Actor) (h : Step a who b) (ha : a.Orderly) :
    b.watch = a.watch ∨ Watch.Step a.watch b.watch := by
  -- The look of the background at something, which depends on what it sees.
  have hlook : ∀ spot guard, a.spot = spot →
      spot.guard.next a.stopping a.world.store.isDirty (a.flusher.isRested a.world.store)
        = some guard → Watch.Step a.watch { a.watch with guard := guard } := by
    rintro _ guard rfl hnext
    exact Watch.Step.look a.watch guard hnext
  have hguard : ∀ spot, a.spot = spot → a.watch.guard = spot.guard := fun _ hspot =>
    congrArg Spot.guard hspot
  have hcloser : ∀ hand, a.hand = hand → a.watch.closer = hand.closer := fun _ hhand =>
    congrArg Hand.closer hhand
  cases h with
  | around world hmove hzero hone => exact Or.inr (Watch.Step.around a.watch world hmove hzero hone)
  | takeError => exact Or.inr (Watch.Step.takeError a.watch)
  | spawn hspot => exact Or.inr (hlook _ .entering hspot rfl)
  | enter hspot _ => exact Or.inr (hlook _ .testing hspot rfl)
  | test patience hspot hflag _ _ =>
      exact Or.inr (hlook _ .sleeping hspot (by rw [hflag]; rfl))
  | sleep patience hspot =>
      refine Or.inl ?_
      simp only [watch, hspot, Spot.guard]
  | timeout deadline hspot _ =>
      refine Or.inl ?_
      simp only [watch, hspot, Spot.guard]
  | wake hspot _ => exact Or.inr (hlook _ .checking hspot rfl)
  | check hspot hflag => exact Or.inr (hlook _ .looking hspot (by rw [hflag]; rfl))
  | quit hfaces hflag =>
      rcases a.spot.eq_of_facesFlag hfaces with hspot | hspot
      · exact Or.inr (hlook _ .ended hspot (by rw [hflag]; rfl))
      · exact Or.inr (hlook _ .ended hspot (by rw [hflag]; rfl))
  | look hspot =>
      refine Or.inr (hlook _ _ hspot ?_)
      cases a.world.store.isDirty with
      | true => rfl
      | false => rfl
  | judge hspot =>
      refine Or.inr (hlook _ _ hspot ?_)
      cases a.flusher.isRested a.world.store with
      | true => rfl
      | false => rfl
  | unlock hspot =>
      refine Or.inl ?_
      simp only [watch, hspot, Spot.guard]
  | acquire hspot hlock hidle =>
      exact Or.inr (Watch.Step.guardAcquire a.watch (hguard _ hspot) hlock hidle)
  | flush world failure hspot hcontinues =>
      exact Or.inr (Watch.Step.guardFlush a.watch world failure (hguard _ hspot) hcontinues)
  | release failure hspot hdone =>
      exact Or.inr (Watch.Step.guardRelease a.watch failure (hguard _ hspot) hdone)
  | call hhand hthere => exact Or.inr (Watch.Step.call a.watch (hcloser _ hhand) hthere)
  | take hhand _ =>
      refine Or.inl ?_
      simp only [watch, hhand, Hand.closer]
  | raise hhand =>
      -- The lock is not with the background, so it is nowhere where it needs it.
      have hlock := ha.closer.mpr (by rw [hhand]; rfl)
      have hfree := ha.background
      rw [hlock] at hfree
      refine Or.inr (Watch.Step.ask a.watch (hcloser _ hhand) ?_)
      rw [← Bool.not_eq_true]
      exact fun hholds => nomatch hfree.mpr (a.spot.holdsFlag_of_guard hholds)
  | giveBack hhand =>
      refine Or.inl ?_
      simp only [watch, hhand, Hand.closer]
  | ring hhand =>
      refine Or.inl ?_
      simp only [watch, hhand, Hand.closer, Spot.guard_ring]
  | join hhand hspot => exact Or.inr (Watch.Step.join a.watch (hcloser _ hhand) (hguard _ hspot))
  | leave hhand hclean => exact Or.inr (Watch.Step.leave a.watch (hcloser _ hhand) hclean)
  | stay hhand hdirty => exact Or.inr (Watch.Step.stay a.watch (hcloser _ hhand) hdirty)
  | closerAcquire hhand hlock hidle =>
      exact Or.inr (Watch.Step.closerAcquire a.watch (hcloser _ hhand) hlock hidle)
  | closerFlush world failure hhand hcontinues =>
      exact Or.inr (Watch.Step.closerFlush a.watch world failure (hcloser _ hhand) hcontinues)
  | closerRelease failure hhand hdone =>
      exact Or.inr (Watch.Step.closerRelease a.watch failure (hcloser _ hhand) hdone)

/-! ### Runs -/

/-- What holds at any moment. -/
structure Consistent (a : Alarm) : Prop where
  watch : a.watch.Consistent
  orderly : a.Orderly
  engaged : a.Engaged

/-- A step preserves consistency: that of the watch because the step is one of the watch or none,
    and what an alarm has in addition by the two lemmas on it. -/
theorem consistent_step (a b : Alarm) (who : Actor) (h : Step a who b) (ha : a.Consistent) :
    b.Consistent := by
  refine ⟨?_, orderly_step a b who h ha.orderly, engaged_step a b who h ha.engaged⟩
  rcases watch_step a b who h ha.orderly with heq | hstep
  · rw [heq]
    exact ha.watch
  · exact Watch.consistent_step _ _ hstep ha.watch

/-- A sequence of alarms, and who acts: nobody, and then nothing changes, or somebody by one
    step. -/
def Runs (run : Nat → Alarm) (who : Nat → Option Actor) : Prop :=
  ∀ i, match who i with
    | none => run (i + 1) = run i
    | some actor => Step (run i) actor (run (i + 1))

/-- Nothing has been flushed, there is no background yet, and nobody has the lock of the flag. -/
structure Fresh (a : Alarm) : Prop where
  world : a.world.Fresh
  stopping : a.stopping = false
  lock : a.lock = none
  spot : a.spot = .absent
  hand : a.hand = .absent

/-- At the beginning nobody stops the flusher and nobody holds the lock, so there is nothing that
    could be out of order. -/
theorem consistent_fresh (a : Alarm) (ha : a.Fresh) (hworld : a.world.Consistent) :
    a.Consistent := by
  -- The three parts are those of the watch, of the order around the flag, and of the write lock.
  -- With nobody there yet, nearly everything is about a place that is absent.
  refine ⟨Watch.consistent_fresh _ ⟨ha.world, ?_, ?_, ha.stopping⟩ hworld, ⟨?_, ?_, ?_, ?_, ?_, ?_⟩,
    ⟨?_, ?_, ?_⟩⟩
  · exact congrArg Spot.guard ha.spot
  · exact congrArg Hand.closer ha.hand
  · simp only [ha.lock, ha.spot, Spot.holdsFlag, reduceCtorEq, Bool.false_eq_true]
  · simp only [ha.lock, ha.hand, Hand.holdsFlag, reduceCtorEq, Bool.false_eq_true]
  · rw [ha.stopping, ha.hand]
    rfl
  · exact fun _ => ha.stopping
  · rw [ha.spot]
    exact fun _ => rfl
  · exact fun hbegun => absurd ha.hand hbegun
  · rw [ha.spot]
    exact nofun
  · rw [ha.spot]
    exact nofun
  · rw [ha.world.lock]
    exact nofun

/-- An alarm is consistent at any moment of a run. The run may pause at any time for as long as it
    likes, which changes nothing, and nothing is asked of who acts next. -/
theorem consistent_runs (run : Nat → Alarm) (who : Nat → Option Actor) (hrun : Runs run who)
    (hstart : (run 0).Consistent) (i : Nat) : (run i).Consistent := by
  induction i with
  | zero => exact hstart
  | succ i ih =>
      have hnext := hrun i
      cases hwho : who i with
      | none =>
          rw [hwho] at hnext
          rw [hnext]
          exact ih
      | some actor =>
          rw [hwho] at hnext
          exact consistent_step _ _ actor hnext ih

end Alarm

end ClassVeil
