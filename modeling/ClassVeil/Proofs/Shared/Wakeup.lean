import ClassVeil.Proofs.Shared.Alarm
import Mathlib.Data.Nat.Count

/-!
# Why stopping a flusher does not wait for its sleep

Who stops a flusher waits for its background to end, and the background may be about to sleep for a
long time. It could be missed by the bell in two ways: it goes to sleep after the bell has been
rung, or it is not woken by it. Neither happens. Between its look at the flag and its sleep the
background holds the lock, so the flag is raised before that look or after it has begun to listen;
and the bell is rung only after the flag has been raised.

From the bell on, then, the background is nowhere near its sleep: it waits for the lock, looks at
the flag, or is in the last flush that it had decided on before. From each of these places its end
is a few steps away (`Alarm.stepsLeft`), and none of them waits for a time.

That the end comes is said in three parts, since nothing is assumed of who gets to act. The steps
that are left become fewer with each step of the background, and no other step makes them more
(`stepsLeft_step`), so the background makes seven at most. As long as it has not ended it has a step
to make, unless somebody else has the write lock (`exists_step`). And no step of its clock is among
those that happen (`isSleeping_of_clock`). So whoever lets the background act now and then, and
gives back the write lock, sees it end, however long the time was that it had set for its sleep.

Seven is the way from the place where the background has decided on a flush and given the lock back:
it takes the write lock, copies, writes, counts, gives the write lock back, takes the lock of the
flag, and looks at it.

## Main definitions

* `Alarm.stepsLeft`: How many steps of the background are left when the bell has been rung.

## Theorems

* `ends_of_facesFlag`: The next look at the flag is the end.
* `exists_step`: The background can go on, unless somebody else has the write lock.
* `stepsLeft_step`: Each step of the background brings it nearer to its end, and no other step takes
  it further away.
* `no_lost_wakeup`: What holds from the moment on at which the bell has been rung.
-/

namespace ClassVeil

/-- How many steps of a flush are left until it is done, at most. -/
def Phase.stepsLeft : Phase → Nat
  | .idle | .done => 0
  | .written _ => 1
  | .ready _ _ => 2
  | .locked => 3

/-- A flush comes closer to its end with each of its steps, also with one that fails. -/
theorem World.stepsLeft_continues (t : Nat) (w w' : World) (failure : Option StoreError)
    (h : Continues t w failure w') : (w'.phase t).stepsLeft < (w.phase t).stepsLeft := by
  cases h with
  | snapshot hphase =>
      rw [phase_enter, hphase]
      exact Nat.lt_succ_self 2
  | write snap map time fs hphase _ _ =>
      rw [phase_enter, hphase]
      exact Nat.lt_succ_self 1
  | raise generation hphase =>
      rw [phase_enter, hphase]
      exact Nat.lt_succ_self 0
  | refuse snap map e fs hphase _ =>
      rw [phase_enter, hphase]
      exact Nat.zero_lt_succ 1
  | abandon e fs hphase _ =>
      rcases hphase with hphase | ⟨snap, map, hphase⟩
      · rw [phase_enter, hphase]
        exact Nat.zero_lt_succ 2
      · rw [phase_enter, hphase]
        exact Nat.zero_lt_succ 1

/-- A flush that is not done can go on. -/
theorem World.exists_continues (t : Nat) (w : World) (hw : w.store.Confined)
    (hidle : w.phase t ≠ .idle) (hdone : w.phase t ≠ .done) :
    ∃ failure w', Continues t w failure w' := by
  cases hphase : w.phase t with
  | idle => exact absurd hphase hidle
  | done => exact absurd hphase hdone
  | locked => exact ⟨none, _, .snapshot w hphase⟩
  | written generation => exact ⟨none, _, .raise w generation hphase⟩
  | ready snap map =>
      rcases hwrite : w.store.writeOut w.fs snap with ⟨_ | e, fs⟩
      · rcases Store.find_of_writeOut w.store hw w.fs fs snap hwrite with ⟨time, hfind⟩
        exact ⟨none, _, .write w snap map time fs hphase hwrite hfind⟩
      · exact ⟨some e, _, .refuse w snap map e fs hphase hwrite⟩

namespace Alarm

/-! ### Behind the bell -/

/-- Once the bell has been rung the stopping only goes on from there, whoever takes the next step.
    -/
theorem hasRung_step (a b : Alarm) (who : Actor) (h : Step a who b)
    (hrung : a.hand.hasRung = true) : b.hand.hasRung = true := by
  have hnot : ∀ hand, a.hand = hand → hand.hasRung = false → b.hand.hasRung = true := by
    rintro _ rfl hfalse
    rw [hrung] at hfalse
    cases hfalse
  cases h with
  | call hhand _ => exact hnot _ hhand rfl
  | take hhand _ => exact hnot _ hhand rfl
  | raise hhand => exact hnot _ hhand rfl
  | giveBack hhand => exact hnot _ hhand rfl
  | ring _ => rfl
  | join _ _ => rfl
  | leave _ _ => rfl
  | stay _ _ => rfl
  | closerAcquire _ _ _ => rfl
  | closerFlush _ _ _ _ => rfl
  | closerRelease _ _ _ => rfl
  | _ => exact hrung

theorem stopping_of_hasRung (a : Alarm) (ha : a.Orderly) (hrung : a.hand.hasRung = true) :
    a.stopping = true := by
  rw [ha.raised]
  exact a.hand.hasRaised_of_hasRung hrung

/-- The background does not go by an old look at the flag. -/
theorem isUnwarned_of_hasRung (a : Alarm) (ha : a.Orderly) (hrung : a.hand.hasRung = true) :
    a.spot.isUnwarned = false := by
  rw [← Bool.not_eq_true]
  intro hunwarned
  have hflag := ha.unwarned hunwarned
  rw [stopping_of_hasRung a ha hrung] at hflag
  cases hflag

/-- Where the background can be when the bell has been rung. It does not listen, and it goes by no
    old look at the flag, because the flag is up. -/
theorem spot_of_hasRung (a : Alarm) (ha : a.Orderly) (hrung : a.hand.hasRung = true) :
    a.spot.facesFlag = true ∨ a.spot = .entering ∨ a.spot = .woken ∨ a.spot = .unlocked ∨
      (∃ failure, a.spot = .flushing failure) ∨ a.spot = .ended := by
  have hunwarned := isUnwarned_of_hasRung a ha hrung
  have hsleeping := ha.rung hrung
  have hthere := ha.begun (by rintro heq; rw [heq] at hrung; cases hrung)
  cases hspot : a.spot with
  | absent => rw [hspot] at hthere; exact absurd rfl hthere
  -- Here it would go by an old look at the flag, or would listen to the bell.
  | settling _ | looking | seen | due => rw [hspot] at hunwarned; cases hunwarned
  | sleeping _ => rw [hspot] at hsleeping; cases hsleeping
  | testing => exact Or.inl rfl
  | checking => exact Or.inl rfl
  | entering => exact Or.inr (Or.inl rfl)
  | woken => exact Or.inr (Or.inr (Or.inl rfl))
  | unlocked => exact Or.inr (Or.inr (Or.inr (Or.inl rfl)))
  | flushing failure => exact Or.inr (Or.inr (Or.inr (Or.inr (Or.inl ⟨failure, rfl⟩))))
  | ended => exact Or.inr (Or.inr (Or.inr (Or.inr (Or.inr rfl))))

/-- Nobody but a background that looks at the flag has its lock. The stopping has given it back
    before it rings, so a background that needs the lock can take it. -/
theorem lock_of_hasRung (a : Alarm) (ha : a.Orderly) (hrung : a.hand.hasRung = true)
    (hspot : a.spot.holdsFlag = false) : a.lock = none := by
  cases hlock : a.lock with
  | none => rfl
  | some party =>
      cases party with
      | background =>
          rw [ha.background.mp hlock] at hspot
          cases hspot
      | closer =>
          have hholds := ha.closer.mp hlock
          cases hhand : a.hand with
          -- Who holds the lock has not yet rung the bell.
          | holding | raised =>
              rw [hhand] at hrung
              cases hrung
          | _ =>
              rw [hhand] at hholds
              cases hholds

/-- The next look at the flag is the end. All steps by which the background could go on from there
    ask that the flag is not set. -/
theorem ends_of_facesFlag (a b : Alarm) (h : Step a .background b) (hstopping : a.stopping = true)
    (hfaces : a.spot.facesFlag = true) : b.spot = .ended := by
  have hnot : ∀ spot, a.spot = spot → spot.facesFlag = false → b.spot = .ended := by
    rintro _ rfl hfalse
    rw [hfaces] at hfalse
    cases hfalse
  cases h with
  | quit _ _ => rfl
  | test patience _ hflag _ _ =>
      rw [hstopping] at hflag
      cases hflag
  | check _ hflag =>
      rw [hstopping] at hflag
      cases hflag
  | enter hspot _ => exact hnot _ hspot rfl
  | wake hspot _ => exact hnot _ hspot rfl
  | sleep patience hspot => exact hnot _ hspot rfl
  | look hspot => exact hnot _ hspot rfl
  | judge hspot => exact hnot _ hspot rfl
  | unlock hspot => exact hnot _ hspot rfl
  | acquire hspot _ _ => exact hnot _ hspot rfl
  | flush world failure hspot _ => exact hnot _ hspot rfl
  | release failure hspot _ => exact hnot _ hspot rfl

/-- The end is the end: every step of the background asks for another place to begin with. -/
theorem ended_step (a b : Alarm) (who : Actor) (h : Step a who b) (hended : a.spot = .ended) :
    b.spot = .ended := by
  -- Every step of the background starts elsewhere.
  have hnot : ∀ spot, a.spot = spot → spot.guard ≠ .ended → b.spot = .ended := by
    rintro _ rfl hne
    rw [hended] at hne
    exact absurd rfl hne
  cases h with
  | quit _ _ => rfl
  | ring _ =>
      rw [hended]
      rfl
  | spawn hspot => exact hnot _ hspot nofun
  | enter hspot _ => exact hnot _ hspot nofun
  | test patience hspot _ _ _ => exact hnot _ hspot nofun
  | sleep patience hspot => exact hnot _ hspot nofun
  | timeout deadline hspot _ => exact hnot _ hspot nofun
  | wake hspot _ => exact hnot _ hspot nofun
  | check hspot _ => exact hnot _ hspot nofun
  | look hspot => exact hnot _ hspot nofun
  | judge hspot => exact hnot _ hspot nofun
  | unlock hspot => exact hnot _ hspot nofun
  | acquire hspot _ _ => exact hnot _ hspot nofun
  | flush world failure hspot _ => exact hnot _ hspot nofun
  | release failure hspot _ => exact hnot _ hspot nofun
  | _ => exact hended

/-- The time that has been set matters to nobody but a background that listens to the bell. -/
theorem isSleeping_of_clock (a b : Alarm) (h : Step a .clock b) : a.spot.isSleeping = true := by
  cases h with
  | timeout deadline hspot _ =>
      rw [hspot]
      rfl

/-! ### The way to the end -/

/-- How many steps of the background are left until it has ended, at most, if the bell has been
    rung. In places where it cannot be then nothing is counted. -/
def stepsLeft (a : Alarm) : Nat :=
  match a.spot with
  | .unlocked => 7
  | .flushing _ => (a.world.phase 0).stepsLeft + 3
  | .entering | .woken => 2
  | .testing | .checking => 1
  | _ => 0

theorem stepsLeft_le (a : Alarm) : a.stepsLeft ≤ 7 := by
  have hflush : (a.world.phase 0).stepsLeft ≤ 3 := by
    cases a.world.phase 0 <;> simp only [Phase.stepsLeft] <;> omega
  rw [stepsLeft.eq_def]
  split <;> omega

theorem stepsLeft_congr (a b : Alarm) (hspot : b.spot = a.spot)
    (hphase : b.world.phase 0 = a.world.phase 0) : b.stepsLeft = a.stepsLeft := by
  rw [stepsLeft.eq_def, stepsLeft.eq_def, hspot, hphase]

/-- The background can go on until it has ended, without its clock. Only in front of its last flush
    it may have to wait for another thread, which has the write lock of the store. The lock of the
    flag is no hindrance: whoever has rung the bell has given it back. -/
theorem exists_step (a : Alarm) (ha : a.Consistent) (hrung : a.hand.hasRung = true) :
    a.spot = .ended ∨ (∃ b, Step a .background b) ∨
      a.spot = .unlocked ∧ ∃ t, t ≠ 0 ∧ a.world.lock = some t := by
  have hstopping := stopping_of_hasRung a ha.orderly hrung
  rcases spot_of_hasRung a ha.orderly hrung with
    hfaces | hspot | hspot | hspot | ⟨failure, hspot⟩ | hspot
  · exact Or.inr (Or.inl ⟨_, .quit a hfaces hstopping⟩)
  · have hlock := lock_of_hasRung a ha.orderly hrung (by rw [hspot]; rfl)
    exact Or.inr (Or.inl ⟨_, .enter a hspot hlock⟩)
  · have hlock := lock_of_hasRung a ha.orderly hrung (by rw [hspot]; rfl)
    exact Or.inr (Or.inl ⟨_, .wake a hspot hlock⟩)
  -- In front of the flush it is idle, so a write lock that is taken is not its own.
  · have hidle : a.world.phase 0 = .idle := by
      by_contra hbusy
      rcases ha.watch.guard hbusy with ⟨failure, hguard⟩
      rw [watch, hspot] at hguard
      cases hguard
    cases hlock : a.world.lock with
    | none => exact Or.inr (Or.inl ⟨_, .acquire a hspot hlock hidle⟩)
    | some t =>
        refine Or.inr (Or.inr ⟨hspot, t, ?_, rfl⟩)
        rintro rfl
        rcases ha.engaged.owner hlock with ⟨failure, hflushing⟩
        rw [hspot] at hflushing
        cases hflushing
  -- In the flush it goes on, unless it is at the end or has failed, and then it leaves.
  · by_cases hdone : a.world.phase 0 = .done
    · exact Or.inr (Or.inl ⟨_, .release a failure hspot hdone⟩)
    · cases failure with
      | some e => exact absurd (ha.engaged.failed e hspot) hdone
      | none =>
          rcases World.exists_continues 0 a.world ha.watch.world.confined
            (ha.engaged.busy none hspot) hdone with ⟨failure, world, hcontinues⟩
          exact Or.inr (Or.inl ⟨_, .flush a world failure hspot hcontinues⟩)
  · exact Or.inl hspot

/-- Each step of the background brings it nearer to its end, and no other step takes it further
    away. Most steps of the background are not possible behind the bell at all, for they start where
    it has looked at the flag and not seen it. -/
theorem stepsLeft_step (a b : Alarm) (who : Actor) (h : Step a who b) (ha : a.Orderly)
    (hrung : a.hand.hasRung = true) :
    b.stepsLeft + (if who = .background then 1 else 0) ≤ a.stepsLeft := by
  have hstopping := stopping_of_hasRung a ha hrung
  have hother : ∀ p, (World.enter a.world 1 p).phase 0 = a.world.phase 0 :=
    fun p => World.phase_enter_of_ne a.world 1 0 p (by decide)
  have hnot : ∀ spot, a.spot = spot → spot.isUnwarned = true → False := by
    rintro _ rfl hunwarned
    rw [isUnwarned_of_hasRung a ha hrung] at hunwarned
    cases hunwarned
  cases h with
  -- These are the steps that the background can still make.
  | enter hspot _ =>
      simp only [stepsLeft, hspot]
      exact Nat.le_refl 2
  | wake hspot _ =>
      simp only [stepsLeft, hspot]
      exact Nat.le_refl 2
  | quit hfaces _ =>
      rcases a.spot.eq_of_facesFlag hfaces with hspot | hspot
      · simp only [stepsLeft, hspot]
        exact Nat.le_refl 1
      · simp only [stepsLeft, hspot]
        exact Nat.le_refl 1
  | acquire hspot _ _ =>
      simp only [stepsLeft, hspot, World.phase_enter]
      exact Nat.le_refl 7
  | flush world failure hspot hcontinues =>
      have hless := World.stepsLeft_continues 0 _ _ failure hcontinues
      simp only [stepsLeft, hspot, if_true]
      omega
  | release failure hspot _ =>
      simp only [stepsLeft, hspot, if_true]
      omega
  -- Elsewhere the background cannot be.
  | test patience _ hflag _ _ =>
      rw [hstopping] at hflag
      cases hflag
  | check _ hflag =>
      rw [hstopping] at hflag
      cases hflag
  | sleep patience hspot => exact absurd rfl (hnot _ hspot)
  | look hspot => exact absurd rfl (hnot _ hspot)
  | judge hspot => exact absurd rfl (hnot _ hspot)
  | unlock hspot => exact absurd rfl (hnot _ hspot)
  | timeout deadline hspot _ =>
      have hsleeping := ha.rung hrung
      rw [hspot] at hsleeping
      cases hsleeping
  | spawn hspot =>
      refine absurd (congrArg Spot.guard hspot) (ha.begun fun hhand => ?_)
      rw [hhand] at hrung
      cases hrung
  -- The others leave it where it is, the bell too, because nobody listens.
  | ring hhand =>
      rw [hhand] at hrung
      cases hrung
  | around world _ hphase _ => exact (stepsLeft_congr a { a with world := world } rfl hphase).le
  | closerAcquire _ _ _ => exact (stepsLeft_congr a _ rfl (hother .locked)).le
  | closerFlush world failure _ hcontinues =>
      have hphase := World.phase_continues 1 0 _ _ failure hcontinues (by decide)
      exact (stepsLeft_congr a { a with world := world } rfl hphase).le
  | closerRelease failure _ _ => exact (stepsLeft_congr a _ rfl (hother .idle)).le
  | _ => exact (stepsLeft_congr a _ rfl rfl).le

/-! ### Runs -/

section

variable {run : Nat → Alarm} {who : Nat → Option Actor}

/-- What a step preserves holds from then on. -/
theorem runs_preserve (hrun : Runs run who) (P : Alarm → Prop)
    (hstep : ∀ a b actor, Step a actor b → P a → P b) (i j : Nat) (hij : i ≤ j) (hi : P (run i)) :
    P (run j) := by
  induction j, hij using Nat.le_induction with
  | base => exact hi
  | succ j _ ih =>
      have hnext := hrun j
      cases hwho : who j with
      | none =>
          rw [hwho] at hnext
          rw [hnext]
          exact ih
      | some actor =>
          rw [hwho] at hnext
          exact hstep _ _ actor hnext ih

/-- The background makes no more steps than there are left. The induction is on the number of
    moments that have passed since the bell; what it has made and what is left add up to no more
    than at the beginning. -/
theorem count_add_stepsLeft (hrun : Runs run who) (hall : ∀ i, (run i).Consistent) (i : Nat)
    (hrung : (run i).hand.hasRung = true) (n : Nat) :
    Nat.count (fun k => who (i + k) = some .background) n + (run (i + n)).stepsLeft
      ≤ (run i).stepsLeft := by
  induction n with
  | zero => rw [Nat.count_zero, Nat.zero_add, Nat.add_zero]
  | succ n ih =>
      have hlater := runs_preserve hrun (fun a => a.hand.hasRung = true) hasRung_step i (i + n)
        (Nat.le_add_right i n) hrung
      have hnext := hrun (i + n)
      rw [Nat.count_succ, ← Nat.add_assoc]
      cases hwho : who (i + n) with
      | none =>
          rw [hwho] at hnext
          rw [hnext, if_neg nofun]
          exact ih
      | some actor =>
          rw [hwho] at hnext
          have hless := stepsLeft_step _ _ actor hnext (hall (i + n)).orderly hlater
          simp only [Option.some.injEq]
          omega

end

end Alarm

/-- Threads ask for ids and flush, a flusher does so in the background, and somebody stops it. From
    the moment on at which the bell has been rung the background does not listen to it, and the time
    that was set for its sleep has no part in anything that happens. The next time that it looks at
    the flag it ends, and no flush of it is ever seen again. It has ended after seven steps of its
    own at the latest; until then there is always a next step for it, unless another thread has the
    write lock that it needs for the flush it had decided on before. -/
theorem no_lost_wakeup (current root : String) (config : Config) (stream : Nat → String)
    (run : Nat → Alarm) (who : Nat → Option Alarm.Actor)
    (hcurrent : current.toList.head? = some '/')
    (hopen : Store.openAt current root config stream = .ok (run 0).world.store)
    (hstart : (run 0).Fresh) (hrun : Alarm.Runs run who) (i : Nat)
    (hrung : (run i).hand.hasRung = true) (n : Nat) :
    (run (i + n)).spot.isSleeping = false ∧
    who (i + n) ≠ some .clock ∧
    ((run (i + n)).spot.facesFlag = true → who (i + n) = some .background →
      ∀ later > i + n, (run later).spot = .ended ∧ (run later).world.phase 0 = .idle) ∧
    Nat.count (fun k => who (i + k) = some .background) n ≤ 7 ∧
    ((run (i + n)).spot = .ended ∨ (∃ next, Alarm.Step (run (i + n)) .background next) ∨
      (run (i + n)).spot = .unlocked ∧ ∃ t, t ≠ 0 ∧ (run (i + n)).world.lock = some t) := by
  have hall : ∀ j, (run j).Consistent := by
    refine Alarm.consistent_runs run who hrun (Alarm.consistent_fresh _ hstart ?_)
    exact World.consistent_fresh _ hstart.world
      (Store.confined_of_openAt current root config stream _ hcurrent hopen)
      (Store.memory_of_openAt current root config stream _ hopen).1
  have hlater := Alarm.runs_preserve hrun (fun a => a.hand.hasRung = true) Alarm.hasRung_step i
    (i + n) (Nat.le_add_right i n) hrung
  have hawake := (hall (i + n)).orderly.rung hlater
  have hnext := hrun (i + n)
  refine ⟨hawake, fun hclock => ?_, fun hfaces hwho later hlate => ?_, ?_,
    Alarm.exists_step _ (hall (i + n)) hlater⟩
  · rw [hclock] at hnext
    rw [Alarm.isSleeping_of_clock _ _ hnext] at hawake
    cases hawake
  · rw [hwho] at hnext
    have hended := Alarm.ends_of_facesFlag _ _ hnext
      (Alarm.stopping_of_hasRung _ (hall (i + n)).orderly hlater) hfaces
    -- It has looked and ended, and from there it does not come back.
    have hover := Alarm.runs_preserve hrun (fun a => a.spot = .ended) Alarm.ended_step _ later hlate
      hended
    refine ⟨hover, ?_⟩
    by_contra hbusy
    rcases (hall later).watch.guard hbusy with ⟨failure, hguard⟩
    rw [Alarm.watch, hover] at hguard
    cases hguard
  · have hcount := Alarm.count_add_stepsLeft hrun hall i hrung n
    have hbound := Alarm.stepsLeft_le (run i)
    omega

namespace Alarm

/-- A flusher with a long quiet period. -/
def patient : Alarm := { world := openedWorld, flusher := ⟨60000, none⟩ }

/-- Its background is asleep when it is stopped. -/
def longSleep : Nat → Alarm
  | 0 => patient
  | 1 => { patient with spot := .entering }
  | 2 => { patient with spot := .testing, lock := some .background }
  | 3 => { patient with spot := .settling 60000, lock := some .background }
  | 4 => { patient with spot := .sleeping 60000 }
  | 5 => { patient with spot := .sleeping 60000, hand := .called }
  | 6 => { patient with spot := .sleeping 60000, hand := .holding, lock := some .closer }
  | 7 => { patient with
           spot := .sleeping 60000, hand := .raised, stopping := true, lock := some .closer }
  | 8 => { patient with spot := .sleeping 60000, hand := .released, stopping := true }
  | 9 => { patient with spot := .woken, hand := .rung, stopping := true }
  | 10 => { patient with
            spot := .checking, hand := .rung, stopping := true, lock := some .background }
  | 11 => { patient with spot := .ended, hand := .rung, stopping := true }
  | _ + 12 => { patient with spot := .ended, hand := .joined, stopping := true }

/-- Who acts in it. -/
def longSleepActor : Nat → Option Actor
  | 0 => some .other
  | 1 | 2 | 3 | 9 | 10 => some .background
  | 4 | 5 | 6 | 7 | 8 | 11 => some .closer
  | _ + 12 => none

/-- Each moment of that run follows by a step: the background falls asleep, is rung for, and finds
    the flag. -/
theorem runs_longSleep : Runs longSleep longSleepActor := by
  intro i
  match i with
  | 0 => exact Step.spawn _ rfl
  | 1 => exact Step.enter _ rfl rfl
  | 2 => exact Step.test _ 60000 rfl rfl (by decide) (by decide)
  | 3 => exact Step.sleep _ 60000 rfl
  | 4 => exact Step.call _ rfl nofun
  | 5 => exact Step.take _ rfl rfl
  | 6 => exact Step.raise _ rfl
  | 7 => exact Step.giveBack _ rfl
  | 8 => exact Step.ring _ rfl
  | 9 => exact Step.wake _ rfl rfl
  | 10 => exact Step.quit _ rfl rfl
  | 11 => exact Step.join _ rfl rfl
  | _ + 12 => rfl

end Alarm

/-- The background is woken a minute before its time, and joined while the clock stands still. -/
theorem no_lost_wakeup_longSleep :
    Alarm.Runs Alarm.longSleep Alarm.longSleepActor ∧
      (Alarm.longSleep 8).spot = .sleeping 60000 ∧ (Alarm.longSleep 9).hand.hasRung = true ∧
      (∀ later > 10, (Alarm.longSleep later).spot = .ended ∧
        (Alarm.longSleep later).world.phase 0 = .idle) ∧
      (Alarm.longSleep 12).hand = .joined ∧
      ∀ j, (Alarm.longSleep j).world.store.memory.now = 0 := by
  have hstart : (Alarm.longSleep 0).Fresh := ⟨⟨rfl, fun _ => rfl, rfl⟩, rfl, rfl, rfl, rfl⟩
  have hmain := no_lost_wakeup "/" "." { mapPath := "m.json" } (fun _ => "abcdefgh")
    Alarm.longSleep Alarm.longSleepActor rfl rfl hstart Alarm.runs_longSleep 9 rfl 1
  refine ⟨Alarm.runs_longSleep, rfl, rfl, hmain.2.2.1 rfl rfl, rfl, fun j => ?_⟩
  match j with
  | 0 | 1 | 2 | 3 | 4 | 5 | 6 | 7 | 8 | 9 | 10 | 11 => rfl
  | _ + 12 => rfl

end ClassVeil
