import ClassVeil.Proofs.Store.Opened
import Mathlib.Logic.Relation

/-!
# Threads that flush

Many threads share a store. Asking for an id is one step, because the state is locked all the while.
A flush is several: the write lock is taken, the map and its generation are copied, the file is
replaced, and only then is the generation counted as written. Ids may be assigned between any two of
these steps, and a flush may fail at any of them.

What keeps the file from falling behind is the write lock. From the moment a thread has a snapshot
nobody else can replace the file, so the snapshot is never older than what it replaces
(`Phase.Fits`). And the map only grows at its end, so "not older" is "an extension of".

Everything that is claimed of runs follows from one invariant (`World.Consistent`). It compares four
maps: the one in memory, the one in the file, the one that a thread is about to write, and as many
pairs of the first as are counted as written. They are initial segments of each other, in the order
counted, file, snapshot, memory, and no step changes that. Its other fields are what is needed to
see this: the store keeps to its place, the memory is sound by itself, and only the thread with the
write lock is in a flush.

A step is put together from a few changes that come up again and again: the memory grows, a thread
goes to another phase, the lock changes hands, the files change. Each of these has a lemma of its
own, and the proof for a step says which of them it is made of.

A world carries a record of the versions that the file has had, which no step looks at.

## Main definitions

* `Phase`: Where a thread stands in a flush.
* `World`: The store, the files, who holds the write lock, and where each thread stands.
* `World.Step`: One step of one thread.
* `World.Move`: The same, or a change to the files by somebody else.
* `World.Consistent`: What holds at any moment.
* `World.Holds`: The file holds so many pairs of the map.

## Theorems

* `flush_steps`: The steps of a thread that nobody disturbs are a flush.
* `consistent_step`, `consistent_move`: Consistency is preserved.
* `saved_prefix_of_move`: What has been saved is never lost.
* `versions_step`: What a step does to the place of the file.
* `flush_loses_nothing`: At any moment the file is as far as the counters say, and does not fall
  behind.
-/

namespace ClassVeil

/-- Where a thread stands in a flush. The map of a snapshot is kept for the record; what will be
    written are the bytes in the snapshot. -/
inductive Phase where
  | idle
  | locked
  | ready (snap : Snapshot) (map : ClassMap)
  | written (generation : Nat)
  | done

/-- What the file held at some time: a map, since the time of its replacement. -/
structure Version where
  modified : Nat
  map : ClassMap
deriving DecidableEq

/-- The entry of the file. -/
def Version.entry (v : Version) : Entry := .file v.modified v.map.fileBytes

/-- A store that threads share, and the files. -/
structure World where
  store : Store
  fs : FileSystem
  /-- The thread that holds the write lock. -/
  lock : Option Nat := none
  phase : Nat → Phase := fun _ => .idle
  /-- The versions of the file that flushes have made, the earliest first. -/
  versions : List Version := []

namespace World

/-- The world when a thread has come to a phase. -/
def enter (w : World) (t : Nat) (p : Phase) : World :=
  { w with phase := fun u => if u = t then p else w.phase u }

/-- The world when the memory of the store has changed. -/
def remember (w : World) (memory : Memory) : World :=
  { w with store := { w.store with memory := memory } }

/-- One step of one thread, or of the clock. -/
inductive Step : World → World → Prop
  | request (w : World) (name : String) :
      Step w (w.remember (w.store.getOrCreate name).2.memory)
  | wait (w : World) (now : Nat) : Step w (w.remember { w.store.memory with now := now })
  | acquire (w : World) (t : Nat) : w.lock = none → w.phase t = .idle →
      Step w (enter { w with lock := some t } t .locked)
  | snapshot (w : World) (t : Nat) : w.phase t = .locked →
      Step w (w.enter t (.ready w.store.snapshot w.store.memory.map))
  | write (w : World) (t : Nat) (snap : Snapshot) (map : ClassMap) (time : Nat) (fs : FileSystem) :
      w.phase t = .ready snap map → w.store.writeOut w.fs snap = (none, fs) →
      fs.find w.store.file = .ok (.file time snap.bytes) →
      Step w (enter { w with fs := fs, versions := w.versions ++ [⟨time, map⟩] } t
        (.written snap.generation))
  | refuse (w : World) (t : Nat) (snap : Snapshot) (map : ClassMap) (e : StoreError)
      (fs : FileSystem) :
      w.phase t = .ready snap map → w.store.writeOut w.fs snap = (some e, fs) →
      Step w (enter { w with fs := fs } t .done)
  /-- A failure of any other kind, which leaves the place of the file as it is. -/
  | abandon (w : World) (t : Nat) (fs : FileSystem) :
      w.phase t = .locked ∨ (∃ snap map, w.phase t = .ready snap map) →
      FileSystem.SameAt w.store.file w.fs fs → Step w (enter { w with fs := fs } t .done)
  | raise (w : World) (t generation : Nat) : w.phase t = .written generation →
      Step w ((w.remember (w.store.memory.markFlushed generation)).enter t .done)
  | release (w : World) (t : Nat) : w.phase t = .done →
      Step w (enter { w with lock := none } t .idle)

/-- A step, or a change to the files by somebody else, who leaves the file alone once a flush has
    made it. -/
inductive Move : World → World → Prop
  | step {w w' : World} : Step w w' → Move w w'
  | foreign (w : World) (fs : FileSystem) :
      (w.versions ≠ [] → FileSystem.SameAt w.store.file w.fs fs) → Move w { w with fs := fs }

/-- Any number of moves. -/
abbrev Run : World → World → Prop := Relation.ReflTransGen Move

/-- The map in the file, as far as flushes have made it. -/
def saved (w : World) : ClassMap :=
  match w.versions.getLast? with
  | some v => v.map
  | none => []

end World

/-- A snapshot that is about to be written is what the file should hold: an extension of what has
    been saved, and an earlier state of the map. What has been written has been saved. -/
def Phase.Fits (saved map : ClassMap) : Phase → Prop
  | .ready snap taken =>
    snap = ⟨taken.fileBytes, taken.length⟩ ∧ saved <+: taken ∧ taken <+: map
  | .written generation => generation ≤ saved.length
  | .idle | .locked | .done => True

theorem Phase.fits_of_isPrefix (saved map map' : ClassMap) (h : map <+: map') (p : Phase)
    (hp : p.Fits saved map) : p.Fits saved map' := by
  cases p with
  | ready snap taken => exact ⟨hp.1, hp.2.1, hp.2.2.trans h⟩
  | written generation => exact hp
  | idle => exact hp
  | locked => exact hp
  | done => exact hp

namespace World

/-- What holds at any moment. -/
structure Consistent (w : World) : Prop where
  confined : w.store.Confined
  sound : w.store.memory.Sound
  /-- Only the thread that holds the write lock is in a flush. -/
  exclusive : ∀ t, w.phase t ≠ .idle → w.lock = some t
  fits : ∀ t, (w.phase t).Fits w.saved w.store.memory.map
  flushed : w.store.memory.flushedGeneration ≤ w.saved.length
  /-- The versions of the file are ever longer initial segments of the map. -/
  grows : w.versions.Pairwise fun v v' => v.map <+: v'.map
  latest : ∀ v ∈ w.versions, v.map <+: w.saved
  reached : w.saved <+: w.store.memory.map
  file : ∀ v, w.versions.getLast? = some v → w.fs.find w.store.file = .ok v.entry

/-! ### The parts of a step -/

/-- The memory may change as long as the map grows and no more is counted than has been saved. -/
theorem consistent_remember (w : World) (hw : w.Consistent) (memory : Memory)
    (hsound : memory.Sound) (hgrow : w.store.memory.map <+: memory.map)
    (hflushed : memory.flushedGeneration ≤ w.saved.length) : (w.remember memory).Consistent where
  confined := hw.confined
  sound := hsound
  exclusive := hw.exclusive
  fits := fun t => Phase.fits_of_isPrefix _ _ _ hgrow _ (hw.fits t)
  flushed := hflushed
  grows := hw.grows
  latest := hw.latest
  reached := hw.reached.trans hgrow
  file := hw.file

/-- A thread may enter a phase that fits, if it holds the write lock or goes idle. Then it is still
    true that one thread at most is in the middle of a flush, namely the one with the lock. -/
theorem consistent_enter (w : World) (hw : w.Consistent) (t : Nat) (p : Phase)
    (hp : p.Fits w.saved w.store.memory.map) (hlock : p ≠ .idle → w.lock = some t) :
    (w.enter t p).Consistent where
  confined := hw.confined
  sound := hw.sound
  exclusive := by
    intro u hu
    simp only [enter] at hu ⊢
    split at hu
    · rename_i heq
      rw [heq]
      exact hlock hu
    · exact hw.exclusive u hu
  fits := by
    intro u
    simp only [enter]
    split
    · exact hp
    · exact hw.fits u
  flushed := hw.flushed
  grows := hw.grows
  latest := hw.latest
  reached := hw.reached
  file := hw.file

/-- The write lock may change hands as long as all others are idle. -/
theorem consistent_lock (w : World) (hw : w.Consistent) (lock : Option Nat)
    (hlock : ∀ t, w.phase t ≠ .idle → lock = some t) : Consistent { w with lock := lock } :=
  ⟨hw.confined, hw.sound, hlock, hw.fits, hw.flushed, hw.grows, hw.latest, hw.reached, hw.file⟩

/-- The files may change as long as the last version stays. -/
theorem consistent_files (w : World) (hw : w.Consistent) (fs : FileSystem)
    (hfile : ∀ v, w.versions.getLast? = some v → fs.find w.store.file = .ok v.entry) :
    Consistent { w with fs := fs } :=
  ⟨hw.confined, hw.sound, hw.exclusive, hw.fits, hw.flushed, hw.grows, hw.latest, hw.reached, hfile⟩

/-- A place that looks the same keeps its version. -/
theorem consistent_sameAt (w : World) (hw : w.Consistent) (fs : FileSystem)
    (hsame : w.versions ≠ [] → FileSystem.SameAt w.store.file w.fs fs) :
    Consistent { w with fs := fs } := by
  refine consistent_files w hw fs fun v hv => ?_
  have hne : w.versions ≠ [] := by
    intro hnil
    rw [hnil] at hv
    cases hv
  exact ((hsame hne).2 v.entry).mpr (hw.file v hv)

/-- A thread that stands in no phase but `idle` holds the lock, so all others are idle. -/
theorem phase_eq_idle (w : World) (hw : w.Consistent) (t u : Nat) (ht : w.phase t ≠ .idle)
    (hu : u ≠ t) : w.phase u = .idle := by
  refine Classical.byContradiction fun hcon => ?_
  have hlock := hw.exclusive t ht
  rw [hw.exclusive u hcon, Option.some.injEq] at hlock
  exact hu hlock

theorem saved_enter (w : World) (t : Nat) (p : Phase) : (w.enter t p).saved = w.saved := rfl

theorem saved_append (w : World) (fs : FileSystem) (v : Version) :
    saved { w with fs := fs, versions := w.versions ++ [v] } = v.map := by
  simp only [saved, List.getLast?_append, List.getLast?_singleton, Option.some_or]

/-- The file may be replaced by a version between what has been saved and the map, as long as no
    snapshot in hand is older. -/
theorem consistent_append (w : World) (hw : w.Consistent) (fs : FileSystem) (v : Version)
    (hsaved : w.saved <+: v.map) (hreached : v.map <+: w.store.memory.map)
    (hfits : ∀ t, (w.phase t).Fits v.map w.store.memory.map)
    (hfind : fs.find w.store.file = .ok v.entry) :
    Consistent { w with fs := fs, versions := w.versions ++ [v] } := by
  -- Older versions reach as far as what has been saved, so the new one extends them all.
  have hall : ∀ v' ∈ w.versions, v'.map <+: v.map := fun v' hv' => (hw.latest v' hv').trans hsaved
  have hnew := saved_append w fs v
  refine ⟨hw.confined, hw.sound, hw.exclusive, fun t => ?_, ?_, ?_, fun v' hv' => ?_, ?_,
    fun v' hv' => ?_⟩
  · rw [hnew]
    exact hfits t
  · rw [hnew]
    exact Nat.le_trans hw.flushed hsaved.length_le
  · refine List.pairwise_append.mpr ⟨hw.grows, List.pairwise_singleton _ v, fun a ha b hb => ?_⟩
    rw [List.mem_singleton.mp hb]
    exact hall a ha
  · rw [hnew]
    rcases List.mem_append.mp hv' with hv' | hv'
    · exact hall v' hv'
    · rw [List.mem_singleton.mp hv']
  · rw [hnew]
    exact hreached
  · simp only [List.getLast?_append, List.getLast?_singleton, Option.some_or,
      Option.some.injEq] at hv'
    rw [← hv']
    exact hfind

/-- The file is replaced by a snapshot. Nobody else has one in hand, so no other snapshot becomes an
    old one by this, and the new version goes on from the last. -/
theorem consistent_write (w : World) (hw : w.Consistent) (t : Nat) (snap : Snapshot)
    (map : ClassMap) (time : Nat) (fs : FileSystem) (hphase : w.phase t = .ready snap map)
    (hfind : fs.find w.store.file = .ok (.file time snap.bytes)) :
    Consistent (enter { w with fs := fs, versions := w.versions ++ [⟨time, map⟩] } t
      (.written snap.generation)) := by
  have hbusy : w.phase t ≠ .idle := by
    rw [hphase]
    exact Phase.noConfusion
  have hfits := hw.fits t
  rw [hphase] at hfits
  rcases hfits with ⟨rfl, hsaved, hreached⟩
  -- The snapshot of this thread is the new version, and the other threads have none.
  refine consistent_enter _ (consistent_append w hw fs ⟨time, map⟩ hsaved hreached (fun u => ?_)
    hfind) t _ ?_ fun _ => hw.exclusive t hbusy
  · by_cases hut : u = t
    · rw [hut, hphase]
      exact ⟨rfl, List.prefix_refl map, hreached⟩
    · rw [phase_eq_idle w hw t u hbusy hut]
      trivial
  · rw [saved_append]
    exact Nat.le_refl _

/-- A refused replacement keeps the version that is there. -/
theorem find_of_refused (w : World) (hw : w.Consistent) (snap : Snapshot) (e : StoreError)
    (fs : FileSystem) (h : w.store.writeOut w.fs snap = (some e, fs)) (v : Version)
    (hv : w.versions.getLast? = some v) : fs.find w.store.file = .ok v.entry := by
  have hfind := hw.file v hv
  -- A store that is confined gets as far as the replacement itself, so it is this that has failed.
  rw [Store.writeOut_of_confined w.store hw.confined] at h
  cases hreplace : w.fs.replace w.store.file snap.bytes with
  | mk failure gs =>
      rw [hreplace] at h
      cases failure with
      | none => cases h
      | some failure =>
          rw [← (Prod.mk.inj h).2, FileSystem.find_replace_error w.fs gs w.store.file snap.bytes
            failure hreplace v.entry hfind]
          exact hfind

/-! ### Steps and runs -/

/-- A step preserves consistency. Asking for an id lets the map grow and touches nothing else;
    taking the lock, copying and giving the lock back concern a single thread; and of the steps that
    end a flush only one has replaced the file. -/
theorem consistent_step (w w' : World) (h : Step w w') (hw : w.Consistent) : w'.Consistent := by
  have hcases : ∀ t p, w.phase t = p → p ≠ .idle → w.lock = some t := by
    intro t p hp hne
    exact hw.exclusive t (by rw [hp]; exact hne)
  cases h with
  | request name =>
      refine consistent_remember w hw _ (Memory.sound_getOrCreate _ _ name hw.sound)
        (Memory.prefix_getOrCreate _ _ name) ?_
      rw [Store.getOrCreate]
      simp only [Memory.flushedGeneration_getOrCreate]
      exact hw.flushed
  | wait now =>
      exact consistent_remember w hw _ ⟨hw.sound.nodup, hw.sound.generation⟩
        (List.prefix_refl _) hw.flushed
  | acquire t hlock hidle =>
      refine consistent_enter _ (consistent_lock w hw (some t) fun u hu => ?_) t .locked trivial
        fun _ => rfl
      -- A thread in a flush would have the lock, but the lock is free.
      rw [hw.exclusive u hu] at hlock
      cases hlock
  | snapshot t hphase =>
      -- The whole map is taken, so it extends what has been saved.
      refine consistent_enter w hw t _ ⟨?_, hw.reached, List.prefix_refl _⟩
        fun _ => hcases t _ hphase Phase.noConfusion
      rw [Store.snapshot, hw.sound.generation, ClassMap.fileBytes]
  | write t snap map time fs hphase _ hfind =>
      exact consistent_write w hw t snap map time fs hphase hfind
  -- A flush that fails leaves the version that is there, and its thread gives up its snapshot.
  | refuse t snap map e fs hphase hrefused =>
      have hfiles := consistent_files w hw fs (find_of_refused w hw snap e fs hrefused)
      exact consistent_enter _ hfiles t .done trivial
        fun _ => hcases t _ hphase Phase.noConfusion
  | abandon t fs hphase hsame =>
      refine consistent_enter _ (consistent_sameAt w hw fs fun _ => hsame) t .done trivial
        fun _ => ?_
      rcases hphase with hphase | ⟨snap, map, hphase⟩
      · exact hcases t _ hphase Phase.noConfusion
      · exact hcases t _ hphase Phase.noConfusion
  | raise t generation hphase =>
      -- What is counted now has been saved by this thread, and saved maps only grow.
      have hfits := hw.fits t
      rw [hphase] at hfits
      refine consistent_enter _ (consistent_remember w hw _ ?_ ?_ ?_) t .done trivial
        fun _ => hcases t _ hphase Phase.noConfusion
      · exact Memory.sound_markFlushed _ _ hw.sound
      · rw [Memory.map_markFlushed]
      · rw [Memory.markFlushed]
        split
        · exact hfits
        · exact hw.flushed
  | release t hphase =>
      -- Without a lock nobody may be in a flush, and the thread that was goes idle first.
      refine consistent_lock (w.enter t .idle) (consistent_enter w hw t .idle trivial
        fun hne => absurd rfl hne) none fun u hu => ?_
      by_cases hut : u = t
      · simp only [enter, if_pos hut, ne_eq, not_true_eq_false] at hu
      · simp only [enter, if_neg hut] at hu
        exact absurd (phase_eq_idle w hw t u (by rw [hphase]; exact Phase.noConfusion) hut) hu

/-- Whatever happens next, a consistent world is followed by one: a step of this program, or
    something that others do to the file system and that does not show at the file of the map. -/
theorem consistent_move (w w' : World) (h : Move w w') (hw : w.Consistent) : w'.Consistent := by
  cases h with
  | step hstep => exact consistent_step w w' hstep hw
  | foreign fs hsame => exact consistent_sameAt w hw fs hsame

theorem consistent_run (w w' : World) (h : Run w w') (hw : w.Consistent) : w'.Consistent := by
  induction h with
  | refl => exact hw
  | tail _ hmove ih => exact consistent_move _ _ hmove ih

/-- What has been saved is never lost, whatever thread comes next. Only one step puts another map
    into the file, and the map it puts there extends the one before. -/
theorem saved_prefix_of_move (w w' : World) (h : Move w w') (hw : w.Consistent) :
    w.saved <+: w'.saved := by
  cases h with
  | foreign fs hsame => exact List.prefix_refl _
  | step hstep =>
      cases hstep with
      | write t snap map time fs hphase _ _ =>
          -- What is written is the snapshot, and it extends what was saved when it was taken.
          have hfits := hw.fits t
          rw [hphase] at hfits
          rw [saved_enter, saved_append]
          exact hfits.2.1
      | _ => exact List.prefix_refl _

theorem saved_prefix_of_run (w w' : World) (h : Run w w') (hw : w.Consistent) :
    w.saved <+: w'.saved := by
  induction h with
  | refl => exact List.prefix_refl _
  | tail hrun hmove ih =>
      exact ih.trans (saved_prefix_of_move _ _ hmove (consistent_run w _ hrun hw))

/-- The versions of the file are kept in the record. -/
theorem versions_ne_nil_of_move (w w' : World) (h : Move w w') (hw : w.versions ≠ []) :
    w'.versions ≠ [] := by
  cases h with
  | foreign fs hsame => exact hw
  | step hstep =>
      cases hstep with
      | write t snap map time fs _ _ _ => exact List.append_ne_nil_of_right_ne_nil _ (by simp)
      | _ => exact hw

theorem versions_ne_nil_of_run (w w' : World) (h : Run w w') (hw : w.versions ≠ []) :
    w'.versions ≠ [] := by
  induction h with
  | refl => exact hw
  | tail _ hmove ih => exact versions_ne_nil_of_move _ _ hmove ih

/-- What a step does to the place of the file: it puts a new version there, or the place looks the
    same afterwards. A refused replacement may have made directories above it, so this needs that
    nothing is in the table out of reach. -/
theorem versions_step (w w' : World) (h : Step w w') (hw : w.Consistent)
    (hsettled : w.fs.Settled w.store.file) :
    (w'.versions = w.versions ∧ FileSystem.SameAt w.store.file w.fs w'.fs) ∨
      ∃ v, w'.versions = w.versions ++ [v] ∧ w'.fs.find w.store.file = .ok v.entry := by
  have hkeep : FileSystem.SameAt w.store.file w.fs w.fs := FileSystem.sameAt_refl _ _
  cases h with
  | write t snap map time fs hphase _ hfind =>
      have hfits := hw.fits t
      rw [hphase] at hfits
      rw [hfits.1] at hfind
      exact Or.inr ⟨⟨time, map⟩, rfl, hfind⟩
  -- A refusal can leave directories behind, which nobody finds at the place of the file.
  | refuse t snap map e fs _ hrefused =>
      refine Or.inl ⟨rfl, ?_⟩
      rw [Store.writeOut_of_confined w.store hw.confined] at hrefused
      cases hreplace : w.fs.replace w.store.file snap.bytes with
      | mk failure gs =>
          rw [hreplace] at hrefused
          cases failure with
          | none => cases hrefused
          | some failure =>
              have hsame := FileSystem.sameAt_replace_error w.fs gs w.store.file snap.bytes failure
                hreplace hsettled
              rw [(Prod.mk.inj hrefused).2] at hsame
              exact hsame
  | abandon t fs _ hsame => exact Or.inl ⟨rfl, hsame⟩
  | _ => exact Or.inl ⟨rfl, hkeep⟩

/-- A version comes from a snapshot that some thread had in hand. -/
theorem mem_versions_step (w w' : World) (h : Step w w') (v : Version) (hv : v ∈ w'.versions) :
    v ∈ w.versions ∨ ∃ t snap, w.phase t = .ready snap v.map := by
  cases h with
  | write t snap map time fs hphase _ _ =>
      rcases List.mem_append.mp hv with hv | hv
      · exact Or.inl hv
      · rw [List.mem_singleton.mp hv]
        exact Or.inr ⟨t, snap, hphase⟩
  | _ => exact Or.inl hv

theorem phase_enter_cases (w : World) (t u : Nat) (p q : Phase) (h : (w.enter t p).phase u = q) :
    w.phase u = q ∨ u = t ∧ p = q := by
  simp only [enter] at h
  split at h
  · rename_i hut
    exact Or.inr ⟨hut, h⟩
  · exact Or.inl h

/-- A thread that has a snapshot in hand had it before, or has just taken it. So a snapshot is
    always one of the map as it was at some moment. -/
theorem ready_step (w w' : World) (h : Step w w') (t : Nat) (snap : Snapshot) (map : ClassMap)
    (hready : w'.phase t = .ready snap map) :
    w.phase t = .ready snap map ∨
      w.phase t = .locked ∧ snap = w.store.snapshot ∧ map = w.store.memory.map := by
  -- A step that moves a thread to another phase than this one cannot have given it its snapshot.
  have hother : ∀ (v : World) (u : Nat) (p : Phase), v.phase = w.phase → p ≠ .ready snap map →
      (v.enter u p).phase t = .ready snap map → w.phase t = .ready snap map := by
    intro v u p hphase hne hv
    rcases phase_enter_cases v u t p _ hv with hv | ⟨-, heq⟩
    · rw [← hphase]
      exact hv
    · exact absurd heq hne
  cases h with
  | request name => exact Or.inl hready
  | wait now => exact Or.inl hready
  | snapshot u hphase =>
      rcases phase_enter_cases w u t _ _ hready with hold | ⟨rfl, hnew⟩
      · exact Or.inl hold
      · rw [Phase.ready.injEq] at hnew
        exact Or.inr ⟨hphase, hnew.1.symm, hnew.2.symm⟩
  | acquire u _ _ => exact Or.inl (hother _ u .locked rfl Phase.noConfusion hready)
  | write u snap' map' time fs _ _ _ => exact Or.inl (hother _ u _ rfl Phase.noConfusion hready)
  | refuse u snap' map' e fs _ _ => exact Or.inl (hother _ u .done rfl Phase.noConfusion hready)
  | abandon u fs _ _ => exact Or.inl (hother _ u .done rfl Phase.noConfusion hready)
  | raise u generation _ => exact Or.inl (hother _ u .done rfl Phase.noConfusion hready)
  | release u _ => exact Or.inl (hother _ u .idle rfl Phase.noConfusion hready)

/-- The store stays at its place. -/
theorem path_step (w w' : World) (h : Step w w') : w'.store.path = w.store.path := by
  cases h <;> rfl

/-- A world in which nothing has been flushed and no thread is about to. -/
structure Fresh (w : World) : Prop where
  lock : w.lock = none
  phase : ∀ t, w.phase t = .idle
  versions : w.versions = []

/-- A store that has just been opened, with nothing asked for and nobody in the middle of a flush,
    is consistent whatever is in the file. -/
theorem consistent_fresh (w : World) (hw : w.Fresh) (hconfined : w.store.Confined)
    (hmemory : w.store.memory = {}) : w.Consistent := by
  refine ⟨hconfined, ?_, fun t ht => absurd (hw.phase t) ht, fun t => ?_, ?_, ?_, fun v hv => ?_,
    ?_, fun v hv => ?_⟩
  · rw [hmemory]
    exact Memory.sound_empty
  · rw [hw.phase t]
    trivial
  · rw [hmemory]
    exact Nat.zero_le _
  · rw [hw.versions]
    exact List.Pairwise.nil
  · rw [hw.versions] at hv
    exact absurd hv List.not_mem_nil
  · rw [saved, hw.versions]
    exact List.nil_prefix
  · rw [hw.versions] at hv
    cases hv

/-! ### A flush as a whole -/

theorem run_of_steps (w w' : World) (h : Relation.ReflTransGen Step w w') : Run w w' := by
  induction h with
  | refl => exact Relation.ReflTransGen.refl
  | tail _ hstep ih => exact ih.tail (Move.step hstep)

theorem phase_enter (w : World) (t : Nat) (p : Phase) : (w.enter t p).phase t = p := by
  rw [enter]
  exact if_pos rfl

/-- The steps of a thread that nobody disturbs are a flush. So a world is the store taken apart into
    steps, and whatever is proved of its runs holds of programs that flush in one go. -/
theorem flush_steps (w : World) (hw : w.store.Confined) (t : Nat) (hlock : w.lock = none)
    (hidle : w.phase t = .idle) :
    ∃ w', Relation.ReflTransGen Step w w' ∧ w'.store = (w.store.flush w.fs).2.1 ∧
      w'.fs = (w.store.flush w.fs).2.2 ∧ w'.lock = none ∧ w'.phase t = .idle := by
  have hready := (Relation.ReflTransGen.single (Step.acquire w t hlock hidle)).tail
    (Step.snapshot _ t (phase_enter _ t .locked))
  rw [Store.flush]
  cases hwrite : w.store.writeOut w.fs w.store.snapshot with
  | mk failure fs =>
      cases failure with
      | some e =>
          have hrefused := hready.tail (Step.refuse _ t w.store.snapshot w.store.memory.map e fs
            (phase_enter _ t _) hwrite)
          exact ⟨_, hrefused.tail (Step.release _ t (phase_enter _ t .done)), rfl, rfl, rfl,
            phase_enter _ t .idle⟩
      -- The write has come through, and the generation is raised before the lock is given back.
      | none =>
          rcases Store.find_of_writeOut w.store hw w.fs fs _ hwrite with ⟨time, hfind⟩
          have hwritten := hready.tail (Step.write _ t w.store.snapshot w.store.memory.map time fs
            (phase_enter _ t _) hwrite hfind)
          have hraised := hwritten.tail (Step.raise _ t w.store.snapshot.generation
            (phase_enter _ t _))
          exact ⟨_, hraised.tail (Step.release _ t (phase_enter _ t .done)), rfl, rfl, rfl,
            phase_enter _ t .idle⟩

/-! ### The file and the counters -/

/-- The file holds the first `n` pairs of the map. -/
def Holds (w : World) (n : Nat) : Prop :=
  n ≤ w.store.memory.map.length ∧
    ∃ time, w.fs.find w.store.file
      = .ok (.file time (ClassMap.fileBytes (w.store.memory.map.take n)))

/-- Once a flush has replaced the file, it holds what has been saved. -/
theorem holds_saved (w : World) (hw : w.Consistent) (hne : w.versions ≠ []) :
    w.Holds w.saved.length := by
  refine ⟨hw.reached.length_le, ?_⟩
  have hv := List.getLast?_eq_some_getLast hne
  have hfind := hw.file _ hv
  have hsaved : w.saved = (w.versions.getLast hne).map := by
    rw [saved, hv]
  rw [← List.prefix_iff_eq_take.mp hw.reached, hsaved]
  exact ⟨_, hfind⟩

/-- The file tells how many pairs it holds: its bytes are those of a map, and no two maps with
    distinct names have the same bytes. -/
theorem eq_of_holds (w : World) (hw : w.Consistent) (m n : Nat) (hm : w.Holds m)
    (hn : w.Holds n) : m = n := by
  rcases hm with ⟨hm, time, hfind⟩
  rcases hn with ⟨hn, time', hfind'⟩
  have hnodup : ∀ k, (ClassMap.names (w.store.memory.map.take k)).Nodup := by
    intro k
    rw [ClassMap.names, List.map_take]
    exact hw.sound.nodup.sublist (List.take_sublist k _)
  rw [hfind, Except.ok.injEq, Entry.file.injEq] at hfind'
  have htake := ClassMap.fileBytes_injective _ _ (hnodup m) (hnodup n) hfind'.2
  have hlength := congrArg List.length htake
  rw [List.length_take, List.length_take] at hlength
  -- Both counts are lengths of the same list.
  omega

end World

/-- Nothing is lost by flushes, in whatever order the steps of threads come and whichever of them
    fail. No more is counted as written than has been assigned. Once a flush has replaced the file,
    it holds the pairs that are counted as written, perhaps more, and never fewer than before. And
    if nothing is left to be written, the file holds the whole map. The run starts where the store
    has been opened, with no flush under way, and nothing else is asked of it. -/
theorem flush_loses_nothing (current root : String) (config : Config) (stream : Nat → String)
    (start w : World) (hcurrent : current.toList.head? = some '/')
    (hopen : Store.openAt current root config stream = .ok start.store) (hstart : start.Fresh)
    (hrun : World.Run start w) :
    w.store.memory.flushedGeneration ≤ w.store.memory.generation ∧
    (w.versions ≠ [] → ∃ n, w.Holds n ∧ w.store.memory.flushedGeneration ≤ n) ∧
    (w.versions ≠ [] → ∀ w' n n', World.Run w w' → w.Holds n → w'.Holds n' → n ≤ n') ∧
    (w.store.isDirty = false → w.store.memory.map ≠ [] → w.Holds w.store.memory.map.length) := by
  have hw : w.Consistent := World.consistent_run start w hrun (World.consistent_fresh start hstart
    (Store.confined_of_openAt current root config stream start.store hcurrent hopen)
    (Store.memory_of_openAt current root config stream start.store hopen).1)
  have hreached := hw.reached.length_le
  refine ⟨?_, fun hne => ⟨_, World.holds_saved w hw hne, hw.flushed⟩,
    fun hne w' n n' hrun' hn hn' => ?_,
    fun hclean hmap => ?_⟩
  · rw [hw.sound.generation]
    exact Nat.le_trans hw.flushed hreached
  -- Both files are versions of the record, and the later one extends the earlier.
  · have hw' := World.consistent_run w w' hrun' hw
    have hne' := World.versions_ne_nil_of_run w w' hrun' hne
    rw [World.eq_of_holds w hw n _ hn (World.holds_saved w hw hne),
      World.eq_of_holds w' hw' n' _ hn' (World.holds_saved w' hw' hne')]
    exact (World.saved_prefix_of_run w w' hrun' hw).length_le
  · -- All pairs are counted as written, so what has been saved is the whole map.
    have hcount : w.store.memory.generation = w.store.memory.flushedGeneration := by
      rw [Store.isDirty, Memory.isDirty, bne_eq_false_iff_eq] at hclean
      exact hclean
    have hlength : w.store.memory.map.length = w.saved.length := by
      have hflushed := hw.flushed
      have hgeneration := hw.sound.generation
      omega
    have hne : w.versions ≠ [] := by
      intro hnil
      rw [World.saved, hnil, List.getLast?_nil, List.length_nil] at hlength
      exact hmap (List.length_eq_zero_iff.mp hlength)
    rw [hlength]
    exact World.holds_saved w hw hne

/-- A store that has been opened, and no files. -/
def openedWorld : World where
  store := ⟨"/", [.root, .name "m.json"], ⟨.regenerate, Id.random fun _ => "abcdefgh"⟩, {}, none, 0⟩
  fs := ⟨[], 0⟩

/-- A class is asked for and the map is written. The run ends with a clean store whose file has the
    version with one pair. -/
theorem flush_loses_nothing_openedWorld :
    ∃ w, World.Run openedWorld w ∧ w.store.isDirty = false ∧ w.Holds 1 := by
  have hasked := World.Step.request openedWorld "p-4"
  rcases World.flush_steps _ (rfl : (openedWorld.remember
    (openedWorld.store.getOrCreate "p-4").2.memory).store.Confined) 0 rfl rfl with
    ⟨w, hsteps, hstore, -, -, -⟩
  have hrun : World.Run openedWorld w :=
    (World.run_of_steps _ w hsteps).head (World.Move.step hasked)
  have hclean : w.store.isDirty = false := by
    rw [hstore]
    decide +kernel
  have hmap : w.store.memory.map = [("p-4", "abcdefgh")] := by
    rw [hstore]
    decide +kernel
  have hholds := (flush_loses_nothing "/" "." { mapPath := "m.json" } (fun _ => "abcdefgh")
    openedWorld w rfl rfl ⟨rfl, fun _ => rfl, rfl⟩ hrun).2.2.2 hclean (by rw [hmap]; simp)
  rw [hmap] at hholds
  exact ⟨w, hrun, hclean, hholds⟩

end ClassVeil
