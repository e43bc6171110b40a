import ClassVeil.Proofs.Shared.Flushing
import Mathlib.Logic.Function.Iterate

/-!
# Loads beside flushes

While threads flush, other stores load the file, each with a cache of its own. A load looks at the
status of the file, asks the cache, reads the file and fills the cache, and anything may happen in
between. The content that goes into the cache can be newer than the status it is filed under, and
two loads of one reader can fill the cache in any order.

Neither does harm. What is filed under a status is the content of that version or of a later one
(`Skewed`), and it had been read before it was filed. So a load that finds it in the cache, having
seen the very status, gets a version that was in the file at some moment since then. This is all
that has to be said of a load in any phase: the version it has, or will get, is not older than the
one that was in the file when it began (`LoadPhase.Fits`).

A status tells versions apart only if no two of them have the same one. That is what a program
relies on which caches by the status, and it is a condition on the versions here (`Scene.Distinct`),
which nothing in a scene brings about. It is needed in one place alone, where a load hits the cache.

The numbers of versions stand in for time. The record of a world only grows, so a version that had a
number keeps it, and what has been said of a load stays true while others go on.

## Main definitions

* `LoadPhase`, `LoadPhase.next`: Where a load stands, and its next step.
* `Scene`: A world, the stores that read its file, and their loads.
* `Scene.Step`: One step of a thread or a load, or a change to the files that leaves the file alone.
* `Skewed`: A status and a map that a cache may hold together.
* `Scene.Consistent`: What holds at any moment.

## Theorems

* `load_eq_next`: The steps of a load that nothing disturbs are a load.
* `fits_start`, `fits_next`: What a load has is not older than its beginning.
* `consistent_step`: Consistency is preserved.
-/

namespace ClassVeil

/-- Where a load stands. -/
inductive LoadPhase where
  | begun
  | absent
  | found (status : Status)
  | missed (status : Status)
  | parsed (status : Status) (map : ClassMap)
  | ended (answer : Except StoreError (Option Loaded))

/-- The next step of a load of a store. -/
def LoadPhase.next (s : Store) (fs : FileSystem) : LoadPhase → LoadPhase × Store
  | .begun =>
    match fs.stat s.path.place with
    | .error .notFound => (.absent, s)
    | .error e => (.ended (.error (.readFailure s.path.toString e)), s)
    | .ok status => (.found status, s)
  | .absent => (.ended (.ok none), { s with cache := none })
  | .found status =>
    match s.cached? status with
    | some loaded => (.ended (.ok (some loaded)), s)
    | none => (.missed status, s)
  | .missed status =>
    match s.readMap fs with
    | .error e => (.ended (.error e), s)
    | .ok none => (.ended (.ok none), s)
    | .ok (some map) => (.parsed status map, s)
  | .parsed status map =>
    match s.remember status map with
    | (loaded, s) => (.ended (.ok (some loaded)), s)
  | .ended answer => (.ended answer, s)

/-- The steps of a load that nothing disturbs are a load. So what is shown of loads whose steps are
    taken apart, with other things happening in between, is shown of the function itself. -/
theorem load_eq_next (s : Store) (fs : FileSystem) :
    (fun load : LoadPhase × Store => load.1.next load.2 fs)^[4] (.begun, s)
      = (.ended (s.load fs).1, (s.load fs).2) := by
  simp only [Function.iterate_succ, Function.iterate_zero, Function.comp_apply, id_eq]
  rw [Store.load, LoadPhase.next]
  -- The load branches where its steps do, and every branch ends within four of them.
  cases fs.stat s.path.place with
  | error e =>
      cases e with
      | notFound => rfl
      | _ => rfl
  | ok status =>
      simp only [LoadPhase.next]
      cases s.cached? status with
      | some loaded => rfl
      | none =>
          simp only []
          cases s.readMap fs with
          | error e => rfl
          | ok answer =>
              cases answer with
              | none => rfl
              | some map => rfl

/-! ### Old and new versions -/

/-- A status and a map that a cache may hold together: the status of some version, and the map of
    that version or of a later one. The first of them is the one with the number `since`. -/
def Skewed (versions : List Version) (since : Nat) (status : Status) (map : ClassMap) : Prop :=
  ∃ later v v', since ≤ later ∧ versions[since]? = some v ∧ v.entry.status = status ∧
    versions[later]? = some v' ∧ v'.map = map

/-- What a load has when `count` versions had been there at its beginning: the status of the last of
    them, and a map that is not older. Nothing is ever reported as missing unless it was missing
    then. -/
def LoadPhase.Fits (versions : List Version) (count : Nat) (missing : Prop) : LoadPhase → Prop
  | .begun => False
  | .absent => missing
  | .found status | .missed status =>
    ∃ since v, count = since + 1 ∧ versions[since]? = some v ∧ v.entry.status = status
  | .parsed status map => ∃ since, count = since + 1 ∧ Skewed versions since status map
  | .ended (.ok (some loaded)) =>
    ∃ later v, count ≤ later + 1 ∧ versions[later]? = some v ∧ v.map = loaded.map
  | .ended (.ok none) => missing
  | .ended (.error _) => True

theorem getElem?_of_isPrefix (versions versions' : List Version) (h : versions <+: versions')
    (k : Nat) (v : Version) (hv : versions[k]? = some v) : versions'[k]? = some v := by
  rcases h with ⟨more, rfl⟩
  rw [List.getElem?_append_left (List.getElem?_eq_some_iff.mp hv).1]
  exact hv

theorem skewed_of_isPrefix (versions versions' : List Version) (h : versions <+: versions')
    (since : Nat) (status : Status) (map : ClassMap) (hskewed : Skewed versions since status map) :
    Skewed versions' since status map := by
  rcases hskewed with ⟨later, v, v', hle, hv, hstatus, hv', hmap⟩
  exact ⟨later, v, v', hle, getElem?_of_isPrefix _ _ h since v hv, hstatus,
    getElem?_of_isPrefix _ _ h later v' hv', hmap⟩

/-- What a load has stays what it is when more versions come. It has read one of the versions from
    its beginning on, and those are still there. -/
theorem LoadPhase.fits_of_isPrefix (versions versions' : List Version) (h : versions <+: versions')
    (count : Nat) (missing : Prop) (p : LoadPhase) (hp : p.Fits versions count missing) :
    p.Fits versions' count missing := by
  have hfound : ∀ status,
      (∃ since v, count = since + 1 ∧ versions[since]? = some v ∧ v.entry.status = status) →
      ∃ since v, count = since + 1 ∧ versions'[since]? = some v ∧ v.entry.status = status := by
    rintro status ⟨since, v, hcount, hv, hstatus⟩
    exact ⟨since, v, hcount, getElem?_of_isPrefix _ _ h since v hv, hstatus⟩
  cases p with
  | begun => exact hp
  | absent => exact hp
  | found status => exact hfound status hp
  | missed status => exact hfound status hp
  | parsed status map =>
      rcases hp with ⟨since, hcount, hskewed⟩
      exact ⟨since, hcount, skewed_of_isPrefix _ _ h since status map hskewed⟩
  | ended answer =>
      cases answer with
      | error e => trivial
      | ok result =>
          cases result with
          | none => exact hp
          | some loaded =>
              rcases hp with ⟨later, v, hcount, hv, hmap⟩
              exact ⟨later, v, hcount, getElem?_of_isPrefix _ _ h later v hv, hmap⟩

/-- A world, the stores that read its file, and for each load the store it belongs to and where it
    stands. -/
structure Scene where
  world : World
  reader : Nat → Store
  load : Nat → Option (Nat × LoadPhase) := fun _ => none

namespace Scene

/-- The next step of the load `l` of the reader `r`, which stands in a phase. -/
def advance (c : Scene) (l r : Nat) (p : LoadPhase) : Scene :=
  { c with
    reader := fun q => if q = r then (p.next (c.reader r) c.world.fs).2 else c.reader q
    load := fun k => if k = l then some (r, (p.next (c.reader r) c.world.fs).1) else c.load k }

/-- One step of a thread or of a load, or a change to the files that leaves the file alone. A load
    begins with a look at the file. -/
inductive Step : Scene → Scene → Prop
  | thread (c : Scene) (world : World) : World.Step c.world world → Step c { c with world := world }
  | foreign (c : Scene) (fs : FileSystem) :
      FileSystem.SameAt c.world.store.file c.world.fs fs →
      Step c { c with world := { c.world with fs := fs } }
  | begin (c : Scene) (l r : Nat) : c.load l = none → Step c (c.advance l r .begun)
  | next (c : Scene) (l r : Nat) (p : LoadPhase) : c.load l = some (r, p) → Step c (c.advance l r p)

/-- No two versions of the file have the same status. -/
def Distinct (c : Scene) : Prop := (c.world.versions.map fun v => v.entry.status).Nodup

/-- What holds at any moment. -/
structure Consistent (c : Scene) : Prop where
  world : c.world.Consistent
  path : ∀ r, (c.reader r).path = c.world.store.path
  settled : c.world.fs.Settled c.world.store.file
  empty : c.world.versions = [] → c.world.fs.entryAt? c.world.store.file = none
  cache : ∀ r cached, (c.reader r).cache = some cached →
    ∃ since, Skewed c.world.versions since cached.status cached.loaded.map
  load : ∀ l r p, c.load l = some (r, p) →
    ∃ count missing, p.Fits c.world.versions count missing

/-! ### One step of a load -/

/-- The last version is found in the file. -/
theorem find_of_versions (c : Scene) (hc : c.Consistent) (hne : c.world.versions ≠ []) :
    ∃ since v, c.world.versions.length = since + 1 ∧ c.world.versions[since]? = some v ∧
      c.world.versions.getLast? = some v ∧ c.world.fs.find c.world.store.file = .ok v.entry := by
  have hlast := List.getLast?_eq_some_getLast hne
  have hpos := List.length_pos_iff.mpr hne
  refine ⟨c.world.versions.length - 1, _, by omega, ?_, hlast, hc.world.file _ hlast⟩
  rw [← List.getLast?_eq_getElem?]
  exact hlast

/-- Without any version nothing is found. -/
theorem ne_ok_of_versions (c : Scene) (hc : c.Consistent) (hnil : c.world.versions = [])
    (entry : Entry) : c.world.fs.find c.world.store.file ≠ .ok entry := by
  intro hfind
  have hentry := FileSystem.entryAt?_of_find _ _ _ hfind
  rw [hc.empty hnil] at hentry
  cases hentry

theorem file_reader (c : Scene) (hc : c.Consistent) (r : Nat) :
    (c.reader r).path.place = c.world.store.file := by
  rw [hc.path r, Store.file]

/-- A load that begins sees the last version, or that nothing is there. In the first case it has the
    status of that version, so from the very beginning it has nothing older than what was in the
    file. -/
theorem fits_start (c : Scene) (hc : c.Consistent) (r : Nat) :
    (LoadPhase.next (c.reader r) c.world.fs .begun).1.Fits c.world.versions
        c.world.versions.length (c.world.fs.find c.world.store.file = .error .notFound) ∧
      (LoadPhase.next (c.reader r) c.world.fs .begun).2 = c.reader r := by
  rw [LoadPhase.next, file_reader c hc r, FileSystem.stat]
  cases hfind : c.world.fs.find c.world.store.file with
  | error e =>
      cases e with
      | notFound => exact ⟨rfl, rfl⟩
      | _ => exact ⟨trivial, rfl⟩
  -- Something is there, so there has been a version, and the last one is what is found.
  | ok entry =>
      refine ⟨?_, rfl⟩
      have hne : c.world.versions ≠ [] := fun hnil => ne_ok_of_versions c hc hnil entry hfind
      rcases find_of_versions c hc hne with ⟨since, v, hlength, hv, -, hlast⟩
      rw [hfind, Except.ok.injEq] at hlast
      exact ⟨since, v, hlength, hv, by rw [hlast]⟩

/-- Two versions with the same status are the same. -/
theorem eq_of_status (c : Scene) (hc : c.Distinct) (a b : Nat) (v v' : Version)
    (ha : c.world.versions[a]? = some v) (hb : c.world.versions[b]? = some v')
    (h : v.entry.status = v'.entry.status) : a = b := by
  have ha' : (c.world.versions.map fun v => v.entry.status)[a]? = some v.entry.status := by
    rw [List.getElem?_map, ha, Option.map_some]
  have hb' : (c.world.versions.map fun v => v.entry.status)[b]? = some v.entry.status := by
    rw [List.getElem?_map, hb, Option.map_some, h]
  exact (List.getElem?_inj (List.getElem?_eq_some_iff.mp ha').1 hc).mp (ha'.trans hb'.symm)

/-- What a load has after its next step is not older than its beginning either, and what it leaves
    in the cache is a status and a map that belong together. The two go hand in hand: a load that
    hits the cache relies on what other loads have left there, and a load that misses it leaves what
    it has read itself. -/
theorem fits_next (c : Scene) (hc : c.Consistent) (hdistinct : c.Distinct) (r count : Nat)
    (missing : Prop) (p : LoadPhase) (hp : p.Fits c.world.versions count missing) :
    (p.next (c.reader r) c.world.fs).1.Fits c.world.versions count missing ∧
      ∀ cached, (p.next (c.reader r) c.world.fs).2.cache = some cached →
        ∃ since, Skewed c.world.versions since cached.status cached.loaded.map := by
  have hcache := hc.cache r
  cases p with
  | begun => exact absurd hp id
  | absent => exact ⟨hp, fun cached h => by cases h⟩
  | found status =>
      rcases hp with ⟨since, v, hcount, hv, hstatus⟩
      rw [LoadPhase.next]
      cases hhit : (c.reader r).cached? status with
      | none => exact ⟨⟨since, v, hcount, hv, hstatus⟩, hcache⟩
      -- A hit: the load answers with what some other load has filed under this status.
      | some loaded =>
          refine ⟨?_, hcache⟩
          rw [Store.cached?] at hhit
          split at hhit
          · rename_i cached hcached
            split at hhit
            · rename_i heq
              rcases hcache cached hcached with ⟨since', later, u, u', hle, hu, hu', hv', hmap⟩
              -- Two versions with one status are one, so the map in the cache is not older.
              have hsame := eq_of_status c hdistinct since since' v u hv hu
                (by rw [hstatus, hu', heq])
              exact ⟨later, u', by omega, hv', by rw [hmap, Option.some.inj hhit]⟩
            · cases hhit
          · cases hhit
  | missed status =>
      rcases hp with ⟨since, v, hcount, hv, hstatus⟩
      rw [LoadPhase.next]
      have hne : c.world.versions ≠ [] := by
        intro hnil
        rw [hnil] at hv
        cases hv
      -- The file is read as it is now, which can be later than the status was.
      rcases find_of_versions c hc hne with ⟨last, u, hlength, hu, hlast, hfind⟩
      have hread : (c.reader r).readMap c.world.fs = .ok (some u.map) := by
        refine Store.readMap_of_find (c.reader r) c.world.fs u.modified u.map ?_ ?_
        · have hpre := (hc.world.latest u (List.mem_of_getElem? hu)).trans hc.world.reached
          exact hc.world.sound.nodup.sublist (hpre.map Prod.fst).sublist
        · rw [Store.file, file_reader c hc r]
          exact hfind
      rw [hread]
      refine ⟨⟨since, hcount, last, v, u, ?_, hv, hstatus, hu, rfl⟩, hcache⟩
      -- The version that is there now has come after the one whose status was seen, or is that one.
      have hlt := (List.getElem?_eq_some_iff.mp hv).1
      omega
  | parsed status map =>
      rcases hp with ⟨since, hcount, hskewed⟩
      rw [LoadPhase.next, Store.remember]
      refine ⟨?_, fun cached h => ?_⟩
      -- What is answered is what has just been read, whatever the cache had before.
      · rcases hskewed with ⟨later, v, v', hle, hv, hstatus, hv', hmap⟩
        exact ⟨later, v', by omega, hv', hmap⟩
      · rw [← Option.some.inj h]
        exact ⟨since, hskewed⟩
  | ended answer => exact ⟨hp, hcache⟩

/-! ### Steps -/

theorem path_next (s : Store) (fs : FileSystem) (p : LoadPhase) :
    (p.next s fs).2.path = s.path := by
  cases p with
  | begun =>
      rw [LoadPhase.next]
      split <;> rfl
  | absent => rfl
  | found status =>
      rw [LoadPhase.next]
      split <;> rfl
  | missed status =>
      rw [LoadPhase.next]
      split <;> rfl
  | parsed status map => rfl
  | ended answer => rfl

/-- The world may change as long as the file stays or gets a new version. Everything that is known
    of the readers and their loads is about versions by their numbers, and these stay. -/
theorem consistent_world (c : Scene) (hc : c.Consistent) (world : World)
    (hworld : world.Consistent) (hpath : world.store.path = c.world.store.path)
    (h : (world.versions = c.world.versions ∧
        FileSystem.SameAt c.world.store.file c.world.fs world.fs) ∨
      ∃ v, world.versions = c.world.versions ++ [v] ∧
        world.fs.find c.world.store.file = .ok v.entry) :
    Consistent { c with world := world } := by
  have hfile : world.store.file = c.world.store.file := by
    rw [Store.file, Store.file, hpath]
  have hgrow : c.world.versions <+: world.versions := by
    rcases h with ⟨heq, -⟩ | ⟨v, heq, -⟩
    · rw [heq]
    · rw [heq]
      exact List.prefix_append _ _
  refine ⟨hworld, fun r => (hc.path r).trans hpath.symm, ?_, fun hnil => ?_, fun r cached hr => ?_,
    fun l r p hl => ?_⟩
  · rw [hfile]
    rcases h with ⟨-, hsame⟩ | ⟨v, -, hfind⟩
    · exact FileSystem.settled_of_sameAt _ _ _ hsame hc.settled
    -- A new version is found where it has been put, so it is within reach.
    · intro entry hentry
      rw [FileSystem.entryAt?_of_find _ _ _ hfind, Option.some.injEq] at hentry
      rw [← hentry]
      exact hfind
  · rw [hfile]
    rcases h with ⟨heq, hsame⟩ | ⟨v, heq, -⟩
    · rw [hsame.1]
      exact hc.empty (heq.symm.trans hnil)
    · rw [heq] at hnil
      exact absurd hnil (List.append_ne_nil_of_right_ne_nil _ (List.cons_ne_nil v []))
  · rcases hc.cache r cached hr with ⟨since, hskewed⟩
    exact ⟨since, skewed_of_isPrefix _ _ hgrow since _ _ hskewed⟩
  · rcases hc.load l r p hl with ⟨count, missing, hp⟩
    exact ⟨count, missing, LoadPhase.fits_of_isPrefix _ _ hgrow count missing p hp⟩

/-- A load may go on if what it has then fits, and so does what it leaves in the cache. Other loads
    and other readers are not touched by this. -/
theorem consistent_advance (c : Scene) (hc : c.Consistent) (l r : Nat) (p : LoadPhase)
    (hload : ∃ count missing,
      (p.next (c.reader r) c.world.fs).1.Fits c.world.versions count missing)
    (hcache : ∀ cached, (p.next (c.reader r) c.world.fs).2.cache = some cached →
      ∃ since, Skewed c.world.versions since cached.status cached.loaded.map) :
    (c.advance l r p).Consistent := by
  refine ⟨hc.world, fun q => ?_, hc.settled, hc.empty, fun q cached hq => ?_, fun k q p' hk => ?_⟩
  · simp only [advance]
    split
    · rw [path_next]
      exact hc.path r
    · exact hc.path q
  · simp only [advance] at hq
    split at hq
    · exact hcache cached hq
    · exact hc.cache q cached hq
  · simp only [advance] at hk
    split at hk
    · rw [Option.some.injEq, Prod.mk.injEq] at hk
      rw [← hk.2]
      exact hload
    · exact hc.load k q p' hk

/-- A step preserves consistency. A thread is accounted for by what it does to the place of the
    file, and a load by what it has seen and found; neither looks at how the other goes on. -/
theorem consistent_step (c c' : Scene) (h : Step c c') (hc : c.Consistent)
    (hdistinct : c.Distinct) :
    c'.Consistent := by
  cases h with
  | thread world hstep =>
      exact consistent_world c hc world (World.consistent_step _ _ hstep hc.world)
        (World.path_step _ _ hstep) (World.versions_step _ _ hstep hc.world hc.settled)
  | foreign fs hsame =>
      exact consistent_world c hc { c.world with fs := fs }
        (World.consistent_sameAt c.world hc.world fs fun _ => hsame) rfl (Or.inl ⟨rfl, hsame⟩)
  | begin l r _ =>
      rcases fits_start c hc r with ⟨hfits, hreader⟩
      refine consistent_advance c hc l r .begun ⟨_, _, hfits⟩ fun cached hcached => ?_
      rw [hreader] at hcached
      exact hc.cache r cached hcached
  | next l r p hl =>
      rcases hc.load l r p hl with ⟨count, missing, hp⟩
      rcases fits_next c hc hdistinct r count missing p hp with ⟨hfits, hcache⟩
      exact consistent_advance c hc l r p ⟨count, missing, hfits⟩ hcache

/-- A scene in which nothing has been flushed, nothing is in the place of the file, and the readers
    have read nothing. -/
structure Fresh (c : Scene) : Prop where
  world : c.world.Fresh
  entry : c.world.fs.entryAt? c.world.store.file = none
  path : ∀ r, (c.reader r).path = c.world.store.path
  cache : ∀ r, (c.reader r).cache = none
  load : ∀ l, c.load l = none

theorem consistent_fresh (c : Scene) (hc : c.Fresh) (hworld : c.world.Consistent) :
    c.Consistent := by
  refine ⟨hworld, hc.path, fun entry hentry => ?_, fun _ => hc.entry, fun r cached hcached => ?_,
    fun l r p hl => ?_⟩
  · rw [hc.entry] at hentry
    cases hentry
  · rw [hc.cache r] at hcached
    cases hcached
  · rw [hc.load l] at hl
    cases hl

end Scene

end ClassVeil
