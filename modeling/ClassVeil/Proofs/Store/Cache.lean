import ClassVeil.Proofs.Css.Outcome
import ClassVeil.Proofs.Store.RoundTrip

/-!
# A cache that nobody notices

A store keeps the map that it has read last, together with the status that the file had just before,
and does not read the file again as long as the status is the same. Anybody may write the file
meanwhile, remove it, put a directory or an earlier version in its place, and loads may fail in
between. The cache is kept through all of this but for one case, a load that finds nothing.

What makes it harmless is a property of what is filed, not of when it was filed: a map that is filed
under a status is what reading any content with this status answers (`CacheFits`). It is so when the
map is filed, for the content that was read; and it is so for every other content that is ever in
the place, as long as no two of them have the same status. A property of the moment of filing would
not last: the content can change and come back, and then the cache is right again without having
been looked at.

The contents that are ever in the place are a parameter of the property. A run fixes them from
outside, all at once, so that the induction over the run need not collect them on its way.

A load reads two things, the status and the text, and both come from what is found in the place. So
what a load answers is said by cases on that, and by whether the cache knows the status; these
lemmas are used in place of `load` from there on.

## Main definitions

* `Store.afresh`: What reading the file answers, by what is found in its place.
* `Store.CacheFits`: The cache is right for all contents of some kind.
* `Store.Runs`: A sequence of stores and files in which each follows from the one before.

## Theorems

* `readMap_eq_afresh`: Reading depends on what is found in the place of the file only.
* `load_congr`: So does loading.
* `answer_eq_afresh`: With a cache that fits, loading answers what reading would.
* `cacheFits_load`, `cacheFits_step`: The cache goes on fitting.
* `loads_answer_afresh`: Every load of a store answers what reading afresh would answer.
-/

namespace ClassVeil

namespace Store

/-! ### Reading -/

/-- What reading the file of a map answers, by what is found in its place. -/
def afresh (s : Store) : Except OsError Entry → Except StoreError (Option ClassMap)
  | .error .notFound => .ok none
  | .error e => .error (.readFailure s.path.toString e)
  | .ok (.directory _) => .error (.readFailure s.path.toString .isDirectory)
  | .ok (.file _ bytes) =>
    match Utf8.decode bytes with
    | none => .error (.readFailure s.path.toString .notUtf8)
    | some text =>
      match ClassMap.read text with
      | .error e => .error (.corruptMap s.path.toString e)
      | .ok map => .ok (some map)

/-- Reading depends on what is found in the place of the file only. The ways to fail are gone
    through in the order in which the reader meets them. -/
theorem readMap_eq_afresh (s : Store) (fs : FileSystem) :
    s.readMap fs = s.afresh (fs.find s.file) := by
  rw [readMap, FileSystem.readText, FileSystem.readBytes, file]
  cases fs.find s.path.place with
  | error e =>
      cases e with
      | _ => rfl
  | ok entry =>
      cases entry with
      | directory modified => rfl
      | file modified bytes =>
          cases hdecode : Utf8.decode bytes with
          | none => simp only [afresh, hdecode]
          | some text =>
              cases hread : ClassMap.read text with
              | error e => simp only [afresh, hdecode, hread]
              | ok map => simp only [afresh, hdecode, hread]

/-- Loading depends on what is found in the place of the file only. The rest of the file system can
    be anything, and may have changed since. -/
theorem load_congr (s : Store) (fs gs : FileSystem) (h : fs.find s.file = gs.find s.file) :
    s.load fs = s.load gs := by
  have hread : s.readMap fs = s.readMap gs := by
    rw [readMap_eq_afresh, readMap_eq_afresh, h]
  have hstat : fs.stat s.path.place = gs.stat s.path.place := by
    rw [file] at h
    rw [FileSystem.stat, FileSystem.stat, h]
  rw [load, load, hstat, hread]

/-! ### Loading -/

/-- What is in the cache is the answer to reading any content of some kind that has the status it is
    filed under. An empty cache fits everything. -/
def CacheFits (seen : Entry → Prop) (s : Store) : Prop :=
  ∀ cached, s.cache = some cached → ∀ entry, seen entry → entry.status = cached.status →
    s.afresh (.ok entry) = .ok (some cached.loaded.map)

theorem stat_of_find (s : Store) (fs : FileSystem) (entry : Entry)
    (h : fs.find s.file = .ok entry) : fs.stat s.path.place = .ok entry.status := by
  rw [file] at h
  rw [FileSystem.stat, h]
  rfl

theorem cached?_eq_some_iff (s : Store) (status : Status) (loaded : Loaded) :
    s.cached? status = some loaded ↔ s.cache = some ⟨status, loaded⟩ := by
  rw [cached?]
  cases s.cache with
  | none => simp only [reduceCtorEq]
  | some cached =>
      rcases cached with ⟨status', loaded'⟩
      simp only [Option.ite_none_right_eq_some, Option.some.injEq, CachedMap.mk.injEq]

/-- A load that finds its map in the cache answers with it and changes nothing. -/
theorem load_of_cached (s : Store) (fs : FileSystem) (entry : Entry) (loaded : Loaded)
    (hfind : fs.find s.file = .ok entry) (hcache : s.cache = some ⟨entry.status, loaded⟩) :
    s.load fs = (.ok (some loaded), s) := by
  rw [load, stat_of_find s fs entry hfind]
  simp only [(cached?_eq_some_iff s entry.status loaded).mpr hcache]

/-- A load that does not find its map in the cache reads the file, and keeps the map if there is
    one. -/
theorem load_of_not_cached (s : Store) (fs : FileSystem) (entry : Entry)
    (hfind : fs.find s.file = .ok entry) (hcache : s.cached? entry.status = none) :
    s.load fs = match s.afresh (.ok entry) with
      | .error e => (.error e, s)
      | .ok none => (.ok none, s)
      | .ok (some map) => (.ok (some ⟨map, s.nextSerial⟩), (s.remember entry.status map).2) := by
  rw [load, stat_of_find s fs entry hfind]
  simp only [hcache, readMap_eq_afresh, hfind]
  rcases s.afresh (.ok entry) with e | _ | map
  · rfl
  · rfl
  · rfl

/-- A load that finds nothing to look at answers accordingly, and only forgets what it had. It
    forgets if there is no file, and keeps its map through any other failure, under the status that
    it had. -/
theorem load_of_not_found (s : Store) (fs : FileSystem) (e : OsError)
    (hfind : fs.find s.file = .error e) :
    s.answer fs = s.afresh (.error e) ∧
      ((s.load fs).2.cache = s.cache ∨ (s.load fs).2.cache = none) := by
  rw [file] at hfind
  have hstat : fs.stat s.path.place = .error e := by
    rw [FileSystem.stat, hfind]
    rfl
  rw [answer, load, hstat]
  cases e with
  | notFound => exact ⟨rfl, Or.inr rfl⟩
  | _ => exact ⟨rfl, Or.inl rfl⟩

/-- With a cache that fits, loading answers what reading would answer. This is where the property is
    used: a hit answers for a content that was not read, and the content in the place now is one of
    those it is right for. -/
theorem answer_eq_afresh (seen : Entry → Prop) (s : Store) (fs : FileSystem)
    (hcache : s.CacheFits seen) (hseen : ∀ entry, fs.find s.file = .ok entry → seen entry) :
    s.answer fs = s.afresh (fs.find s.file) := by
  cases hfind : fs.find s.file with
  | error e => exact (load_of_not_found s fs e hfind).1
  | ok entry =>
      cases hhit : s.cached? entry.status with
      | some loaded =>
          rw [cached?_eq_some_iff] at hhit
          rw [answer, load_of_cached s fs entry loaded hfind hhit,
            hcache _ hhit entry (hseen entry hfind) rfl]
          rfl
      | none =>
          rw [answer, load_of_not_cached s fs entry hfind hhit]
          rcases s.afresh (.ok entry) with e | _ | map
          · rfl
          · rfl
          · rfl

/-- The cache depends on the path and on what is in it only. -/
theorem cacheFits_congr (seen : Entry → Prop) (s s' : Store) (hpath : s'.path = s.path)
    (hcache : s'.cache = s.cache ∨ s'.cache = none) (h : s.CacheFits seen) :
    s'.CacheFits seen := by
  intro cached hcached entry hentry hstatus
  have hfresh : ∀ found, s'.afresh found = s.afresh found := by
    intro found
    unfold afresh
    rw [hpath]
  -- A cache that has been emptied fits, for there is nothing in it to be wrong.
  rcases hcache with hsame | hnone
  · rw [hsame] at hcached
    rw [hfresh]
    exact h cached hcached entry hentry hstatus
  · rw [hnone] at hcached
    cases hcached

/-- A load leaves a cache that fits, if contents can be told apart by their status. Only a miss that
    comes to a map files anything, and what it files was read from the content that has this status.
    -/
theorem cacheFits_load (seen : Entry → Prop)
    (hdistinct : ∀ entry entry', seen entry → seen entry' → entry.status = entry'.status →
      entry = entry')
    (s : Store) (fs : FileSystem) (hcache : s.CacheFits seen)
    (hseen : ∀ entry, fs.find s.file = .ok entry → seen entry) :
    (s.load fs).2.CacheFits seen := by
  have hpath := (sameHome_load s fs).path
  cases hfind : fs.find s.file with
  | error e => exact cacheFits_congr seen s _ hpath (load_of_not_found s fs e hfind).2 hcache
  | ok entry =>
      cases hhit : s.cached? entry.status with
      | some loaded =>
          rw [cached?_eq_some_iff] at hhit
          rw [load_of_cached s fs entry loaded hfind hhit]
          exact hcache
      | none =>
          rw [load_of_not_cached s fs entry hfind hhit]
          rcases hfresh : s.afresh (.ok entry) with e | _ | map
          · exact hcache
          · exact hcache
          · -- What is filed now is right for this content, and there is no other with its status.
            intro cached hcached other hother hstatus
            simp only [remember, Option.some.injEq] at hcached
            rw [← hcached] at hstatus ⊢
            rw [hdistinct other entry hother (hseen entry hfind) hstatus]
            exact hfresh

/-! ### Everything else that can be done -/

/-- What is done with a store leaves its cache alone, or does to it what a load does. So a step has
    no more cases for the cache than these two. -/
theorem cache_call (s : Store) (fs : FileSystem) (call : Call) :
    (call.run s fs).1.cache = s.cache ∨ (call.run s fs).1.cache = (s.load fs).2.cache := by
  have hflush : ∀ t : Store, (t.flush fs).2.1.cache = t.cache := by
    intro t
    rcases flush_cases t fs with ⟨e, fs', heq⟩ | ⟨fs', heq⟩
    · rw [heq]
    · rw [heq]
  -- Renaming a script looks at the memory and not at the file; renaming a stylesheet loads.
  cases call with
  | getOrCreate name => exact Or.inl rfl
  | get name => exact Or.inl rfl
  | snapshot => exact Or.inl rfl
  | flush => exact Or.inl (hflush s)
  | load => exact Or.inr rfl
  | transform options job =>
      rw [Call.run]
      cases hrename : job.rename? s.naming options.classAttributes with
      | none =>
          rw [transform_of_unreadable s fs options job hrename]
          exact Or.inl rfl
      | some rename =>
          have hcache := hflush (s.renamedBy rename)
          rw [transform_of_rename s fs options job rename hrename]
          split
          · rcases flush_cases (s.renamedBy rename) fs with ⟨e, fs', heq⟩ | ⟨fs', heq⟩
            · rw [heq]
              exact Or.inl rfl
            · rw [heq]
              exact Or.inl rfl
          · exact Or.inl rfl
  | transformCss style source =>
      refine Or.inr ?_
      rw [Call.run, transformCss]
      simp only [store_renameSheet]
  | hookCss source =>
      refine Or.inr ?_
      rw [Call.run, hookCss]
      simp only [store_renameSheet]

/-- The cache of a store goes on fitting, whatever is done. Nothing is asked of a change to the
    files, since `seen` has all contents there will ever be. -/
theorem cacheFits_step (seen : Entry → Prop)
    (hdistinct : ∀ entry entry', seen entry → seen entry' → entry.status = entry'.status →
      entry = entry')
    (state next : Store × FileSystem) (h : Step state next) (hcache : state.1.CacheFits seen)
    (hseen : ∀ entry, state.2.find state.1.file = .ok entry → seen entry) :
    next.1.CacheFits seen := by
  cases h with
  | call s fs call =>
      have hpath := (sameHome_call s fs call).path
      rcases cache_call s fs call with hsame | hload
      · exact cacheFits_congr seen s _ hpath (Or.inl hsame) hcache
      · refine cacheFits_congr seen (s.load fs).2 _ ?_ (Or.inl hload)
          (cacheFits_load seen hdistinct s fs hcache hseen)
        -- Both stores are still at the path that the step began with.
        rw [hpath, (sameHome_load s fs).path]
  | wait s fs now => exact hcache
  | files s fs fs' => exact hcache

/-- A sequence of stores and files in which each is the one before, or follows from it by one
    step. -/
def Runs (run : Nat → Store × FileSystem) : Prop :=
  ∀ i, run (i + 1) = run i ∨ Step (run i) (run (i + 1))

theorem path_runs (run : Nat → Store × FileSystem) (hrun : Runs run) (i : Nat) :
    (run i).1.path = (run 0).1.path := by
  induction i with
  | zero => rfl
  | succ i ih =>
      rcases hrun i with heq | hstep
      · rw [heq, ih]
      · rw [(sameHome_run _ _ (Relation.ReflTransGen.single hstep)).path, ih]

theorem cacheFits_runs (seen : Entry → Prop)
    (hdistinct : ∀ entry entry', seen entry → seen entry' → entry.status = entry'.status →
      entry = entry')
    (run : Nat → Store × FileSystem) (hrun : Runs run) (hstart : (run 0).1.CacheFits seen)
    (hseen : ∀ i entry, (run i).2.find (run i).1.file = .ok entry → seen entry) (i : Nat) :
    (run i).1.CacheFits seen := by
  -- The moments are numbered, and what is seen is the same for all of them.
  induction i with
  | zero => exact hstart
  | succ i ih =>
      rcases hrun i with heq | hstep
      · rw [heq]
        exact ih
      · exact cacheFits_step seen hdistinct _ _ hstep ih (hseen i)

/-- A load that answers with a map leaves this map in the cache, under the status of the file: it
    was there already, or it has been filed just now. -/
theorem cache_of_load (s : Store) (fs : FileSystem) (loaded : Loaded)
    (h : (s.load fs).1 = .ok (some loaded)) :
    ∃ entry, fs.find s.file = .ok entry ∧
      (s.load fs).2.cache = some ⟨entry.status, loaded⟩ := by
  cases hfind : fs.find s.file with
  | error e =>
      -- Without an entry there is no map.
      have hanswer := (load_of_not_found s fs e hfind).1
      rw [answer, h] at hanswer
      cases e with
      | _ => cases hanswer
  | ok entry =>
      refine ⟨entry, rfl, ?_⟩
      cases hhit : s.cached? entry.status with
      | some hit =>
          rw [cached?_eq_some_iff] at hhit
          rw [load_of_cached s fs entry hit hfind hhit] at h ⊢
          rw [Except.ok.injEq, Option.some.injEq] at h
          rw [hhit, h]
      | none =>
          rw [load_of_not_cached s fs entry hfind hhit] at h ⊢
          generalize s.afresh (.ok entry) = answer at h ⊢
          rcases answer with e | _ | map
          · cases h
          · cases h
          · rw [Except.ok.injEq, Option.some.injEq] at h
            rw [← h]
            rfl

/-- A map stays in the cache while what is found in the place of the file stays the same. A load in
    between finds it there and files nothing new. -/
theorem cache_step (state next : Store × FileSystem) (h : Step state next) (entry : Entry)
    (loaded : Loaded) (hfind : state.2.find state.1.file = .ok entry)
    (hcache : state.1.cache = some ⟨entry.status, loaded⟩) :
    next.1.cache = some ⟨entry.status, loaded⟩ := by
  cases h with
  | call s fs call =>
      rcases cache_call s fs call with hsame | hload
      · rw [hsame]
        exact hcache
      · rw [hload, load_of_cached s fs entry loaded hfind hcache]
        exact hcache
  | wait s fs now => exact hcache
  | files s fs fs' => exact hcache

theorem cache_of_openAt (current root : String) (config : Config) (stream : Nat → String)
    (s : Store) (h : openAt current root config stream = .ok s) : s.cache = none := by
  rw [openAt] at h
  split at h
  · cases h
  · split at h
    · cases h
    · split at h
      · cases h
      · rw [← Except.ok.inj h]

end Store

/-- Whatever is done with a store from its opening on, and whatever anybody does to the files
    meanwhile, every load answers what reading the file at this moment would answer, provided that
    no two contents of its place ever have the same status: the map with its pairs in their order,
    that there is none, or the very failure. And a load that follows another one which has answered
    with a map answers with the same object, if the place has not changed from the one to the
    other. -/
theorem loads_answer_afresh (current root : String) (config : Config) (stream : Nat → String)
    (run : Nat → Store × FileSystem)
    (hopen : Store.openAt current root config stream = .ok (run 0).1) (hrun : Store.Runs run)
    (hdistinct : ∀ i j entry entry', (run i).2.find (run 0).1.file = .ok entry →
      (run j).2.find (run 0).1.file = .ok entry' → entry.status = entry'.status →
      entry = entry') :
    (∀ i, (run i).1.answer (run i).2
      = (run 0).1.afresh ((run i).2.find (run 0).1.file)) ∧
    ∀ i j loaded, i < j → run (i + 1) = Call.run (run i).1 (run i).2 .load →
      (∀ k, i ≤ k → k ≤ j →
        (run k).2.find (run 0).1.file = (run i).2.find (run 0).1.file) →
      ((run i).1.load (run i).2).1 = .ok (some loaded) →
      ((run j).1.load (run j).2).1 = .ok (some loaded) := by
  have hpath := Store.path_runs run hrun
  have hfile : ∀ i, (run i).1.file = (run 0).1.file := by
    intro i
    rw [Store.file, Store.file, hpath i]
  refine ⟨fun i => ?_, fun i j loaded hij hload hstays hanswer => ?_⟩
  · -- All that is ever in the place counts as seen, also what comes later.
    have hseen : ∀ k entry, (run k).2.find (run k).1.file = .ok entry →
        ∃ l, (run l).2.find (run 0).1.file = .ok entry := by
      intro k entry hfind
      rw [hfile k] at hfind
      exact ⟨k, hfind⟩
    have hone : ∀ entry entry', (∃ l, (run l).2.find (run 0).1.file = .ok entry) →
        (∃ l, (run l).2.find (run 0).1.file = .ok entry') → entry.status = entry'.status →
        entry = entry' := by
      rintro entry entry' ⟨l, hl⟩ ⟨l', hl'⟩
      exact hdistinct l l' entry entry' hl hl'
    have hfits := Store.cacheFits_runs (fun entry => ∃ l, (run l).2.find (run 0).1.file = .ok entry)
      hone run hrun
      (fun cached hcached => by
        rw [Store.cache_of_openAt current root config stream _ hopen] at hcached
        cases hcached)
      hseen i
    rw [Store.answer_eq_afresh _ (run i).1 (run i).2 hfits (hseen i), hfile i]
    unfold Store.afresh
    rw [hpath i]
  · rcases Store.cache_of_load (run i).1 (run i).2 loaded hanswer with ⟨entry, hfind, hcache⟩
    rw [hfile i] at hfind
    have hkept : (run j).1.cache = some ⟨entry.status, loaded⟩ := by
      induction j, hij using Nat.le_induction with
      | base =>
          rw [hload]
          exact hcache
      | succ j hij ih =>
          have hbefore := ih fun k hik hkj => hstays k hik (Nat.le_succ_of_le hkj)
          rcases hrun j with heq | hstep
          · rw [heq]
            exact hbefore
          · refine Store.cache_step _ _ hstep entry loaded ?_ hbefore
            rw [hfile j, hstays j (by omega) (by omega), hfind]
    rw [Store.load_of_cached (run j).1 (run j).2 entry loaded ?_ hkept]
    rw [hfile j, hstays j (by omega) (Nat.le_refl j), hfind]

/-! ### A history -/

def keptMap : ClassMap := [("p-4", "abcdefgh")]

def keptFile : Entry := .file 1 keptMap.fileBytes

def brokenFile : Entry := .file 2 [0x5B]

/-- Nothing but the file of a map. -/
def onlyFile (entry : Entry) : FileSystem := ⟨[(["m.json"], entry)], 3⟩

/-- A map is loaded, spoilt, loaded, put back as it was, and loaded again. -/
def shownChange : Nat → Store × FileSystem → Store × FileSystem
  | 0, state | 2, state | 4, state => Call.run state.1 state.2 .load
  | 1, state => (state.1, onlyFile brokenFile)
  | 3, state => (state.1, onlyFile keptFile)
  | _, state => state

def shownHistory : Nat → Store × FileSystem
  | 0 => (openedWorld.store, onlyFile keptFile)
  | i + 1 => shownChange i (shownHistory i)

theorem step_shownChange (i : Nat) (state : Store × FileSystem) :
    shownChange i state = state ∨ Store.Step state (shownChange i state) := by
  rcases state with ⟨s, fs⟩
  match i with
  | 0 | 2 | 4 => exact Or.inr (Store.Step.call s fs .load)
  | 1 => exact Or.inr (Store.Step.files s fs (onlyFile brokenFile))
  | 3 => exact Or.inr (Store.Step.files s fs (onlyFile keptFile))
  | _ + 5 => exact Or.inl rfl

theorem files_shownChange (i : Nat) (state : Store × FileSystem) :
    (shownChange i state).2 = state.2 ∨
      ∃ entry, (entry = keptFile ∨ entry = brokenFile) ∧
        (shownChange i state).2 = onlyFile entry := by
  match i with
  | 0 | 2 | 4 => exact Or.inl rfl
  | 1 => exact Or.inr ⟨brokenFile, Or.inr rfl, rfl⟩
  | 3 => exact Or.inr ⟨keptFile, Or.inl rfl, rfl⟩
  | _ + 5 => exact Or.inl rfl

theorem runs_shownHistory : Store.Runs shownHistory :=
  fun i => step_shownChange i (shownHistory i)

theorem files_shownHistory (i : Nat) :
    ∃ entry, (entry = keptFile ∨ entry = brokenFile) ∧
      (shownHistory i).2 = onlyFile entry := by
  induction i with
  | zero => exact ⟨keptFile, Or.inl rfl, rfl⟩
  | succ i ih =>
      rcases files_shownChange i (shownHistory i) with hsame | hnew
      · rcases ih with ⟨entry, hentry, hfiles⟩
        exact ⟨entry, hentry, hsame.trans hfiles⟩
      · exact hnew

/-- The spoilt file is noticed, and with the file that was put back the first map is there again. In
    between the cache has an answer for another status, and it is not used. -/
theorem loads_answer_afresh_shownHistory :
    (∃ cause, (shownHistory 2).1.answer (shownHistory 2).2
      = .error (.corruptMap "/m.json" cause)) ∧
    ∃ loaded, loaded.map = keptMap ∧
      ((shownHistory 4).1.load (shownHistory 4).2).1 = .ok (some loaded) ∧
      ((shownHistory 5).1.load (shownHistory 5).2).1 = .ok (some loaded) := by
  have hdistinct : ∀ i j entry entry',
      (shownHistory i).2.find openedWorld.store.file = .ok entry →
      (shownHistory j).2.find openedWorld.store.file = .ok entry' →
      entry.status = entry'.status → entry = entry' := by
    intro i j entry entry' hi hj hstatus
    rcases files_shownHistory i with ⟨e, he, hfiles⟩
    rcases files_shownHistory j with ⟨e', he', hfiles'⟩
    rw [hfiles] at hi
    rw [hfiles'] at hj
    rw [← Except.ok.inj hi, ← Except.ok.inj hj] at hstatus ⊢
    rcases he with rfl | rfl
    · rcases he' with rfl | rfl
      · rfl
      · cases hstatus
    · rcases he' with rfl | rfl
      · cases hstatus
      · rfl
  have hloads := loads_answer_afresh "/" "." { mapPath := "m.json" } (fun _ => "abcdefgh")
    shownHistory rfl runs_shownHistory hdistinct
  have hkept : openedWorld.store.afresh (.ok keptFile) = .ok (some keptMap) := by
    have hread := Store.readMap_of_find openedWorld.store (onlyFile keptFile) 1 keptMap
      (by decide) rfl
    rwa [Store.readMap_eq_afresh] at hread
  refine ⟨?_, ?_⟩
  · rw [hloads.1 2]
    exact ⟨_, rfl⟩
  · have hanswer : (shownHistory 4).1.answer (shownHistory 4).2 = .ok (some keptMap) :=
      (hloads.1 4).trans hkept
    rw [Store.answer] at hanswer
    cases hload : ((shownHistory 4).1.load (shownHistory 4).2).1 with
    | error e => rw [hload] at hanswer; cases hanswer
    | ok result =>
        cases result with
        | none => rw [hload] at hanswer; cases hanswer
        | some loaded =>
            rw [hload] at hanswer
            refine ⟨loaded, Option.some.inj (Except.ok.inj hanswer), rfl, ?_⟩
            refine hloads.2 4 5 loaded (by omega) rfl (fun k hk hk' => ?_) hload
            rcases (by omega : k = 4 ∨ k = 5) with rfl | rfl
            · rfl
            · rfl

end ClassVeil
