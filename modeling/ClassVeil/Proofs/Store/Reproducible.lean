import ClassVeil.Proofs.Id.Letters
import ClassVeil.Proofs.Store.Opened
import ClassVeil.Proofs.Store.Unique
import Mathlib.Data.Set.Function
import Mathlib.Logic.Relation

/-!
# Ids that can be reproduced

The first candidate for a stable id depends on nothing but the class. So two builds agree on every
class that gets its first candidate in both, whatever else happens in them. Under the policy `allow`
every class does. Under `regenerate` a class is denied its first candidate when another class has it
already, and which of the two came first is an accident of the build; but if no two classes of a
build have the same first candidate, then this cannot happen, in whatever order they come.

A memory is `Settled` when all of its classes have their first candidates. One request keeps it
settled, so a list of requests does, and so does a race of threads for the same memory, in which the
next request may come from any of them.

Neither result compares two builds step by step; there is nothing to compare them by, as the
requests come in different orders. Instead each build is described by itself, with the function
`first` as the only thing that is known of its ids: the map is `first` on the classes that were
asked for, in the order of their first requests. Two builds that are described with the same
function agree.

For threads the description has to hold in the middle of the race as well. What has been asked for
is then what each thread has behind it (`Race.Fits`), and the threads have taken it from their lists
in order, whatever the others did.

## Main definitions

* `Naming.Offers`: The first candidate of a class does not depend on when it is drawn.
* `ClassMap.paired`: The map that gives each of some classes its first candidate.
* `Memory.Settled`: All classes have their first candidates.
* `Race`, `Race.Step`, `Race.Run`: Threads that share a memory.
* `Race.Fits`: What holds of a race at any moment.

## Theorems

* `settled_getOrCreate`: A request keeps a memory settled.
* `names_getOrCreateAll`: The classes of a map are in the order of their first requests.
* `settled_getOrCreateAll`, `getOrCreateAll_of_injOn`: Many requests, and what they come to.
* `fits_step`, `fits_of_run`: What a step of a race preserves, and so a run.
* `same_map_of_finished`: Two races of the same threads end with the same pairs.
* `stable_ids_independent_of_order`: Stable ids do not depend on order or build.
-/

namespace ClassVeil

/-- The first candidate of a class, which does not depend on when it is drawn. -/
def Naming.Offers (naming : Naming) (first : String → String) : Prop :=
  ∀ name drawn, naming.generate name 0 drawn = first name

/-- The first candidate is taken, if it is free or nobody looks. This is all that is ever used of
    the search here. -/
theorem freshId_of_free (naming : Naming) (assigned : List String) (name : String) (drawn : Nat)
    (hfree : naming.policy = .regenerate → naming.generate name 0 drawn ∉ assigned) :
    freshId naming assigned name drawn = (naming.generate name 0 drawn, drawn + 1) := by
  have hgood : naming.policy = .allow ∨ naming.generate name 0 drawn ∉ assigned := by
    cases hpolicy : naming.policy with
    | allow => exact Or.inl rfl
    | regenerate => exact Or.inr (hfree hpolicy)
  have hstart : maxAttempts - 1 - (62 + 1) = 0 := rfl
  unfold freshId
  rw [show maxAttempts - 1 = 62 + 1 from rfl, freshIdFrom]
  simp only [hstart, if_pos hgood]

namespace ClassMap

/-- The map that gives each of some classes its first candidate. -/
def paired (first : String → String) (names : List String) : ClassMap :=
  names.map fun name => (name, first name)

theorem ids_paired (first : String → String) (known : List String) :
    (paired first known).ids = known.map first := by
  unfold ids paired
  rw [List.map_map]
  rfl

theorem get?_paired (first : String → String) (known : List String) (name : String)
    (hname : name ∈ known) : (paired first known).get? name = some (first name) := by
  -- A name may come again later in the list, with the same candidate.
  induction known with
  | nil => cases hname
  | cons other rest ih =>
      rw [paired, List.map_cons, get?]
      by_cases hother : other = name
      · rw [if_pos hother, hother]
      · rw [if_neg hother]
        rcases List.mem_cons.mp hname with heq | hrest
        · exact absurd heq.symm hother
        · exact ih hrest

end ClassMap

namespace Memory

/-- All classes of the map have their first candidates, and nothing else is in use. The second part
    is what an id that is found in use can be traced back by, to the class that has it. -/
structure Settled (first : String → String) (m : Memory) : Prop where
  tracks : m.Tracks
  map : m.map = ClassMap.paired first m.map.names

theorem settled_empty (first : String → String) : Settled first {} := ⟨tracks_empty, rfl⟩

theorem get?_of_settled (first : String → String) (m : Memory) (hm : m.Settled first)
    (name : String) (hname : name ∈ m.map.names) : m.get? name = some (first name) := by
  rw [get?, hm.map]
  exact ClassMap.get?_paired first m.map.names name hname

/-- The classes of the map after a request. They do not depend on the ids. -/
theorem names_getOrCreate (naming : Naming) (m : Memory) (name : String) :
    (m.getOrCreate naming name).2.map.names
      = if name ∈ m.map.names then m.map.names else m.map.names ++ [name] := by
  rcases getOrCreate_cases naming m name with ⟨id, hget, heq⟩ | ⟨hget, attempt, d, drawn, heq⟩
  · have hmem : name ∈ m.map.names :=
      ClassMap.mem_names_of_mem m.map name id (ClassMap.mem_of_get? m.map name id hget)
    rw [heq, if_pos hmem]
  · have hnew : name ∉ m.map.names := (ClassMap.get?_eq_none_iff m.map name).mp hget
    rw [heq, if_neg hnew]
    exact ClassMap.names_append m.map _

theorem mem_names_getOrCreate (naming : Naming) (m : Memory) (name other : String) :
    other ∈ (m.getOrCreate naming name).2.map.names ↔ other ∈ m.map.names ∨ other = name := by
  rw [names_getOrCreate]
  by_cases hname : name ∈ m.map.names
  · rw [if_pos hname]
    constructor
    · exact Or.inl
    · rintro (hmem | rfl)
      · exact hmem
      · exact hname
  · rw [if_neg hname, List.mem_append, List.mem_singleton]

/-- A request keeps a memory settled, and is answered with the first candidate. Under `regenerate`
    this needs that no other class of the map has that candidate. -/
theorem settled_getOrCreate (naming : Naming) (first : String → String)
    (hfirst : naming.Offers first) (m : Memory) (hm : m.Settled first) (name : String)
    (hfree : naming.policy = .regenerate →
      ∀ other ∈ m.map.names, first other = first name → other = name) :
    (m.getOrCreate naming name).1 = first name ∧ (m.getOrCreate naming name).2.Settled first := by
  cases hget : m.get? name with
  | some id =>
      -- The class has an id, which is its first candidate like all ids of the map.
      have hmem : name ∈ m.map.names :=
        ClassMap.mem_names_of_mem m.map name id (ClassMap.mem_of_get? m.map name id hget)
      have hid : some id = some (first name) := by
        rw [← hget]
        exact get?_of_settled first m hm name hmem
      have hold : m.getOrCreate naming name = (id, m) := by rw [getOrCreate, hget]
      rw [hold]
      exact ⟨Option.some.inj hid, hm⟩
  | none =>
      have hnew : name ∉ m.map.names := (ClassMap.get?_eq_none_iff m.map name).mp hget
      -- An id in use is the first candidate of a class of the map, and that class is another one.
      have hunused : naming.policy = .regenerate →
          naming.generate name 0 m.drawn ∉ m.assigned := by
        intro hpolicy hassigned
        rw [hfirst name m.drawn, hm.tracks, hm.map, ClassMap.ids_paired] at hassigned
        rcases List.mem_map.mp hassigned with ⟨other, hother, heq⟩
        have hsame := hfree hpolicy other hother heq
        rw [hsame] at hother
        exact hnew hother
      have hanswer : (m.getOrCreate naming name).1 = first name := by
        rw [getOrCreate, hget]
        simp only [freshId_of_free naming m.assigned name m.drawn hunused]
        exact hfirst name m.drawn
      have hmap : (m.getOrCreate naming name).2.map = m.map ++ [(name, first name)] := by
        have hinsert := ClassMap.insert_of_not_mem m.map name (first name) hnew
        rw [getOrCreate, hget]
        simp only [freshId_of_free naming m.assigned name m.drawn hunused, hfirst name m.drawn]
        exact hinsert
      refine ⟨hanswer, tracks_getOrCreate naming m name hm.tracks, ?_⟩
      rw [hmap, ClassMap.names_append, ClassMap.paired, List.map_append]
      exact congrArg (· ++ [(name, first name)]) hm.map

/-- The classes of a map are in the order of their first requests, without repetitions. It takes an
    induction from the end, since a request can only add a name there. -/
theorem names_getOrCreateAll (naming : Naming) (names : List String) :
    (getOrCreateAll naming {} names).2.map.names = names.eraseDups := by
  induction names using List.reverseRecOn with
  | nil => rfl
  | append_singleton names last ih =>
      rw [getOrCreateAll_concat, names_getOrCreate, ih, ClassMap.eraseDups_concat]
      simp only [List.mem_eraseDups]

/-- Many requests keep a memory settled, if no two of the classes that are asked for or known
    already have the same first candidate. -/
theorem settled_getOrCreateAll (naming : Naming) (first : String → String)
    (hfirst : naming.Offers first) (asked : Set String)
    (hdistinct : naming.policy = .regenerate → Set.InjOn first asked) (names : List String)
    (m : Memory) (hm : m.Settled first) (hknown : ∀ name ∈ m.map.names, name ∈ asked)
    (hnames : ∀ name ∈ names, name ∈ asked) :
    (getOrCreateAll naming m names).1 = names.map first ∧
      (getOrCreateAll naming m names).2.Settled first := by
  induction names generalizing m with
  | nil => exact ⟨rfl, hm⟩
  | cons name rest ih =>
      have hname : name ∈ asked := hnames name List.mem_cons_self
      rcases settled_getOrCreate naming first hfirst m hm name
        (fun hpolicy other hother heq => hdistinct hpolicy (hknown other hother) hname heq) with
        ⟨hanswer, hsettled⟩
      -- What is known after the first request was known or has been asked for.
      have hstill : ∀ other ∈ (m.getOrCreate naming name).2.map.names, other ∈ asked := by
        intro other hother
        rcases (mem_names_getOrCreate naming m name other).mp hother with hold | rfl
        · exact hknown other hold
        · exact hname
      rcases ih _ hsettled hstill (fun other hother => hnames other (List.mem_cons_of_mem _ hother))
        with ⟨hanswers, hfinal⟩
      refine ⟨?_, hfinal⟩
      rw [List.map_cons, ← hanswer, ← hanswers]
      rfl

/-- The whole outcome of many requests, when nothing has been assigned before: the classes that are
    asked for, each with its first candidate, in the order of their first requests. -/
theorem getOrCreateAll_of_injOn (naming : Naming) (first : String → String)
    (hfirst : naming.Offers first) (names : List String)
    (hdistinct : naming.policy = .regenerate → Set.InjOn first {name | name ∈ names}) :
    (getOrCreateAll naming {} names).1 = names.map first ∧
      (getOrCreateAll naming {} names).2.map = ClassMap.paired first names.eraseDups := by
  rcases settled_getOrCreateAll naming first hfirst _ hdistinct names {} (settled_empty first)
    (fun name hname => absurd hname List.not_mem_nil) (fun name hname => hname) with
    ⟨hanswers, hsettled⟩
  refine ⟨hanswers, ?_⟩
  rw [← names_getOrCreateAll naming]
  exact hsettled.map

end Memory

/-! ### Threads that share a memory -/

/-- Threads that share a memory. Each has some classes left to ask for, and has been answered with
    some ids. -/
structure Race where
  memory : Memory
  left : Nat → List String
  answers : Nat → List String

namespace Race

/-- The threads before their first requests. -/
def start (memory : Memory) (threads : Nat → List String) : Race := ⟨memory, threads, fun _ => []⟩

/-- The race after the thread `t` has asked for a class and has the classes `rest` left. -/
def ask (naming : Naming) (r : Race) (t : Nat) (name : String) (rest : List String) : Race :=
  let (id, memory) := r.memory.getOrCreate naming name
  ⟨memory, Function.update r.left t rest, Function.update r.answers t (r.answers t ++ [id])⟩

/-- Some thread asks for the next of its classes. A request holds the lock of the memory from its
    beginning to its end, so it is one step. -/
inductive Step (naming : Naming) : Race → Race → Prop
  | ask (r : Race) (t : Nat) (name : String) (rest : List String) : r.left t = name :: rest →
      Step naming r (r.ask naming t name rest)

/-- Some steps, one after the other, of any threads. -/
def Run (naming : Naming) : Race → Race → Prop := Relation.ReflTransGen (Step naming)

/-- No thread has a class left. -/
def Finished (r : Race) : Prop := ∀ t, r.left t = []

/-- What holds of a race at any moment: the memory is settled, its classes are classes of the
    threads, and what a thread has asked for is known and was answered with first candidates. -/
structure Fits (first : String → String) (threads : Nat → List String) (r : Race) : Prop where
  settled : r.memory.Settled first
  sound : r.memory.Sound
  asked : ∀ name ∈ r.memory.map.names, ∃ t, name ∈ threads t
  served : ∀ t, ∃ before, threads t = before ++ r.left t ∧ r.answers t = before.map first ∧
    ∀ name ∈ before, name ∈ r.memory.map.names

theorem fits_start (first : String → String) (threads : Nat → List String) :
    Fits first threads (start {} threads) where
  settled := Memory.settled_empty first
  sound := Memory.sound_empty
  asked := fun _ hname => absurd hname List.not_mem_nil
  served := fun _ => ⟨[], rfl, rfl, fun _ hname => absurd hname List.not_mem_nil⟩

/-- What a step preserves. The thread that asks moves one class from what it has left to what it has
    behind it; for the others the memory has only grown. -/
theorem fits_step (naming : Naming) (first : String → String) (hfirst : naming.Offers first)
    (threads : Nat → List String)
    (hdistinct : naming.policy = .regenerate → Set.InjOn first {name | ∃ t, name ∈ threads t})
    (r r' : Race) (hr : r.Fits first threads) (hstep : Step naming r r') :
    r'.Fits first threads := by
  cases hstep with
  | ask t name rest hleft =>
      rcases hr.served t with ⟨before, hthread, hanswers, hbefore⟩
      have hname : ∃ u, name ∈ threads u := by
        refine ⟨t, ?_⟩
        rw [hthread, hleft]
        exact List.mem_append_right before List.mem_cons_self
      rcases Memory.settled_getOrCreate naming first hfirst r.memory hr.settled name
        (fun hpolicy other hother heq => hdistinct hpolicy (hr.asked other hother) hname heq) with
        ⟨hanswer, hsettled⟩
      have hmem := Memory.mem_names_getOrCreate naming r.memory name
      refine ⟨hsettled, Memory.sound_getOrCreate naming r.memory name hr.sound,
        fun other hother => ?_, fun u => ?_⟩
      · rcases (hmem other).mp hother with hold | rfl
        · exact hr.asked other hold
        · exact hname
      · by_cases hu : u = t
        · subst hu
          refine ⟨before ++ [name], ?_, ?_, fun other hother => ?_⟩
          · simp only [ask, Function.update_self]
            rw [hthread, hleft, List.append_assoc, List.singleton_append]
          · simp only [ask, Function.update_self]
            rw [hanswers, hanswer, List.map_append, List.map_singleton]
          · rcases List.mem_append.mp hother with hold | hlast
            · exact (hmem other).mpr (Or.inl (hbefore other hold))
            · exact (hmem other).mpr (Or.inr (List.mem_singleton.mp hlast))
        · rcases hr.served u with ⟨done, hdone, hids, hknown⟩
          simp only [ask, Function.update_of_ne hu]
          exact ⟨done, hdone, hids,
            fun other hother => (hmem other).mpr (Or.inl (hknown other hother))⟩

/-- What a run preserves, by induction on its steps, whichever threads take them. -/
theorem fits_of_run (naming : Naming) (first : String → String) (hfirst : naming.Offers first)
    (threads : Nat → List String)
    (hdistinct : naming.policy = .regenerate → Set.InjOn first {name | ∃ t, name ∈ threads t})
    (r : Race) (hrun : Run naming (start {} threads) r) : r.Fits first threads := by
  induction hrun with
  | refl => exact fits_start first threads
  | tail _ hstep ih => exact fits_step naming first hfirst threads hdistinct _ _ ih hstep

/-- In the end each thread has been answered with the first candidates of its classes, and these
    are all the classes of the map. -/
theorem fits_finished (first : String → String) (threads : Nat → List String) (r : Race)
    (hr : r.Fits first threads) (hfinished : r.Finished) :
    (∀ t, r.answers t = (threads t).map first) ∧
      ∀ name, name ∈ r.memory.map.names ↔ ∃ t, name ∈ threads t := by
  have hall : ∀ t, r.answers t = (threads t).map first ∧
      ∀ name ∈ threads t, name ∈ r.memory.map.names := by
    intro t
    rcases hr.served t with ⟨before, hthread, hanswers, hbefore⟩
    rw [hfinished t, List.append_nil] at hthread
    rw [hthread]
    exact ⟨hanswers, hbefore⟩
  refine ⟨fun t => (hall t).1, fun name => ⟨hr.asked name, ?_⟩⟩
  rintro ⟨t, hname⟩
  exact (hall t).2 name hname

/-- Two races of the same threads end with the same pairs; only their order may differ. Each name
    has the id that belongs to it, whoever came first, and the names are those of the threads. -/
theorem same_map_of_finished (first : String → String) (threads : Nat → List String) (r r' : Race)
    (hr : r.Fits first threads) (hr' : r'.Fits first threads) (hfinished : r.Finished)
    (hfinished' : r'.Finished) :
    r'.memory.map.Perm r.memory.map ∧ ∀ name, r'.memory.get? name = r.memory.get? name := by
  have hmem := (fits_finished first threads r hr hfinished).2
  have hmem' := (fits_finished first threads r' hr' hfinished').2
  constructor
  -- Both maps have the classes of the threads for their names, each of them once.
  · have hperm : r'.memory.map.names.Perm r.memory.map.names := by
      refine (List.perm_ext_iff_of_nodup hr'.sound.nodup hr.sound.nodup).mpr fun name => ?_
      rw [hmem, hmem']
    rw [hr.settled.map, hr'.settled.map]
    exact hperm.map _
  · intro name
    -- A class that nobody has asked for is in neither map.
    by_cases hname : ∃ t, name ∈ threads t
    · rw [Memory.get?_of_settled first _ hr.settled name ((hmem name).mpr hname),
        Memory.get?_of_settled first _ hr'.settled name ((hmem' name).mpr hname)]
    · have hnone := (ClassMap.get?_eq_none_iff r.memory.map name).mpr (mt (hmem name).mp hname)
      have hnone' := (ClassMap.get?_eq_none_iff r'.memory.map name).mpr (mt (hmem' name).mp hname)
      rw [Memory.get?, Memory.get?, hnone, hnone']

end Race

/-! ### Stable ids -/

/-- An opened store with stable ids gives out first candidates that depend on the class only. -/
theorem offers_of_stable (current root : String) (config : Config) (stream : Nat → String)
    (s : Store) (hopen : Store.openAt current root config stream = .ok s)
    (hmode : config.idMode = .stable) :
    s.memory = {} ∧ s.naming.policy = config.collisionPolicy ∧
      s.naming.Offers fun name => Id.stableId config.idLength name 0 := by
  rcases Store.memory_of_openAt current root config stream s hopen with ⟨hmemory, hnaming⟩
  refine ⟨hmemory, by rw [hnaming], fun name drawn => ?_⟩
  rw [hnaming]
  unfold Config.generator
  rw [hmode]
  rfl

/-- Two stores have been opened with stable ids of the same length. Whatever classes they are asked
    for, in any order and any number of times, every class is answered with its first candidate in
    both; if a store regenerates ids that are taken, then this is on condition that no two classes
    that it is asked for have the same first candidate. So the stores agree on the classes that both
    know. The same is true if the requests come from threads, in whatever way these take turns: two
    runs of the same threads answer each thread with the same ids and come to the same pairs, in an
    order that may differ. -/
theorem stable_ids_independent_of_order (current root current' root' : String)
    (config config' : Config) (stream stream' : Nat → String) (s s' : Store)
    (hopen : Store.openAt current root config stream = .ok s)
    (hopen' : Store.openAt current' root' config' stream' = .ok s')
    (hmode : config.idMode = .stable) (hmode' : config'.idMode = .stable)
    (hlength : config'.idLength = config.idLength) :
    let first := fun name => Id.stableId config.idLength name 0
    (∀ names names' : List String,
      (config.collisionPolicy = .regenerate → Set.InjOn first {name | name ∈ names}) →
      (config'.collisionPolicy = .regenerate → Set.InjOn first {name | name ∈ names'}) →
      (Memory.getOrCreateAll s.naming s.memory names).1 = names.map first ∧
      (Memory.getOrCreateAll s.naming s.memory names).2.map
        = ClassMap.paired first names.eraseDups ∧
      ∀ name ∈ names, name ∈ names' →
        (Memory.getOrCreateAll s.naming s.memory names).2.get? name = some (first name) ∧
        (Memory.getOrCreateAll s'.naming s'.memory names').2.get? name = some (first name)) ∧
    (∀ (threads : Nat → List String) (r r' : Race),
      (config.collisionPolicy = .regenerate → Set.InjOn first {name | ∃ t, name ∈ threads t}) →
      (config'.collisionPolicy = .regenerate → Set.InjOn first {name | ∃ t, name ∈ threads t}) →
      Race.Run s.naming (Race.start s.memory threads) r → r.Finished →
      Race.Run s'.naming (Race.start s'.memory threads) r' → r'.Finished →
      (∀ t, r.answers t = (threads t).map first ∧ r'.answers t = r.answers t) ∧
      (∀ name, r'.memory.get? name = r.memory.get? name) ∧
      r'.memory.map.Perm r.memory.map) := by
  intro first
  rcases offers_of_stable current root config stream s hopen hmode with
    ⟨hmemory, hpolicy, hfirst⟩
  rcases offers_of_stable current' root' config' stream' s' hopen' hmode' with
    ⟨hmemory', hpolicy', hfirst'⟩
  -- The second store makes its candidates in the same way, since the lengths agree.
  rw [hlength] at hfirst'
  rw [hmemory, hmemory', ← hpolicy, ← hpolicy']
  constructor
  · intro names names' hdistinct hdistinct'
    rcases Memory.getOrCreateAll_of_injOn s.naming first hfirst names hdistinct with
      ⟨hanswers, hmap⟩
    have hmap' := (Memory.getOrCreateAll_of_injOn s'.naming first hfirst' names' hdistinct').2
    refine ⟨hanswers, hmap, fun name hname hname' => ⟨?_, ?_⟩⟩
    · rw [Memory.get?, hmap]
      exact ClassMap.get?_paired first _ name (List.mem_eraseDups.mpr hname)
    · rw [Memory.get?, hmap']
      exact ClassMap.get?_paired first _ name (List.mem_eraseDups.mpr hname')
  · intro threads r r' hdistinct hdistinct' hrace hfinished hrace' hfinished'
    have hfits := Race.fits_of_run s.naming first hfirst threads hdistinct r hrace
    have hfits' := Race.fits_of_run s'.naming first hfirst' threads hdistinct' r' hrace'
    have hanswers := (Race.fits_finished first threads r hfits hfinished).1
    have hanswers' := (Race.fits_finished first threads r' hfits' hfinished').1
    rcases Race.same_map_of_finished first threads r r' hfits hfits' hfinished hfinished' with
      ⟨hperm, hget⟩
    exact ⟨fun t => ⟨hanswers t, by rw [hanswers', hanswers]⟩, hget, hperm⟩

/-- Where two classes have the same first candidate, the order decides which of them gets it. -/
example :
    let naming : Naming := ⟨.regenerate, fun name attempt _ => if attempt = 0 then "aaaa" else name⟩
    (Memory.getOrCreateAll naming {} ["p-4", "flex"]).2.get? "flex" = some "flex" ∧
      (Memory.getOrCreateAll naming {} ["flex", "p-4"]).2.get? "flex" = some "aaaa" := by
  decide +kernel

/-- A store with stable ids of four letters. -/
def stableStore : Store :=
  ⟨"/", [.root, .name "m.json"], ⟨.regenerate, Id.stable 4⟩, {}, none, 0⟩

/-- Two threads that each ask for one class. -/
def twoThreads (t : Nat) : List String :=
  if t = 0 then ["p-4"] else if t = 1 then ["m-2"] else []

/-- Either of the two threads may be the first. The names come into the map in that order, and this
    is all that the order decides. -/
theorem run_twoThreads (naming : Naming) (t u : Nat) (name other : String) (hne : u ≠ t)
    (ht : twoThreads t = [name]) (hu : twoThreads u = [other])
    (hrest : ∀ v, v ≠ t → v ≠ u → twoThreads v = []) (hname : name ≠ other) :
    ∃ r, Race.Run naming (Race.start {} twoThreads) r ∧ r.Finished ∧
      r.memory.map.names = [name, other] := by
  have hleft : ((Race.start {} twoThreads).ask naming t name []).left u = [other] :=
    (Function.update_of_ne hne _ _).trans hu
  refine ⟨_, (Relation.ReflTransGen.single (Race.Step.ask _ t name [] ht)).tail
    (Race.Step.ask _ u other [] hleft), fun v => ?_, ?_⟩
  · simp only [Race.ask, Race.start]
    by_cases hvu : v = u
    · rw [hvu, Function.update_self]
    · rw [Function.update_of_ne hvu]
      by_cases hvt : v = t
      · rw [hvt, Function.update_self]
      · rw [Function.update_of_ne hvt]
        exact hrest v hvt hvu
  · have hfirst : ((Race.start {} twoThreads).ask naming t name []).memory.map.names = [name] :=
      Memory.names_getOrCreate naming {} name
    have hnew : other ∉ [name] := fun hmem => hname (List.mem_singleton.mp hmem).symm
    refine (Memory.names_getOrCreate naming _ other).trans ?_
    rw [hfirst, if_neg hnew]
    rfl

theorem stableId_twoThreads :
    Id.stableId 4 "p-4" 0 = "quUf" ∧ Id.stableId 4 "m-2" 0 = "xedg" := by
  -- Seven bytes of either hash are enough for four letters.
  have hsample : ∀ name word,
      (((List.range' 0 7).map (Id.blake3 (Id.seed name 0))).filterMap Id.letter?) = word →
      word.length = 4 → Id.stableId 4 name 0 = String.ofList word := by
    intro name word hbytes hlength
    rw [Id.stableId, Id.ofStream, Id.lettersOf, ← hlength, Id.sample?_of_letters _ 7 0 word hbytes]
  constructor
  · exact hsample "p-4" "quUf".toList (by decide +kernel) rfl
  · exact hsample "m-2" "xedg".toList (by decide +kernel) rfl

theorem injOn_twoThreads :
    Set.InjOn (fun name => Id.stableId 4 name 0) {name | name = "p-4" ∨ name = "m-2"} := by
  rcases stableId_twoThreads with ⟨hp, hm⟩
  have hne : "quUf" ≠ "xedg" := by decide
  rintro a (rfl | rfl) b (rfl | rfl) heq
  · rfl
  · simp only [hp, hm] at heq
    exact absurd heq hne
  · simp only [hp, hm] at heq
    exact absurd heq.symm hne
  · rfl

theorem mem_twoThreads (t : Nat) (name : String) (h : name ∈ twoThreads t) :
    name = "p-4" ∨ name = "m-2" := by
  unfold twoThreads at h
  split at h
  · exact Or.inl (List.mem_singleton.mp h)
  · split at h
    · exact Or.inr (List.mem_singleton.mp h)
    · cases h

/-- Requests in two orders and two races, with stable ids. The maps have their pairs in different
    orders, and every class has the same id in all of them. -/
theorem stable_ids_of_twoThreads :
    (Memory.getOrCreateAll stableStore.naming {} ["m-2", "p-4", "m-2"]).1
      = ["xedg", "quUf", "xedg"] ∧
    (Memory.getOrCreateAll stableStore.naming {} ["m-2", "p-4", "m-2"]).2.get? "p-4"
      = (Memory.getOrCreateAll stableStore.naming {} ["p-4"]).2.get? "p-4" ∧
    (∃ r r' : Race, Race.Run stableStore.naming (Race.start {} twoThreads) r ∧ r.Finished ∧
      Race.Run stableStore.naming (Race.start {} twoThreads) r' ∧ r'.Finished ∧
      r.memory.map.names = ["p-4", "m-2"] ∧ r'.memory.map.names = ["m-2", "p-4"] ∧
      (∀ name, r'.memory.get? name = r.memory.get? name) ∧
      r'.memory.map.Perm r.memory.map) := by
  rcases stableId_twoThreads with ⟨hp, hm⟩
  rcases stable_ids_independent_of_order "/" "." "/" "."
    { mapPath := "m.json", idLength := 4, idMode := .stable }
    { mapPath := "m.json", idLength := 4, idMode := .stable } (fun _ => "") (fun _ => "")
    stableStore stableStore rfl rfl rfl rfl rfl with ⟨hlists, hraces⟩
  have hlist : ∀ names : List String, (∀ name ∈ names, name = "p-4" ∨ name = "m-2") →
      Set.InjOn (fun name => Id.stableId 4 name 0) {name | name ∈ names} :=
    fun names hnames => injOn_twoThreads.mono hnames
  rcases hlists ["m-2", "p-4", "m-2"] ["p-4"] (fun _ => hlist _ (by decide))
    (fun _ => hlist _ (by decide)) with ⟨hanswers, -, hagree⟩
  rcases hagree "p-4" (by decide) (by decide) with ⟨hleft, hright⟩
  refine ⟨?_, hleft.trans hright.symm, ?_⟩
  · simp only [List.map_cons, List.map_nil, hp, hm] at hanswers
    exact hanswers
  · have hdistinct : Set.InjOn (fun name => Id.stableId 4 name 0)
        {name | ∃ t, name ∈ twoThreads t} :=
      injOn_twoThreads.mono fun name hname => mem_twoThreads hname.choose name hname.choose_spec
    have hrest : ∀ v, v ≠ 0 → v ≠ 1 → twoThreads v = [] := by
      intro v h0 h1
      unfold twoThreads
      rw [if_neg h0, if_neg h1]
    rcases run_twoThreads stableStore.naming 0 1 "p-4" "m-2" (by decide) rfl rfl hrest (by decide)
      with ⟨r, hrun, hfinished, hnames⟩
    rcases run_twoThreads stableStore.naming 1 0 "m-2" "p-4" (by decide) rfl rfl
      (fun v h1 h0 => hrest v h0 h1) (by decide) with ⟨r', hrun', hfinished', hnames'⟩
    rcases hraces twoThreads r r' (fun _ => hdistinct) (fun _ => hdistinct) hrun hfinished hrun'
      hfinished' with ⟨-, hget, hperm⟩
    exact ⟨r, r', hrun, hfinished, hrun', hfinished', hnames, hnames', hget, hperm⟩

end ClassVeil
