import ClassVeil.Proofs.Store.Assigned
import Mathlib.Data.List.Nodup

/-!
# When ids are unique

Under the policy `regenerate` a class that is new gets the first of its candidates that no other
class has. There are only so many candidates: when all of them are taken, the last one is given away
a second time. So the ids are distinct exactly as long as no class has run out of candidates.

What the search for a candidate compares with are the ids in use, a list of its own beside the map.
It is worth something only because it lists the ids of the map and nothing else at any time
(`Memory.Tracks`).

The search counts attempts down and draws up, and stops for either of two reasons. `Memory.Picks`
says where it stops without saying how it gets there, for any row of offers; the search is shown to
stop there by induction on the attempts left, with the offers shifted by one in the step. From then
on nothing counts any more: whether the last candidate is a good one is the same as whether there is
a good one at all, which is why the exact condition comes out in terms of all candidates.

For many requests the induction is from the end of the list. What matters is the memory before the
last request, and that is a matter of the requests before it.

## Main definitions

* `Memory.Tracks`: The ids in use are the ids of the map.
* `Memory.candidate`: What the generator offers at an attempt.
* `Memory.Picks`: The attempt at which the search stops.
* `Memory.RunsOut`: All candidates of a new class are taken.
* `Memory.beforeRequest`: The memory before the request with a given number.

## Theorems

* `tracks_getOrCreate`: A request keeps the list of ids in use.
* `picks_freshIdFrom`: The search stops where it should, having drawn no more than that.
* `getOrCreate_of_new`: What a new class gets.
* `getOrCreateAll_congr`: Nothing depends on attempts beyond the last one.
* `nodup_ids_getOrCreate_iff`: The ids stay distinct unless the class has run out.
* `distinct_ids_iff_never_runsOut`: The same for many requests.
-/

namespace ClassVeil

/-- No id occurs twice exactly if no two classes have the same. The names are distinct, so two equal
    ids at different places belong to different classes. -/
theorem ClassMap.nodup_ids_iff (m : ClassMap) (hm : m.names.Nodup) :
    m.ids.Nodup ↔ ∀ a b id, m.get? a = some id → m.get? b = some id → a = b := by
  constructor
  · intro hids a b id ha hb
    exact eq_of_get? m hids a b id ha hb
  · intro hdistinct
    -- The pairs are distinct already, because their classes are.
    refine List.Nodup.map_on ?_ (List.Nodup.of_map _ hm)
    rintro ⟨a, id⟩ ha ⟨b, other⟩ hb heq
    simp only [] at heq
    rw [← heq] at hb ⊢
    rw [hdistinct a b id (get?_of_mem m hm a id ha) (get?_of_mem m hm b id hb)]

namespace Memory

/-- The ids in use are the ids of the map. -/
def Tracks (m : Memory) : Prop := ∀ id, id ∈ m.assigned ↔ id ∈ m.map.ids

theorem tracks_empty : Tracks {} := fun _ => Iff.rfl

/-- A request keeps the list of ids in use the ids of the map: a new id goes into both, and nothing
    else changes. -/
theorem tracks_getOrCreate (naming : Naming) (m : Memory) (name : String) (hm : m.Tracks) :
    (m.getOrCreate naming name).2.Tracks := by
  rcases getOrCreate_cases naming m name with ⟨id, _, heq⟩ | ⟨_, attempt, d, drawn, heq⟩
  · rw [heq]
    exact hm
  · rw [heq]
    intro id
    have hold := hm id
    simp only [ClassMap.ids] at hold
    simp only [ClassMap.ids, List.mem_cons, List.map_append, List.mem_append, List.map_cons,
      List.map_nil, List.not_mem_nil, or_false, hold]
    -- The list has the new id in front, the map at its end.
    exact or_comm

/-! ### One search -/

/-- The attempt at which a search stops that goes up to the attempt `last`: all candidates before it
    are taken, and it is the last one or its candidate is not. -/
structure Picks (taken : List String) (offer : Nat → String) (last attempt : Nat) : Prop where
  le : attempt ≤ last
  before : ∀ i < attempt, offer i ∈ taken
  stops : offer attempt ∉ taken ∨ attempt = last

/-- The search stops where it should, and draws one candidate for each attempt up to there. The
    induction is on the attempts that are left, so the offers are counted from the present one. -/
theorem picks_freshIdFrom (naming : Naming) (hpolicy : naming.policy = .regenerate)
    (taken : List String) (name : String) (left drawn : Nat) (hleft : left < maxAttempts) :
    ∃ attempt,
      Picks taken (fun i => naming.generate name (maxAttempts - 1 - left + i) (drawn + i)) left
        attempt ∧
      freshIdFrom naming taken name left drawn
        = (naming.generate name (maxAttempts - 1 - left + attempt) (drawn + attempt),
          drawn + attempt + 1) := by
  induction left generalizing drawn with
  | zero =>
      refine ⟨0, ⟨Nat.le_refl 0, ?_, Or.inr rfl⟩, rfl⟩
      intro i hi
      exact absurd hi (Nat.not_lt_zero i)
  | succ left ih =>
      by_cases hfree : naming.generate name (maxAttempts - 1 - (left + 1)) drawn ∉ taken
      -- Nobody has the present candidate, so the search stops here.
      · refine ⟨0, ⟨Nat.zero_le _, ?_, Or.inl hfree⟩, ?_⟩
        · intro i hi
          exact absurd hi (Nat.not_lt_zero i)
        · rw [freshIdFrom, if_pos (Or.inr hfree)]
          rfl
      · -- The present candidate is taken, and the next one is offered for the attempt after it.
        have hshift : ∀ i, maxAttempts - 1 - left + i = maxAttempts - 1 - (left + 1) + (i + 1) := by
          intro i
          omega
        have hdrawn : ∀ i, drawn + 1 + i = drawn + (i + 1) := by
          intro i
          omega
        rcases ih (drawn + 1) (by omega) with ⟨attempt, hpicks, hsearch⟩
        simp only [hshift, hdrawn] at hpicks hsearch
        refine ⟨attempt + 1, ⟨?_, ?_, ?_⟩, ?_⟩
        · have hle := hpicks.le
          omega
        · intro i hi
          cases i with
          | zero => exact not_not.mp hfree
          | succ i => exact hpicks.before i (by omega)
        · rcases hpicks.stops with hstop | hlast
          · exact Or.inl hstop
          · exact Or.inr (by omega)
        -- The policy does not make it stop, nor does the candidate.
        · have hallow : ¬ (naming.policy = .allow
              ∨ naming.generate name (maxAttempts - 1 - (left + 1)) drawn ∉ taken) := by
            rw [hpolicy]
            rintro (hallow | hcon)
            · cases hallow
            · exact hfree hcon
          rw [freshIdFrom]
          simp only [if_neg hallow]
          exact hsearch

/-- What the generator offers for a class at an attempt, when the class is asked for now. -/
def candidate (naming : Naming) (m : Memory) (name : String) (attempt : Nat) : String :=
  naming.generate name attempt (m.drawn + attempt)

/-- The class is new, and all its candidates are ids of other classes. -/
def RunsOut (naming : Naming) (m : Memory) (name : String) : Prop :=
  m.map.get? name = none ∧ ∀ attempt ≤ 63, m.candidate naming name attempt ∈ m.map.ids

/-- What a new class gets: the candidate at which the search stops. The search compares with the ids
    in use, the statement speaks of those in the map, and the memory tracks the one by the other. -/
theorem getOrCreate_of_new (naming : Naming) (hpolicy : naming.policy = .regenerate) (m : Memory)
    (hm : m.Tracks) (name : String) (hnew : m.map.get? name = none) :
    ∃ attempt, Picks m.map.ids (m.candidate naming name) 63 attempt ∧
      (m.getOrCreate naming name).1 = m.candidate naming name attempt ∧
      (m.getOrCreate naming name).2.map
        = m.map ++ [(name, m.candidate naming name attempt)] ∧
      (m.getOrCreate naming name).2.drawn = m.drawn + (attempt + 1) := by
  rcases picks_freshIdFrom naming hpolicy m.assigned name 63 m.drawn (by decide) with
    ⟨attempt, hpicks, hsearch⟩
  -- The search begins with the attempt 0.
  have hstart : ∀ i, maxAttempts - 1 - 63 + i = i := by
    intro i
    unfold maxAttempts
    omega
  simp only [hstart] at hpicks hsearch
  have hasked : m.getOrCreate naming name = (m.candidate naming name attempt,
      { m with
        map := m.map.insert name (m.candidate naming name attempt)
        assigned := m.candidate naming name attempt :: m.assigned
        generation := m.generation + 1
        lastMutation := some m.now
        drawn := m.drawn + attempt + 1 }) := by
    rw [getOrCreate, get?, hnew]
    simp only [freshId]
    rw [show maxAttempts - 1 = 63 from rfl, hsearch]
    rfl
  refine ⟨attempt, ⟨hpicks.le, ?_, ?_⟩, ?_, ?_, ?_⟩
  · intro i hi
    exact (hm _).mp (hpicks.before i hi)
  · rcases hpicks.stops with hstop | hlast
    · exact Or.inl fun hmem => hstop ((hm _).mpr hmem)
    · exact Or.inr hlast
  · rw [hasked]
  · rw [hasked]
    exact ClassMap.insert_of_not_mem m.map name _ ((ClassMap.get?_eq_none_iff m.map name).mp hnew)
  · rw [hasked]
    simp only []
    omega

/-- The search stops at a candidate that is taken exactly if all of them are. It stops at one that
    is taken only at the very end, when all the others have been found to be. -/
theorem Picks.mem_iff (taken : List String) (offer : Nat → String) (last attempt : Nat)
    (h : Picks taken offer last attempt) :
    offer attempt ∈ taken ↔ ∀ i ≤ last, offer i ∈ taken := by
  constructor
  · intro hmem i hi
    rcases h.stops with hstop | hlast
    · exact absurd hmem hstop
    · by_cases hbefore : i < attempt
      · exact h.before i hbefore
      · have heq : i = attempt := by omega
        rw [heq]
        exact hmem
  · intro hall
    exact hall attempt h.le

/-- The ids stay distinct unless the class has run out of candidates. A class that has an id cannot
    run out, whatever the others have. -/
theorem nodup_ids_getOrCreate_iff (naming : Naming) (hpolicy : naming.policy = .regenerate)
    (m : Memory) (hm : m.Tracks) (name : String) :
    (m.getOrCreate naming name).2.map.ids.Nodup
      ↔ m.map.ids.Nodup ∧ ¬ m.RunsOut naming name := by
  unfold RunsOut
  cases hget : m.map.get? name with
  | some id =>
      have hold : m.getOrCreate naming name = (id, m) := by rw [getOrCreate, get?, hget]
      rw [hold]
      simp only [reduceCtorEq, false_and, not_false_eq_true, and_true]
  | none =>
      rcases getOrCreate_of_new naming hpolicy m hm name hget with ⟨attempt, hpicks, -, hmap, -⟩
      have hids : (m.map ++ [(name, m.candidate naming name attempt)]).ids
          = m.map.ids ++ [m.candidate naming name attempt] := List.map_append
      -- Only the new id at the end can be a second one.
      rw [hmap, hids, List.nodup_append_comm, List.singleton_append, List.nodup_cons,
        Picks.mem_iff _ _ _ _ hpicks]
      constructor
      · rintro ⟨hfree, hnodup⟩
        exact ⟨hnodup, fun hout => hfree hout.2⟩
      · rintro ⟨hnodup, hout⟩
        exact ⟨fun hall => hout ⟨rfl, hall⟩, hnodup⟩

/-! ### Many requests -/

theorem getOrCreateAll_concat (naming : Naming) (m : Memory) (names : List String) (name : String) :
    (getOrCreateAll naming m (names ++ [name])).2
      = ((getOrCreateAll naming m names).2.getOrCreate naming name).2 := by
  induction names generalizing m with
  | nil => rfl
  | cons first rest ih => exact ih (m.getOrCreate naming first).2

/-- Nothing depends on what the generator would offer at attempts beyond the last one. It is never
    asked for them, so a generator may be changed there to make it easier to speak of. -/
theorem getOrCreateAll_congr (policy : CollisionPolicy) (generate other : Id.Generator)
    (h : ∀ name attempt d, attempt ≤ 63 → other name attempt d = generate name attempt d)
    (names : List String) (m : Memory) :
    getOrCreateAll ⟨policy, other⟩ m names = getOrCreateAll ⟨policy, generate⟩ m names := by
  -- One search, by induction on the attempts left, all of which are numbered up to the last one.
  have hsearch : ∀ taken name left drawn, freshIdFrom ⟨policy, other⟩ taken name left drawn
      = freshIdFrom ⟨policy, generate⟩ taken name left drawn := by
    intro taken name left
    induction left with
    | zero =>
        intro drawn
        simp only [freshIdFrom, h name (maxAttempts - 1) drawn (by decide)]
    | succ left ih =>
        intro drawn
        have hattempt : maxAttempts - 1 - (left + 1) ≤ 63 := by
          unfold maxAttempts
          omega
        simp only [freshIdFrom, h name _ drawn hattempt, ih (drawn + 1)]
  have hrequest : ∀ m name, getOrCreate ⟨policy, other⟩ m name
      = getOrCreate ⟨policy, generate⟩ m name := by
    intro m name
    unfold getOrCreate freshId
    rw [hsearch]
  induction names generalizing m with
  | nil => rfl
  | cons name rest ih => simp only [getOrCreateAll, hrequest, ih]

theorem tracks_getOrCreateAll (naming : Naming) (names : List String) (m : Memory)
    (hm : m.Tracks) : (getOrCreateAll naming m names).2.Tracks :=
  getOrCreateAll_induction naming Tracks (tracks_getOrCreate naming) names m hm

/-- The memory before the request with the number `k`, when nothing has been assigned before the
    first one. -/
def beforeRequest (naming : Naming) (names : List String) (k : Nat) : Memory :=
  (getOrCreateAll naming {} (names.take k)).2

theorem tracks_beforeRequest (naming : Naming) (names : List String) (k : Nat) :
    (beforeRequest naming names k).Tracks :=
  tracks_getOrCreateAll naming _ {} tracks_empty

theorem beforeRequest_succ (naming : Naming) (names : List String) (k : Nat) (name : String)
    (h : names[k]? = some name) :
    beforeRequest naming names (k + 1) = ((beforeRequest naming names k).getOrCreate naming name).2
    := by
  unfold beforeRequest
  rw [List.take_add_one, h, Option.toList_some, getOrCreateAll_concat]

/-- The ids are distinct exactly if no class ran out of candidates when it was asked for. A class
    that did has taken the last candidate, and that is the id of another one. -/
theorem nodup_ids_getOrCreateAll_iff (naming : Naming) (hpolicy : naming.policy = .regenerate)
    (names : List String) :
    (getOrCreateAll naming {} names).2.map.ids.Nodup ↔
      ∀ k name, names[k]? = some name → ¬ (beforeRequest naming names k).RunsOut naming name := by
  induction names using List.reverseRecOn with
  | nil =>
      constructor
      · intro _ k name hk
        cases hk
      · intro _
        exact List.nodup_nil
  | append_singleton names last ih =>
      -- The requests before the last one do not know that another one comes.
      have hbefore : ∀ k, k ≤ names.length →
          beforeRequest naming (names ++ [last]) k = beforeRequest naming names k := by
        intro k hk
        unfold beforeRequest
        rw [List.take_append_of_le_length hk]
      have hall : beforeRequest naming names names.length = (getOrCreateAll naming {} names).2 := by
        unfold beforeRequest
        rw [List.take_length]
      rw [getOrCreateAll_concat, nodup_ids_getOrCreate_iff naming hpolicy _
        (tracks_getOrCreateAll naming names {} tracks_empty), ih]
      constructor
      · rintro ⟨hearlier, hlast⟩ k name hk
        -- Either the request with this number is one of the earlier ones, or it is the last.
        by_cases hlt : k < names.length
        · rw [List.getElem?_append_left hlt] at hk
          rw [hbefore k (by omega)]
          exact hearlier k name hk
        · rw [List.getElem?_append_right (by omega)] at hk
          have hzero : k - names.length = 0 := by
            have hlength := (List.getElem?_eq_some_iff.mp hk).1
            rw [List.length_singleton] at hlength
            omega
          have heq : k = names.length := by omega
          rw [hzero, List.getElem?_cons_zero, Option.some.injEq] at hk
          rw [heq, hbefore _ (Nat.le_refl _), hall, ← hk]
          exact hlast
      · intro hnever
        refine ⟨fun k name hk => ?_, ?_⟩
        · have hlt := (List.getElem?_eq_some_iff.mp hk).1
          rw [← hbefore k (by omega)]
          exact hnever k name (by rw [List.getElem?_append_left hlt]; exact hk)
        · rw [← hall, ← hbefore _ (Nat.le_refl _)]
          exact hnever names.length last (List.getElem?_concat_length)

end Memory

/-- Classes are asked for one after the other, under the policy `regenerate` and with any generator.
    A class that is new gets the first of its candidates that no other class has, or the last one if
    all are taken, and no more candidates are drawn for it. No attempt beyond the last one is ever
    made, as nothing depends on it. And distinct classes have distinct ids in the end exactly if no
    class had run out of candidates when it was asked for. -/
theorem distinct_ids_iff_never_runsOut (generate : Id.Generator) (names : List String) :
    let naming : Naming := ⟨.regenerate, generate⟩
    let before := Memory.beforeRequest naming names
    let final := (Memory.getOrCreateAll naming {} names).2.map
    (∀ k name, names[k]? = some name → (before k).map.get? name = none → ∃ attempt ≤ 63,
      (∀ i < attempt, (before k).candidate naming name i ∈ (before k).map.ids) ∧
      ((before k).candidate naming name attempt ∉ (before k).map.ids ∨ attempt = 63) ∧
      (before k).getOrCreate naming name
        = ((before k).candidate naming name attempt, before (k + 1)) ∧
      (before (k + 1)).map
        = (before k).map ++ [(name, (before k).candidate naming name attempt)] ∧
      (before (k + 1)).drawn = (before k).drawn + (attempt + 1)) ∧
    (∀ other : Id.Generator,
      (∀ name attempt d, attempt ≤ 63 → other name attempt d = generate name attempt d) →
      Memory.getOrCreateAll ⟨.regenerate, other⟩ {} names
        = Memory.getOrCreateAll naming {} names) ∧
    ((∀ a b id, final.get? a = some id → final.get? b = some id → a = b) ↔
      ∀ k name, names[k]? = some name → ¬ (before k).RunsOut naming name) := by
  intro naming before final
  refine ⟨?_, ?_, ?_⟩
  · intro k name hk hnew
    rcases Memory.getOrCreate_of_new naming rfl (before k)
      (Memory.tracks_beforeRequest naming names k) name hnew with
      ⟨attempt, hpicks, hanswer, hmap, hdrawn⟩
    have hnext : before (k + 1) = ((before k).getOrCreate naming name).2 :=
      Memory.beforeRequest_succ naming names k name hk
    rw [hnext]
    exact ⟨attempt, hpicks.le, hpicks.before, hpicks.stops, by rw [← hanswer], hmap, hdrawn⟩
  · intro other hother
    exact Memory.getOrCreateAll_congr .regenerate generate other hother names {}
  · have hnames : final.names.Nodup :=
      (Memory.sound_of_reached naming _ (Memory.reached_getOrCreateAll naming names {}
        Memory.Reached.empty)).nodup
    -- Lookups see every pair of the map, since no name occurs twice in it.
    rw [← ClassMap.nodup_ids_iff final hnames]
    exact Memory.nodup_ids_getOrCreateAll_iff naming rfl names

/-- The last candidate is still a good one, and after it there is no other. -/
example : (Memory.getOrCreateAll
      ⟨.regenerate, fun _ attempt _ => if attempt < 63 then "aaaa" else "bbbb"⟩ {}
      ["p-4", "m-2", "p-4", "flex"]).2.map
    = [("p-4", "aaaa"), ("m-2", "bbbb"), ("flex", "bbbb")] := by
  decide +kernel

end ClassVeil
