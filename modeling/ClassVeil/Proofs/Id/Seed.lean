import ClassVeil.Proofs.Id.Letters
import ClassVeil.Proofs.Text.Utf8

/-!
# Stable ids of other lengths and other attempts

A stable id is sampled from a stream of bytes, and the stream is made out of a seed. Nothing else
goes into it, so there are two things to know about how stable ids are related.

The length only says how long the sampling goes on. How many bytes it takes depends on the bytes,
some of which are turned down, but a search for fewer letters looks at a leading part of the same
bytes. So a shorter id is a leading part of a longer one.

The class and the attempt are seen through the seed alone, where the bytes of the class are followed
by the four bytes of a positive attempt, with nothing in between. So the last four bytes may be an
attempt or a part of the class, and in no other way can two seeds be the same. It takes a class that
ends with the bytes of an attempt. Attempts are small, so one of these bytes is zero, and a class
without U+0000 has no zero in it.

It does not matter which streams are made out of the seeds.

## Main definitions

* `Spells`: A class that is spelled with the bytes of an attempt at the end.

## Theorems

* `exists_enough_of_sample?`: A search that ends has come upon enough letters.
* `sample?_take`: A search for fewer letters ends with the first ones.
* `littleEndian_injective`: The four bytes of an attempt tell it.
* `seed_eq_iff`: When two seeds are the same.
* `seed_injective`: Below 2²⁴ and without U+0000, seeds tell classes and attempts.
* `stable_ids_by_length_and_attempt`: How stable ids are related.
-/

namespace ClassVeil

namespace Id

/-! ### Lengths -/

/-- A search that ends has come upon enough letters. The induction is on the search, and the number
    of bytes is one more for each of its steps. -/
theorem exists_enough_of_sample? (stream : ByteStream) :
    ∀ pos need word, stream.sample? pos need = some word →
      ∃ n, need ≤ (((List.range' pos n).map stream).filterMap letter?).length := by
  refine ByteStream.sample?.partial_correctness stream _ ?_
  intro search ih pos need word h
  cases need with
  | zero => exact ⟨0, Nat.zero_le _⟩
  | succ need =>
      cases hletter : letter? (stream pos) with
      -- A byte that is turned down has been looked at, and as many letters are still to come.
      | none =>
          simp only [hletter] at h
          rcases ih (pos + 1) (need + 1) word h with ⟨n, hn⟩
          refine ⟨n + 1, ?_⟩
          rw [List.range'_succ, List.map_cons, List.filterMap_cons, hletter]
          exact hn
      -- One that stands for a letter leaves a search for one letter less.
      | some first =>
          simp only [hletter, bind, Option.bind_eq_some_iff] at h
          rcases h with ⟨rest, hrest, -⟩
          rcases ih (pos + 1) need rest hrest with ⟨n, hn⟩
          refine ⟨n + 1, ?_⟩
          rw [List.range'_succ, List.map_cons, List.filterMap_cons, hletter, List.length_cons]
          omega

/-- A search for fewer letters ends with the first ones. It need not be followed step by step: what
    either search comes to is a leading part of the letters among the bytes. -/
theorem sample?_take (stream : ByteStream) (pos m n : Nat) (word : List Char) (hle : m ≤ n)
    (h : stream.sample? pos n = some word) : stream.sample? pos m = some (word.take m) := by
  -- That the longer search has ended is all that is known of the stream.
  rcases exists_enough_of_sample? stream pos n word h with ⟨bytes, henough⟩
  -- The bytes that were enough for the one search are enough for the other.
  have hlong := sample?_of_enough stream bytes pos n henough
  rw [h, Option.some.injEq] at hlong
  rw [sample?_of_enough stream bytes pos m (by omega), hlong, List.take_take, Nat.min_eq_left hle]

/-! ### Seeds -/

/-- The four bytes of a number below 2³² tell it. Each of them is a remainder, and the remainders
    are put together again by arithmetic. -/
theorem littleEndian_injective (m n : Nat) (hm : m < 4294967296) (hn : n < 4294967296)
    (h : littleEndian m = littleEndian n) : m = n := by
  have hbyte : ∀ a b : Nat, a.toUInt8 = b.toUInt8 → a % 256 = b % 256 := by
    intro a b hab
    have hnat := congrArg UInt8.toNat hab
    rwa [Nat.toUInt8, UInt8.toNat_ofNat', UInt8.toNat_ofNat'] at hnat
  simp only [littleEndian, List.cons.injEq, and_true] at h
  rcases h with ⟨h0, h1, h2, h3⟩
  -- Equal bytes are equal digits to the base 256, and there are no more than four.
  have h0 := hbyte _ _ h0
  have h1 := hbyte _ _ h1
  have h2 := hbyte _ _ h2
  have h3 := hbyte _ _ h3
  omega

/-- The last of the four bytes is zero, if the number is below 2²⁴. Attempts are far below that, so
    their bytes never pass for text without U+0000. -/
theorem zero_mem_littleEndian (n : Nat) (h : n < 16777216) : 0 ∈ littleEndian n := by
  have hlast : (n / 16777216).toUInt8 = 0 := by
    rw [Nat.div_eq_of_lt h]
    rfl
  unfold littleEndian
  rw [hlast]
  simp only [List.mem_cons, true_or, or_true]

/-- The class is spelled like the other one with the bytes of a positive attempt behind it. -/
def Spells (name other : String) (attempt : Nat) : Prop :=
  0 < attempt ∧ Utf8.encode name.toList = Utf8.encode other.toList ++ littleEndian attempt

/-- A class that spells a small attempt has U+0000 in it. -/
theorem nul_mem_of_spells (name other : String) (attempt : Nat) (hsmall : attempt < 16777216)
    (h : Spells name other attempt) : '\x00' ∈ name.toList := by
  refine Utf8.nul_mem_of_zero_mem_encode _ ?_
  rw [h.2]
  exact List.mem_append_right _ (zero_mem_littleEndian attempt hsmall)

theorem seed_zero (name : String) : seed name 0 = Utf8.encode name.toList := by
  rw [seed, if_pos rfl, List.append_nil]

theorem seed_of_pos (name : String) (attempt : Nat) (h : 0 < attempt) :
    seed name attempt = Utf8.encode name.toList ++ littleEndian attempt := by
  rw [seed, if_neg (by omega)]

theorem eq_of_encode (name other : String)
    (h : Utf8.encode name.toList = Utf8.encode other.toList) : name = other :=
  String.toList_inj.mp (Utf8.encode_injective _ _ h)

/-- Two seeds are the same if they are of the same class and attempt, or if one is of a first
    attempt and its class spells the other class and attempt. The cases are whether each attempt is
    the first, as only then nothing is put behind the class. -/
theorem seed_eq_iff (name other : String) (attempt again : Nat) (hattempt : attempt < 4294967296)
    (hagain : again < 4294967296) :
    seed name attempt = seed other again ↔
      (name = other ∧ attempt = again) ∨ (attempt = 0 ∧ Spells name other again) ∨
        (again = 0 ∧ Spells other name attempt) := by
  constructor
  · intro h
    rcases Nat.eq_zero_or_pos attempt with rfl | hpos <;>
      rcases Nat.eq_zero_or_pos again with rfl | hpos'
    · rw [seed_zero, seed_zero] at h
      exact Or.inl ⟨eq_of_encode name other h, rfl⟩
    · rw [seed_zero, seed_of_pos other again hpos'] at h
      exact Or.inr (Or.inl ⟨rfl, hpos', h⟩)
    · rw [seed_of_pos name attempt hpos, seed_zero] at h
      exact Or.inr (Or.inr ⟨rfl, hpos, h.symm⟩)
    -- Both end with four bytes of an attempt.
    · rw [seed_of_pos name attempt hpos, seed_of_pos other again hpos'] at h
      rcases List.append_inj' h rfl with ⟨hname, hbytes⟩
      exact Or.inl ⟨eq_of_encode name other hname,
        littleEndian_injective attempt again hattempt hagain hbytes⟩
  · rintro (⟨rfl, rfl⟩ | ⟨rfl, hpos, hspelled⟩ | ⟨rfl, hpos, hspelled⟩)
    · rfl
    · rw [seed_zero, seed_of_pos other again hpos, hspelled]
    · rw [seed_zero, seed_of_pos name attempt hpos, hspelled]

/-- Below 2²⁴ and without U+0000, seeds tell classes and attempts. Of the three ways to have the
    same seed, two need a class that spells an attempt. -/
theorem seed_injective (name other : String) (attempt again : Nat) (hname : '\x00' ∉ name.toList)
    (hother : '\x00' ∉ other.toList) (hattempt : attempt < 16777216) (hagain : again < 16777216)
    (h : seed name attempt = seed other again) : name = other ∧ attempt = again := by
  rcases (seed_eq_iff name other attempt again (by omega) (by omega)).mp h with
    hsame | ⟨-, hspells⟩ | ⟨-, hspells⟩
  · exact hsame
  · exact absurd (nul_mem_of_spells name other again hagain hspells) hname
  · exact absurd (nul_mem_of_spells other name attempt hattempt hspells) hother

/-! ### Ids -/

/-- How stable ids are related, whatever streams are made out of the seeds. If the search for the
    letters of an id ends, then so does that for a shorter one, which is a leading part of it. Two
    classes and attempts have the same seed if they are the same, or if one attempt is the first and
    its class is spelled like the other one with the four bytes of a positive attempt behind it. So
    different classes or attempts never have the same seed, if there is no U+0000 in the classes and
    the attempts are those that a store makes. -/
theorem stable_ids_by_length_and_attempt (stream : List UInt8 → ByteStream) :
    (∀ (name : String) (attempt : UInt32) (m n : Nat) (word : List Char), m ≤ n →
      (stream (seed name attempt.toNat)).sample? 0 n = some word →
      (ofStream stream n name attempt.toNat).toList = word ∧ word.length = n ∧
      (stream (seed name attempt.toNat)).sample? 0 m = some (word.take m) ∧
      (ofStream stream m name attempt.toNat).toList
        = (ofStream stream n name attempt.toNat).toList.take m) ∧
    (∀ (name other : String) (attempt again : UInt32),
      seed name attempt.toNat = seed other again.toNat ↔
        (name = other ∧ attempt = again) ∨ (attempt = 0 ∧ Spells name other again.toNat) ∨
          (again = 0 ∧ Spells other name attempt.toNat)) ∧
    (∀ (name other : String) (attempt again : Nat),
      '\x00' ∉ name.toList → '\x00' ∉ other.toList →
      attempt < maxAttempts → again < maxAttempts →
      (name ≠ other ∨ attempt ≠ again) → seed name attempt ≠ seed other again) := by
  refine ⟨fun name attempt m n word hle hword => ?_, fun name other attempt again => ?_,
    fun name other attempt again hname hother hattempt hagain hne heq => ?_⟩
  · -- Where the search ends, the id is what it comes to.
    have hofStream : ∀ length letters,
        (stream (seed name attempt.toNat)).sample? 0 length = some letters →
          (ofStream stream length name attempt.toNat).toList = letters := by
      intro length letters hletters
      rw [ofStream, lettersOf, hletters, String.toList_ofList]
    have hshort := sample?_take _ 0 m n word hle hword
    have hlong := hofStream n word hword
    refine ⟨hlong, (isId_of_sample? _ 0 n word hword).1, hshort, ?_⟩
    rw [hlong, hofStream m _ hshort]
  · rw [seed_eq_iff name other _ _ attempt.toNat_lt again.toNat_lt, UInt32.toNat_inj,
      ← UInt32.toNat_inj (b := 0), ← UInt32.toNat_inj (b := 0)]
    rfl
  · have hbound : maxAttempts = 64 := rfl
    rcases seed_injective name other attempt again hname hother (by omega) (by omega) heq with
      ⟨hsame, hagain⟩
    exact hne.elim (fun h => h hsame) fun h => h hagain

/-- Two letters of the id of four, and a class that spells another one with its second attempt. -/
theorem stable_ids_by_length_and_attempt_lookAlike :
    stableId 2 "p-4" 0 = "qu" ∧ seed "p-4\x01\x00\x00\x00" 0 = seed "p-4" 1 ∧
      seed "p-4" 63 ≠ seed "p-4" 62 := by
  rcases stable_ids_by_length_and_attempt blake3 with ⟨hlengths, hseeds, hapart⟩
  have hword : ByteStream.sample? (blake3 (seed "p-4" 0)) 0 4 = some "quUf".toList :=
    sample?_of_letters (blake3 (seed "p-4" 0)) 7 0 "quUf".toList (by decide +kernel)
  refine ⟨?_, ?_, hapart "p-4" "p-4" 63 62 (by decide) (by decide) (by decide) (by decide)
    (Or.inr (by decide))⟩
  · rcases hlengths "p-4" 0 2 4 "quUf".toList (by decide) hword with ⟨hlong, -, -, htake⟩
    rw [hlong] at htake
    exact String.toList_inj.mp htake
  · exact (hseeds "p-4\x01\x00\x00\x00" "p-4" 0 1).mpr
      (Or.inr (Or.inl ⟨rfl, by decide, by decide⟩))

end Id

end ClassVeil
