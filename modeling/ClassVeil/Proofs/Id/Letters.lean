import ClassVeil.Proofs.Text.Words
import ClassVeil.Store.Basic

/-!
# Ids are words

An id is a run of letters, so it has no blank in it and stays one piece wherever words are split.
Random ids come from outside and are promised to be such runs. A stable id is sampled from a stream
of bytes until it is long enough, so it is one without any promise.

The sampling turns bytes down and has no bound of its own: whether it ends depends on the stream. So
there are two kinds of statements on it. Of a search that has ended one may ask what it has come to,
and that is shown by induction on the search, as a partial function allows. That a search does end
takes a number of bytes with enough letters among them, and is shown by induction on that number.
Where a search does not end the id is a run of one letter, which is still an id.

## Main definitions

* `Id.IsId`: A run of letters of a given length.
* `Config.Draws`: What the source of ids promises to a configuration.

## Theorems

* `isWord_of_isId`: An id is a word.
* `isId_of_sample?`: What sampling comes to is an id.
* `sample?_of_enough`: Sampling ends when there are enough letters.
* `isId_generator`: Every candidate is an id.
-/

namespace ClassVeil

namespace Id

/-- A run of letters of a given length. -/
def IsId (length : Nat) (id : String) : Prop :=
  id.toList.length = length ∧ ∀ c ∈ id.toList, c ∈ alphabet

theorem isBlank_of_mem_alphabet (c : Char) (hc : c ∈ alphabet) : Text.isBlank c = false := by
  -- There are few letters, so they are gone through.
  have hall : alphabet.all (fun c => !Text.isBlank c) = true := by decide
  simpa only [Bool.not_eq_true'] using List.all_eq_true.mp hall c hc

/-- An id is a word, if it has any letters at all: none of its letters is a blank. So ids with
    spaces between them can be told apart again. -/
theorem isWord_of_isId (length : Nat) (id : String) (hlength : 0 < length) (h : IsId length id) :
    Text.IsWord id.toList := by
  refine ⟨fun hnil => ?_, fun c hc => isBlank_of_mem_alphabet c (h.2 c hc)⟩
  have hlen := h.1
  rw [hnil, List.length_nil] at hlen
  omega

theorem mem_alphabet_of_letter? (b : UInt8) (c : Char) (h : letter? b = some c) : c ∈ alphabet := by
  rw [letter?] at h
  split at h
  · exact List.mem_of_getElem? h
  · cases h

/-- What sampling comes to is a letter for each byte that is not turned down, and as many of them as
    were asked for. The induction is on the search, which may be as long as it likes. -/
theorem isId_of_sample? (stream : ByteStream) :
    ∀ pos need word, stream.sample? pos need = some word →
      word.length = need ∧ ∀ c ∈ word, c ∈ alphabet := by
  refine ByteStream.sample?.partial_correctness stream _ ?_
  intro search ih pos need word h
  cases need with
  -- No more letters are wanted, and no byte is looked at.
  | zero =>
      rw [Option.some.injEq] at h
      rw [← h]
      exact ⟨rfl, fun c hc => absurd hc List.not_mem_nil⟩
  | succ need =>
      cases hletter : letter? (stream pos) with
      | none =>
          simp only [hletter] at h
          -- The byte is turned down, and the search goes on for as many letters.
          exact ih (pos + 1) (need + 1) word h
      | some first =>
          simp only [hletter, bind, Option.bind_eq_some_iff, Option.pure_def,
            Option.some.injEq] at h
          rcases h with ⟨rest, hrest, rfl⟩
          rcases ih (pos + 1) need rest hrest with ⟨hlength, hletters⟩
          refine ⟨by rw [List.length_cons, hlength], fun c hc => ?_⟩
          rcases List.mem_cons.mp hc with rfl | hc
          · exact mem_alphabet_of_letter? _ _ hletter
          · exact hletters c hc

/-- Sampling comes to the first letters, as soon as enough bytes stand for letters. The induction is
    on the bytes that are looked at, and there may be more of them than it takes. -/
theorem sample?_of_enough (stream : ByteStream) (n pos need : Nat)
    (henough : need ≤ (((List.range' pos n).map stream).filterMap letter?).length) :
    stream.sample? pos need
      = some ((((List.range' pos n).map stream).filterMap letter?).take need) := by
  induction n generalizing pos need with
  | zero =>
      rw [List.range'_zero, List.map_nil, List.filterMap_nil, List.length_nil] at henough
      rw [Nat.le_zero.mp henough, ByteStream.sample?, List.take_zero]
  | succ n ih =>
      cases need with
      | zero => rw [ByteStream.sample?, List.take_zero]
      | succ need =>
          rw [List.range'_succ, List.map_cons, List.filterMap_cons] at henough ⊢
          rw [ByteStream.sample?]
          cases hletter : letter? (stream pos) with
          | none =>
              rw [hletter] at henough
              exact ih (pos + 1) (need + 1) henough
          | some first =>
              rw [hletter, List.length_cons] at henough
              simp only [ih (pos + 1) need (by omega)]
              rfl

/-- Sampling comes to a word, if some bytes from the start on stand for it. -/
theorem sample?_of_letters (stream : ByteStream) (n pos : Nat) (word : List Char)
    (h : ((List.range' pos n).map stream).filterMap letter? = word) :
    stream.sample? pos word.length = some word := by
  have hword := sample?_of_enough stream n pos word.length (Nat.le_of_eq (by rw [h]))
  rwa [h, List.take_length] at hword

theorem isId_stableId (length : Nat) (name : String) (attempt : Nat) :
    IsId length (stableId length name attempt) := by
  unfold IsId stableId ofStream lettersOf
  rw [String.toList_ofList]
  cases hsample : ByteStream.sample? (blake3 (seed name attempt)) 0 length with
  | some word => exact isId_of_sample? _ 0 length word hsample
  | none =>
      have ha : 'a' ∈ alphabet := by decide
      refine ⟨List.length_replicate, fun c hc => ?_⟩
      rw [List.eq_of_mem_replicate hc]
      exact ha

end Id

/-- What the source of ids promises: what is drawn at random are ids of the length that was asked
    for, and the sampling of a stable id ends with as many letters. -/
def Config.Draws (c : Config) (stream : Nat → String) : Prop :=
  match c.idMode with
  | .random => ∀ n, Id.IsId c.idLength (stream n)
  | .stable => ∀ name attempt,
      (Id.lettersOf (Id.blake3 (Id.seed name attempt)) c.idLength).length = c.idLength

/-- Every candidate is an id, if those are that are drawn at random. The stable ones need no
    assumption, since their letters are taken from the alphabet here. -/
theorem isId_generator (config : Config) (stream : Nat → String)
    (h : config.idMode = .random → ∀ n, Id.IsId config.idLength (stream n)) (name : String)
    (attempt drawn : Nat) :
    Id.IsId config.idLength (config.generator stream name attempt drawn) := by
  unfold Config.generator
  cases hmode : config.idMode with
  | random => exact h hmode drawn
  | stable => exact Id.isId_stableId config.idLength name attempt

/-- Under the promise, those are. -/
theorem Config.isId_of_draws (config : Config) (stream : Nat → String) (h : config.Draws stream)
    (hmode : config.idMode = .random) (n : Nat) : Id.IsId config.idLength (stream n) := by
  rw [Config.Draws, hmode] at h
  exact h n

end ClassVeil
