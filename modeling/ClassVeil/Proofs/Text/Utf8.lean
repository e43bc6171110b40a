import ClassVeil.Text.Utf8

/-!
# UTF-8 is undone exactly

The map file is written as bytes and read as text. Decoding is strict, so it could refuse what
encoding has made; this file says that it never does, for any character there is. The four lengths
of an encoding are four ranges of code points, and each has its own lemma about the bytes behind the
lead byte.

For each length one has to see that the lead byte is taken for a byte of this length, that the
others carry six bits each, and that the number put together from all of them is the code point
again. The last is arithmetic with remainders. A decoder that is strict also checks that no shorter
encoding would have done, and that the number is no surrogate: the first is the lower end of the
range, and the second is a property of characters.

In the other direction only as much is said as is used: the bytes of a character beyond ASCII are
all large, so a small byte comes from a character of ASCII.

## Theorems

* `decode_encodeChar_append`: The bytes of a character are read as that character.
* `decode_encode`: The bytes of a text are read as that text.
* `encode_injective`: Texts with the same bytes are the same text.
* `encodeChar_ascii`, `encodeChar_wide`: Only characters of ASCII have bytes below 0x80.
* `nul_mem_of_zero_mem_encode`: Only U+0000 has a zero byte in its encoding.
* `size_append`: The bytes of two texts are counted one after the other.
-/

namespace ClassVeil

namespace Utf8

theorem toNat_toUInt8 (n : Nat) (h : n < 256) : n.toUInt8.toNat = n := by
  rw [Nat.toUInt8, UInt8.toNat_ofNat', Nat.mod_eq_of_lt h]

/-- The payload of a continuation byte is the six bits that were put into it. They are less than the
    mark of such a byte, so the two can be told apart. -/
theorem continuation?_payload (n : Nat) (h : n < 64) :
    continuation? (0x80 + n).toUInt8 = some n := by
  have hbyte : (0x80 + n).toUInt8.toNat = 0x80 + n := toNat_toUInt8 (0x80 + n) (by omega)
  unfold continuation?
  rw [hbyte, if_pos (by simp only [Bool.and_eq_true, decide_eq_true_eq]; omega),
    Nat.add_sub_cancel_left]

/-- A code point at hand is the one of a character, so it lies outside of the surrogates. -/
theorem scalar?_toNat (least : Nat) (c : Char) (h : least ≤ c.toNat) :
    scalar? least c.toNat = some c := by
  have hvalid : c.toNat < 0xD800 ∨ 0xDFFF < c.toNat ∧ c.toNat < 0x110000 := c.valid
  unfold scalar?
  rw [if_pos, Char.ofNat_toNat]
  simp only [Bool.and_eq_true, Bool.or_eq_true, decide_eq_true_eq]
  omega

theorem decode_one (a : UInt8) (n : Nat) (rest : List UInt8) (ha : a.toNat = n) (hn : n < 0x80) :
    decode (a :: rest) = (decode rest).map (Char.ofNat n :: ·) := by
  rw [decode.eq_def]
  simp only [ha, hn, if_true]

theorem decode_two (a b : UInt8) (n m : Nat) (c : Char) (rest : List UInt8) (ha : a.toNat = n)
    (hlo : 0xC0 ≤ n) (hhi : n < 0xE0) (hb : continuation? b = some m)
    (hc : scalar? 0x80 ((n - 0xC0) * 64 + m) = some c) :
    decode (a :: b :: rest) = (decode rest).map (c :: ·) := by
  rw [decode]
  simp only [ha, Option.bind_eq_bind]
  -- The lead byte is none of a shorter encoding, and not one that is out of place.
  rw [if_neg (by omega), if_neg (by omega), if_pos hhi]
  rw [hb, Option.bind_some, hc, Option.bind_some]

theorem decode_three (a b d : UInt8) (n m k : Nat) (c : Char) (rest : List UInt8)
    (ha : a.toNat = n) (hlo : 0xE0 ≤ n) (hhi : n < 0xF0) (hb : continuation? b = some m)
    (hd : continuation? d = some k)
    (hc : scalar? 0x800 ((n - 0xE0) * 4096 + m * 64 + k) = some c) :
    decode (a :: b :: d :: rest) = (decode rest).map (c :: ·) := by
  rw [decode]
  simp only [ha, Option.bind_eq_bind]
  rw [if_neg (by omega), if_neg (by omega), if_neg (by omega), if_pos hhi]
  rw [hb, hd, Option.bind_some, Option.bind_some, hc, Option.bind_some]

theorem decode_four (a b d e : UInt8) (n m k l : Nat) (c : Char) (rest : List UInt8)
    (ha : a.toNat = n) (hlo : 0xF0 ≤ n) (hhi : n < 0xF8) (hb : continuation? b = some m)
    (hd : continuation? d = some k) (he : continuation? e = some l)
    (hc : scalar? 0x10000 ((n - 0xF0) * 262144 + m * 4096 + k * 64 + l) = some c) :
    decode (a :: b :: d :: e :: rest) = (decode rest).map (c :: ·) := by
  rw [decode]
  simp only [ha, Option.bind_eq_bind]
  rw [if_neg (by omega), if_neg (by omega), if_neg (by omega), if_neg (by omega), if_pos hhi]
  rw [hb, hd, he, Option.bind_some, Option.bind_some, Option.bind_some, hc, Option.bind_some]

/-- The bytes of a character are read as that character, whatever bytes come behind them. Each
    range of code points fits the payload of its length, and the least code point of a length is
    the least one that decoding takes from it. -/
theorem decode_encodeChar_append (c : Char) (rest : List UInt8) :
    decode (encodeChar c ++ rest) = (decode rest).map (c :: ·) := by
  have hvalid : c.toNat < 0xD800 ∨ 0xDFFF < c.toNat ∧ c.toNat < 0x110000 := c.valid
  have hscalar := fun least h => scalar?_toNat least c h
  rw [encodeChar]
  generalize hn : c.toNat = n at hvalid hscalar ⊢
  -- All bytes but the first one carry six bits; the first one carries what is above them.
  have hlow := fun k => continuation?_payload (n / k % 64) (Nat.mod_lt _ (by decide))
  have hlast := continuation?_payload (n % 64) (Nat.mod_lt _ (by decide))
  by_cases h1 : n < 0x80
  · simp only [h1, if_true, List.singleton_append]
    rw [decode_one _ n rest (toNat_toUInt8 n (by omega)) h1, ← hn, Char.ofNat_toNat]
  simp only [h1, if_false]
  by_cases h2 : n < 0x800
  · simp only [h2, if_true, List.cons_append, List.nil_append]
    refine decode_two _ _ (0xC0 + n / 64) _ c rest (toNat_toUInt8 _ (by omega)) (by omega)
      (by omega) hlast ?_
    rw [show (0xC0 + n / 64 - 0xC0) * 64 + n % 64 = n by omega]
    exact hscalar 0x80 (by omega)
  simp only [h2, if_false]
  by_cases h3 : n < 0x10000
  · simp only [h3, if_true, List.cons_append, List.nil_append]
    refine decode_three _ _ _ (0xE0 + n / 4096) _ _ c rest (toNat_toUInt8 _ (by omega))
      (by omega) (by omega) (hlow 64) hlast ?_
    rw [show (0xE0 + n / 4096 - 0xE0) * 4096 + n / 64 % 64 * 64 + n % 64 = n by omega]
    exact hscalar 0x800 (by omega)
  · simp only [h3, if_false, List.cons_append, List.nil_append]
    refine decode_four _ _ _ _ (0xF0 + n / 262144) _ _ _ c rest (toNat_toUInt8 _ (by omega))
      (by omega) (by omega) (hlow 4096) (hlow 64) hlast ?_
    rw [show (0xF0 + n / 262144 - 0xF0) * 262144 + n / 4096 % 64 * 4096 + n / 64 % 64 * 64
      + n % 64 = n by omega]
    exact hscalar 0x10000 (by omega)

/-- The bytes of a text are read as that text, by induction on its characters, as each is read
    whatever comes behind it. -/
theorem decode_encode (s : List Char) : decode (encode s) = some s := by
  induction s with
  | nil => rfl
  | cons c rest ih =>
      rw [encode, List.flatMap_cons, decode_encodeChar_append]
      rw [encode] at ih
      rw [ih, Option.map_some]

/-- Texts with the same bytes are the same text, since a text is decoded from its bytes. Where
    something is shown of bytes it is shown of texts. -/
theorem encode_injective (s t : List Char) (h : encode s = encode t) : s = t := by
  have hdecode := decode_encode s
  rw [h, decode_encode, Option.some.injEq] at hdecode
  exact hdecode.symm

/-- A character of ASCII is one byte. -/
theorem encodeChar_ascii (c : Char) (h : c.toNat < 0x80) : encodeChar c = [c.toNat.toUInt8] := by
  rw [encodeChar]
  simp only [h, if_true]

/-- The bytes of any other character have their first bit set. None of them can be taken for a
    character of ASCII, wherever in the character it stands. -/
theorem encodeChar_wide (c : Char) (h : 0x80 ≤ c.toNat) :
    encodeChar c ≠ [] ∧ ∀ b ∈ encodeChar c, 0x80 ≤ b.toNat := by
  have hvalid : c.toNat < 0xD800 ∨ 0xDFFF < c.toNat ∧ c.toNat < 0x110000 := c.valid
  have hbyte : ∀ n, 0x80 ≤ n → n < 0x100 → 0x80 ≤ n.toUInt8.toNat := by
    intro n hlow hhigh
    rw [toNat_toUInt8 n hhigh]
    exact hlow
  rw [encodeChar]
  simp only [if_neg (Nat.not_lt.mpr h)]
  -- Two, three or four bytes: a lead byte, and then bytes that go on.
  split
  · refine ⟨List.cons_ne_nil _ _, ?_⟩
    simp only [List.forall_mem_cons]
    exact ⟨hbyte _ (by omega) (by omega), hbyte _ (by omega) (by omega), by simp⟩
  · split
    · refine ⟨List.cons_ne_nil _ _, ?_⟩
      simp only [List.forall_mem_cons]
      exact ⟨hbyte _ (by omega) (by omega), hbyte _ (by omega) (by omega),
        hbyte _ (by omega) (by omega), by simp⟩
    · refine ⟨List.cons_ne_nil _ _, ?_⟩
      simp only [List.forall_mem_cons]
      exact ⟨hbyte _ (by omega) (by omega), hbyte _ (by omega) (by omega),
        hbyte _ (by omega) (by omega), hbyte _ (by omega) (by omega), by simp⟩

/-- Only U+0000 has a zero byte in its encoding. -/
theorem nul_mem_of_zero_mem_encode (s : List Char) (h : 0 ∈ encode s) : '\x00' ∈ s := by
  rcases List.mem_flatMap.mp h with ⟨c, hc, hzero⟩
  -- The byte belongs to one character, and only ASCII has bytes that small.
  by_cases hascii : c.toNat < 0x80
  · rw [encodeChar_ascii c hascii, List.mem_singleton] at hzero
    have hcode : c.toNat = 0 := by
      rw [← toNat_toUInt8 c.toNat (by omega), ← hzero]
      rfl
    have hnul : c = '\x00' := by
      rw [← Char.ofNat_toNat c, hcode]
    exact hnul ▸ hc
  · have hhigh := (encodeChar_wide c (Nat.not_lt.mp hascii)).2 0 hzero
    exact absurd hhigh (by decide)

/-- The bytes of two texts are counted one after the other. -/
theorem size_append (s t : List Char) : size (s ++ t) = size s + size t := by
  -- The count goes on from any number as it does from zero.
  have hfrom : ∀ (t : List Char) (n : Nat),
      t.foldl (fun n c => n + width c) n = n + t.foldl (fun n c => n + width c) 0 := by
    intro t
    induction t with
    | nil => exact fun n => rfl
    | cons c t ih =>
        intro n
        rw [List.foldl_cons, List.foldl_cons, ih, ih (0 + width c)]
        omega
  rw [size, size, size, List.foldl_append, hfrom]

end Utf8

end ClassVeil
