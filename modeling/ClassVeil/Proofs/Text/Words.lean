import ClassVeil.Renamer

/-!
# Words

A class attribute is split at blanks and put together again with single spaces. This file says that
the second undoes the first up to the amount of blanks: texts without blanks that are joined are the
words of the result, and spaces at its two ends change nothing.

`IsWord` is what the splitting promises of every piece it returns, and what the joining needs of
every piece it is given. Ids come from an alphabet of letters, so both sides meet there.

The splitting works from the right: a character goes in front of the first word of what is behind
it, or begins a word of its own. Whether it does is decided by the next character alone, and that is
what `EndsWord` says of a text. So there is a lemma for each of the three ways in which a text can
go on from a character, and all that follows uses these in place of the definition.

How texts behave when they are put behind one another comes next, because templates are renamed in
parts. Between two texts a word is cut in two, unless one of them has a blank at the seam.

In the end the words are compared with the text as a whole: they hold all of it that is no blank.

## Main definitions

* `IsWord`: A text that is not empty and has no blank in it.
* `EndsWord`: A text that does not go on with a word in front of it.
* `ink`: The number of characters of a text that are no blanks.

## Theorems

* `words_append_of_isWord`: A word in front of a blank is the first word.
* `words_joinWords_append`: Joined words are split again, whatever comes behind them.
* `words_joinWords`: Joined words are split again into the same words.
* `words_edges`: Spaces at the two ends do not change the words.
* `words_append_of_endsWord`, `words_append_of_blank`: Texts with a blank between them have the
  words of both.
* `flatten_words`, `ink_congr`: The words hold all that is no blank, and nothing else.
* `mem_joinWords`: Joined words hold nothing but their own characters and spaces.
* `any_head?_edges`, `any_getLast?_edges`: Joined words have the spaces at their ends that were put
  there.
* `head?_edges_iff`, `getLast?_edges_iff`: The same, for the space itself.
-/

namespace ClassVeil

namespace Text

/-- A text that splitting at blanks would return in one piece. -/
def IsWord (w : List Char) : Prop := w ≠ [] ∧ ∀ c ∈ w, isBlank c = false

instance (w : List Char) : Decidable (IsWord w) :=
  decidable_of_iff (w ≠ [] ∧ w.all (fun c => !isBlank c) = true)
    (and_congr_right fun _ => by simp only [List.all_eq_true, Bool.not_eq_true'])

theorem isBlank_space : isBlank ' ' = true := by decide

theorem words_nil : words [] = [] := rfl

theorem words_cons_of_isBlank (c : Char) (rest : List Char) (hc : isBlank c = true) :
    words (c :: rest) = words rest := by
  rw [words.eq_def]
  simp only [hc, if_true]

/-- The head of a text ends a word: the text is empty or starts with a blank. In front of such a
    text the words do not depend on it. -/
def EndsWord (rest : List Char) : Prop := ∀ c, rest.head? = some c → isBlank c = true

/-- A character that is no blank starts a word, which goes on with the first word behind it
    unless something ends it at once. -/
theorem words_cons_of_endsWord (c : Char) (rest : List Char) (hc : isBlank c = false)
    (hrest : EndsWord rest) : words (c :: rest) = [c] :: words rest := by
  rw [words.eq_def]
  simp only [hc, Bool.false_eq_true, if_false]
  cases rest with
  | nil => rfl
  | cons d tail =>
      have hd : isBlank d = true := hrest d rfl
      simp only [hd, if_true]

theorem words_cons_cons (c d : Char) (rest : List Char) (hc : isBlank c = false)
    (hd : isBlank d = false) (w : List Char) (ws : List (List Char))
    (hw : words (d :: rest) = w :: ws) : words (c :: d :: rest) = (c :: w) :: ws := by
  rw [words.eq_def]
  simp only [hc, hd, hw, Bool.false_eq_true, if_false]

/-- A word in front of a blank or the end is the first word, by induction on its characters. It is
    not empty, so there is a first character, and none of them is a blank that could end it early.
    -/
theorem words_append_of_isWord (w rest : List Char) (hw : IsWord w) (hrest : EndsWord rest) :
    words (w ++ rest) = w :: words rest := by
  rcases hw with ⟨hne, hplain⟩
  induction w with
  | nil => exact absurd rfl hne
  | cons c tail ih =>
      have hc : isBlank c = false := hplain c (List.mem_cons_self)
      have htail : ∀ x ∈ tail, isBlank x = false :=
        fun x hx => hplain x (List.mem_cons_of_mem c hx)
      cases tail with
      | nil => exact words_cons_of_endsWord c rest hc hrest
      | cons d tail =>
          -- The first word of the rest is the tail, and the character goes in front of it.
          have hd : isBlank d = false := htail d (List.mem_cons_self)
          exact words_cons_cons c d (tail ++ rest) hc hd (d :: tail) (words rest)
            (ih (List.cons_ne_nil d tail) htail)

theorem endsWord_nil : EndsWord [] := fun _ hc => by cases hc

theorem endsWord_space (rest : List Char) : EndsWord (' ' :: rest) := by
  intro c hc
  rw [List.head?_cons, Option.some.injEq] at hc
  rw [← hc]
  exact isBlank_space

/-- Joined words are split again into the same words, whatever comes behind the last of them, if
    that begins with a blank or not at all. -/
theorem words_joinWords_append (ws : List (List Char)) (rest : List Char)
    (h : ∀ w ∈ ws, IsWord w) (hrest : EndsWord rest) :
    words (joinWords ws ++ rest) = ws ++ words rest := by
  induction ws with
  | nil => rfl
  | cons w more ih =>
      have hw : IsWord w := h w List.mem_cons_self
      have hmore : ∀ v ∈ more, IsWord v := fun v hv => h v (List.mem_cons_of_mem w hv)
      cases more with
      | nil => exact words_append_of_isWord w rest hw hrest
      | cons v more =>
          -- One word, the space, and then the joined rest, to which the induction applies.
          calc words (joinWords (w :: v :: more) ++ rest)
              = words (w ++ (' ' :: (joinWords (v :: more) ++ rest))) := by
                rw [joinWords, List.append_assoc, List.cons_append]
                exact List.cons_ne_nil v more
            _ = w :: words (' ' :: (joinWords (v :: more) ++ rest)) :=
                words_append_of_isWord w _ hw (endsWord_space _)
            _ = w :: words (joinWords (v :: more) ++ rest) := by
                rw [words_cons_of_isBlank _ _ isBlank_space]
            _ = w :: v :: more ++ words rest := by rw [ih hmore]; rfl

/-- Joined words are split again into the same words. They have to be words: an empty one would be
    lost, and one with a blank would come apart. -/
theorem words_joinWords (ws : List (List Char)) (h : ∀ w ∈ ws, IsWord w) :
    words (joinWords ws) = ws := by
  have hjoin := words_joinWords_append ws [] h endsWord_nil
  rw [List.append_nil] at hjoin
  rw [hjoin, words_nil, List.append_nil]

/-- Spaces at the two ends of joined words do not change the words. The space at the right ends the
    last word, the one at the left is skipped. -/
theorem words_edges (a b : Option Char) (ws : List (List Char)) (h : ∀ w ∈ ws, IsWord w) :
    words (edge a ++ joinWords ws ++ edge b) = ws := by
  have hright : words (joinWords ws ++ edge b) = ws := by
    unfold edge
    split
    · rw [words_joinWords_append ws _ h (endsWord_space []),
        words_cons_of_isBlank _ _ isBlank_space, words_nil, List.append_nil]
    · rw [List.append_nil, words_joinWords ws h]
  rw [List.append_assoc]
  unfold edge at hright ⊢
  split
  · rw [List.singleton_append, words_cons_of_isBlank _ _ isBlank_space]
    exact hright
  · exact hright

/-! ### Texts behind one another -/

/-- A character that is no blank begins a word. -/
theorem exists_words_cons (c : Char) (rest : List Char) (hc : isBlank c = false) :
    ∃ w ws, words (c :: rest) = w :: ws := by
  rw [words.eq_def]
  simp only [hc, Bool.false_eq_true, if_false]
  split
  · exact ⟨_, _, rfl⟩
  · split
    · exact ⟨_, _, rfl⟩
    · split
      · exact ⟨_, _, rfl⟩
      · exact ⟨_, _, rfl⟩

theorem endsWord_congr (s t : List Char) (h : s.head?.map isBlank = t.head?.map isBlank) :
    EndsWord s ↔ EndsWord t := by
  have hiff : ∀ text, EndsWord text ↔ text.head?.map isBlank ≠ some false := by
    intro text
    cases text with
    | nil => exact iff_of_true endsWord_nil (by decide)
    | cons c rest =>
        rw [List.head?_cons, Option.map_some, ne_eq, Option.some.injEq, Bool.not_eq_false]
        refine ⟨fun hends => hends c rfl, fun hc d hd => ?_⟩
        rw [List.head?_cons, Option.some.injEq] at hd
        rw [← hd]
        exact hc
  rw [hiff s, hiff t, h]

/-- What stands behind a character decides whether a word goes on with it only by its words and by
    whether it goes on with a word. -/
theorem words_cons_congr (c : Char) (s t : List Char) (hwords : words s = words t)
    (hends : EndsWord s ↔ EndsWord t) : words (c :: s) = words (c :: t) := by
  by_cases hc : isBlank c = true
  · rw [words_cons_of_isBlank c s hc, words_cons_of_isBlank c t hc, hwords]
  rw [Bool.not_eq_true] at hc
  by_cases hs : EndsWord s
  · rw [words_cons_of_endsWord c s hc hs, words_cons_of_endsWord c t hc (hends.mp hs), hwords]
  · -- Both texts begin with the same word, which the character goes in front of.
    have hgoes : ∀ text, ¬ EndsWord text → ∃ d rest, text = d :: rest ∧ isBlank d = false := by
      intro text htext
      cases text with
      | nil => exact absurd endsWord_nil htext
      | cons d rest =>
          refine ⟨d, rest, rfl, Bool.eq_false_iff.mpr fun hd => htext fun e he => ?_⟩
          rw [List.head?_cons, Option.some.injEq] at he
          rw [← he]
          exact hd
    rcases hgoes s hs with ⟨d, s, rfl, hd⟩
    rcases hgoes t (fun ht => hs (hends.mpr ht)) with ⟨e, t, rfl, he⟩
    rcases exists_words_cons d s hd with ⟨w, ws, hfirst⟩
    rw [words_cons_cons c d s hc hd w ws hfirst,
      words_cons_cons c e t hc he w ws (hwords.symm.trans hfirst)]

/-- Words do not grow into a text that does not go on with one. The induction is on the front text,
    whose last character is the only one that stands at the seam. -/
theorem words_append_of_endsWord (text rest : List Char) (hrest : EndsWord rest) :
    words (text ++ rest) = words text ++ words rest := by
  induction text with
  | nil => rfl
  | cons c text ih =>
      by_cases hc : isBlank c = true
      · rw [List.cons_append, words_cons_of_isBlank c _ hc, words_cons_of_isBlank c _ hc, ih]
      rw [Bool.not_eq_true] at hc
      cases text with
      | nil =>
          rw [List.singleton_append, words_cons_of_endsWord c rest hc hrest,
            words_cons_of_endsWord c [] hc endsWord_nil, words_nil, List.singleton_append]
      | cons d text =>
          by_cases hd : isBlank d = true
          · have hends : ∀ more, EndsWord (d :: more) := by
              intro more e he
              rw [List.head?_cons, Option.some.injEq] at he
              rw [← he]
              exact hd
            rw [List.cons_append, List.cons_append,
              words_cons_of_endsWord c _ hc (hends (text ++ rest)),
              words_cons_of_endsWord c _ hc (hends text), ← List.cons_append, ih, List.cons_append]
          · -- The first word of the tail goes on to the left, on both sides.
            rw [Bool.not_eq_true] at hd
            rcases exists_words_cons d text hd with ⟨w, ws, hwords⟩
            have hall : words (d :: (text ++ rest)) = w :: (ws ++ words rest) := by
              rw [← List.cons_append, ih, hwords, List.cons_append]
            rw [List.cons_append, List.cons_append, words_cons_cons c d _ hc hd w _ hall,
              words_cons_cons c d text hc hd w ws hwords, List.cons_append]

/-- Nor do they grow out of a text that ends with a blank. These are the two ways in which texts can
    be put behind one another without a word being made of two. -/
theorem words_append_of_blank (text rest : List Char)
    (h : text.getLast?.any isBlank = true) : words (text ++ rest) = words text ++ words rest := by
  rcases List.eq_nil_or_concat text with rfl | ⟨start, c, rfl⟩
  · cases h
  · rw [List.concat_eq_append] at h ⊢
    rw [List.getLast?_concat, Option.any_some] at h
    have hends : ∀ more, EndsWord (c :: more) := by
      intro more d hd
      rw [List.head?_cons, Option.some.injEq] at hd
      rw [← hd]
      exact h
    -- The blank is moved to the other text, which then ends every word in front of it.
    rw [List.append_assoc, List.singleton_append, words_append_of_endsWord start _ (hends rest),
      words_append_of_endsWord start _ (hends []), words_cons_of_isBlank c _ h,
      words_cons_of_isBlank c _ h, words_nil, List.append_nil]

/-! ### What words hold -/

/-- The words hold all that is no blank, in its order. The cases are those of the splitting: a blank
    that is dropped, and the ways in which a character goes to a word. -/
theorem flatten_words (text : List Char) :
    (words text).flatten = text.filter fun c => !isBlank c := by
  fun_induction words text with
  | case1 => rfl
  | case2 c rest hc ih => rw [List.filter_cons_of_neg (by rw [hc]; decide), ih]
  | case3 c hc => rw [List.filter_cons_of_pos (by rw [Bool.eq_false_iff.mpr hc]; rfl)]; rfl
  | case4 c hc d tail hd ih =>
      rw [List.filter_cons_of_pos (by rw [Bool.eq_false_iff.mpr hc]; rfl), ← ih,
        List.flatten_cons, List.singleton_append]
  | case5 c hc d tail hd hwords ih =>
      rw [List.filter_cons_of_pos (by rw [Bool.eq_false_iff.mpr hc]; rfl), ← ih]
      simp only [hwords, List.flatten_cons, List.flatten_nil, List.append_nil]
  | case6 c hc d tail hd w ws hwords ih =>
      rw [List.filter_cons_of_pos (by rw [Bool.eq_false_iff.mpr hc]; rfl), ← ih]
      simp only [hwords, List.flatten_cons, List.cons_append]

/-- What is no blank is in some word. -/
theorem exists_mem_words (text : List Char) (c : Char) (hc : isBlank c = false) (hmem : c ∈ text) :
    ∃ word ∈ words text, c ∈ word := by
  have hkept : c ∈ (words text).flatten := by
    rw [flatten_words, List.mem_filter, hc]
    exact ⟨hmem, rfl⟩
  exact List.mem_flatten.mp hkept

/-- The number of characters of a text that are no blanks. -/
def ink (text : List Char) : Nat := text.countP fun c => !isBlank c

theorem ink_append (s t : List Char) : ink (s ++ t) = ink s + ink t := List.countP_append

theorem ink_cons (c : Char) (text : List Char) : ink (c :: text) = ink [c] + ink text :=
  ink_append [c] text

theorem ink_singleton_le (c : Char) : ink [c] ≤ 1 := List.countP_le_length

theorem ink_singleton_of_not_isBlank (c : Char) (hc : isBlank c = false) : ink [c] = 1 := by
  rw [ink, List.countP_cons_of_pos (by rw [hc]; rfl), List.countP_nil]

theorem ink_le_of_sublist (s t : List Char) (h : s.Sublist t) : ink s ≤ ink t := h.countP_le

/-- Texts with the same words have the same characters that are no blanks. Words are counted by
    their characters here, because nothing else is known of them. -/
theorem ink_congr (s t : List Char) (h : words s = words t) : ink s = ink t := by
  rw [ink, ink, List.countP_eq_length_filter, List.countP_eq_length_filter, ← flatten_words,
    ← flatten_words, h]

/-- Joined words hold nothing but their own characters and spaces. So what no id has in it is not in
    a renamed text either. -/
theorem mem_joinWords (ws : List (List Char)) (c : Char) (h : c ∈ joinWords ws) :
    c = ' ' ∨ ∃ w ∈ ws, c ∈ w := by
  induction ws with
  | nil => cases h
  | cons w rest ih =>
      cases rest with
      | nil => exact Or.inr ⟨w, List.mem_cons_self, h⟩
      | cons next rest =>
          rw [joinWords, List.mem_append, List.mem_cons] at h
          · rcases h with h | rfl | h
            · exact Or.inr ⟨w, List.mem_cons_self, h⟩
            · exact Or.inl rfl
            · rcases ih h with rfl | ⟨other, hother, h⟩
              · exact Or.inl rfl
              · exact Or.inr ⟨other, List.mem_cons_of_mem w hother, h⟩
          · exact List.cons_ne_nil next rest

/-- Joined words begin and end with characters that are no blanks, since words have none in them and
    are not empty. -/
theorem ends_joinWords (ws : List (List Char)) (hne : ws ≠ []) (h : ∀ w ∈ ws, IsWord w) :
    ∃ first last, (joinWords ws).head? = some first ∧ isBlank first = false ∧
      (joinWords ws).getLast? = some last ∧ isBlank last = false := by
  induction ws with
  | nil => exact absurd rfl hne
  | cons w rest ih =>
      have hw : IsWord w := h w List.mem_cons_self
      rcases List.exists_cons_of_ne_nil hw.1 with ⟨c, tail, rfl⟩
      have hc := hw.2 c List.mem_cons_self
      cases rest with
      | nil =>
          refine ⟨c, (c :: tail).getLast hw.1, rfl, hc, List.getLast?_eq_some_getLast hw.1, ?_⟩
          exact hw.2 _ (List.getLast_mem hw.1)
      | cons next rest =>
          rcases ih (List.cons_ne_nil next rest) fun v hv => h v (List.mem_cons_of_mem _ hv) with
            ⟨-, last, -, -, hlast, hblank⟩
          refine ⟨c, last, ?_, hc, ?_, hblank⟩
          · rw [joinWords, List.cons_append, List.head?_cons]
            exact List.cons_ne_nil next rest
          · rw [joinWords, List.getLast?_append, List.getLast?_cons, hlast]
            · rfl
            · exact List.cons_ne_nil next rest

/-- Joined words begin with a space exactly if one was put there. -/
theorem any_head?_edges (a b : Option Char) (ws : List (List Char)) (hne : ws ≠ [])
    (h : ∀ w ∈ ws, IsWord w) :
    (edge a ++ joinWords ws ++ edge b).head?.any isBlank = a.any isBlank := by
  rcases ends_joinWords ws hne h with ⟨first, -, hfirst, hblank, -, -⟩
  unfold edge
  by_cases ha : a.any isBlank = true
  · rw [if_pos ha, ha]
    exact isBlank_space
  · rw [if_neg ha, List.nil_append, List.head?_append, hfirst, Option.some_or, Option.any_some,
      hblank, Bool.eq_false_iff.mpr ha]

/-- Joined words end with a space exactly if one was put there. -/
theorem any_getLast?_edges (a b : Option Char) (ws : List (List Char)) (hne : ws ≠ [])
    (h : ∀ w ∈ ws, IsWord w) :
    (edge a ++ joinWords ws ++ edge b).getLast?.any isBlank = b.any isBlank := by
  rcases ends_joinWords ws hne h with ⟨-, last, -, -, hlast, hblank⟩
  unfold edge
  by_cases hb : b.any isBlank = true
  · rw [if_pos hb, hb, List.getLast?_concat]
    exact isBlank_space
  · rw [if_neg hb, List.append_nil, List.getLast?_append, hlast, Option.some_or, Option.any_some,
      hblank, Bool.eq_false_iff.mpr hb]

/-- What joined words begin with is a space exactly if one was put there. -/
theorem head?_edges_iff (a b : Option Char) (ws : List (List Char)) (hne : ws ≠ [])
    (h : ∀ w ∈ ws, IsWord w) :
    (edge a ++ joinWords ws ++ edge b).head? = some ' ' ↔ a.any isBlank = true := by
  constructor
  · intro hhead
    rw [← any_head?_edges a b ws hne h, hhead]
    exact isBlank_space
  · intro ha
    rw [edge, if_pos ha]
    rfl

/-- What joined words end with is a space exactly if one was put there. -/
theorem getLast?_edges_iff (a b : Option Char) (ws : List (List Char)) (hne : ws ≠ [])
    (h : ∀ w ∈ ws, IsWord w) :
    (edge a ++ joinWords ws ++ edge b).getLast? = some ' ' ↔ b.any isBlank = true := by
  constructor
  · intro hlast
    rw [← any_getLast?_edges a b ws hne h, hlast]
    exact isBlank_space
  · intro hb
    have hedge : edge b = [' '] := by rw [edge, if_pos hb]
    rw [hedge]
    exact List.getLast?_concat

end Text

end ClassVeil
