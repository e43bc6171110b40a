import ClassVeil.Proofs.Markup.Division
import ClassVeil.Proofs.Text.Utf8

/-!
# Scanning byte by byte

A scanner that moves along the bytes of a document could cut a character into pieces. It does not,
because everything it looks for is ASCII: in UTF-8 no byte of any other character is an ASCII
character, and to the scanner all that is not ASCII is alike.

So a document is divided in the same way, whether the scanner is given its characters or its bytes,
each of them as a character of its own. The proof goes through the description of divisions: what
the clauses ask of the texts is true of their bytes if it is true of the texts.

There are only a few kinds of questions that the clauses ask. Some are about a class of characters:
how a text begins, what all of it is made of, what is left when a run is dropped. Such a class says
the same of all characters that are not ASCII, and that is the one thing to be known of it (the
section `SeesAscii`). Others are about words of ASCII, which a text begins with or not. Comments and
raw contents end at words, and they are gone through in pieces: a character that is not ASCII may
have become several, and the scanner runs over all of them.

It is enough to go from the text to its bytes. Since every document has only one division, the
segments in bytes, once they are shown to divide the bytes, are what the scanner finds there.

## Main definitions

* `inBytes`: The bytes of a text, each as a character of its own.
* `IsAscii`: A text in ASCII.
* `Segment.bytes`: A segment in bytes.

## Theorems

* `any_head?_inBytes`, `forall_inBytes`, `prefix_inBytes`: What can be seen of a text can be seen of
  its bytes.
* `splitComment_inBytes`, `splitRaw_inBytes`: Comments and raw contents end at the same place.
* `parts_inBytes`, `divides_inBytes`: The division of a text is one of its bytes.
* `segments_inBytes`: The scanner divides the bytes as it divides the text.
-/

namespace ClassVeil

namespace Html

/-! ### Bytes as characters -/

/-- The bytes of a character in UTF-8, each as a character of its own. -/
def charInBytes (c : Char) : List Char := (Utf8.encodeChar c).map fun b => Char.ofNat b.toNat

/-- The bytes of a text in UTF-8, each as a character of its own. -/
def inBytes (text : List Char) : List Char :=
  (Utf8.encode text).map fun b => Char.ofNat b.toNat

theorem inBytes_eq (text : List Char) : inBytes text = text.flatMap charInBytes := by
  rw [inBytes, Utf8.encode, List.map_flatMap]
  rfl

@[simp] theorem inBytes_nil : inBytes [] = [] := rfl

theorem inBytes_cons (c : Char) (text : List Char) :
    inBytes (c :: text) = charInBytes c ++ inBytes text := by
  rw [inBytes_eq, inBytes_eq, List.flatMap_cons]

@[simp] theorem inBytes_append (text more : List Char) :
    inBytes (text ++ more) = inBytes text ++ inBytes more := by
  rw [inBytes_eq, inBytes_eq, inBytes_eq, List.flatMap_append]

theorem charInBytes_ascii (c : Char) (h : c.toNat < 0x80) : charInBytes c = [c] := by
  rw [charInBytes, Utf8.encodeChar_ascii c h, List.map_singleton,
    Utf8.toNat_toUInt8 c.toNat (by omega), Char.ofNat_toNat]

theorem inBytes_cons_ascii (c : Char) (text : List Char) (h : c.toNat < 0x80) :
    inBytes (c :: text) = c :: inBytes text := by
  rw [inBytes_cons, charInBytes_ascii c h, List.singleton_append]

/-- A byte of a character that is not ASCII is no ASCII character. -/
theorem charInBytes_wide (c : Char) (h : 0x80 ≤ c.toNat) :
    charInBytes c ≠ [] ∧ ∀ d ∈ charInBytes c, 0x80 ≤ d.toNat := by
  rcases Utf8.encodeChar_wide c h with ⟨hne, hwide⟩
  refine ⟨mt List.map_eq_nil_iff.mp hne, fun d hd => ?_⟩
  rcases List.mem_map.mp hd with ⟨b, hb, rfl⟩
  have hlt : b.toNat < 0x100 := b.toNat_lt
  have hchar : b.toNat.isValidChar := Or.inl (by omega)
  rw [Char.ofNat, dif_pos hchar]
  exact hwide b hb

/-- The text is in ASCII. -/
def IsAscii (text : List Char) : Prop := ∀ c ∈ text, c.toNat < 0x80

instance (text : List Char) : Decidable (IsAscii text) :=
  decidable_of_iff (text.all (fun c => decide (c.toNat < 0x80)) = true) (by
    simp only [List.all_eq_true, decide_eq_true_eq, IsAscii])

/-- A text that begins with a character is ASCII there, or its bytes begin with one that is not.
    This is the case split for everything that looks at the front of a text. -/
theorem inBytes_cases (c : Char) (text : List Char) :
    (c.toNat < 0x80 ∧ inBytes (c :: text) = c :: inBytes text) ∨
      ∃ d more, 0x80 ≤ c.toNat ∧ charInBytes c = d :: more ∧ 0x80 ≤ d.toNat := by
  by_cases hc : c.toNat < 0x80
  · exact Or.inl ⟨hc, inBytes_cons_ascii c text hc⟩
  · rw [Nat.not_lt] at hc
    rcases charInBytes_wide c hc with ⟨hne, hwide⟩
    rcases List.exists_cons_of_ne_nil hne with ⟨d, more, hcons⟩
    refine Or.inr ⟨d, more, hc, hcons, hwide d ?_⟩
    rw [hcons]
    exact List.mem_cons_self

/-! ### What the scanner can see -/

theorem ne_of_wide (c d : Char) (hc : 0x80 ≤ c.toNat) (hd : d.toNat < 0x80) : c ≠ d := by
  rintro rfl
  omega

theorem beq_of_wide (c d : Char) (hc : 0x80 ≤ c.toNat) (hd : d.toNat < 0x80) :
    (c == d) = false := beq_eq_false_iff_ne.mpr (ne_of_wide c d hc hd)

theorem bne_of_wide (c d : Char) (hc : 0x80 ≤ c.toNat) (hd : d.toNat < 0x80) :
    (c != d) = true := bne_iff_ne.mpr (ne_of_wide c d hc hd)

theorem isAsciiBlank_of_wide (c : Char) (hc : 0x80 ≤ c.toNat) : Text.isAsciiBlank c = false := by
  have hne := fun d hd => beq_of_wide c d hc hd
  simp only [Text.isAsciiBlank, hne ' ' (by decide), hne '\t' (by decide), hne '\n' (by decide),
    hne '\x0c' (by decide), hne '\r' (by decide), Bool.or_self]

theorem not_le_of_wide (c d : Char) (hc : 0x80 ≤ c.toNat) (hd : d.toNat < 0x80) :
    ¬ c.val ≤ d.val := by
  intro hle
  have hle := UInt32.le_iff_toNat_le.mp hle
  unfold Char.toNat at hc hd
  omega

theorem isUpper_of_wide (c : Char) (hc : 0x80 ≤ c.toNat) : ¬ (c.val ≥ 'A'.val ∧ c.val ≤ 'Z'.val) :=
  fun h => not_le_of_wide c 'Z' hc (by decide) h.2

theorem isAlpha_of_wide (c : Char) (hc : 0x80 ≤ c.toNat) : c.isAlpha = false := by
  have hlower := not_le_of_wide c 'z' hc (by decide)
  unfold Char.isAlpha Char.isUpper Char.isLower
  rw [decide_eq_false (isUpper_of_wide c hc), decide_eq_false hlower, Bool.and_false,
    Bool.or_false]

theorem isNameChar_of_wide (c : Char) (hc : 0x80 ≤ c.toNat) : isNameChar c = false := by
  have hdigit := not_le_of_wide c '9' hc (by decide)
  rw [isNameChar, Char.isAlphanum, isAlpha_of_wide c hc, Char.isDigit, decide_eq_false hdigit,
    beq_of_wide c '-' hc (by decide), Bool.and_false, Bool.or_false, Bool.or_false]

theorem isAttributeChar_of_wide (c : Char) (hc : 0x80 ≤ c.toNat) : isAttributeChar c = true := by
  have hne := fun d hd => beq_of_wide c d hc hd
  simp only [isAttributeChar, isAsciiBlank_of_wide c hc, hne '=' (by decide), hne '>' (by decide),
    hne '/' (by decide), Bool.or_self, Bool.not_false]

theorem isBareChar_of_wide (c : Char) (hc : 0x80 ≤ c.toNat) : isBareChar c = true := by
  rw [isBareChar, isAsciiBlank_of_wide c hc, beq_of_wide c '>' hc (by decide), Bool.or_self,
    Bool.not_false]

theorem toLower_of_wide (c : Char) (hc : 0x80 ≤ c.toNat) : c.toLower = c := by
  unfold Char.toLower
  rw [dif_neg (isUpper_of_wide c hc)]

section SeesAscii

variable (p : Char → Bool) (b : Bool) (hp : ∀ c : Char, 0x80 ≤ c.toNat → p c = b)

include hp

theorem any_head?_inBytes (text : List Char) :
    (inBytes text).head?.any p = text.head?.any p := by
  cases text with
  | nil => rfl
  | cons c text =>
      rcases inBytes_cases c text with ⟨-, hsame⟩ | ⟨d, more, hc, hcons, hd⟩
      · rw [hsame, List.head?_cons, List.head?_cons]
      · rw [inBytes_cons, hcons, List.cons_append, List.head?_cons, List.head?_cons,
          Option.any_some, Option.any_some, hp c hc, hp d hd]

theorem forall_inBytes (text : List Char) (h : ∀ c ∈ text, p c = true) :
    ∀ d ∈ inBytes text, p d = true := by
  intro d hd
  rw [inBytes_eq] at hd
  rcases List.mem_flatMap.mp hd with ⟨c, hmem, hd⟩
  -- The byte is the character itself, or belongs to one that is not ASCII.
  by_cases hc : c.toNat < 0x80
  · rw [charInBytes_ascii c hc, List.mem_singleton] at hd
    rw [hd]
    exact h c hmem
  · rw [Nat.not_lt] at hc
    have hwide := (charInBytes_wide c hc).2 d hd
    rw [hp d hwide, ← hp c hc]
    exact h c hmem

/-- What is dropped from the front of the bytes are the bytes of what is dropped from the front of
    the text. A character that is not ASCII is dropped as a whole or not at all, because all its
    bytes are treated as it is itself. -/
theorem dropWhile_inBytes (text : List Char) :
    (inBytes text).dropWhile p = inBytes (text.dropWhile p) := by
  induction text with
  | nil => rfl
  | cons c text ih =>
      by_cases hc : c.toNat < 0x80
      · rw [inBytes_cons_ascii c text hc]
        by_cases hpc : p c = true
        · rw [List.dropWhile_cons_of_pos hpc, List.dropWhile_cons_of_pos hpc, ih]
        · rw [List.dropWhile_cons_of_neg hpc, List.dropWhile_cons_of_neg hpc,
            inBytes_cons_ascii c text hc]
      · rw [Nat.not_lt] at hc
        rcases charInBytes_wide c hc with ⟨hne, hwide⟩
        by_cases hpc : p c = true
        -- All the bytes of the character are dropped if the character is.
        · have hrun : ∀ d ∈ charInBytes c, p d = true := by
            intro d hd
            rw [hp d (hwide d hd), ← hp c hc]
            exact hpc
          rw [inBytes_cons, List.dropWhile_append_of_pos hrun, List.dropWhile_cons_of_pos hpc, ih]
        · rcases List.exists_cons_of_ne_nil hne with ⟨d, more, hcons⟩
          have hpd : ¬ p d = true := by
            have hd := hwide d (by rw [hcons]; exact List.mem_cons_self)
            rw [hp d hd, ← hp c hc]
            exact hpc
          rw [List.dropWhile_cons_of_neg hpc, inBytes_cons, hcons, List.cons_append,
            List.dropWhile_cons_of_neg hpd]

end SeesAscii

theorem not_mem_inBytes (mark : Char) (hmark : mark.toNat < 0x80) (text : List Char)
    (h : mark ∉ text) : mark ∉ inBytes text := by
  intro hmem
  have hall := forall_inBytes (· != mark) true (fun c hc => bne_of_wide c mark hc hmark) text
    (fun c hc => bne_iff_ne.mpr (fun heq => h (heq ▸ hc))) mark hmem
  exact bne_iff_ne.mp hall rfl

theorem head?_inBytes (mark : Char) (hmark : mark.toNat < 0x80) (text : List Char) :
    (inBytes text).head? = some mark ↔ text.head? = some mark := by
  have hany := any_head?_inBytes (· == mark) false (fun c hc => beq_of_wide c mark hc hmark) text
  have hhead : ∀ t : List Char, t.head?.any (· == mark) = true ↔ t.head? = some mark := by
    intro t
    rw [Option.any_eq_true]
    constructor
    · rintro ⟨c, hc, heq⟩
      rw [hc, beq_iff_eq.mp heq]
    · intro h
      exact ⟨mark, h, beq_self_eq_true mark⟩
  rw [← hhead, ← hhead, hany]

theorem inBytes_eq_nil (text : List Char) : inBytes text = [] ↔ text = [] := by
  cases text with
  | nil => exact ⟨fun _ => rfl, fun _ => rfl⟩
  | cons c text =>
      refine ⟨fun h => ?_, fun h => by cases h⟩
      rcases inBytes_cases c text with ⟨-, hsame⟩ | ⟨d, more, -, hcons, -⟩
      · rw [hsame] at h
        cases h
      · rw [inBytes_cons, hcons] at h
        cases h

/-- A word of ASCII begins the bytes of a text exactly if it begins the text. No byte of another
    character is ASCII, so the two part where they first differ. -/
theorem prefix_inBytes (word text : List Char) (hword : IsAscii word) :
    word <+: inBytes text ↔ word <+: text := by
  induction word generalizing text with
  | nil => exact ⟨fun _ => List.nil_prefix, fun _ => List.nil_prefix⟩
  | cons w word ih =>
      have hw := hword w List.mem_cons_self
      have hmore : IsAscii word := fun v hv => hword v (List.mem_cons_of_mem w hv)
      cases text with
      | nil => rw [inBytes_nil]
      | cons c text =>
          rcases inBytes_cases c text with ⟨-, hsame⟩ | ⟨d, more, hc, hcons, hd⟩
          · rw [hsame, List.cons_prefix_cons, List.cons_prefix_cons, ih text hmore]
          · rw [inBytes_cons, hcons, List.cons_append, List.cons_prefix_cons, List.cons_prefix_cons]
            exact ⟨fun h => absurd h.1.symm (ne_of_wide d w hd hw),
              fun h => absurd h.1.symm (ne_of_wide c w hc hw)⟩

theorem inBytes_of_isAscii (text : List Char) (h : IsAscii text) : inBytes text = text := by
  induction text with
  | nil => rfl
  | cons c text ih =>
      rw [inBytes_cons_ascii c text (h c List.mem_cons_self),
        ih fun d hd => h d (List.mem_cons_of_mem c hd)]

theorem toNat_toLower_lt (c : Char) (h : c.toNat < 0x80) : c.toLower.toNat < 0x80 := by
  -- There are few characters in ASCII, so they are gone through.
  have hall : ∀ n : Fin 0x80, (Char.ofNat n).toLower.toNat < 0x80 := by decide
  have hc := hall ⟨c.toNat, h⟩
  rw [Char.ofNat_toNat] at hc
  exact hc

theorem map_toLower_inBytes (text : List Char) :
    (inBytes text).map Char.toLower = inBytes (text.map Char.toLower) := by
  induction text with
  | nil => rfl
  | cons c text ih =>
      by_cases hc : c.toNat < 0x80
      · rw [inBytes_cons_ascii c text hc, List.map_cons, List.map_cons, ih,
          inBytes_cons_ascii _ _ (toNat_toLower_lt c hc)]
      · rw [Nat.not_lt] at hc
        have hid : ∀ d ∈ charInBytes c, d.toLower = id d :=
          fun d hd => toLower_of_wide d ((charInBytes_wide c hc).2 d hd)
        have hsame : (charInBytes c).map Char.toLower = charInBytes c := by
          rw [List.map_congr_left hid, List.map_id]
        rw [inBytes_cons, List.map_append, hsame, List.map_cons, toLower_of_wide c hc, inBytes_cons,
          ih]

/-! ### Comments and raw contents -/

theorem splitComment_wide (run text : List Char) (hrun : ∀ c ∈ run, 0x80 ≤ c.toNat) :
    splitComment (run ++ text) = (run ++ (splitComment text).1, (splitComment text).2) := by
  induction run with
  | nil => rfl
  | cons c run ih =>
      have hdash : ¬ ['-', '-', '>'] <+: c :: (run ++ text) := by
        rw [List.cons_prefix_cons]
        exact fun h => ne_of_wide c '-' (hrun c List.mem_cons_self) (by decide) h.1.symm
      rw [List.cons_append, splitComment_cons c _ hdash,
        ih fun d hd => hrun d (List.mem_cons_of_mem c hd), List.cons_append]

/-- A comment ends at the same place in bytes. Its end is made of ASCII, so it can be found by
    bytes, and never inside of a character. -/
theorem splitComment_inBytes (text : List Char) :
    splitComment (inBytes text)
      = (inBytes (splitComment text).1, inBytes (splitComment text).2) := by
  induction text with
  | nil => rfl
  | cons c text ih =>
      -- The end is here, and is the same in bytes, or it is in what is left.
      by_cases hdash : ['-', '-', '>'] <+: c :: text
      · rcases hdash with ⟨rest, hrest⟩
        have hwhole : inBytes (['-', '-', '>'] ++ rest) = ['-', '-', '>'] ++ inBytes rest := by
          rw [inBytes_append, inBytes_of_isAscii ['-', '-', '>'] (by decide)]
        rw [← hrest, hwhole]
        exact congrArg (·, inBytes rest) (inBytes_of_isAscii ['-', '-', '>'] (by decide)).symm
      · rw [splitComment_cons c text hdash]
        by_cases hc : c.toNat < 0x80
        · have hbytes : ¬ ['-', '-', '>'] <+: c :: inBytes text := by
            rw [← inBytes_cons_ascii c text hc, prefix_inBytes _ _ (by decide)]
            exact hdash
          rw [inBytes_cons_ascii c text hc, splitComment_cons c _ hbytes, ih,
            inBytes_cons_ascii c _ hc]
        · rw [Nat.not_lt] at hc
          rw [inBytes_cons, splitComment_wide _ _ (charInBytes_wide c hc).2, ih, inBytes_cons]

theorem isComment_inBytes (body rest : List Char) (h : IsComment body rest) :
    IsComment (inBytes body) (inBytes rest) := by
  have hopen : ['<', '!', '-', '-'] <+: inBytes body ++ inBytes rest := by
    refine List.IsPrefix.trans ?_ (List.prefix_append _ _)
    rw [prefix_inBytes _ _ (by decide)]
    exact opens_of_isComment body rest h
  have hsplit := splitComment_inBytes (body ++ rest)
  rw [splitComment_of_isComment body rest h, inBytes_append] at hsplit
  -- The scanner finds the end in bytes, and it is where the end of the text is.
  have hfound := (isComment_splitComment _ hopen).2
  rw [hsplit] at hfound
  exact hfound

theorem endsRaw_inBytes (name text : List Char) (hname : IsAscii name) :
    EndsRaw name (inBytes text) ↔ EndsRaw name text := by
  unfold EndsRaw
  rw [map_toLower_inBytes, prefix_inBytes]
  intro w hw
  rcases List.mem_cons.mp hw with rfl | hw
  · decide
  rcases List.mem_cons.mp hw with rfl | hw
  · decide
  rcases List.mem_map.mp hw with ⟨c, hc, rfl⟩
  exact toNat_toLower_lt c (hname c hc)

theorem splitRaw_wide (name run text : List Char) (hrun : ∀ c ∈ run, 0x80 ≤ c.toNat) :
    splitRaw (name.map Char.toLower) (run ++ text)
      = (run ++ (splitRaw (name.map Char.toLower) text).1,
        (splitRaw (name.map Char.toLower) text).2) := by
  induction run with
  | nil => rfl
  | cons c run ih =>
      have hwide := hrun c List.mem_cons_self
      have hnot : ¬ EndsRaw name (c :: (run ++ text)) := by
        unfold EndsRaw
        rw [List.map_cons, toLower_of_wide c hwide, List.cons_prefix_cons]
        exact fun h => ne_of_wide c '<' hwide (by decide) h.1.symm
      rw [List.cons_append, splitRaw_cons name c _ hnot,
        ih fun d hd => hrun d (List.mem_cons_of_mem c hd), List.cons_append]

/-- So does raw text, whose end tag is ASCII in either case of its letters. The place where it ends
    is found in the bytes exactly where it is found in the text. -/
theorem splitRaw_inBytes (name text : List Char) (hname : IsAscii name) :
    splitRaw (name.map Char.toLower) (inBytes text)
      = (inBytes (splitRaw (name.map Char.toLower) text).1,
        inBytes (splitRaw (name.map Char.toLower) text).2) := by
  have hend : ∀ c text, EndsRaw name (c :: text) →
      splitRaw (name.map Char.toLower) (c :: text) = ([], c :: text) := by
    intro c text h
    rw [splitRaw, if_pos ((opensWith_iff _ _).mpr h)]
  induction text with
  | nil => rfl
  | cons c text ih =>
      -- Likewise with what looks like the end tag.
      by_cases hraw : EndsRaw name (c :: text)
      · have hbytes := (endsRaw_inBytes name (c :: text) hname).mpr hraw
        rw [hend c text hraw]
        cases hcons : inBytes (c :: text) with
        | nil => cases (inBytes_eq_nil _).mp hcons
        | cons d more =>
            rw [hcons] at hbytes
            rw [hend d more hbytes, inBytes_nil]
      · rw [splitRaw_cons name c text hraw]
        by_cases hc : c.toNat < 0x80
        · have hbytes : ¬ EndsRaw name (c :: inBytes text) := by
            rw [← inBytes_cons_ascii c text hc, endsRaw_inBytes name _ hname]
            exact hraw
          rw [inBytes_cons_ascii c text hc, splitRaw_cons name c _ hbytes, ih,
            inBytes_cons_ascii c _ hc]
        · rw [Nat.not_lt] at hc
          rw [inBytes_cons, splitRaw_wide name _ _ (charInBytes_wide c hc).2, ih, inBytes_cons]

theorem isRaw_inBytes (name contents rest : List Char) (hname : IsAscii name)
    (h : IsRaw name contents rest) : IsRaw name (inBytes contents) (inBytes rest) := by
  have hsplit := splitRaw_inBytes name (contents ++ rest) hname
  rw [splitRaw_of_isRaw name contents rest h, inBytes_append] at hsplit
  have hfound := (isRaw_splitRaw name (inBytes contents ++ inBytes rest)).2
  rw [hsplit] at hfound
  exact hfound

/-! ### The division of the bytes -/

/-- A part of a start tag in bytes. -/
def Item.bytes : Item → Item
  | .filler c => .filler c
  | .flag name => .flag (inBytes name)
  | .valued name link quoting value =>
    .valued (inBytes name) (inBytes link) quoting (inBytes value)

/-- The end of a start tag in bytes. -/
def Ending.bytes : Ending → Ending
  | .closed => .closed
  | .cut => .cut
  | .openQuote name link rest => .openQuote (inBytes name) (inBytes link) (inBytes rest)

/-- A start tag in bytes. -/
def StartTag.bytes (t : StartTag) : StartTag :=
  ⟨inBytes t.name, t.items.map Item.bytes, t.ending.bytes⟩

/-- A segment in bytes. -/
def Segment.bytes : Segment → Segment
  | .text chars => .text (inBytes chars)
  | .comment chars => .comment (inBytes chars)
  | .tag t => .tag t.bytes
  | .raw chars => .raw (inBytes chars)

theorem isAttributeName_inBytes (name : List Char) (h : IsAttributeName name) :
    IsAttributeName (inBytes name) :=
  ⟨fun hnil => h.1 ((inBytes_eq_nil name).mp hnil),
    forall_inBytes isAttributeChar true isAttributeChar_of_wide name h.2⟩

theorem isLink_inBytes (link : List Char) (h : IsLink link) : IsLink (inBytes link) := by
  rcases h with ⟨before, behind, rfl, hbefore, hbehind⟩
  refine ⟨inBytes before, inBytes behind, ?_,
    forall_inBytes _ false isAsciiBlank_of_wide before hbefore,
    forall_inBytes _ false isAsciiBlank_of_wide behind hbehind⟩
  rw [inBytes_append, inBytes_cons_ascii '=' behind (by decide)]

/-- The parts of a start tag are parts of it in bytes. Each clause is used again with the bytes of
    its texts; what it asks is one of the questions above. -/
theorem parts_inBytes (text : List Char) (items : List Item) (ending : Ending) (rest : List Char)
    (h : Parts text items ending rest) :
    Parts (inBytes text) (items.map Item.bytes) ending.bytes (inBytes rest) := by
  induction h with
  | closed rest =>
      rw [inBytes_cons_ascii '>' rest (by decide)]
      exact .closed (inBytes rest)
  | cut => exact .cut
  | openQuote name link inner mark hname hlink hmark hinner =>
      have hascii : mark.toNat < 0x80 := by
        rcases hmark with rfl | rfl <;> decide
      rw [inBytes_append, inBytes_append, Ending.bytes, inBytes_cons_ascii mark inner hascii]
      exact .openQuote _ _ _ mark (isAttributeName_inBytes name hname) (isLink_inBytes link hlink)
        hmark (not_mem_inBytes mark hascii inner hinner)
  | filler c text items ending rest hclose hc h ih =>
      -- Only ASCII cannot stand in a name.
      have hascii : c.toNat < 0x80 := by
        by_contra hwide
        rw [isAttributeChar_of_wide c (Nat.not_lt.mp hwide)] at hc
        cases hc
      rw [inBytes_cons_ascii c text hascii]
      exact .filler c _ _ _ _ hclose hc ih
  | flag name text items ending rest hname hnext hlink h ih =>
      rw [inBytes_append]
      refine .flag _ _ _ _ _ (isAttributeName_inBytes name hname) ?_ ?_ ih
      · rw [any_head?_inBytes isAttributeChar true isAttributeChar_of_wide]
        exact hnext
      · rw [dropWhile_inBytes _ false isAsciiBlank_of_wide, ne_eq, head?_inBytes '=' (by decide)]
        exact hlink
  | quoted name link value text quoting mark items ending rest hname hlink hmark hvalue h ih =>
      have hascii : mark.toNat < 0x80 := by
        cases quoting <;> cases hmark <;> decide
      rw [inBytes_append, inBytes_append, inBytes_cons_ascii mark _ hascii, inBytes_append,
        inBytes_cons_ascii mark text hascii]
      exact .quoted _ _ _ _ quoting mark _ _ _ (isAttributeName_inBytes name hname)
        (isLink_inBytes link hlink) hmark (not_mem_inBytes mark hascii value hvalue) ih
  | bare name link value text items ending rest hname hlink hvalue hfirst hempty hnext h ih =>
      rw [inBytes_append, inBytes_append, inBytes_append]
      refine .bare _ _ _ _ _ _ _ (isAttributeName_inBytes name hname) (isLink_inBytes link hlink)
        (forall_inBytes isBareChar true isBareChar_of_wide value hvalue) ?_ ?_ ?_ ih
      · rw [ne_eq, ne_eq, head?_inBytes '"' (by decide), head?_inBytes '\'' (by decide)]
        exact hfirst
      · intro hnil
        rw [any_head?_inBytes _ false isAsciiBlank_of_wide]
        exact hempty ((inBytes_eq_nil value).mp hnil)
      · rw [any_head?_inBytes isBareChar true isBareChar_of_wide]
        exact hnext

theorem isAscii_of_isTagName (name : List Char) (h : IsTagName name) : IsAscii name := by
  intro c hc
  by_contra hwide
  have hname := h.2 c hc
  rw [isNameChar_of_wide c (Nat.not_lt.mp hwide)] at hname
  cases hname

/-- The segments of a document are its segments in bytes, clause by clause. The names of elements
    are ASCII, so they are the same. -/
theorem divides_inBytes (source : List Char) (segments : List Segment)
    (h : Divides source segments) : Divides (inBytes source) (segments.map Segment.bytes) := by
  induction h with
  | done => exact .done
  | text chars rest segments hne hchars hnext h ih =>
      rw [inBytes_append]
      refine .text _ _ _ (fun hnil => hne ((inBytes_eq_nil chars).mp hnil))
        (not_mem_inBytes '<' (by decide) chars hchars) ?_ ih
      rw [inBytes_eq_nil, head?_inBytes '<' (by decide)]
      exact hnext
  | angle rest segments hcomment htag h ih =>
      rw [inBytes_cons_ascii '<' rest (by decide), List.map_cons, Segment.bytes,
        inBytes_of_isAscii ['<'] (by decide)]
      refine .angle _ _ ?_ ?_ ih
      · rw [prefix_inBytes _ _ (by decide)]
        exact hcomment
      · rw [any_head?_inBytes Char.isAlpha false isAlpha_of_wide]
        exact htag
  | comment body rest segments hbody h ih =>
      rw [inBytes_append]
      exact .comment _ _ _ (isComment_inBytes body rest hbody) ih
  | tag t text rest segments hname hnext hparts hraw h ih =>
      have hascii := inBytes_of_isAscii t.name (isAscii_of_isTagName t.name hname)
      rw [← any_head?_inBytes isNameChar false isNameChar_of_wide] at hnext
      rw [inBytes_cons_ascii '<' _ (by decide), inBytes_append]
      rw [← hascii] at hname hraw
      exact .tag t.bytes _ _ _ hname hnext (parts_inBytes text _ _ rest hparts) hraw ih
  | rawTag t text contents rest segments hname hnext hparts hraw hcontents h ih =>
      have hletters := isAscii_of_isTagName t.name hname
      have hascii := inBytes_of_isAscii t.name hletters
      have hbytes := parts_inBytes text _ _ _ hparts
      rw [inBytes_append] at hbytes
      rw [← any_head?_inBytes isNameChar false isNameChar_of_wide] at hnext
      rw [inBytes_cons_ascii '<' _ (by decide), inBytes_append]
      have hinner := isRaw_inBytes t.name contents rest hletters hcontents
      rw [← hascii] at hname hraw hinner
      exact .rawTag t.bytes _ _ _ _ hname hnext hbytes hraw hinner ih

/-- The scanner divides the bytes of a document as it divides the document. The division of the
    characters divides the bytes too, and there is only one. -/
theorem segments_inBytes (source : List Char) :
    segments (inBytes source) = (segments source).map Segment.bytes :=
  (divides_iff _ _).mp (divides_inBytes source _ ((divides_iff source _).mpr rfl))

end Html

end ClassVeil
