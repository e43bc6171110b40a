import ClassVeil.Proofs.Markup.StartTag

/-!
# The division of a document

What a document is made of is said here without a scanner in mind: texts, comments, start tags and
raw contents, each with what has to be true of the text behind it for the segment to end there
(`Divides`).

Every document is divided in exactly one way, and the scanner finds it (`divides_iff`). So whatever
is to be shown of the scanner can be shown of the division: that it loses nothing, that it does the
same byte by byte, that renaming leaves it as it is.

Each piece has two lemmas, one in either direction. What the scanner cuts off is such a piece: the
conditions on its end are read off the recursion that has found it. And where such a piece stands,
the scanner cuts it off: nothing before its end could have stopped the scanner, and the end does.
The document as a whole is put together from these in the same two ways, by induction along the fuel
of the scanner and by induction along the division.

The end of a comment needs some care. It is the first `-->`, and the scanner looks for it from the
`<` on, so the opening of the comment may be a part of it: `<!-->` is a whole comment. Hence the
condition is on the comment from its very first character.

## Main definitions

* `IsComment`, `EndsRaw`, `IsRaw`: Where comments and raw contents end.
* `IsTagName`, `IsRawElement`: The names of elements, and of those that hold no markup.
* `Divides`: What a document is made of.

## Theorems

* `isComment_splitComment`, `splitComment_of_isComment`: The scanner finds the end of a comment.
* `isRaw_splitRaw`, `splitRaw_of_isRaw`: The scanner finds the end of raw contents.
* `divides_segmentsFrom`, `segmentsFrom_of_divides`: The scanner finds the segments.
* `divides_iff`: A document is divided in one way only.
* `write_segments`: The division loses nothing.
-/

namespace ClassVeil

namespace Html

/-! ### Comments -/

/-- A comment and what comes behind it: the comment ends with the first `-->`, in which its opening
    may have a part, or else with the document. -/
inductive IsComment : List Char → List Char → Prop where
  | closed (body rest : List Char) (hopen : ['<', '!', '-', '-'] <+: body)
      (hend : ['-', '-', '>'] <:+ body) (hfirst : ¬ ['-', '-', '>'] <:+: body.dropLast) :
      IsComment body rest
  | unclosed (body : List Char) (hopen : ['<', '!', '-', '-'] <+: body)
      (hnone : ¬ ['-', '-', '>'] <:+: body) : IsComment body []

theorem opens_of_isComment (body rest : List Char) (h : IsComment body rest) :
    ['<', '!', '-', '-'] <+: body := by
  cases h with
  | closed _ hopen _ _ => exact hopen
  | unclosed hopen _ => exact hopen

theorem splitComment_cons (c : Char) (text : List Char) (h : ¬ ['-', '-', '>'] <+: c :: text) :
    splitComment (c :: text) = (c :: (splitComment text).1, (splitComment text).2) := by
  rw [splitComment]
  rintro rest rfl rfl
  exact h (List.prefix_append ['-', '-', '>'] rest)

/-- What is split off as a comment ends with its first end, or there is no end at all and everything
    is split off. The induction is on the text, and an end that is found further on is one behind
    the first character too. -/
theorem splitComment_spec (text : List Char) :
    text = (splitComment text).1 ++ (splitComment text).2 ∧
      ((['-', '-', '>'] <:+ (splitComment text).1 ∧
          ¬ ['-', '-', '>'] <:+: (splitComment text).1.dropLast) ∨
        ((splitComment text).2 = [] ∧ ¬ ['-', '-', '>'] <:+: (splitComment text).1)) := by
  induction text with
  | nil => exact ⟨rfl, Or.inr ⟨rfl, by decide⟩⟩
  | cons c text ih =>
      by_cases hdash : ['-', '-', '>'] <+: c :: text
      · rcases hdash with ⟨rest, hrest⟩
        have hsplit : splitComment (c :: text) = (['-', '-', '>'], rest) := by
          rw [← hrest]
          rfl
        have hfirst : ¬ ['-', '-', '>'] <:+: ['-', '-', '>'].dropLast := by decide
        rw [hsplit]
        exact ⟨hrest.symm, Or.inl ⟨List.suffix_refl _, hfirst⟩⟩
      · rw [splitComment_cons c text hdash]
        rcases ih with ⟨htext, hend⟩
        -- What would be a `-->` in the part that is cut off would be one in the text.
        have hdashes : ∀ start, start <+: (splitComment text).1 →
            ¬ ['-', '-', '>'] <+: c :: start := by
          intro start hstart h
          refine hdash (h.trans ?_)
          rw [List.cons_prefix_cons]
          exact ⟨rfl, hstart.trans ⟨_, htext.symm⟩⟩
        refine ⟨by rw [List.cons_append, ← htext], ?_⟩
        rcases hend with ⟨hend, hfirst⟩ | ⟨hrest, hnone⟩
        -- It has an end, so it is not empty, and its last character stays the last one.
        · have hne : (splitComment text).1 ≠ [] := by
            intro hnil
            rw [hnil] at hend
            cases List.suffix_nil.mp hend
          refine Or.inl ⟨hend.trans (List.suffix_cons c _), ?_⟩
          rw [List.dropLast_cons_of_ne_nil hne, List.infix_cons_iff, not_or]
          exact ⟨hdashes _ (List.dropLast_prefix _), hfirst⟩
        · refine Or.inr ⟨hrest, ?_⟩
          rw [List.infix_cons_iff, not_or]
          exact ⟨hdashes _ (List.prefix_refl _), hnone⟩

/-- The scanner finds the end of a comment. The recursion does not know that the text begins with
    `<!--`; from this it follows that the comment is more than its end. -/
theorem isComment_splitComment (text : List Char) (h : ['<', '!', '-', '-'] <+: text) :
    text = (splitComment text).1 ++ (splitComment text).2 ∧
      IsComment (splitComment text).1 (splitComment text).2 := by
  rcases splitComment_spec text with ⟨htext, ⟨hend, hfirst⟩ | ⟨hrest, hnone⟩⟩
  · refine ⟨htext, .closed _ _ ?_ hend hfirst⟩
    have hbody : (splitComment text).1 <+: text := ⟨_, htext.symm⟩
    refine List.prefix_of_prefix_length_le h hbody ?_
    -- Three characters would be the `-->` alone, which does not open a comment.
    by_contra hlength
    have hwhole : ['-', '-', '>'] = (splitComment text).1 := by
      have hle := hend.length_le
      simp only [List.length_cons, List.length_nil] at hlength hle
      exact hend.eq_of_length (by simp only [List.length_cons, List.length_nil]; omega)
    rw [← hwhole] at hbody
    rcases hbody with ⟨_, rfl⟩
    cases (List.cons_prefix_cons.mp h).1
  · refine ⟨htext, ?_⟩
    rw [hrest, List.append_nil] at htext
    rw [hrest, ← htext]
    rw [← htext] at hnone
    exact .unclosed text h hnone

/-- Conversely, what is a comment in front of the rest is what is split off. For a closed one this
    goes by induction from its front, and an unclosed one has no end to stop at. -/
theorem splitComment_of_isComment (body rest : List Char) (h : IsComment body rest) :
    splitComment (body ++ rest) = (body, rest) := by
  cases h with
  | closed _ hopen hend hfirst =>
      -- The opening is given up for the induction, which goes through the comment from the front.
      clear hopen
      induction body with
      | nil => cases List.suffix_nil.mp hend
      | cons c body ih =>
          by_cases hwhole : ['-', '-', '>'] = c :: body
          · rw [← hwhole]
            rfl
          · have hbody : ['-', '-', '>'] <:+ body := by
              rcases List.suffix_cons_iff.mp hend with h | h
              · exact absurd h hwhole
              · exact h
            have hne : body ≠ [] := by
              rintro rfl
              cases List.suffix_nil.mp hbody
            rw [List.dropLast_cons_of_ne_nil hne, List.infix_cons_iff, not_or] at hfirst
            -- A `-->` at the front would end before the last character.
            have hfront : ¬ ['-', '-', '>'] <+: c :: (body ++ rest) := by
              intro hdashes
              have hlength := hbody.length_le
              have hshort : ['-', '-', '>'] <+: c :: body.dropLast := by
                refine List.prefix_of_prefix_length_le hdashes ?_ ?_
                · rw [List.cons_prefix_cons]
                  exact ⟨rfl, (List.dropLast_prefix body).trans (List.prefix_append body rest)⟩
                · simp only [List.length_cons, List.length_nil, List.length_dropLast] at hlength ⊢
                  omega
              exact hfirst.1 hshort
            rw [List.cons_append, splitComment_cons c _ hfront, ih hbody hfirst.2]
  | unclosed hopen hnone =>
      clear hopen
      rw [List.append_nil]
      induction body with
      | nil => rfl
      | cons c body ih =>
          rw [List.infix_cons_iff, not_or] at hnone
          rw [splitComment_cons c body hnone.1, ih hnone.2]

/-! ### Raw contents -/

/-- A text begins with what looks like the end tag of an element. -/
def EndsRaw (name text : List Char) : Prop :=
  ('<' :: '/' :: name.map Char.toLower) <+: text.map Char.toLower

/-- Raw contents and what comes behind them: they end at the first place that looks like the end tag
    of the element, or else with the document. -/
def IsRaw (name contents rest : List Char) : Prop :=
  (rest = [] ∨ EndsRaw name rest) ∧
    ∀ before behind, contents = before ++ behind → behind ≠ [] → ¬ EndsRaw name (behind ++ rest)

theorem opensWith_iff (word text : List Char) :
    opensWith word text = true ↔ word <+: text.map Char.toLower := by
  induction word generalizing text with
  | nil => exact ⟨fun _ => List.nil_prefix, fun _ => by rw [opensWith]⟩
  | cons w word ih =>
      cases text with
      | nil =>
          refine ⟨fun h => (by cases h), fun h => ?_⟩
          cases List.prefix_nil.mp h
      | cons c text =>
          rw [opensWith, Bool.and_eq_true, beq_iff_eq, ih, List.map_cons, List.cons_prefix_cons]

theorem splitRaw_cons (name : List Char) (c : Char) (text : List Char)
    (h : ¬ EndsRaw name (c :: text)) :
    splitRaw (name.map Char.toLower) (c :: text)
      = (c :: (splitRaw (name.map Char.toLower) text).1,
        (splitRaw (name.map Char.toLower) text).2) := by
  have hnot : ¬ opensWith ('<' :: '/' :: name.map Char.toLower) (c :: text) = true := by
    rw [opensWith_iff]
    exact h
  rw [splitRaw, if_neg hnot]

/-- What is split off as raw text makes up the text with what is left, and ends where it has to: at
    the first place that begins like an end tag of the element, or at the end of everything. -/
theorem isRaw_splitRaw (name text : List Char) :
    text = (splitRaw (name.map Char.toLower) text).1 ++ (splitRaw (name.map Char.toLower) text).2 ∧
      IsRaw name (splitRaw (name.map Char.toLower) text).1
        (splitRaw (name.map Char.toLower) text).2 := by
  have hempty : ∀ before behind : List Char, [] = before ++ behind → behind = [] :=
    fun before behind h => (List.append_eq_nil_iff.mp h.symm).2
  induction text with
  | nil => exact ⟨rfl, Or.inl rfl, fun before behind h hne => absurd (hempty before behind h) hne⟩
  | cons c text ih =>
      by_cases hend : EndsRaw name (c :: text)
      · have hsplit : splitRaw (name.map Char.toLower) (c :: text) = ([], c :: text) := by
          rw [splitRaw, if_pos ((opensWith_iff _ _).mpr hend)]
        rw [hsplit]
        exact ⟨rfl, Or.inr hend, fun before behind h hne => absurd (hempty before behind h) hne⟩
      · rw [splitRaw_cons name c text hend]
        rcases ih with ⟨htext, hrest, hfirst⟩
        refine ⟨by rw [List.cons_append, ← htext], hrest, fun before behind h hne => ?_⟩
        cases before with
        | nil =>
            rw [List.nil_append] at h
            rw [← h, List.cons_append, ← htext]
            exact hend
        | cons d before =>
            rw [List.cons_append, List.cons.injEq] at h
            exact hfirst before behind h.2 hne

/-- Conversely, if something ends where raw text has to, it is what is split off. An end tag at an
    earlier place is excluded by the definition, and that is what the induction hands on. -/
theorem splitRaw_of_isRaw (name contents rest : List Char) (h : IsRaw name contents rest) :
    splitRaw (name.map Char.toLower) (contents ++ rest) = (contents, rest) := by
  rcases h with ⟨hrest, hfirst⟩
  induction contents with
  | nil =>
      rcases hrest with rfl | hrest
      · rfl
      · cases rest with
        | nil => rfl
        | cons c rest => rw [List.nil_append, splitRaw, if_pos ((opensWith_iff _ _).mpr hrest)]
  | cons c contents ih =>
      have hnot : ¬ EndsRaw name (c :: (contents ++ rest)) :=
        hfirst [] (c :: contents) rfl (List.cons_ne_nil c contents)
      -- What could not end the contents early cannot end their tail early.
      have htail := ih fun before behind heq hne =>
        hfirst (c :: before) behind (by rw [heq, List.cons_append]) hne
      rw [List.cons_append, splitRaw_cons name c _ hnot, htail]

/-! ### Documents -/

/-- The name of an element: a letter, and then letters, digits and hyphens. -/
def IsTagName (name : List Char) : Prop :=
  name.head?.any Char.isAlpha = true ∧ ∀ c ∈ name, isNameChar c = true

/-- The contents of the element hold no markup. -/
def IsRawElement (name : List Char) : Prop := name.map Char.toLower ∈ rawElements

/-- A document is made of segments. -/
inductive Divides : List Char → List Segment → Prop where
  | done : Divides [] []
  /-- A text goes on to the next `<`. -/
  | text (chars rest : List Char) (segments : List Segment) (hne : chars ≠ [])
      (hchars : '<' ∉ chars) (hnext : rest = [] ∨ rest.head? = some '<')
      (h : Divides rest segments) :
      Divides (chars ++ rest) (.text chars :: segments)
  /-- A `<` that begins neither a comment nor a start tag is text. -/
  | angle (rest : List Char) (segments : List Segment) (hcomment : ¬ ['!', '-', '-'] <+: rest)
      (htag : rest.head?.any Char.isAlpha = false) (h : Divides rest segments) :
      Divides ('<' :: rest) (.text ['<'] :: segments)
  | comment (body rest : List Char) (segments : List Segment) (hbody : IsComment body rest)
      (h : Divides rest segments) : Divides (body ++ rest) (.comment body :: segments)
  | tag (t : StartTag) (text rest : List Char) (segments : List Segment) (hname : IsTagName t.name)
      (hnext : text.head?.any isNameChar = false) (hparts : Parts text t.items t.ending rest)
      (hraw : ¬ IsRawElement t.name) (h : Divides rest segments) :
      Divides ('<' :: (t.name ++ text)) (.tag t :: segments)
  /-- The tag of an element that holds no markup has its contents behind it. -/
  | rawTag (t : StartTag) (text contents rest : List Char) (segments : List Segment)
      (hname : IsTagName t.name) (hnext : text.head?.any isNameChar = false)
      (hparts : Parts text t.items t.ending (contents ++ rest)) (hraw : IsRawElement t.name)
      (hcontents : IsRaw t.name contents rest) (h : Divides rest segments) :
      Divides ('<' :: (t.name ++ text)) (.tag t :: .raw contents :: segments)

/-- The segments make up the document. Each clause puts its segment in front of the text that the
    others make up. -/
theorem write_of_divides (source : List Char) (segments : List Segment)
    (h : Divides source segments) : write segments = source := by
  unfold write
  induction h with
  | done => rfl
  | text chars rest segments _ _ _ _ ih => rw [List.flatMap_cons, ih]; rfl
  | angle rest segments _ _ _ ih => rw [List.flatMap_cons, ih]; rfl
  | comment body rest segments _ _ ih => rw [List.flatMap_cons, ih]; rfl
  | tag t text rest segments _ _ hparts _ _ ih =>
      rw [List.flatMap_cons, ih, text_of_parts text t.items t.ending rest hparts]
      simp only [Segment.toChars, StartTag.toChars, List.append_assoc, List.cons_append]
  | rawTag t text contents rest segments _ _ hparts _ _ _ ih =>
      rw [List.flatMap_cons, List.flatMap_cons, ih,
        text_of_parts text t.items t.ending (contents ++ rest) hparts]
      simp only [Segment.toChars, StartTag.toChars, List.append_assoc, List.cons_append]

/-! ### Scanning documents -/

theorem readAngle_comment (fuel : Nat) (text : List Char) (h : ['!', '-', '-'] <+: text) :
    readAngle fuel text
      = ([.comment (splitComment ('<' :: text)).1], (splitComment ('<' :: text)).2) := by
  rcases h with ⟨rest, rfl⟩
  rfl

theorem readAngle_text (fuel : Nat) (text : List Char) (hcomment : ¬ ['!', '-', '-'] <+: text)
    (htag : text.head?.any Char.isAlpha = false) :
    readAngle fuel text = ([.text ['<']], text) := by
  unfold readAngle
  split
  · exact absurd (List.prefix_append ['!', '-', '-'] _) hcomment
  · rename_i c rest _
    rw [List.head?_cons, Option.any_some] at htag
    rw [if_neg (Bool.eq_false_iff.mp htag)]
  · rfl

theorem readAngle_tag (fuel : Nat) (text name behind rest : List Char) (items : List Item)
    (ending : Ending) (htag : text.head?.any Char.isAlpha = true)
    (hname : splitWhile isNameChar text = (name, behind))
    (hread : readItems fuel behind = (items, ending, rest)) :
    readAngle fuel text
      = (.tag ⟨name, items, ending⟩ :: (readRaw name rest).1, (readRaw name rest).2) := by
  unfold readAngle
  split
  · cases htag
  · rw [List.head?_cons, Option.any_some] at htag
    simp only [if_pos htag, hname, hread]
  · cases htag

theorem readRaw_plain (name text : List Char) (h : ¬ IsRawElement name) :
    readRaw name text = ([], text) := by
  unfold IsRawElement at h
  simp only [readRaw, if_neg h]

theorem readRaw_raw (name text : List Char) (h : IsRawElement name) :
    readRaw name text = ([.raw (splitRaw (name.map Char.toLower) text).1],
      (splitRaw (name.map Char.toLower) text).2) := by
  unfold IsRawElement at h
  simp only [readRaw, if_pos h]

/-- What begins with `<` is read as a segment, with the raw contents that belong to it. The cases
    are those of the scanner: a comment, a start tag, or a `<` that is nothing but text. -/
theorem divides_readAngle (fuel : Nat) (text : List Char) (hfuel : text.length ≤ fuel)
    (segments : List Segment) (h : Divides (readAngle fuel text).2 segments) :
    Divides ('<' :: text) ((readAngle fuel text).1 ++ segments) := by
  by_cases hcomment : ['!', '-', '-'] <+: text
  · have hopen : ['<', '!', '-', '-'] <+: '<' :: text := by
      rw [List.cons_prefix_cons]
      exact ⟨rfl, hcomment⟩
    rcases isComment_splitComment ('<' :: text) hopen with ⟨htext, hbody⟩
    rw [readAngle_comment fuel text hcomment] at h ⊢
    have hdivides := Divides.comment _ _ segments hbody h
    rw [← htext] at hdivides
    exact hdivides
  by_cases htag : text.head?.any Char.isAlpha = true
  · rcases hname : splitWhile isNameChar text with ⟨name, behind⟩
    rcases hread : readItems fuel behind with ⟨items, ending, rest⟩
    have hspec := splitWhile_spec isNameChar text
    rw [hname] at hspec
    simp only [] at hspec
    rcases hspec with ⟨htext, hall, hnext⟩
    have hparts := parts_readItems fuel behind (by
      rw [htext, List.length_append] at hfuel
      omega)
    rw [hread] at hparts
    -- The name is as long as it can be, and begins with the letter that the scanner has seen.
    have hletter : IsTagName name := by
      refine ⟨?_, hall⟩
      have hhead := head?_splitWhile isNameChar text (by
        cases text with
        | nil => cases htag
        | cons c text =>
            rw [List.head?_cons, Option.any_some] at htag ⊢
            rw [isNameChar, Char.isAlphanum, htag]
            rfl)
      rw [hname] at hhead
      simp only [] at hhead
      rw [hhead]
      exact htag
    rw [readAngle_tag fuel text name behind rest items ending htag hname hread] at h ⊢
    -- An element that holds no markup takes its contents from what is left.
    by_cases hraw : IsRawElement name
    · rcases isRaw_splitRaw name rest with ⟨hrest, hcontents⟩
      rw [readRaw_raw name rest hraw] at h ⊢
      rw [hrest] at hparts
      rw [htext]
      exact .rawTag ⟨name, items, ending⟩ behind _ _ segments hletter hnext hparts hraw hcontents h
    · rw [readRaw_plain name rest hraw] at h ⊢
      rw [htext]
      exact .tag ⟨name, items, ending⟩ behind rest segments hletter hnext hparts hraw h
  · rw [Bool.not_eq_true] at htag
    rw [readAngle_text fuel text hcomment htag] at h ⊢
    exact .angle text segments hcomment htag h

/-- Behind a `<` nothing is given back: what is left is no longer than what was there. This is why a
    step of the scanner may be followed by one with less fuel. -/
theorem length_readAngle (fuel : Nat) (text : List Char) (hfuel : text.length ≤ fuel) :
    (readAngle fuel text).2.length ≤ text.length := by
  by_cases hcomment : ['!', '-', '-'] <+: text
  · have hopen : ['<', '!', '-', '-'] <+: '<' :: text := by
      rw [List.cons_prefix_cons]
      exact ⟨rfl, hcomment⟩
    have htext := congrArg List.length (isComment_splitComment ('<' :: text) hopen).1
    have hbody := (opens_of_isComment _ _ (isComment_splitComment ('<' :: text) hopen).2).length_le
    simp only [List.length_cons, List.length_nil] at hbody
    rw [readAngle_comment fuel text hcomment]
    rw [List.length_cons, List.length_append] at htext
    simp only []
    omega
  by_cases htag : text.head?.any Char.isAlpha = true
  · rcases hname : splitWhile isNameChar text with ⟨name, behind⟩
    rcases hread : readItems fuel behind with ⟨items, ending, rest⟩
    have htext := congrArg List.length (splitWhile_spec isNameChar text).1
    rw [hname, List.length_append] at htext
    simp only [] at htext
    have hparts := parts_readItems fuel behind (by omega)
    rw [hread] at hparts
    have hle := length_rest_le behind items ending rest hparts
    rw [readAngle_tag fuel text name behind rest items ending htag hname hread]
    by_cases hraw : IsRawElement name
    · have hrest := congrArg List.length (isRaw_splitRaw name rest).1
      rw [List.length_append] at hrest
      rw [readRaw_raw name rest hraw]
      simp only []
      omega
    · rw [readRaw_plain name rest hraw]
      simp only []
      omega
  · rw [Bool.not_eq_true] at htag
    rw [readAngle_text fuel text hcomment htag]

/-- The scanner divides a document, if it has fuel for every character and one more. Each step takes
    at least one character, so the fuel is never what ends the scan. -/
theorem divides_segmentsFrom (fuel : Nat) (source : List Char) (hfuel : source.length < fuel) :
    Divides source (segmentsFrom fuel source) := by
  induction fuel generalizing source with
  | zero => omega
  | succ fuel ih =>
      cases source with
      | nil => exact .done
      | cons c text =>
          rw [List.length_cons] at hfuel
          by_cases hc : c = '<'
          · subst hc
            have hlength := length_readAngle fuel text (by omega)
            exact divides_readAngle fuel text (by omega) _ (ih _ (by omega))
          -- The text goes on to the next `<`, and is not empty, as it does not begin with one.
          · have hspec := splitWhile_spec (· != '<') (c :: text)
            have hrun : ((c :: text).head?.any (· != '<')) = true := by
              rw [List.head?_cons, Option.any_some, bne_iff_ne]
              exact hc
            have hhead := head?_splitWhile (· != '<') (c :: text) hrun
            have hscan : segmentsFrom (fuel + 1) (c :: text)
                = .text (splitWhile (· != '<') (c :: text)).1
                  :: segmentsFrom fuel (splitWhile (· != '<') (c :: text)).2 := by
              rw [segmentsFrom]
              exact hc
            rw [hscan]
            rcases hsplit : splitWhile (· != '<') (c :: text) with ⟨run, rest⟩
            rw [hsplit] at hspec hhead
            simp only [] at hspec hhead ⊢
            rcases hspec with ⟨htext, hall, hnext⟩
            have hne : run ≠ [] := by
              rintro rfl
              cases hhead
            have hlength := congrArg List.length htext
            have hpos := List.length_pos_iff.mpr hne
            rw [List.length_cons, List.length_append] at hlength
            rw [htext]
            refine .text run rest _ hne ?_ ?_ (ih rest (by omega))
            · intro hmem
              have hall := hall '<' hmem
              cases hall
            · cases rest with
              | nil => exact Or.inl rfl
              | cons d rest =>
                  rw [List.head?_cons, Option.any_some, bne_eq_false_iff_eq] at hnext
                  rw [hnext]
                  exact Or.inr rfl

theorem head?_tagName (name text : List Char) (h : IsTagName name) :
    (name ++ text).head?.any Char.isAlpha = true := by
  rcases name with _ | ⟨c, name⟩
  · cases h.1
  · exact h.1

/-- A start tag is read from its name and its parts, and what is raw behind it comes with it. -/
theorem readAngle_of_parts (fuel : Nat) (t : StartTag) (text rest : List Char)
    (hname : IsTagName t.name) (hnext : text.head?.any isNameChar = false)
    (hparts : Parts text t.items t.ending rest) (hfuel : text.length ≤ fuel) :
    readAngle fuel (t.name ++ text)
      = (.tag t :: (readRaw t.name rest).1, (readRaw t.name rest).2) := by
  -- The name ends where the parts of the tag begin, and the parts are found by their own lemma.
  have hsplit := splitWhile_append isNameChar t.name text hname.2 hnext
  exact readAngle_tag fuel _ t.name text rest t.items t.ending (head?_tagName t.name text hname)
    hsplit (readItems_of_parts text t.items t.ending rest hparts fuel hfuel)

/-- Whatever is made of segments is scanned into them, if there is fuel for every character and one
    more. The induction is along the division; each clause says what stands at the front, the
    scanner takes just this, and goes on with less fuel where the rest of the division begins. -/
theorem segmentsFrom_of_divides (source : List Char) (segments : List Segment)
    (h : Divides source segments) (fuel : Nat) (hfuel : source.length < fuel) :
    segmentsFrom fuel source = segments := by
  induction h generalizing fuel with
  | done =>
      obtain ⟨fuel, rfl⟩ := Nat.exists_eq_add_one_of_ne_zero (Nat.ne_zero_of_lt hfuel)
      rw [segmentsFrom]
  | text chars rest segments hne hchars hnext h ih =>
      obtain ⟨fuel, rfl⟩ := Nat.exists_eq_add_one_of_ne_zero (Nat.ne_zero_of_lt hfuel)
      rcases chars with _ | ⟨c, chars⟩
      · exact absurd rfl hne
      rw [List.length_append, List.length_cons] at hfuel
      -- Nothing in the text stops the scanner, and what comes behind it does.
      have hrun : ∀ d ∈ c :: chars, (d != '<') = true := by
        intro d hd
        rw [bne_iff_ne]
        rintro rfl
        exact hchars hd
      have hstop : rest.head?.any (· != '<') = false := by
        rcases hnext with rfl | hnext
        · rfl
        · rw [hnext]
          rfl
      have hsplit := splitWhile_append (· != '<') (c :: chars) rest hrun hstop
      rw [List.cons_append, segmentsFrom]
      · rw [← List.cons_append, hsplit]
        simp only [ih fuel (by omega)]
      · rintro rfl
        exact hchars List.mem_cons_self
  | angle rest segments hcomment htag h ih =>
      obtain ⟨fuel, rfl⟩ := Nat.exists_eq_add_one_of_ne_zero (Nat.ne_zero_of_lt hfuel)
      rw [List.length_cons] at hfuel
      rw [segmentsFrom]
      simp only [readAngle_text fuel rest hcomment htag, ih fuel (by omega)]
      rfl
  | comment body rest segments hbody h ih =>
      obtain ⟨fuel, rfl⟩ := Nat.exists_eq_add_one_of_ne_zero (Nat.ne_zero_of_lt hfuel)
      have hsplit := splitComment_of_isComment body rest hbody
      -- The scanner tells a comment by its opening, so that is split off.
      rcases opens_of_isComment body rest hbody with ⟨inner, rfl⟩
      simp only [List.length_append, List.length_cons, List.length_nil] at hfuel
      have hcomment : ['!', '-', '-'] <+: ['!', '-', '-'] ++ (inner ++ rest) :=
        List.prefix_append _ _
      have hread := readAngle_comment fuel _ hcomment
      have htext : ['<', '!', '-', '-'] ++ inner ++ rest
          = '<' :: (['!', '-', '-'] ++ (inner ++ rest)) := by
        simp only [List.cons_append, List.nil_append]
      rw [htext] at hsplit ⊢
      rw [hsplit] at hread
      rw [segmentsFrom, hread]
      simp only [ih fuel (by omega)]
      rfl
  | tag t text rest segments hname hnext hparts hraw h ih =>
      obtain ⟨fuel, rfl⟩ := Nat.exists_eq_add_one_of_ne_zero (Nat.ne_zero_of_lt hfuel)
      have hle := length_rest_le text t.items t.ending rest hparts
      rw [List.length_cons, List.length_append] at hfuel
      rw [segmentsFrom, readAngle_of_parts fuel t text rest hname hnext hparts (by omega),
        readRaw_plain t.name rest hraw]
      simp only [ih fuel (by omega)]
      rfl
  | rawTag t text contents rest segments hname hnext hparts hraw hcontents h ih =>
      obtain ⟨fuel, rfl⟩ := Nat.exists_eq_add_one_of_ne_zero (Nat.ne_zero_of_lt hfuel)
      have hle := length_rest_le text t.items t.ending (contents ++ rest) hparts
      rw [List.length_append] at hle
      rw [List.length_cons, List.length_append] at hfuel
      -- The contents are cut off from what the tag has left.
      rw [segmentsFrom, readAngle_of_parts fuel t text _ hname hnext hparts (by omega),
        readRaw_raw t.name _ hraw, splitRaw_of_isRaw t.name contents rest hcontents]
      simp only [ih fuel (by omega)]
      rfl

/-- A document is divided in one way only, and the scanner finds it. So the division can be spoken
    of without the scanner, by what the segments are and where they end. -/
theorem divides_iff (source : List Char) (division : List Segment) :
    Divides source division ↔ segments source = division := by
  have hfuel : source.length < source.length + 1 := Nat.lt_succ_self _
  constructor
  · intro h
    exact segmentsFrom_of_divides source division h _ hfuel
  · rintro rfl
    exact divides_segmentsFrom _ source hfuel

/-- The division loses nothing: the segments make up the document again, character by character. It
    holds of every division, and the scanner's is one. -/
theorem write_segments (source : List Char) : write (segments source) = source :=
  write_of_divides source _ ((divides_iff source _).mpr rfl)

end Html

end ClassVeil
