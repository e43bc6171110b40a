import ClassVeil.Markup.Html
import Mathlib.Data.List.TakeWhile

/-!
# What a start tag is made of

Behind its name, a start tag is made of fillers and attributes. `Parts` says so without a scanner in
mind: each clause names the part at hand and what has to be true of the text behind it for the part
to end there, and the text behind it is made of parts in turn.

Every text is made of parts in exactly one way, and the scanner finds it. One direction is an
induction along the fuel of the scanner, the other one along the parts. In both, the fuel is bounded
by what is left of the text, so it never runs out.

The scanner decides three things one after the other: whether a name begins, whether a link follows
the name, and how the value behind the link is quoted. Four of the seven clauses begin with a name,
so what the scanner does behind a name is said once (`readItems_name`), with the value taken apart
as a step of its own (`readValue?`). Both directions then ask nothing but what a link and a value
are.

The clause that takes care is the one of a value without marks. It may be empty, and then it has to
be said what does not follow: no blank, which the link would have taken, and no character that the
value would have gone on with.

## Main definitions

* `IsLink`: An equals sign with the blanks around it.
* `IsAttributeName`: The name of an attribute.
* `Parts`: What a start tag is made of behind its name.
* `readValue?`: The value behind a link.

## Theorems

* `splitWhile_spec`, `splitAt?_some`, `splitLink?_some`: What the pieces are that scanning cuts off.
* `text_of_parts`: The parts of a start tag and the rest make up the text.
* `readItems_name`: What the scanner does behind the name of an attribute.
* `parts_readItems`: What the scanner finds are the parts.
* `readItems_of_parts`: The scanner finds the parts.
-/

namespace ClassVeil

namespace Html

/-! ### Runs of characters -/

theorem splitWhile_append (p : Char → Bool) (run rest : List Char) (hrun : ∀ c ∈ run, p c = true)
    (hrest : rest.head?.any p = false) : splitWhile p (run ++ rest) = (run, rest) := by
  have hstop : rest.takeWhile p = [] ∧ rest.dropWhile p = rest := by
    cases rest with
    | nil => exact ⟨rfl, rfl⟩
    | cons c rest =>
        have hc : ¬ p c = true := by
          rw [List.head?_cons, Option.any_some] at hrest
          exact Bool.eq_false_iff.mp hrest
        exact ⟨List.takeWhile_cons_of_neg hc, List.dropWhile_cons_of_neg hc⟩
  unfold splitWhile
  rw [List.takeWhile_append_of_pos hrun, List.dropWhile_append_of_pos hrun, hstop.1, hstop.2,
    List.append_nil]

/-- The run is as long as it can be, and it and the rest make up the text. These three facts
    determine the run, so nothing else is used of it. -/
theorem splitWhile_spec (p : Char → Bool) (text : List Char) :
    text = (splitWhile p text).1 ++ (splitWhile p text).2 ∧
      (∀ c ∈ (splitWhile p text).1, p c = true) ∧ (splitWhile p text).2.head?.any p = false := by
  unfold splitWhile
  refine ⟨List.takeWhile_append_dropWhile.symm, fun c hc => ?_, ?_⟩
  · exact List.mem_takeWhile_imp hc
  · cases hdrop : text.dropWhile p with
    | nil => rfl
    | cons c rest =>
        have hne : text.dropWhile p ≠ [] := by
          rw [hdrop]
          exact List.cons_ne_nil c rest
        have hhead := List.head_dropWhile_not p hne
        simp only [hdrop, List.head_cons] at hhead
        rw [List.head?_cons, Option.any_some]
        exact hhead

theorem head?_splitWhile (p : Char → Bool) (text : List Char) (h : text.head?.any p = true) :
    (splitWhile p text).1.head? = text.head? := by
  cases text with
  | nil => rfl
  | cons c text =>
      rw [List.head?_cons, Option.any_some] at h
      rw [splitWhile, List.takeWhile_cons_of_pos h, List.head?_cons, List.head?_cons]

theorem splitAt?_append (mark : Char) (value rest : List Char) (h : mark ∉ value) :
    splitAt? mark (value ++ mark :: rest) = some (value, rest) := by
  induction value with
  | nil => rw [List.nil_append, splitAt?, if_pos rfl]
  | cons c value ih =>
      rw [List.mem_cons, not_or] at h
      rw [List.cons_append, splitAt?, if_neg (Ne.symm h.1), ih h.2, Option.map_some]

/-- A text is split at the first mark in it: there is none in the part in front. If there is no mark
    there is no answer, which is a quoted value that is never closed. -/
theorem splitAt?_some (mark : Char) (text value rest : List Char)
    (h : splitAt? mark text = some (value, rest)) :
    text = value ++ mark :: rest ∧ mark ∉ value := by
  induction text generalizing value with
  | nil => cases h
  | cons c text ih =>
      rw [splitAt?] at h
      -- The mark is here, or in what is left, in front of which the character is put.
      by_cases hc : c = mark
      · rw [if_pos hc] at h
        cases h
        exact ⟨by rw [hc, List.nil_append], List.not_mem_nil⟩
      · rw [if_neg hc] at h
        rcases Option.map_eq_some_iff.mp h with ⟨⟨before, behind⟩, hsplit, heq⟩
        cases heq
        rcases ih before hsplit with ⟨htext, hbefore⟩
        refine ⟨by rw [htext, List.cons_append], ?_⟩
        rw [List.mem_cons, not_or]
        exact ⟨Ne.symm hc, hbefore⟩

theorem splitAt?_eq_none_iff (mark : Char) (text : List Char) :
    splitAt? mark text = none ↔ mark ∉ text := by
  induction text with
  | nil => exact ⟨fun _ => List.not_mem_nil, fun _ => rfl⟩
  | cons c text ih =>
      rw [splitAt?, List.mem_cons, not_or]
      by_cases hc : c = mark
      · rw [if_pos hc]
        exact ⟨fun h => (Option.some_ne_none _ h).elim, fun h => absurd hc.symm h.1⟩
      · rw [if_neg hc, Option.map_eq_none_iff, ih]
        exact ⟨fun h => ⟨Ne.symm hc, h⟩, fun h => h.2⟩

/-! ### Links -/

/-- An equals sign with the blanks around it. -/
def IsLink (link : List Char) : Prop :=
  ∃ before behind, link = before ++ '=' :: behind ∧
    (∀ c ∈ before, Text.isAsciiBlank c = true) ∧ ∀ c ∈ behind, Text.isAsciiBlank c = true

theorem splitLink?_append (link rest : List Char) (hlink : IsLink link)
    (hrest : rest.head?.any Text.isAsciiBlank = false) :
    splitLink? (link ++ rest) = some (link, rest) := by
  rcases hlink with ⟨before, behind, rfl, hbefore, hbehind⟩
  -- The blanks end at the equals sign, and those behind it where the rest begins.
  have hfirst : splitWhile Text.isAsciiBlank (before ++ '=' :: (behind ++ rest))
      = (before, '=' :: (behind ++ rest)) := splitWhile_append _ before _ hbefore rfl
  have hsecond := splitWhile_append _ behind rest hbehind hrest
  rw [List.append_assoc, List.cons_append, splitLink?, hfirst]
  simp only [hsecond]

/-- What links a name and a value is an equals sign with blanks on both sides, and all the blanks
    behind it are taken. -/
theorem splitLink?_some (text link rest : List Char) (h : splitLink? text = some (link, rest)) :
    text = link ++ rest ∧ IsLink link ∧ rest.head?.any Text.isAsciiBlank = false := by
  have hfirst := splitWhile_spec Text.isAsciiBlank text
  unfold splitLink? at h
  split at h
  · rename_i before after hsplit
    have hsecond := splitWhile_spec Text.isAsciiBlank after
    rw [Option.some.injEq, Prod.mk.injEq] at h
    rcases h with ⟨rfl, rfl⟩
    rw [hsplit] at hfirst
    refine ⟨?_, ⟨before, _, rfl, hfirst.2.1, hsecond.2.1⟩, hsecond.2.2⟩
    rw [List.append_assoc, List.cons_append, ← hsecond.1]
    exact hfirst.1
  · cases h

theorem splitLink?_eq_none_iff (text : List Char) :
    splitLink? text = none ↔ (text.dropWhile Text.isAsciiBlank).head? ≠ some '=' := by
  unfold splitLink? splitWhile
  cases hdrop : text.dropWhile Text.isAsciiBlank with
  | nil => simp only [List.head?_nil, ne_eq, reduceCtorEq, not_false_eq_true]
  | cons c rest =>
      by_cases hc : c = '='
      · subst hc
        simp only [List.head?_cons, ne_eq, reduceCtorEq, not_true]
      · simp only [List.head?_cons, ne_eq, Option.some.injEq, hc, not_false_eq_true, iff_true]
        split
        · rename_i heq
          rw [Prod.mk.injEq, List.cons.injEq] at heq
          exact absurd heq.2.1 hc
        · rfl

/-! ### Start tags -/

/-- The name of an attribute. -/
def IsAttributeName (name : List Char) : Prop := name ≠ [] ∧ ∀ c ∈ name, isAttributeChar c = true

/-- A text is made of the items of a start tag, the end of the tag and the rest of the document. -/
inductive Parts : List Char → List Item → Ending → List Char → Prop where
  | closed (rest : List Char) : Parts ('>' :: rest) [] .closed rest
  | cut : Parts [] [] .cut []
  /-- The mark does not occur again. -/
  | openQuote (name link inner : List Char) (mark : Char) (hname : IsAttributeName name)
      (hlink : IsLink link) (hmark : mark = '"' ∨ mark = '\'') (hinner : mark ∉ inner) :
      Parts (name ++ (link ++ mark :: inner)) [] (.openQuote name link (mark :: inner)) []
  /-- No name can begin here. -/
  | filler (c : Char) (text : List Char) (items : List Item) (ending : Ending) (rest : List Char)
      (hclose : c ≠ '>') (hc : isAttributeChar c = false) (h : Parts text items ending rest) :
      Parts (c :: text) (.filler c :: items) ending rest
  /-- The name does not go on, and no equals sign follows. -/
  | flag (name text : List Char) (items : List Item) (ending : Ending) (rest : List Char)
      (hname : IsAttributeName name) (hnext : text.head?.any isAttributeChar = false)
      (hlink : (text.dropWhile Text.isAsciiBlank).head? ≠ some '=')
      (h : Parts text items ending rest) :
      Parts (name ++ text) (.flag name :: items) ending rest
  /-- The value ends at the next mark. -/
  | quoted (name link value text : List Char) (quoting : Quoting) (mark : Char) (items : List Item)
      (ending : Ending) (rest : List Char) (hname : IsAttributeName name) (hlink : IsLink link)
      (hmark : quoting.mark = [mark]) (hvalue : mark ∉ value) (h : Parts text items ending rest) :
      Parts (name ++ (link ++ mark :: (value ++ mark :: text)))
        (.valued name link quoting value :: items) ending rest
  /-- The value begins with no mark and does not go on. -/
  | bare (name link value text : List Char) (items : List Item) (ending : Ending)
      (rest : List Char) (hname : IsAttributeName name) (hlink : IsLink link)
      (hvalue : ∀ c ∈ value, isBareChar c = true)
      (hfirst : value.head? ≠ some '"' ∧ value.head? ≠ some '\'')
      (hempty : value = [] → text.head?.any Text.isAsciiBlank = false)
      (hnext : text.head?.any isBareChar = false) (h : Parts text items ending rest) :
      Parts (name ++ (link ++ (value ++ text))) (.valued name link .bare value :: items) ending rest

/-- The parts of a start tag and the rest make up the text. So nothing of a tag is lost between its
    parts. -/
theorem text_of_parts (text : List Char) (items : List Item) (ending : Ending) (rest : List Char)
    (h : Parts text items ending rest) :
    text = items.flatMap Item.toChars ++ ending.toChars ++ rest := by
  induction h with
  | closed rest => rfl
  | cut => rfl
  | openQuote name link inner mark =>
      simp only [List.flatMap_nil, Ending.toChars, List.nil_append, List.append_assoc,
        List.append_nil]
  | filler c text items ending rest _ _ _ ih =>
      rw [ih]
      rfl
  | flag name text items ending rest _ _ _ _ ih =>
      rw [ih]
      simp only [List.flatMap_cons, Item.toChars, List.append_assoc]
  | quoted name link value text quoting mark items ending rest _ _ hmark _ _ ih =>
      rw [ih]
      simp only [List.flatMap_cons, Item.toChars, hmark, List.append_assoc, List.cons_append,
        List.nil_append]
  | bare name link value text items ending rest _ _ _ _ _ _ _ ih =>
      rw [ih]
      simp only [List.flatMap_cons, Item.toChars, Quoting.mark, List.append_assoc, List.nil_append]

theorem length_rest_le (text : List Char) (items : List Item) (ending : Ending) (rest : List Char)
    (h : Parts text items ending rest) : rest.length ≤ text.length := by
  rw [text_of_parts text items ending rest h, List.length_append]
  omega

/-! ### Scanning start tags -/

theorem splitWhile_name (c : Char) (text name behind : List Char) (hc : isAttributeChar c = true)
    (h : splitWhile isAttributeChar (c :: text) = (name, behind)) :
    c :: text = name ++ behind ∧ IsAttributeName name ∧
      behind.head?.any isAttributeChar = false := by
  have hspec := splitWhile_spec isAttributeChar (c :: text)
  have hhead := head?_splitWhile isAttributeChar (c :: text) hc
  rw [h] at hspec hhead
  refine ⟨hspec.1, ⟨?_, hspec.2.1⟩, hspec.2.2⟩
  rintro rfl
  cases hhead

/-- A name goes on to the first character that names do not have. None of its characters ends the
    tag, so the scanner takes it for a name. -/
theorem splitWhile_attributeName (name text : List Char) (hname : IsAttributeName name)
    (hnext : text.head?.any isAttributeChar = false) :
    ∃ c rest, name ++ text = c :: rest ∧ c ≠ '>' ∧ isAttributeChar c = true ∧
      splitWhile isAttributeChar (c :: rest) = (name, text) := by
  rcases name with _ | ⟨c, name⟩
  · exact absurd rfl hname.1
  · have hc := hname.2 c List.mem_cons_self
    refine ⟨c, name ++ text, rfl, ?_, hc, splitWhile_append _ (c :: name) text hname.2 hnext⟩
    rintro rfl
    cases hc

/-- No name goes on with a link, which begins with a blank or with the equals sign. -/
theorem head?_link (link text : List Char) (hlink : IsLink link) :
    (link ++ text).head?.any isAttributeChar = false := by
  rcases hlink with ⟨before, behind, rfl, hbefore, -⟩
  cases before with
  | nil => rfl
  | cons c before =>
      have hc : Text.isAsciiBlank c = true := hbefore c List.mem_cons_self
      rw [List.cons_append, List.cons_append, List.head?_cons, Option.any_some, isAttributeChar, hc]
      rfl

/-- The value at the start of a text: how it is quoted, the value, and the rest. There is none if
    the mark that opens it does not occur again. -/
def readValue? (text : List Char) : Option (Quoting × List Char × List Char) :=
  match text with
  | '"' :: inner => (splitAt? '"' inner).map fun (value, rest) => (.double, value, rest)
  | '\'' :: inner => (splitAt? '\'' inner).map fun (value, rest) => (.single, value, rest)
  | text => some (.bare, splitWhile isBareChar text)

/-- Behind the name of an attribute the scanner looks for a link, and behind the link for a value.
    A name without a link is a flag. A value without an end is the end of the tag, and of the
    document too. -/
theorem readItems_name (fuel : Nat) (name text : List Char) (hname : IsAttributeName name)
    (hnext : text.head?.any isAttributeChar = false) :
    readItems (fuel + 1) (name ++ text) = match splitLink? text with
      | none => (.flag name :: (readItems fuel text).1, (readItems fuel text).2)
      | some (link, after) => match readValue? after with
        | none => ([], .openQuote name link after, [])
        | some (quoting, value, rest) => (.valued name link quoting value ::
            (readItems fuel rest).1, (readItems fuel rest).2) := by
  rcases splitWhile_attributeName name text hname hnext with ⟨c, rest, htext, hclose, hc, hsplit⟩
  rw [htext, readItems, if_neg hclose, if_neg (by rw [hc]; decide), hsplit]
  dsimp only
  cases splitLink? text with
  | none => rfl
  | some found =>
      rcases found with ⟨link, after⟩
      dsimp only
      split
      · next inner =>
          rw [readValue?]
          cases splitAt? '"' inner <;> rfl
      · next inner =>
          rw [readValue?]
          cases splitAt? '\'' inner <;> rfl
      · next hdouble hsingle =>
          rw [readValue?]
          · exact hdouble
          · exact hsingle

/-! ### Values -/

theorem readValue?_openQuote (mark : Char) (inner : List Char) (hmark : mark = '"' ∨ mark = '\'')
    (hinner : mark ∉ inner) : readValue? (mark :: inner) = none := by
  have hnone := (splitAt?_eq_none_iff mark inner).mpr hinner
  rcases hmark with rfl | rfl <;> rw [readValue?, hnone, Option.map_none]

theorem readValue?_quoted (quoting : Quoting) (mark : Char) (value text : List Char)
    (hmark : quoting.mark = [mark]) (hvalue : mark ∉ value) :
    readValue? (mark :: (value ++ mark :: text)) = some (quoting, value, text) := by
  have hsome := splitAt?_append mark value text hvalue
  cases quoting with
  | bare => cases hmark
  | double | single =>
      cases hmark
      rw [readValue?, hsome, Option.map_some]

/-- A value that is not quoted begins with no mark, even if it is empty: a mark behind it would be a
    part of it. -/
theorem readValue?_bare (value text : List Char) (hvalue : ∀ c ∈ value, isBareChar c = true)
    (hfirst : value.head? ≠ some '"' ∧ value.head? ≠ some '\'')
    (hnext : text.head?.any isBareChar = false) :
    readValue? (value ++ text) = some (.bare, value, text) := by
  have hmark : ∀ mark inner, isBareChar mark = true → value ++ text = mark :: inner →
      value.head? = some mark := by
    intro mark inner hbare heq
    cases value with
    | nil =>
        rw [List.nil_append] at heq
        rw [heq, List.head?_cons, Option.any_some, hbare] at hnext
        cases hnext
    | cons d value =>
        rw [List.cons_append, List.cons.injEq] at heq
        rw [List.head?_cons, heq.1]
  unfold readValue?
  split
  · next inner heq => exact absurd (hmark '"' inner rfl heq) hfirst.1
  · next inner heq => exact absurd (hmark '\'' inner rfl heq) hfirst.2
  · rw [splitWhile_append isBareChar value text hvalue hnext]

theorem readValue?_eq_none (text : List Char) (h : readValue? text = none) :
    ∃ mark inner, text = mark :: inner ∧ (mark = '"' ∨ mark = '\'') ∧ mark ∉ inner := by
  unfold readValue? at h
  split at h
  · next inner =>
      rw [Option.map_eq_none_iff, splitAt?_eq_none_iff] at h
      exact ⟨'"', inner, rfl, Or.inl rfl, h⟩
  · next inner =>
      rw [Option.map_eq_none_iff, splitAt?_eq_none_iff] at h
      exact ⟨'\'', inner, rfl, Or.inr rfl, h⟩
  · cases h

/-- A value that is read is quoted, and ends at the next mark; or it is not, and is as long as it
    can be. -/
theorem readValue?_eq_some (text : List Char) (quoting : Quoting) (value rest : List Char)
    (h : readValue? text = some (quoting, value, rest)) :
    (∃ mark, quoting.mark = [mark] ∧ text = mark :: (value ++ mark :: rest) ∧ mark ∉ value) ∨
      (quoting = .bare ∧ text = value ++ rest ∧ (∀ c ∈ value, isBareChar c = true) ∧
        (value.head? ≠ some '"' ∧ value.head? ≠ some '\'') ∧
        rest.head?.any isBareChar = false) := by
  unfold readValue? at h
  split at h
  · next inner =>
      rcases Option.map_eq_some_iff.mp h with ⟨⟨found, behind⟩, hsplit, heq⟩
      cases heq
      rcases splitAt?_some _ inner value rest hsplit with ⟨hinner, hvalue⟩
      exact Or.inl ⟨'"', rfl, by rw [hinner], hvalue⟩
  · next inner =>
      rcases Option.map_eq_some_iff.mp h with ⟨⟨found, behind⟩, hsplit, heq⟩
      cases heq
      rcases splitAt?_some _ inner value rest hsplit with ⟨hinner, hvalue⟩
      exact Or.inl ⟨'\'', rfl, by rw [hinner], hvalue⟩
  · next hdouble hsingle =>
      have hspec := splitWhile_spec isBareChar text
      rw [Option.some.injEq, Prod.mk.injEq] at h
      rw [h.2] at hspec
      rcases hspec with ⟨htext, hvalue, hnext⟩
      refine Or.inr ⟨h.1.symm, htext, hvalue, ⟨fun hmark => ?_, fun hmark => ?_⟩, hnext⟩
      · rcases List.head?_eq_some_iff.mp hmark with ⟨inner, hinner⟩
        exact hdouble (inner ++ rest) (by rw [htext, hinner, List.cons_append])
      · rcases List.head?_eq_some_iff.mp hmark with ⟨inner, hinner⟩
        exact hsingle (inner ++ rest) (by rw [htext, hinner, List.cons_append])

/-! ### Both directions -/

/-- What stands behind a name is a part of the tag with it, if the scanner finds the parts of every
    text that its fuel lasts for. -/
theorem parts_name (fuel : Nat) (name behind : List Char) (hname : IsAttributeName name)
    (hnext : behind.head?.any isAttributeChar = false) (hfuel : behind.length ≤ fuel)
    (ih : ∀ text, text.length ≤ fuel →
      Parts text (readItems fuel text).1 (readItems fuel text).2.1 (readItems fuel text).2.2) :
    Parts (name ++ behind) (readItems (fuel + 1) (name ++ behind)).1
      (readItems (fuel + 1) (name ++ behind)).2.1 (readItems (fuel + 1) (name ++ behind)).2.2 := by
  rw [readItems_name fuel name behind hname hnext]
  cases hsplit : splitLink? behind with
  | none =>
      exact .flag name behind _ _ _ hname hnext ((splitLink?_eq_none_iff behind).mp hsplit)
        (ih behind hfuel)
  | some found =>
      rcases found with ⟨link, after⟩
      rcases splitLink?_some behind link after hsplit with ⟨rfl, hlink, hblank⟩
      rw [List.length_append] at hfuel
      dsimp only
      cases hvalue : readValue? after with
      | none =>
          rcases readValue?_eq_none after hvalue with ⟨mark, inner, rfl, hmark, hinner⟩
          exact .openQuote name link inner mark hname hlink hmark hinner
      | some found =>
          rcases found with ⟨quoting, value, rest⟩
          rcases readValue?_eq_some after quoting value rest hvalue with
            ⟨mark, hmark, rfl, hnot⟩ | ⟨rfl, rfl, hall, hfirst, hstop⟩
          · simp only [List.length_append, List.length_cons] at hfuel
            exact .quoted name link value rest quoting mark _ _ _ hname hlink hmark hnot
              (ih rest (by omega))
          · rw [List.length_append] at hfuel
            refine .bare name link value rest _ _ _ hname hlink hall hfirst (fun hnil => ?_) hstop
              (ih rest (by omega))
            -- The link takes all blanks, so none is left for an empty value to stop at.
            rw [hnil, List.nil_append] at hblank
            exact hblank

/-- The scanner finds the parts of a start tag, if it has fuel for every character. The induction is
    on the fuel, as the scanner goes on behind a part with whatever text is left. -/
theorem parts_readItems (fuel : Nat) (text : List Char) (h : text.length ≤ fuel) :
    Parts text (readItems fuel text).1 (readItems fuel text).2.1 (readItems fuel text).2.2 := by
  induction fuel generalizing text with
  | zero =>
      rw [List.length_eq_zero_iff.mp (Nat.le_zero.mp h)]
      exact .cut
  | succ fuel ih =>
      cases text with
      | nil => exact .cut
      | cons c text =>
          by_cases hclose : c = '>'
          · rw [readItems, if_pos hclose, hclose]
            exact .closed text
          cases hc : isAttributeChar c with
          | false =>
              rw [readItems, if_neg hclose, if_pos (by rw [hc]; rfl)]
              rw [List.length_cons] at h
              exact .filler c text _ _ _ hclose hc (ih text (by omega))
          | true =>
              rcases hsplit : splitWhile isAttributeChar (c :: text) with ⟨name, behind⟩
              rcases splitWhile_name c text name behind hc hsplit with ⟨htext, hname, hnext⟩
              -- The fuel lasts: a name takes at least one character.
              have hpos := List.length_pos_iff.mpr hname.1
              rw [htext, List.length_append] at h
              rw [htext]
              exact parts_name fuel name behind hname hnext (by omega) ih

/-- A name takes at least one character, so there is fuel for it and for what stands behind it. -/
theorem exists_fuel_of_name (name behind : List Char) (hname : IsAttributeName name) (fuel : Nat)
    (hfuel : (name ++ behind).length ≤ fuel) : ∃ less, fuel = less + 1 ∧ behind.length ≤ less := by
  have hpos := List.length_pos_iff.mpr hname.1
  rw [List.length_append] at hfuel
  exact ⟨fuel - 1, by omega, by omega⟩

/-- Whatever is made of parts is scanned into them, if there is fuel for every character. The
    induction is along the parts, with the scanner going one step in each; the last four clauses
    begin with a name, and differ in what the link and the value behind it are. -/
theorem readItems_of_parts (text : List Char) (items : List Item) (ending : Ending)
    (rest : List Char) (h : Parts text items ending rest) (fuel : Nat)
    (hfuel : text.length ≤ fuel) : readItems fuel text = (items, ending, rest) := by
  induction h generalizing fuel with
  | closed rest =>
      cases fuel with
      | zero => cases hfuel
      | succ fuel => rw [readItems, if_pos rfl]
  | cut =>
      cases fuel with
      | zero => rw [readItems]
      | succ fuel => rw [readItems]
  | filler c text items ending rest hclose hc h ih =>
      cases fuel with
      | zero => cases hfuel
      | succ fuel =>
          rw [List.length_cons] at hfuel
          have hnot : (!isAttributeChar c) = true := by rw [hc, Bool.not_false]
          rw [readItems, if_neg hclose, if_pos hnot, ih fuel (by omega)]
  | flag name text items ending rest hname hnext hlink h ih =>
      rcases exists_fuel_of_name name text hname fuel hfuel with ⟨less, rfl, hless⟩
      rw [readItems_name less name text hname hnext, (splitLink?_eq_none_iff text).mpr hlink]
      dsimp only
      rw [ih less hless]
  | openQuote name link inner mark hname hlink hmark hinner =>
      rcases exists_fuel_of_name name _ hname fuel hfuel with ⟨less, rfl, -⟩
      -- The mark is no blank, so the link ends in front of it.
      have hblank : (mark :: inner).head?.any Text.isAsciiBlank = false := by
        rcases hmark with rfl | rfl <;> rfl
      rw [readItems_name less name _ hname (head?_link link _ hlink),
        splitLink?_append link _ hlink hblank]
      dsimp only
      rw [readValue?_openQuote mark inner hmark hinner]
  | quoted name link value text quoting mark items ending rest hname hlink hmark hvalue h ih =>
      rcases exists_fuel_of_name name _ hname fuel hfuel with ⟨less, rfl, hless⟩
      have hblank : (mark :: (value ++ mark :: text)).head?.any Text.isAsciiBlank = false := by
        cases quoting <;> cases hmark <;> rfl
      simp only [List.length_append, List.length_cons] at hless
      rw [readItems_name less name _ hname (head?_link link _ hlink),
        splitLink?_append link _ hlink hblank]
      dsimp only
      rw [readValue?_quoted quoting mark value text hmark hvalue]
      dsimp only
      rw [ih less (by omega)]
  | bare name link value text items ending rest hname hlink hvalue hfirst hempty hnext h ih =>
      rcases exists_fuel_of_name name _ hname fuel hfuel with ⟨less, rfl, hless⟩
      have hblank : (value ++ text).head?.any Text.isAsciiBlank = false := by
        cases value with
        | nil => exact hempty rfl
        | cons d value =>
            have hd := hvalue d List.mem_cons_self
            simp only [isBareChar, Bool.not_eq_true', Bool.or_eq_false_iff] at hd
            exact hd.1
      simp only [List.length_append] at hless
      rw [readItems_name less name _ hname (head?_link link _ hlink),
        splitLink?_append link _ hlink hblank]
      dsimp only
      rw [readValue?_bare value text hvalue hfirst hnext]
      dsimp only
      rw [ih less (by omega)]

end Html

end ClassVeil
