import ClassVeil.Proofs.Markup.Exact
import ClassVeil.Proofs.Renaming.Agreement

/-!
# Raw contents

The contents of a script, a style, a text area or a title hold no markup, so they have to come
through untouched, whatever they look like. They go up to the end tag of their element: to the first
`</` with the name of the element behind it, in letters of either case, and behind the name a blank,
a slash, a `>` or the end of the document.

The scanner does not look at what stands behind the name. It takes the contents to end where a text
begins that looks like the end tag, and `</title-x>` looks like the end tag of a title. What it
leaves out of the contents it reads as markup. So the contents come through as far as the scanner
takes them to go, and that is all of them exactly if nothing in them looks like the end tag.

Both kinds of end are an instance of one notion, the first place at which something holds, and the
comparison of the two is a comparison of such places. An end tag looks like an end tag, so the
scanner never goes too far. That it goes far enough takes one more observation: what looks like an
end tag cannot begin in the contents and go on behind them, since the true end tag begins there with
a `<`, and within such a thing there is no second one.

That what the scanner keeps is untouched is a matter of the segments. Renaming them is renaming
those up to the tag and then those behind it, and raw contents are written as they are.

## Main definitions

* `IsUpTo`: A text up to the first place at which something holds, and the rest.
* `BeginsEndTag`: A text begins with the end tag of an element.
* `MentionsEnd`: Something in a text looks like the end tag of an element.

## Theorems

* `exists_isUpTo`, `prefix_of_isUpTo`: There is a first place, and it comes the earlier the less has
  to hold there.
* `eq_contents_iff`: When the scanner finds the end tag.
* `renameSegments_append`: Renaming some segments and then others.
* `raw_of_divides`: The tag of a raw element has its contents behind it.
* `rawText_unchanged`: What the scanner takes for raw contents comes through untouched.
* `rawText_changed_nearMiss`: Contents in which something looks like the end tag.
-/

namespace ClassVeil

namespace Html

/-! ### First places -/

/-- A text up to the first place at which something holds of what comes there, or all of it; and the
    rest. -/
def IsUpTo (holds : List Char → Prop) (contents rest : List Char) : Prop :=
  (rest = [] ∨ holds rest) ∧
    ∀ before behind, contents = before ++ behind → behind ≠ [] → ¬ holds (behind ++ rest)

/-- There is a first place, or none at all, by induction on the text. The property need not be
    decidable, as nobody looks for the place. -/
theorem exists_isUpTo (holds : List Char → Prop) (text : List Char) :
    ∃ contents rest, text = contents ++ rest ∧ IsUpTo holds contents rest := by
  have hnil : ∀ before behind : List Char, [] = before ++ behind → behind = [] :=
    fun before behind h => (List.append_eq_nil_iff.mp h.symm).2
  induction text with
  | nil =>
      exact ⟨[], [], rfl, Or.inl rfl, fun before behind h hne => absurd (hnil before behind h) hne⟩
  | cons c text ih =>
      by_cases hhere : holds (c :: text)
      · exact ⟨[], c :: text, rfl, Or.inr hhere,
          fun before behind h hne => absurd (hnil before behind h) hne⟩
      · rcases ih with ⟨contents, rest, htext, hrest, hfirst⟩
        refine ⟨c :: contents, rest, by rw [htext, List.cons_append], hrest, ?_⟩
        intro before behind hsplit hne
        cases before with
        | nil =>
            rw [List.nil_append] at hsplit
            rw [← hsplit, List.cons_append, ← htext]
            exact hhere
        | cons d before =>
            rw [List.cons_append, List.cons.injEq] at hsplit
            exact hfirst before behind hsplit.2 hne

/-- If less has to hold, the first place comes no later. The contents that the scanner takes end at
    the first place that begins like an end tag, and every real end tag begins so. -/
theorem prefix_of_isUpTo (strict weak : List Char → Prop) (himp : ∀ text, strict text → weak text)
    (contents own kept rest : List Char) (htext : kept ++ rest = contents ++ own)
    (hstrict : IsUpTo strict contents own) (hweak : IsUpTo weak kept rest) : kept <+: contents := by
  rcases List.append_eq_append_iff.mp htext with ⟨more, hmore, -⟩ | ⟨more, hmore, hown⟩
  · exact ⟨more, hmore.symm⟩
  · by_cases hnil : more = []
    · rw [hmore, hnil, List.append_nil]
    · -- Then the weak condition would hold before the end of what is kept.
      have hne : own ≠ [] := by
        rw [hown]
        exact List.append_ne_nil_of_left_ne_nil hnil rest
      have hholds : strict own := hstrict.1.resolve_left hne
      rw [hown] at hholds
      exact absurd (himp _ hholds) (hweak.2 contents more hmore hnil)

/-! ### End tags -/

/-- Characters that end the name in an end tag. -/
def endsName (c : Char) : Bool := Text.isAsciiBlank c || c == '/' || c == '>'

/-- A text begins with the end tag of an element: it looks like that, and behind the name there is a
    character that ends it, or nothing. -/
def BeginsEndTag (name text : List Char) : Prop :=
  EndsRaw name text ∧ (text.drop (name.length + 2)).head?.all endsName = true

instance (name text : List Char) : Decidable (BeginsEndTag name text) :=
  inferInstanceAs (Decidable (_ <+: _ ∧ _ = _))

/-- Something in a text looks like the end tag of an element, no matter what stands behind the
    name. -/
def MentionsEnd (name text : List Char) : Prop :=
  ('<' :: '/' :: name.map Char.toLower) <:+: text.map Char.toLower

/-- The names of raw elements are letters. -/
theorem angle_not_mem_of_isRawElement (name : List Char) (h : IsRawElement name) :
    '<' ∉ name.map Char.toLower := by
  have hall : ∀ word ∈ rawElements, '<' ∉ word := by decide
  exact hall _ h

/-- Nothing that looks like the end tag begins inside of something else that does: there is only one
    `<` in that, and it stands at the front. -/
theorem not_endsRaw_inside (name inside own : List Char) (hraw : IsRawElement name)
    (hne : inside ≠ []) (hends : EndsRaw name (inside ++ own))
    (hshort : inside.length < name.length + 2) : ¬ EndsRaw name own := by
  rintro ⟨later, hown⟩
  rcases List.exists_cons_of_ne_nil hne with ⟨c, more, rfl⟩
  rcases hends with ⟨behind, hbehind⟩
  have htail : '/' :: name.map Char.toLower ++ behind = (more ++ own).map Char.toLower :=
    (List.cons.inj hbehind).2
  rw [List.map_append, ← hown] at htail
  simp only [List.length_cons] at hshort
  -- Behind its first character the inside is a part of the slash and the name, and a `<` follows.
  rcases List.append_eq_append_iff.mp htail with ⟨extra, hmore, -⟩ | ⟨extra, hname, hextra⟩
  · have hlength := congrArg List.length hmore
    simp only [List.length_map, List.length_append, List.length_cons] at hlength
    omega
  · cases extra with
    | nil =>
        have hlength := congrArg List.length hname
        simp only [List.length_map, List.length_append, List.length_cons, List.length_nil]
          at hlength
        omega
    | cons d extra =>
        have hmem : '<' ∈ '/' :: name.map Char.toLower := by
          rw [hname, (List.cons.inj hextra).1]
          exact List.mem_append_right _ List.mem_cons_self
        rcases List.mem_cons.mp hmem with hslash | hletters
        · cases hslash
        · exact angle_not_mem_of_isRawElement name hraw hletters

/-- What is kept goes up to the end tag exactly if nothing in front of the end tag looks like it.
    One direction is that the scanner would have stopped; in the other one, what has stopped it is
    in front of the end tag or reaches into it. -/
theorem eq_contents_iff (name contents own kept rest : List Char) (hraw : IsRawElement name)
    (htext : kept ++ rest = contents ++ own) (hown : IsUpTo (BeginsEndTag name) contents own)
    (hkept : IsUpTo (EndsRaw name) kept rest) : kept = contents ↔ ¬ MentionsEnd name contents := by
  constructor
  · rintro rfl ⟨before, behind, hmention⟩
    -- What looks like the end tag would have ended the contents there.
    rw [List.append_assoc, eq_comm, List.map_eq_append_iff] at hmention
    rcases hmention with ⟨front, back, hsplit, -, hback⟩
    have hne : back ≠ [] := by
      rintro rfl
      cases hback
    refine hkept.2 front back hsplit hne ?_
    rw [EndsRaw, List.map_append, hback, List.append_assoc]
    exact List.prefix_append _ _
  · intro hnone
    rcases prefix_of_isUpTo _ _ (fun _ => And.left) contents own kept rest htext hown hkept with
      ⟨inside, hinside⟩
    by_cases hnil : inside = []
    · rw [← hinside, hnil, List.append_nil]
    · have hrest : rest = inside ++ own := by
        rw [← hinside, List.append_assoc] at htext
        exact List.append_cancel_left htext
      have hne : rest ≠ [] := by
        rw [hrest]
        exact List.append_ne_nil_of_left_ne_nil hnil own
      -- What has stopped the scanner early begins inside of the contents.
      have hends : EndsRaw name (inside ++ own) := by
        rw [← hrest]
        exact hkept.1.resolve_left hne
      by_cases hshort : inside.length < name.length + 2
      · -- What looks like the end tag goes on behind the contents, so the end tag follows inside.
        have hownne : own ≠ [] := by
          rintro rfl
          have hlength := hends.length_le
          simp only [List.length_map, List.length_cons, List.append_nil] at hlength
          omega
        exact absurd (hown.1.resolve_left hownne).1
          (not_endsRaw_inside name inside own hraw hnil hends hshort)
      · -- It is in the contents as a whole.
        refine absurd ?_ hnone
        have hwhole : ('<' :: '/' :: name.map Char.toLower) <+: inside.map Char.toLower := by
          rw [EndsRaw, List.map_append] at hends
          refine List.prefix_of_prefix_length_le hends (List.prefix_append _ _) ?_
          simp only [List.length_map, List.length_cons]
          omega
        rw [MentionsEnd, ← hinside, List.map_append]
        exact hwhole.isInfix.trans (List.suffix_append _ _).isInfix

/-! ### What comes through -/

variable {σ : Type} (rename : Replacement σ)

/-- Renaming some segments and then others. The renamer goes on from where the first ones have left
    it, so a segment in the middle can be looked at by itself. -/
theorem renameSegments_append (front back : List Segment) (s : σ) :
    renameSegments rename (front ++ back) s
      = ((renameSegments rename front s).1
          ++ (renameSegments rename back (renameSegments rename front s).2).1,
        (renameSegments rename back (renameSegments rename front s).2).2) := by
  induction front generalizing s with
  | nil => rfl
  | cons segment rest ih =>
      -- A tag is renamed; the other segments go through as they are.
      cases segment with
      | tag t => simp only [List.cons_append, renameSegments, ih]
      | text chars | comment chars | raw chars =>
          simp only [List.cons_append, renameSegments, ih]

theorem write_append (front back : List Segment) :
    write (front ++ back) = write front ++ write back := List.flatMap_append

theorem write_raw (kept : List Char) (rest : List Segment) :
    write (.raw kept :: rest) = kept ++ write rest := List.flatMap_cons

/-- The tag of a raw element has its contents behind it, and then the document goes on. The
    induction is along the division, with the segments in front of the tag being taken off one by
    one. -/
theorem raw_of_divides (source : List Char) (division : List Segment)
    (h : Divides source division) (before behind : List Segment) (t : StartTag)
    (hsplit : division = before ++ .tag t :: behind) (hraw : IsRawElement t.name) :
    ∃ kept rest later, behind = .raw kept :: later ∧ Divides rest later ∧
      IsRaw t.name kept rest := by
  induction h generalizing before with
  | done =>
      have hlength := congrArg List.length hsplit
      rw [List.length_nil, List.length_append, List.length_cons] at hlength
      omega
  | text chars rest segments _ _ _ _ ih =>
      cases before with
      | nil => cases hsplit
      | cons segment before => exact ih before (List.cons.inj hsplit).2
  | angle rest segments _ _ _ ih =>
      cases before with
      | nil => cases hsplit
      | cons segment before => exact ih before (List.cons.inj hsplit).2
  | comment body rest segments _ _ ih =>
      cases before with
      | nil => cases hsplit
      | cons segment before => exact ih before (List.cons.inj hsplit).2
  | tag other text rest segments _ _ _ hplain _ ih =>
      cases before with
      | nil =>
          rw [List.nil_append, List.cons.injEq, Segment.tag.injEq] at hsplit
          rw [hsplit.1] at hplain
          exact absurd hraw hplain
      | cons segment before => exact ih before (List.cons.inj hsplit).2
  | rawTag other text contents rest segments _ _ _ _ hcontents hrest ih =>
      cases before with
      | nil =>
          rw [List.nil_append, List.cons.injEq, Segment.tag.injEq] at hsplit
          rw [hsplit.1] at hcontents
          exact ⟨contents, rest, segments, hsplit.2.symm, hrest, hcontents⟩
      | cons segment before =>
          -- The contents are no tag, so the one in question comes behind them.
          cases before with
          | nil => cases (List.cons.inj hsplit).2
          | cons contents before => exact ih before (List.cons.inj (List.cons.inj hsplit).2).2

/-- In any document, the start tag of an element without markup has some text behind it that is
    kept: renaming the document is renaming it up to and with that tag, putting the text there as it
    is, and renaming the rest of the document from then on as one that begins there. There is an end
    tag of the element, or none; what is kept never goes beyond the contents in front of it, and it
    is all of them exactly if nothing in them looks like the end tag. -/
theorem rawText_unchanged (source : List Char) (s : σ) (before behind : List Segment) (t : StartTag)
    (hsplit : segments source = before ++ .tag t :: behind) (hraw : IsRawElement t.name) :
    ∃ kept rest, behind = .raw kept :: segments rest ∧
      source = write (before ++ [.tag t]) ++ (kept ++ rest) ∧
      (let front := renameSegments rename (before ++ [.tag t]) s
       let back := transform rename rest front.2
       transform rename source s = (write front.1 ++ (kept ++ back.1), back.2)) ∧
      (∃ contents own, kept ++ rest = contents ++ own ∧
        IsUpTo (BeginsEndTag t.name) contents own) ∧
      ∀ contents own, kept ++ rest = contents ++ own → IsUpTo (BeginsEndTag t.name) contents own →
        kept <+: contents ∧ (kept = contents ↔ ¬ MentionsEnd t.name contents) := by
  rcases raw_of_divides source _ ((divides_iff source _).mpr rfl) before behind t hsplit hraw with
    ⟨kept, rest, later, hbehind, hrest, hkept⟩
  have hlater : segments rest = later := (divides_iff rest later).mp hrest
  -- The segments up to the tag, what is kept, and the division of the rest.
  have hdivision : segments source
      = (before ++ [.tag t]) ++ .raw kept :: segments rest := by
    rw [hsplit, hbehind, hlater, List.append_assoc]
    rfl
  refine ⟨kept, rest, by rw [hbehind, hlater], ?_, ?_, ?_, fun contents own htext hown => ⟨?_, ?_⟩⟩
  · rw [← write_segments source, hdivision, write_append, write_raw,
      write_segments rest]
  · simp only [transform, hdivision, renameSegments_append rename _ _ s, renameSegments,
      write_append, write_raw]
  · rcases exists_isUpTo (BeginsEndTag t.name) (kept ++ rest) with ⟨contents, own, htext, hown⟩
    exact ⟨contents, own, htext, hown⟩
  · exact prefix_of_isUpTo _ _ (fun _ => And.left) contents own kept rest htext hown hkept
  · exact eq_contents_iff t.name contents own kept rest hraw htext hown hkept

/-- Whether a place is the first one can be seen from the ends of the text in front of it. -/
theorem isUpTo_of_tails (holds : List Char → Prop) (contents rest : List Char) (hrest : holds rest)
    (htails : ∀ behind ∈ contents.tails, behind ≠ [] → ¬ holds (behind ++ rest)) :
    IsUpTo holds contents rest := by
  refine ⟨Or.inr hrest, fun before behind hsplit hne => htails behind ?_ hne⟩
  rw [List.mem_tails, hsplit]
  exact List.suffix_append before behind

/-- A script in capital letters, with something in it that would be a start tag elsewhere. -/
def scriptFile : List Char := "<SCRIPT>a('<b class=\"x\">')</script ><p class=m-2>".toList

/-- The contents of a script in a document stay as they are, although they have what looks like a
    class attribute in them, and the renaming goes on behind them. -/
theorem rawText_unchanged_scriptFile :
    ∃ rest, scriptFile = "<SCRIPT>a('<b class=\"x\">')".toList ++ rest ∧
      transform (Renamer.renameClasses twoIdsStore.naming) scriptFile ⟨{}, []⟩
        = ("<SCRIPT>a('<b class=\"x\">')".toList
            ++ (transform (Renamer.renameClasses twoIdsStore.naming) rest ⟨{}, []⟩).1,
          (transform (Renamer.renameClasses twoIdsStore.naming) rest ⟨{}, []⟩).2) := by
  have hdivision : segments scriptFile = [.tag ⟨"SCRIPT".toList, [], .closed⟩,
      .raw "a('<b class=\"x\">')".toList, .text "<".toList, .text "/script >".toList,
      .tag ⟨['p'], [.filler ' ', .valued "class".toList ['='] .bare "m-2".toList], .closed⟩] := by
    decide +kernel
  have hraw : IsRawElement "SCRIPT".toList := by
    unfold IsRawElement
    decide
  rcases rawText_unchanged (Renamer.renameClasses twoIdsStore.naming) scriptFile ⟨{}, []⟩ [] _ _
    hdivision hraw with ⟨kept, rest, hbehind, hsource, hresult, -, hkept⟩
  have hown : IsUpTo (BeginsEndTag "SCRIPT".toList) "a('<b class=\"x\">')".toList
      "</script ><p class=m-2>".toList :=
    isUpTo_of_tails _ _ _ (by decide) (by decide)
  have hnone : ¬ MentionsEnd "SCRIPT".toList "a('<b class=\"x\">')".toList := by
    unfold MentionsEnd
    decide
  have hsplit : kept ++ rest
      = "a('<b class=\"x\">')".toList ++ "</script ><p class=m-2>".toList :=
    List.append_cancel_left (hsource.symm.trans rfl)
  have heq := (hkept _ _ hsplit hown).2.mpr hnone
  rw [heq] at hsource hresult
  exact ⟨rest, hsource, hresult⟩

/-- A title in which something looks like its end tag, with what would be a start tag behind it. -/
def nearMiss : List Char := "<title></title-x><b class=\"p-4\"></title>".toList

/-- The contents of the title are not in the result, and a class in them has got an id. -/
theorem rawText_changed_nearMiss :
    nearMiss = "<title>".toList ++ ("</title-x><b class=\"p-4\">".toList ++ "</title>".toList) ∧
    (segments nearMiss).head? = some (.tag ⟨"title".toList, [], .closed⟩) ∧
    IsRawElement "title".toList ∧
    IsUpTo (BeginsEndTag "title".toList) "</title-x><b class=\"p-4\">".toList
      "</title>".toList ∧
    ¬ "</title-x><b class=\"p-4\">".toList <:+:
      (transform (Renamer.renameClasses twoIdsStore.naming) nearMiss ⟨{}, []⟩).1 ∧
    (transform (Renamer.renameClasses twoIdsStore.naming) nearMiss ⟨{}, []⟩).2.memory.map
      = [("p-4", "abcdefgh")] := by
  refine ⟨rfl, by decide +kernel, ?_, ?_, by decide +kernel, by decide +kernel⟩
  · unfold IsRawElement
    decide
  · exact isUpTo_of_tails _ _ _ (by decide) (by decide)

end Html

end ClassVeil
