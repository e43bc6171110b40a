import ClassVeil.Proofs.Markup.Exact
import ClassVeil.Proofs.Renaming.Session

/-!
# Scanning a renamed document

The document that renaming writes is scanned again by whoever reads it. Is it divided as it was, but
for the values that have changed? With letters for ids a value between quotation marks cannot end
early or late. A value without quotation marks ends at the first ASCII blank, while its words are
set apart by any blank there is in Unicode: of several words in it, all but the first become
attributes of their own, because the ids are joined by spaces. That is the one way in which the
division can change (`segments_transform_iff`).

A segment ends where the text behind it says so, and that text has changed as well. But the scanner
does not look far ahead: behind a part of a start tag it looks at most for the first character that
is no blank, and behind a segment for what comes up to the next `<`, or for an end tag. The
induction along the division carries that renaming leaves these as they are.

Two relations between the text before and after say what is left as it is. Within a tag it is the
first character, and the first one behind blanks (`SameStart`). Between segments it is all up to the
next `<`, and what looks like an end tag (`Alike`). The second has to be that much, because raw
contents may end at such a thing, and a comment may begin behind a `<` that stands alone.

In the other direction a single fact is enough. A value without quotation marks has no ASCII blank
in it, in any document; so if the renamed document is divided into these values, then none of them
was joined from several ids.

## Main definitions

* `IsLetters`: A text of ASCII letters.
* `BareClassesSingle`: No value of a class attribute without quotation marks has several words.
* `Fits`: A value that can stand where another one stands.
* `Alike`: Two texts between which the scanner does not decide before it is in them.

## Theorems

* `parts_mapClassValues`: Values that fit leave the parts of a start tag as they are.
* `isComment_alike`, `isRaw_alike`: Comments and raw contents end before a text that is alike.
* `divides_mapClassValues`: Values that fit leave the division as it is.
* `fits_renamedValue`: The ids of words fit, if the words are single or in quotation marks.
* `segments_transform_iff`: When a renamed document is divided as the original is.
-/

namespace ClassVeil

namespace Html

/-! ### Values -/

/-- A text of ASCII letters. -/
def IsLetters (text : List Char) : Prop := text ≠ [] ∧ ∀ c ∈ text, c.isAlpha = true

instance (text : List Char) : Decidable (IsLetters text) :=
  decidable_of_iff (text ≠ [] ∧ text.all Char.isAlpha = true) (by
    simp only [List.all_eq_true, IsLetters])

/-- No value of a class attribute without quotation marks has several words. -/
def BareClassesSingle (segments : List Segment) : Prop :=
  ∀ t name link value, .tag t ∈ segments → .valued name link .bare value ∈ t.items →
    isClassAttribute name = true → (Text.words value).length ≤ 1

/-- A value ends where the quotation marks say, or where a value without them does. -/
def Fits (value : List Char) : Quoting → Prop
  | .double => '"' ∉ value
  | .single => '\'' ∉ value
  | .bare => value ≠ [] ∧ (∀ c ∈ value, isBareChar c = true) ∧ value.head? ≠ some '"' ∧
      value.head? ≠ some '\''

/-- Each value of a class attribute stays as it is or becomes one that fits. -/
def ItemsFit (f : List Char → List Char) (items : List Item) : Prop :=
  ∀ name link quoting value, .valued name link quoting value ∈ items →
    isClassAttribute name = true → f value = value ∨ Fits (f value) quoting

/-! ### Start tags -/

/-- What the scanner looks for behind a part of a start tag is the same in both texts: the first
    character, and the first one that is no blank. -/
structure SameStart (text text' : List Char) : Prop where
  head : text'.head? = text.head?
  behindBlanks :
    (text'.dropWhile Text.isAsciiBlank).head? = (text.dropWhile Text.isAsciiBlank).head?

/-- A name is all that the scanner looks for. -/
theorem sameStart_name (name text text' : List Char) (hname : IsAttributeName name) :
    SameStart (name ++ text) (name ++ text') := by
  rcases name with _ | ⟨c, name⟩
  · exact absurd rfl hname.1
  · have hblank : ¬ Text.isAsciiBlank c = true := by
      have hc := hname.2 c List.mem_cons_self
      simp only [isAttributeChar, Bool.not_eq_true', Bool.or_eq_false_iff] at hc
      rw [hc.1.1.1]
      exact Bool.false_ne_true
    refine ⟨rfl, ?_⟩
    rw [List.cons_append, List.cons_append, List.dropWhile_cons_of_neg hblank,
      List.dropWhile_cons_of_neg hblank]
    rfl

theorem sameStart_cons (c : Char) (text text' : List Char) (h : SameStart text text') :
    SameStart (c :: text) (c :: text') := by
  refine ⟨rfl, ?_⟩
  by_cases hc : Text.isAsciiBlank c = true
  · rw [List.dropWhile_cons_of_pos hc, List.dropWhile_cons_of_pos hc]
    exact h.behindBlanks
  · rw [List.dropWhile_cons_of_neg hc, List.dropWhile_cons_of_neg hc]
    rfl

/-- Values that fit leave the parts of a start tag as they are, whatever comes behind the tag; but a
    tag that the end of the document cuts off is still cut off. The induction is along the parts,
    and carries that what stands behind a part begins as it did. -/
theorem parts_mapClassValues (f : List Char → List Char) (text : List Char) (items : List Item)
    (ending : Ending) (rest rest' : List Char) (h : Parts text items ending rest)
    (hrest : rest = [] → rest' = []) (hfit : ItemsFit f items) :
    ∃ text',
      Parts text' (items.map (Item.mapClassValue f)) ending rest' ∧ SameStart text text' := by
  induction h with
  | closed rest => exact ⟨'>' :: rest', .closed rest', rfl, rfl⟩
  | cut =>
      rw [hrest rfl]
      exact ⟨[], .cut, rfl, rfl⟩
  | openQuote name link inner mark hname hlink hmark hinner =>
      rw [hrest rfl]
      exact ⟨_, .openQuote name link inner mark hname hlink hmark hinner, rfl, rfl⟩
  | filler c text items ending rest hclose hc h ih =>
      rcases ih hrest (fun name link quoting value hmem =>
        hfit name link quoting value (List.mem_cons_of_mem _ hmem)) with ⟨text', hparts, hstart⟩
      exact ⟨c :: text', .filler c text' _ ending rest' hclose hc hparts,
        sameStart_cons c text text' hstart⟩
  | flag name text items ending rest hname hnext hlink h ih =>
      rcases ih hrest (fun name link quoting value hmem =>
        hfit name link quoting value (List.mem_cons_of_mem _ hmem)) with ⟨text', hparts, hstart⟩
      rw [← hstart.head] at hnext
      rw [← hstart.behindBlanks] at hlink
      exact ⟨name ++ text', .flag name text' _ ending rest' hname hnext hlink hparts,
        sameStart_name name text text' hname⟩
  | quoted name link value text quoting mark items ending rest hname hlink hmark hvalue h ih =>
      rcases ih hrest (fun name link quoting value hmem =>
        hfit name link quoting value (List.mem_cons_of_mem _ hmem)) with ⟨text', hparts, -⟩
      -- Whatever value stands there, the mark ends it, as long as it does not occur in it.
      have hdone : ∀ value', mark ∉ value' → ∃ whole, Parts whole
          (.valued name link quoting value' :: items.map (Item.mapClassValue f)) ending rest' ∧
          SameStart (name ++ (link ++ mark :: (value ++ mark :: text))) whole :=
        fun value' hvalue' => ⟨_, .quoted name link value' text' quoting mark _ ending rest' hname
          hlink hmark hvalue' hparts, sameStart_name name _ _ hname⟩
      rw [List.map_cons, Item.mapClassValue]
      by_cases hclass : isClassAttribute name = true
      · rw [if_pos hclass]
        rcases hfit name link quoting value List.mem_cons_self hclass with hsame | hfits
        · rw [hsame]
          exact hdone value hvalue
        · refine hdone (f value) ?_
          cases quoting with
          | bare => cases hmark
          | double | single =>
              cases hmark
              exact hfits
      · rw [if_neg hclass]
        exact hdone value hvalue
  | bare name link value text items ending rest hname hlink hvalue hfirst hempty hnext h ih =>
      rcases ih hrest (fun name link quoting value hmem =>
        hfit name link quoting value (List.mem_cons_of_mem _ hmem)) with ⟨text', hparts, hstart⟩
      rw [← hstart.head] at hempty hnext
      -- A value that stays needs the old conditions, which are on what comes behind it.
      have hsame : ∃ whole, Parts whole
          (.valued name link .bare value :: items.map (Item.mapClassValue f)) ending rest' ∧
          SameStart (name ++ (link ++ (value ++ text))) whole :=
        ⟨_, .bare name link value text' _ ending rest' hname hlink hvalue hfirst hempty hnext
          hparts, sameStart_name name _ _ hname⟩
      rw [List.map_cons, Item.mapClassValue]
      by_cases hclass : isClassAttribute name = true
      · rw [if_pos hclass]
        rcases hfit name link .bare value List.mem_cons_self hclass with hequal | hfits
        · rw [hequal]
          exact hsame
        · rcases hfits with ⟨hne, hbare, hmarks⟩
          exact ⟨_, .bare name link (f value) text' _ ending rest' hname hlink hbare hmarks
            (fun hnil => absurd hnil hne) hnext hparts, sameStart_name name _ _ hname⟩
      · rw [if_neg hclass]
        exact hsame

/-! ### Texts that look alike -/

theorem toLower_eq (mark c : Char) (hmark : mark = '<' ∨ mark = '/') (h : c.toLower = mark) :
    c = mark := by
  by_cases hc : c.toNat < 0x80
  · -- There are few characters in ASCII, so they are gone through.
    have hall : ∀ n : Fin 0x80, ((Char.ofNat n).toLower = '<' → Char.ofNat n = '<') ∧
        ((Char.ofNat n).toLower = '/' → Char.ofNat n = '/') := by decide
    have hchar := hall ⟨c.toNat, hc⟩
    rw [Char.ofNat_toNat] at hchar
    rcases hmark with rfl | rfl
    · exact hchar.1 h
    · exact hchar.2 h
  · rw [toLower_of_wide c (Nat.not_lt.mp hc)] at h
    exact h

/-- What opens a text and has no `<` in it ends before the first `<` of the text. So what a text
    begins with can be asked of the part in front, which renaming leaves alone. -/
theorem prefix_start (word start tail : List Char) (hword : '<' ∉ word)
    (htail : tail = [] ∨ tail.head? = some '<') (h : word <+: start ++ tail) : word <+: start := by
  -- The word ends in the start, or reaches into the tail, whose first character it does not have.
  rcases Nat.le_total word.length start.length with hle | hle
  · exact List.prefix_of_prefix_length_le h (List.prefix_append start tail) hle
  · rcases List.prefix_of_prefix_length_le (List.prefix_append start tail) h hle with ⟨more, rfl⟩
    rw [List.prefix_append_right_inj] at h
    cases more with
    | nil => rw [List.append_nil]
    | cons c more =>
        rcases h with ⟨behind, rfl⟩
        rcases htail with htail | htail
        · cases htail
        · rw [List.cons_append, List.head?_cons, Option.some.injEq] at htail
          rw [htail] at hword
          exact absurd (List.mem_append_right start List.mem_cons_self) hword

/-- The texts agree up to the first `<`, and either there is none in both, or there is one in
    both. -/
def SamePlain (text text' : List Char) : Prop :=
  ∃ start tail tail', text = start ++ tail ∧ text' = start ++ tail' ∧ tail'.head? = tail.head? ∧
    (tail = [] ∨ tail.head? = some '<')

/-- Neither text can be told from the other before the scanner is in it. The second part is asked
    for names without a `<` only, as all names of elements are. -/
structure Alike (text text' : List Char) : Prop where
  plain : SamePlain text text'
  ends : ∀ name, EndsRaw name text → '<' ∉ name.map Char.toLower → EndsRaw name text'

namespace SamePlain

variable {text text' : List Char}

theorem symm (h : SamePlain text text') : SamePlain text' text := by
  rcases h with ⟨start, tail, tail', htext, htext', hhead, htail⟩
  refine ⟨start, tail', tail, htext', htext, hhead.symm, ?_⟩
  rcases htail with rfl | htail
  · exact Or.inl (List.head?_eq_none_iff.mp hhead)
  · exact Or.inr (hhead.trans htail)

theorem head (h : SamePlain text text') : text'.head? = text.head? := by
  rcases h with ⟨start, tail, tail', rfl, rfl, hhead, -⟩
  cases start with
  | nil => exact hhead
  | cons c start => rfl

theorem nil (h : SamePlain text text') (hnil : text = []) : text' = [] := by
  have hhead := h.head
  rw [hnil] at hhead
  exact List.head?_eq_none_iff.mp hhead

/-- The texts begin with the same words, in whatever case. -/
theorem opens (h : SamePlain text text') (f : Char → Char) (hf : f '<' = '<') (word : List Char)
    (hword : '<' ∉ word) (hopens : word <+: text.map f) : word <+: text'.map f := by
  rcases h with ⟨start, tail, tail', rfl, rfl, -, htail⟩
  rw [List.map_append] at hopens ⊢
  refine (prefix_start word (start.map f) (tail.map f) hword ?_ hopens).trans
    (List.prefix_append _ _)
  rcases htail with rfl | htail
  · exact Or.inl rfl
  · rw [List.head?_map, htail, Option.map_some, hf]
    exact Or.inr rfl

end SamePlain

theorem samePlain_append (chars text text' : List Char) (h : SamePlain text text') :
    SamePlain (chars ++ text) (chars ++ text') := by
  rcases h with ⟨start, tail, tail', rfl, rfl, hhead, htail⟩
  exact ⟨chars ++ start, tail, tail', (List.append_assoc _ _ _).symm,
    (List.append_assoc _ _ _).symm, hhead, htail⟩

theorem samePlain_angle (text text' : List Char) : SamePlain ('<' :: text) ('<' :: text') :=
  ⟨[], '<' :: text, '<' :: text', rfl, rfl, rfl, Or.inr rfl⟩

/-- Nothing but `</` begins what looks like an end tag. -/
theorem endsRaw_cons_cons (name : List Char) (c d : Char) (text : List Char)
    (h : EndsRaw name (c :: d :: text)) : c = '<' ∧ d = '/' := by
  unfold EndsRaw at h
  rw [List.map_cons, List.map_cons, List.cons_prefix_cons, List.cons_prefix_cons] at h
  exact ⟨toLower_eq '<' c (Or.inl rfl) h.1.symm, toLower_eq '/' d (Or.inr rfl) h.2.1.symm⟩

/-! ### Comments and raw contents -/

theorem isComment_alike (body rest rest' : List Char) (h : IsComment body rest)
    (hrest : rest = [] → rest' = []) : IsComment body rest' := by
  cases h with
  | closed _ hopen hend hfirst => exact .closed body rest' hopen hend hfirst
  | unclosed hopen hnone =>
      rw [hrest rfl]
      exact .unclosed body hopen hnone

theorem angle_not_mem_tagName (name : List Char) (h : IsTagName name) :
    '<' ∉ name.map Char.toLower := by
  intro hmem
  rcases List.mem_map.mp hmem with ⟨c, hc, hlower⟩
  have hname := h.2 c hc
  rw [toLower_eq '<' c (Or.inl rfl) hlower] at hname
  cases hname

/-- Raw text is raw text in front of another rest, if that rest is like the first one. It may end
    there for the same reason, and it does not end earlier, since that would take an end tag that
    reaches into the rest. -/
theorem isRaw_alike (name contents rest rest' : List Char) (hname : IsTagName name)
    (h : IsRaw name contents rest) (hrest : Alike rest rest') : IsRaw name contents rest' := by
  have hletters := angle_not_mem_tagName name hname
  rcases h with ⟨hend, hfirst⟩
  refine ⟨?_, fun before behind hcontents hne hraw => ?_⟩
  -- They end at the same place as before, and no earlier.
  · rcases hend with hnil | hend
    · exact Or.inl (hrest.plain.nil hnil)
    · exact Or.inr (hrest.ends name hend hletters)
  · refine hfirst before behind hcontents hne ?_
    rcases behind with _ | ⟨c, behind⟩
    · exact absurd rfl hne
    unfold EndsRaw at hraw ⊢
    rw [List.cons_append, List.map_cons, List.cons_prefix_cons] at hraw ⊢
    refine ⟨hraw.1, ?_⟩
    -- The end tag would have its `<` in the contents, and there is no other one in it.
    refine SamePlain.opens (samePlain_append behind rest' rest hrest.plain.symm) Char.toLower
      (by decide) _ ?_ hraw.2
    rw [List.mem_cons, not_or]
    exact ⟨by decide, hletters⟩

/-! ### Documents -/

/-- Each value of a class attribute stays as it is or becomes one that fits. -/
def SegmentsFit (f : List Char → List Char) (segments : List Segment) : Prop :=
  ∀ t, .tag t ∈ segments → ItemsFit f t.items

theorem segmentsFit_tail (f : List Char → List Char) (segment : Segment) (rest : List Segment)
    (h : SegmentsFit f (segment :: rest)) : SegmentsFit f rest :=
  fun t ht => h t (List.mem_cons_of_mem segment ht)

/-- A start tag looks like any other one with the same name. -/
theorem alike_tag (name text text' : List Char) (hname : IsTagName name) :
    Alike ('<' :: (name ++ text)) ('<' :: (name ++ text')) := by
  refine ⟨samePlain_angle _ _, fun other hends _ => ?_⟩
  rcases name with _ | ⟨c, name⟩
  · cases hname.1
  · have hslash := (endsRaw_cons_cons other '<' c (name ++ text) hends).2
    have hletter := hname.1
    rw [hslash] at hletter
    cases hletter

/-- Values that fit leave the division of a document as it is. The induction is along the division;
    of the rest of the document each clause needs no more than that it looks like the old rest. -/
theorem divides_mapClassValues (f : List Char → List Char) (source : List Char)
    (segments : List Segment) (h : Divides source segments) (hfit : SegmentsFit f segments) :
    ∃ source', Divides source' (segments.map (Segment.mapClassValues f)) ∧
      Alike source source' := by
  induction h with
  | done => exact ⟨[], .done, ⟨[], [], [], rfl, rfl, rfl, Or.inl rfl⟩, fun _ hends _ => hends⟩
  | text chars rest segments hne hchars hnext h ih =>
      rcases ih (segmentsFit_tail f _ segments hfit) with ⟨rest', hrest, halike⟩
      refine ⟨chars ++ rest', .text chars rest' _ hne hchars ?_ hrest,
        samePlain_append chars rest rest' halike.plain, fun name hends _ => ?_⟩
      -- The text still goes on to the next `<`, or to the end.
      · rcases hnext with hnil | hnext
        · exact Or.inl (halike.plain.nil hnil)
        · exact Or.inr (halike.plain.head.trans hnext)
      · rcases chars with _ | ⟨c, chars⟩
        · exact absurd rfl hne
        · unfold EndsRaw at hends
          rw [List.cons_append, List.map_cons, List.cons_prefix_cons] at hends
          rw [toLower_eq '<' c (Or.inl rfl) hends.1.symm] at hchars
          exact absurd List.mem_cons_self hchars
  | angle rest segments hcomment htag h ih =>
      rcases ih (segmentsFit_tail f _ segments hfit) with ⟨rest', hrest, halike⟩
      refine ⟨'<' :: rest', .angle rest' _ (fun hopens => hcomment ?_) ?_ hrest,
        samePlain_angle rest rest', fun name hends hname => ?_⟩
      · have hback := halike.plain.symm.opens id rfl ['!', '-', '-'] (by decide)
        rw [List.map_id, List.map_id] at hback
        exact hback hopens
      · rw [halike.plain.head]
        exact htag
      · unfold EndsRaw at hends ⊢
        rw [List.map_cons, List.cons_prefix_cons] at hends ⊢
        refine ⟨hends.1, halike.plain.opens Char.toLower (by decide) _ ?_ hends.2⟩
        rw [List.mem_cons, not_or]
        exact ⟨by decide, hname⟩
  | comment body rest segments hbody h ih =>
      rcases ih (segmentsFit_tail f _ segments hfit) with ⟨rest', hrest, halike⟩
      refine ⟨body ++ rest', .comment body rest' _ (isComment_alike body rest rest' hbody
        halike.plain.nil) hrest, ?_⟩
      rcases opens_of_isComment body rest hbody with ⟨inner, rfl⟩
      refine ⟨samePlain_angle _ _, fun name hends _ => ?_⟩
      cases (endsRaw_cons_cons name '<' '!' _ hends).2
  | tag t text rest segments hname hnext hparts hraw h ih =>
      rcases ih (segmentsFit_tail f _ segments hfit) with ⟨rest', hrest, halike⟩
      rcases parts_mapClassValues f text t.items t.ending rest rest' hparts halike.plain.nil
        (hfit t List.mem_cons_self) with ⟨text', hparts', hstart⟩
      rw [← hstart.head] at hnext
      exact ⟨'<' :: (t.name ++ text'),
        .tag { t with items := t.items.map (Item.mapClassValue f) } text' rest' _ hname hnext
          hparts' hraw hrest, alike_tag t.name text text' hname⟩
  | rawTag t text contents rest segments hname hnext hparts hraw hcontents h ih =>
      rcases ih (segmentsFit_tail f _ segments (segmentsFit_tail f _ _ hfit)) with
        ⟨rest', hrest, halike⟩
      -- A tag that was cut off by the end had no contents, and what comes behind is still nothing.
      have hcut : contents ++ rest = [] → contents ++ rest' = [] := by
        intro hnil
        rcases List.append_eq_nil_iff.mp hnil with ⟨rfl, hnil⟩
        exact halike.plain.nil hnil
      rcases parts_mapClassValues f text t.items t.ending _ _ hparts hcut
        (hfit t List.mem_cons_self) with ⟨text', hparts', hstart⟩
      rw [← hstart.head] at hnext
      exact ⟨'<' :: (t.name ++ text'),
        .rawTag { t with items := t.items.map (Item.mapClassValue f) } text' contents rest' _ hname
          hnext hparts' hraw (isRaw_alike t.name contents rest rest' hname hcontents halike) hrest,
        alike_tag t.name text text' hname⟩

/-! ### The ids of words -/

theorem isBareChar_of_isAlpha (c : Char) (h : c.isAlpha = true) : isBareChar c = true := by
  unfold isBareChar Text.isAsciiBlank
  have hne : ∀ d : Char, d.isAlpha = false → (c == d) = false := by
    intro d hd
    rw [beq_eq_false_iff_ne]
    rintro rfl
    rw [h] at hd
    cases hd
  simp only [hne ' ' (by decide), hne '\t' (by decide), hne '\n' (by decide),
    hne '\x0c' (by decide), hne '\r' (by decide), hne '>' (by decide), Bool.or_self,
    Bool.not_false]

/-- The ids of words fit, if there is one word at most or there are quotation marks. Ids are
    letters, and the spaces between them do no harm between quotation marks. -/
theorem fits_renamedValue (ids : List Char → List Char) (value : List Char) (quoting : Quoting)
    (hids : ∀ word ∈ Text.words value, IsLetters (ids word))
    (hsingle : quoting = .bare → (Text.words value).length ≤ 1) :
    renamedValue ids value = value ∨ Fits (renamedValue ids value) quoting := by
  unfold renamedValue
  by_cases hnil : Text.words value = []
  · rw [if_pos hnil]
    exact Or.inl rfl
  rw [if_neg hnil]
  refine Or.inr ?_
  -- No mark gets into joined ids, being neither a letter nor a space.
  have hmark : ∀ mark : Char, mark ≠ ' ' → mark.isAlpha = false →
      mark ∉ joinWords ((Text.words value).map ids) := by
    intro mark hspace halpha hmem
    rcases Text.mem_joinWords _ mark hmem with h | ⟨id, hid, hmem⟩
    · exact hspace h
    · rcases List.mem_map.mp hid with ⟨word, hword, rfl⟩
      rw [(hids word hword).2 mark hmem] at halpha
      cases halpha
  cases quoting with
  | double => exact hmark '"' (by decide) (by decide)
  | single => exact hmark '\'' (by decide) (by decide)
  | bare =>
      have hlength := hsingle rfl
      rcases hwords : Text.words value with _ | ⟨word, _ | ⟨next, rest⟩⟩
      · exact absurd hwords hnil
      · have hletters := hids word (by rw [hwords]; exact List.mem_cons_self)
        have hhead : ∀ mark : Char, mark.isAlpha = false → (ids word).head? ≠ some mark := by
          intro mark halpha hhead
          rw [hletters.2 mark (List.mem_of_mem_head? hhead)] at halpha
          cases halpha
        exact ⟨hletters.1, fun c hc => isBareChar_of_isAlpha c (hletters.2 c hc),
          hhead '"' (by decide), hhead '\'' (by decide)⟩
      · rw [hwords, List.length_cons, List.length_cons] at hlength
        omega

/-- A value without quotation marks has only characters that such a value can have. By induction on
    the parts of the tag, the value being that of the first of them or of a later one. -/
theorem isBareChar_of_parts (text : List Char) (items : List Item) (ending : Ending)
    (rest : List Char) (h : Parts text items ending rest) (name link value : List Char)
    (hmem : .valued name link .bare value ∈ items) : ∀ c ∈ value, isBareChar c = true := by
  induction h with
  | closed => cases hmem
  | cut => cases hmem
  | openQuote => cases hmem
  | filler c text items ending rest _ _ _ ih | flag name text items ending rest _ _ _ _ ih =>
      rcases List.mem_cons.mp hmem with h | hmem
      · cases h
      · exact ih hmem
  | quoted name link value text quoting mark items ending rest _ _ hmark _ _ ih =>
      rcases List.mem_cons.mp hmem with h | hmem
      · cases h
        cases hmark
      · exact ih hmem
  | bare name link value text items ending rest _ _ hvalue _ _ _ _ ih =>
      rcases List.mem_cons.mp hmem with h | hmem
      · cases h
        exact hvalue
      · exact ih hmem

/-- A value without quotation marks has no ASCII blank in it, wherever in the document it stands,
    because the scanner would have ended the value there. -/
theorem isBareChar_of_divides (source : List Char) (segments : List Segment)
    (h : Divides source segments) (t : StartTag) (ht : .tag t ∈ segments)
    (name link value : List Char) (hmem : .valued name link .bare value ∈ t.items) :
    ∀ c ∈ value, isBareChar c = true := by
  induction h with
  | done => cases ht
  | text _ _ _ _ _ _ _ ih | angle _ _ _ _ _ ih | comment _ _ _ _ _ ih =>
      rcases List.mem_cons.mp ht with h | ht
      · cases h
      · exact ih ht
  | tag t text rest segments _ _ hparts _ _ ih =>
      rcases List.mem_cons.mp ht with h | ht
      · cases h
        exact isBareChar_of_parts text _ _ rest hparts name link value hmem
      · exact ih ht
  | rawTag t text contents rest segments _ _ hparts _ _ _ ih =>
      rcases List.mem_cons.mp ht with h | ht
      · cases h
        exact isBareChar_of_parts text _ _ _ hparts name link value hmem
      · rcases List.mem_cons.mp ht with h | ht
        · cases h
        · exact ih ht

/-! ### Renamed documents -/

theorem mem_classWords (segments : List Segment) (t : StartTag) (ht : .tag t ∈ segments)
    (name link value : List Char) (quoting : Quoting)
    (hmem : .valued name link quoting value ∈ t.items) (hclass : isClassAttribute name = true)
    (word : List Char) (hword : word ∈ Text.words value) : word ∈ classWords segments := by
  have hvalue : value ∈ Segment.classValues (.tag t) := by
    refine List.mem_filterMap.mpr ⟨_, hmem, ?_⟩
    rw [Item.classValue?, if_pos hclass]
  exact List.mem_flatMap.mpr ⟨value, List.mem_flatMap.mpr ⟨.tag t, ht, hvalue⟩, hword⟩

/-- If the division has stayed, no value without quotation marks has become several words. Several
    ids would be joined by spaces, and a space ends such a value. -/
theorem bareClassesSingle_of_divides (ids : List Char → List Char) (source : List Char)
    (segments : List Segment)
    (h : Divides source (segments.map (Segment.mapClassValues (renamedValue ids)))) :
    BareClassesSingle segments := by
  intro t name link value ht hmem hclass
  have htag : .tag { t with items := t.items.map (Item.mapClassValue (renamedValue ids)) }
      ∈ segments.map (Segment.mapClassValues (renamedValue ids)) :=
    List.mem_map_of_mem (f := Segment.mapClassValues (renamedValue ids)) ht
  have hitem : .valued name link .bare (renamedValue ids value)
      ∈ t.items.map (Item.mapClassValue (renamedValue ids)) := by
    refine List.mem_map.mpr ⟨_, hmem, ?_⟩
    rw [Item.mapClassValue, if_pos hclass]
  have hbare := isBareChar_of_divides source _ h _ htag name link _ hitem
  rcases hwords : Text.words value with _ | ⟨word, _ | ⟨next, rest⟩⟩
  · exact Nat.zero_le 1
  · exact Nat.le_refl 1
  · -- The second id would have a space in front of it.
    have hspace : ' ' ∈ renamedValue ids value := by
      rw [renamedValue, if_neg (by rw [hwords]; exact List.cons_ne_nil _ _), hwords, List.map_cons,
        List.map_cons, joinWords]
      · exact List.mem_append_right _ List.mem_cons_self
      · exact List.cons_ne_nil _ _
    cases hbare ' ' hspace

/-- A renamed document is divided as the original is, with the ids of the words in the values of the
    class attributes, exactly if no such value without quotation marks has several words. All ids
    are taken to be letters; the words are all in the store. -/
theorem segments_transform_iff (naming : Naming) (source : List Char) (r : Renamer)
    (hr : r.Agrees) (code : List Char) (after : Renamer)
    (htransform : transform (Renamer.renameClasses naming) source r = (code, after))
    (hids : ∀ id ∈ after.memory.map.ids, IsLetters id.toList) :
    (∀ word ∈ classWords (segments source), String.ofList word ∈ after.memory.map.names) ∧
      (segments code = (segments source).map
          (Segment.mapClassValues (renamedValue after.memory.map.renamed)) ↔
        BareClassesSingle (segments source)) := by
  rcases Renamer.mapClasses_of_later naming _ (classWords (segments source)) r hr
    (List.prefix_refl _) with ⟨hanswers, hknown⟩
  have hrename := renameSegments_eq naming _ (segments source) r hanswers
  rw [transform, hrename, Prod.mk.injEq] at htransform
  rcases htransform with ⟨hcode, hafter⟩
  rw [hafter] at hcode hknown
  have hletters : ∀ word ∈ classWords (segments source),
      IsLetters (after.memory.map.renamed word) := fun word hword =>
    ClassMap.forall_renamed _ IsLetters hids _ hknown _ (List.mem_map_of_mem hword)
  refine ⟨hknown, fun hsame => ?_, fun hsingle => ?_⟩
  · exact bareClassesSingle_of_divides _ code (segments source) ((divides_iff _ _).mpr hsame)
  -- All words of the document have ids, and those are letters.
  · have hfit : SegmentsFit (renamedValue after.memory.map.renamed) (segments source) := by
      intro t ht name link quoting value hmem hclass
      refine fits_renamedValue _ value quoting (fun word hword => hletters word
        (mem_classWords _ t ht name link value quoting hmem hclass word hword)) ?_
      rintro rfl
      exact hsingle t name link value ht hmem hclass
    rcases divides_mapClassValues _ source _ ((divides_iff source _).mpr rfl) hfit with
      ⟨source', hdivides, -⟩
    rw [← hcode, write_of_divides source' _ hdivides]
    exact (divides_iff source' _).mp hdivides

/-- A naming in which the id of a class is its name. -/
def ownNames : Naming := ⟨.allow, fun name _ _ => name⟩

theorem segments_transform_iff_ownNames :
    BareClassesSingle (segments "<p class='a b' CLASS=c>".toList) := by
  have hagrees : Renamer.Agrees ⟨{}, []⟩ := fun _ _ hseen => by cases hseen
  exact (segments_transform_iff ownNames "<p class='a b' CLASS=c>".toList ⟨{}, []⟩ hagrees _ _ rfl
    (by decide +kernel)).2.mp (by decide +kernel)

/-- A file with one attribute, in whose value a no-break space sets two words apart. -/
def spacedFile : List Char := "<p class=a\u00a0b>".toList

/-- The two words become two attributes. -/
theorem segments_transform_spacedFile :
    (∀ id ∈ (transform (Renamer.renameClasses ownNames) spacedFile ⟨{}, []⟩).2.memory.map.ids,
        IsLetters id.toList) ∧
      (transform (Renamer.renameClasses ownNames) spacedFile ⟨{}, []⟩).1
        = "<p class=a b>".toList ∧
      segments "<p class=a b>".toList ≠ (segments spacedFile).map
        (Segment.mapClassValues (renamedValue (transform (Renamer.renameClasses ownNames)
          spacedFile ⟨{}, []⟩).2.memory.map.renamed)) := by
  refine ⟨?_, ?_, ?_⟩ <;> decide +kernel

end Html

end ClassVeil
