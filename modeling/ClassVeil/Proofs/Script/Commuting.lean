import ClassVeil.Proofs.Renaming.Agreement
import ClassVeil.Proofs.Script.Evaluation
import ClassVeil.Proofs.Script.Exact

/-!
# Renaming commutes with evaluation

A class expression that is renamed and then evaluated yields what its value would have been renamed
to: it takes the same branches, and the words of its text are the ids of the words that the original
yields. Renaming sees each text by itself, so this hangs on what a renamed text shows to its
surroundings, which is more than its words. `Renders` lists it: whether the text is empty, because
that decides branches, and whether it begins and ends with a blank, because that keeps its words
apart from those of its neighbours.

The induction is on how the expression is put together. The ids are read off a later map, which all
of its texts share, so nothing has to be said about the order in which they were renamed: a map only
grows, and what was looked up in an earlier one is found in the later one.

Two things have to be asked for, and both are easy to see the need for. A sum of two texts must not
make one word of two (`Joins`), since `"p-" + "4"` is the class `p-4` for the browser and two
fragments for the renaming. And what the parts are worth that are no texts must not depend on the
texts, so these are the same for both evaluations. That is why a call whose arguments are renamed is
no class expression (`eval_visitClass_limits`).

## Main definitions

* `Renamer.Follows`: What a renamer becomes by renaming.
* `Renaming.SparesBlanks`: Nothing is done about a text without words.
* `Renders`, `SameValue`: A text that stands for another one, with the ids of its words.

## Theorems

* `follows_visitAs`: A visit leaves the renamer in agreement with a memory that has grown.
* `visitAs_of_untouched`: Where there are no words, the visit leaves everything as it is.
* `renders_renameFragment`, `renders_append`: A renamed text stands for the original; so do two
  behind one another.
* `sameValue_visitClass`: A renamed expression has the value of the original.
* `eval_visitClass`: The same for the renamer of a store.
-/

namespace ClassVeil

/-! ### What a visit does to the renamer -/

/-- What a renamer becomes by renaming. -/
structure Renamer.Follows (naming : Naming) (r later : Renamer) : Prop where
  agrees : later.Agrees
  grows : r.memory.map <+: later.memory.map
  reached : Memory.Reached naming r.memory → Memory.Reached naming later.memory

namespace Renamer

variable (naming : Naming)

theorem follows_refl (r : Renamer) (hr : r.Agrees) : Follows naming r r :=
  ⟨hr, List.prefix_refl _, id⟩

theorem follows_trans (r next later : Renamer) (h : Follows naming r next)
    (hnext : Follows naming next later) : Follows naming r later :=
  ⟨hnext.agrees, h.grows.trans hnext.grows, fun hreached => hnext.reached (h.reached hreached)⟩

theorem follows_replace (fragment : Bool) (text : List Char) (r : Renamer) (hr : r.Agrees) :
    Follows naming r (replace naming fragment text r).2 := by
  rcases mapClasses_eq naming (Text.words text) r hr with ⟨-, hmemory, hagrees⟩
  rw [(replace_cases naming fragment text r).1]
  refine ⟨hagrees, ?_, fun hreached => ?_⟩
  · rw [hmemory]
    exact Memory.prefix_getOrCreateAll naming _ r.memory
  · rw [hmemory]
    exact Memory.reached_getOrCreateAll naming _ r.memory hreached

end Renamer

namespace Script

variable (naming : Naming) (attributes : List String)

theorem follows_rewriteSites (list : List Site) (r : Renamer) (hr : r.Agrees) :
    Renamer.Follows naming r (rewriteSites (Renaming.byIds naming attributes) list r).2 := by
  induction list generalizing r with
  | nil => exact Renamer.follows_refl naming r hr
  | cons site rest ih =>
      have hfirst := Renamer.follows_replace naming site.fragment site.text r hr
      exact Renamer.follows_trans naming r _ _ hfirst (ih _ hfirst.agrees)

/-- A visit leaves the renamer in agreement with a memory that has grown. Nothing has to be known of
    the tree for this, for the visit only asks for the words of its sites. -/
theorem follows_visitAs (role : Role) (n : Node) (r : Renamer) (hr : r.Agrees) :
    Renamer.Follows naming r (visitAs (Renaming.byIds naming attributes) role n r).2 := by
  rw [visitAs_eq_replaceTexts]
  exact follows_rewriteSites naming attributes _ r hr

/-! ### Where nothing is renamed -/

/-- Nothing is done about a text without words: it is not replaced, and the rewriter stays as it
    is. -/
def Renaming.SparesBlanks {σ : Type} (r : Renaming σ) : Prop :=
  ∀ fragment text s, Text.words text = [] → r.rewrite fragment text s = (none, s)

theorem sparesBlanks_byIds : (Renaming.byIds naming attributes).SparesBlanks := by
  intro fragment text r hwords
  cases fragment with
  | true => exact Renamer.replace_of_words_nil naming true text r hwords
  | false => exact Renamer.replace_of_words_nil naming false text r hwords

section

variable {σ : Type} (r : Renaming σ) (hr : r.SparesBlanks)

include hr

/-- Texts without words come back without an answer, and the rewriter is none the wiser. So nothing
    is put anywhere, and what follows is renamed as if these texts were not there. -/
theorem rewriteSites_of_untouched (list : List Site) (s : σ)
    (h : ∀ site ∈ list, Text.words site.text = []) :
    (rewriteSites r list s).1.texts = (fun _ => none) ∧ (rewriteSites r list s).2 = s := by
  constructor
  -- An answer that is found anywhere is the answer to some site, and to none of these is there one.
  · funext a
    rw [Answers.texts]
    cases hlookup : (rewriteSites r list s).1.lookup a with
    | none => rfl
    | some answer =>
        rcases site_of_lookup r list s a answer hlookup with ⟨site, hsite, -, s', hanswer⟩
        rw [hr _ _ s' (h site hsite)] at hanswer
        rw [← hanswer]
        rfl
  · induction list with
    | nil => rfl
    | cons site rest ih =>
        rw [rewriteSites, hr _ _ s (h site List.mem_cons_self)]
        exact ih fun other hother => h other (List.mem_cons_of_mem site hother)

/-- Where there are no words, the visit leaves everything as it is: the node, with the spelling of
    its texts, and the state of the rewriter. This is what makes a test or a part without classes
    the same in both evaluations. -/
theorem visitAs_of_untouched (role : Role) (n : Node) (s : σ)
    (h : Untouched r.attributes role n) : visitAs r role n s = (n, s) := by
  rcases rewriteSites_of_untouched r hr _ s h with ⟨htexts, hafter⟩
  rw [visitAs_eq_replaceTexts, htexts, hafter, Node.replaceTexts_none]

/-- The last expression of a sequence is visited for its classes. Those in front of it are visited
    too, and stay what they are if there is nothing to be renamed in them. -/
theorem visitSequence_append (items : List Node) (last : Node) (s : σ)
    (h : ∀ item ∈ items, Untouched r.attributes .plain item) :
    visitSequence r (items ++ [last]) s
      = (items ++ [(visitClass r last s).1], (visitClass r last s).2) := by
  induction items with
  | nil => rfl
  | cons item items ih =>
      have hitem := visitAs_of_untouched r hr .plain item s (h item List.mem_cons_self)
      have hrest := ih fun other hother => h other (List.mem_cons_of_mem item hother)
      have hvisit : visitSequence r (item :: (items ++ [last])) s
          = ((visit r item s).1 :: (visitSequence r (items ++ [last]) (visit r item s).2).1,
            (visitSequence r (items ++ [last]) (visit r item s).2).2) := by
        rw [visitSequence]
        · rfl
        · intro hnil
          cases (List.append_eq_nil_iff.mp hnil).2
      rw [visitAs] at hitem
      rw [List.cons_append, hvisit, hitem, hrest]
      rfl

end

/-! ### Texts that stand for others -/

/-- A text that stands for another one, with the ids of its words. -/
structure Renders (later : ClassMap) (text text' : List Char) : Prop where
  words : Text.words text' = (Text.words text).map later.renamed
  known : ∀ word ∈ Text.words text, String.ofList word ∈ later.names
  empty : text' = [] ↔ text = []
  first : text'.head?.any Text.isBlank = text.head?.any Text.isBlank
  last : text'.getLast?.any Text.isBlank = text.getLast?.any Text.isBlank

/-- What is asked of ids: they are words, and a template with them stands for its spelling. -/
def IdsArePlain (later : ClassMap) : Prop :=
  ∀ id ∈ later.ids, Text.IsWord id.toList ∧ IsPlain id.toList

/-- A renamed text is the original, or it holds the ids of its words, with a blank at each end where
    the original has one. The ids are those of any later map. -/
theorem renameFragment_cases (later : ClassMap) (text : List Char) (r : Renamer) (hr : r.Agrees)
    (hlater : (Renamer.renameFragment naming text r).2.memory.map <+: later) :
    (∀ word ∈ Text.words text, String.ofList word ∈ later.names) ∧
    ((Text.words text = [] ∧ (Renamer.renameFragment naming text r).1 = none) ∨
      (Text.words text ≠ [] ∧ (Renamer.renameFragment naming text r).1
        = some (edge text.head? ++ joinWords ((Text.words text).map later.renamed)
            ++ edge text.getLast?))) := by
  have hstate := (Renamer.replace_cases naming true text r).1
  rw [Renamer.replace, if_pos rfl] at hstate
  rw [hstate] at hlater
  rcases Renamer.mapClasses_of_later naming later _ r hr hlater with ⟨hanswers, hknown⟩
  refine ⟨hknown, ?_⟩
  cases hwords : Text.words text with
  | nil =>
      refine Or.inl ⟨rfl, ?_⟩
      rw [Renamer.renameFragment, Renamer.renameClasses, hwords]
  | cons word rest =>
      refine Or.inr ⟨List.cons_ne_nil word rest, ?_⟩
      rw [hwords] at hanswers
      rw [Renamer.renameFragment, Renamer.renameClasses, hwords]
      simp only [hanswers]

/-- A renamed text stands for the original. If it has words, what is put together from their ids and
    the blanks at the two ends has the ids for words; an id has characters, so it is not empty then.
    -/
theorem renders_renameFragment (later : ClassMap) (hids : IdsArePlain later) (text : List Char)
    (r : Renamer) (hr : r.Agrees)
    (hlater : (Renamer.renameFragment naming text r).2.memory.map <+: later) :
    Renders later text ((Renamer.renameFragment naming text r).1.getD text) := by
  rcases renameFragment_cases naming later text r hr hlater with
    ⟨hknown, ⟨hwords, hnone⟩ | ⟨hwords, hsome⟩⟩
  · rw [hnone, Option.getD_none]
    exact ⟨by rw [hwords, List.map_nil], hknown, Iff.rfl, rfl, rfl⟩
  · have hne : (Text.words text).map later.renamed ≠ [] := by
      rw [ne_eq, List.map_eq_nil_iff]
      exact hwords
    have hwell := ClassMap.forall_renamed later Text.IsWord (fun id hid => (hids id hid).1) _ hknown
    rw [hsome, Option.getD_some]
    refine ⟨Text.words_edges _ _ _ hwell, hknown, ⟨fun hnil => ?_, fun hnil => ?_⟩,
      Text.any_head?_edges _ _ _ hne hwell, Text.any_getLast?_edges _ _ _ hne hwell⟩
    · rcases Text.ends_joinWords _ hne hwell with ⟨first, -, hfirst, -⟩
      have hjoined := (List.append_eq_nil_iff.mp (List.append_eq_nil_iff.mp hnil).1).2
      rw [hjoined] at hfirst
      cases hfirst
    · rw [hnil] at hwords
      exact absurd rfl hwords

/-- What a renamer answers with stands for its spelling in a template: nothing but ids and spaces is
    in it. -/
theorem isPlain_of_renameFragment (later : ClassMap) (hids : IdsArePlain later)
    (text text' : List Char) (r : Renamer) (hr : r.Agrees)
    (hlater : (Renamer.renameFragment naming text r).2.memory.map <+: later)
    (h : (Renamer.renameFragment naming text r).1 = some text') : IsPlain text' := by
  rcases renameFragment_cases naming later text r hr hlater with
    ⟨hknown, ⟨-, hnone⟩ | ⟨-, hsome⟩⟩
  · rw [hnone] at h
    cases h
  -- Every character of the answer is a space or stands in an id.
  · have hchars : ∀ c, c ≠ ' ' → (∀ id ∈ later.ids, c ∉ id.toList) →
        c ∉ edge text.head? ++ joinWords ((Text.words text).map later.renamed)
          ++ edge text.getLast? := by
      intro c hspace hc hmem
      have hedge : ∀ a, c ∉ edge a := by
        intro a ha
        unfold edge at ha
        split at ha
        · exact hspace (List.mem_singleton.mp ha)
        · cases ha
      rw [List.mem_append, List.mem_append] at hmem
      rcases hmem with (hmem | hmem) | hmem
      · exact hedge _ hmem
      · rcases Text.mem_joinWords _ c hmem with h | ⟨w, hw, hmem⟩
        · exact hspace h
        · exact ClassMap.forall_renamed later (c ∉ ·) hc _ hknown w hw hmem
      · exact hedge _ hmem
    rw [hsome, Option.some.injEq] at h
    rw [← h]
    exact ⟨hchars _ (by decide) fun id hid => (hids id hid).2.1,
      hchars _ (by decide) fun id hid => (hids id hid).2.2⟩

/-- A template whose text is renamed still stands for its spelling. -/
theorem isPlain_renameFragment (later : ClassMap) (hids : IdsArePlain later) (text : List Char)
    (htext : IsPlain text) (r : Renamer) (hr : r.Agrees)
    (hlater : (Renamer.renameFragment naming text r).2.memory.map <+: later) :
    IsPlain ((Renamer.renameFragment naming text r).1.getD text) := by
  cases hanswer : (Renamer.renameFragment naming text r).1 with
  | none => exact htext
  | some text' =>
      exact isPlain_of_renameFragment naming later hids text text' r hr hlater hanswer

/-- Texts that join have their words side by side. -/
theorem words_append_of_joins (s t : List Char) (h : Joins s t) :
    Text.words (s ++ t) = Text.words s ++ Text.words t := by
  rcases h with rfl | rfl | h | h
  · rfl
  · rw [List.append_nil, Text.words_nil, List.append_nil]
  · exact Text.words_append_of_blank s t h
  · refine Text.words_append_of_endsWord s t fun c hc => ?_
    rw [hc, Option.any_some] at h
    exact h

/-- Texts that stand for others do so behind one another, if the others join. Then the ones that
    stand for them join as well, for that is decided by what `Renders` keeps: emptiness and the
    blanks at the ends. -/
theorem renders_append (later : ClassMap) (s s' t t' : List Char) (hs : Renders later s s')
    (ht : Renders later t t') (hjoin : Joins s t) : Renders later (s ++ t) (s' ++ t') := by
  have hjoin' : Joins s' t' := by
    unfold Joins
    rw [hs.empty, ht.empty, hs.last, ht.first]
    exact hjoin
  refine ⟨?_, fun word hword => ?_, ?_, ?_, ?_⟩
  · rw [words_append_of_joins s t hjoin, words_append_of_joins s' t' hjoin', hs.words, ht.words,
      List.map_append]
  · rw [words_append_of_joins s t hjoin, List.mem_append] at hword
    rcases hword with hword | hword
    · exact hs.known word hword
    · exact ht.known word hword
  · rw [List.append_eq_nil_iff, List.append_eq_nil_iff, hs.empty, ht.empty]
  -- The first character is that of the first text, unless this is empty; then the other one is
  -- empty too.
  · by_cases hnil : s = []
    · rw [hs.empty.mpr hnil, hnil]
      exact ht.first
    · rw [List.head?_append_of_ne_nil _ hnil,
        List.head?_append_of_ne_nil _ fun h => hnil (hs.empty.mp h)]
      exact hs.first
  · by_cases hnil : t = []
    · rw [ht.empty.mpr hnil, hnil, List.append_nil, List.append_nil]
      exact hs.last
    · rw [List.getLast?_append_of_ne_nil _ hnil,
        List.getLast?_append_of_ne_nil _ fun h => hnil (ht.empty.mp h)]
      exact ht.last

/-! ### Outcomes -/

section Outcomes

variable {α : Type} (m : Meaning α)

/-- A value that stands for another one: a text for a text, and anything else for itself. -/
inductive SameValue (later : ClassMap) : Value α → Value α → Prop where
  | text (chars chars' : List Char) (h : Renders later chars chars') :
      SameValue later (.text chars) (.text chars')
  | other (value : α) : SameValue later (.other value) (.other value)

/-- An outcome that stands for another one: the same branches were taken on the way to it. -/
structure SameOutcome (later : ClassMap) (o o' : Outcome α) : Prop where
  value : SameValue later o.value o'.value
  decisions : o'.decisions = o.decisions

variable {m}

theorem holds_of_sameValue (later : ClassMap) (v v' : Value α) (h : SameValue later v v') :
    m.holds v' = m.holds v := by
  cases h with
  | text chars chars' h => exact decide_eq_decide.mpr (not_congr h.empty)
  | other value => rfl

theorem isMissing_of_sameValue (later : ClassMap) (v v' : Value α) (h : SameValue later v v') :
    m.isMissing v' = m.isMissing v := by
  cases h with
  | text chars chars' h => rfl
  | other value => rfl

theorem sumsJoin_of_subset (o whole : Outcome α) (h : o.events ⊆ whole.events)
    (hsums : whole.SumsJoin) : o.SumsJoin :=
  fun left right hmem => hsums left right (h hmem)

theorem sumsJoin_of_orElse (left right : Outcome α) (place : Address) (keep : Bool)
    (hsums : (left.orElse place keep right).SumsJoin) : left.SumsJoin := by
  refine sumsJoin_of_subset left _ ?_ hsums
  cases keep with
  | true => exact List.subset_append_left _ _
  | false => exact List.subset_append_left _ _

theorem decisions_orElse (left right : Outcome α) (place : Address) (keep : Bool) :
    (left.orElse place keep right).decisions
      = left.decisions ++ (place, keep) :: if keep then [] else right.decisions := by
  cases keep with
  | true => exact List.filterMap_append
  | false => exact List.filterMap_append

theorem sameOutcome_chosen (later : ClassMap) (branch branch' : Outcome α) (place : Address)
    (held : Bool) (hbranch : branch.SumsJoin → SameOutcome later branch branch')
    (hsums : (Outcome.chosen place held branch).SumsJoin) :
    SameOutcome later (Outcome.chosen place held branch) (Outcome.chosen place held branch') := by
  have hsame := hbranch (sumsJoin_of_subset branch _ (List.subset_cons_self _ _) hsums)
  refine ⟨hsame.value, ?_⟩
  have hdecisions : ∀ o : Outcome α,
      (Outcome.chosen place held o).decisions = (place, held) :: o.decisions := fun _ => rfl
  rw [hdecisions, hdecisions, hsame.decisions]

/-- An operator whose operands have the same outcomes as those of another has the same outcome, if
    it takes the same operand. What is assumed about the sums of an operand is asked for only where
    the operand is evaluated. -/
theorem sameOutcome_orElse (later : ClassMap) (left left' right right' : Outcome α)
    (place : Address) (keep keep' : Bool) (hkeep : keep' = keep)
    (hleft : left.SumsJoin → SameOutcome later left left')
    (hright : right.SumsJoin → SameOutcome later right right')
    (hsums : (left.orElse place keep right).SumsJoin) :
    SameOutcome later (left.orElse place keep right) (left'.orElse place keep' right') := by
  have hfirst := hleft (sumsJoin_of_orElse left right place keep hsums)
  rw [hkeep]
  cases keep with
  | true =>
      refine ⟨hfirst.value, ?_⟩
      rw [decisions_orElse, decisions_orElse, hfirst.decisions, if_pos rfl, if_pos rfl]
  | false =>
      have hsecond := hright (sumsJoin_of_subset right _ (fun event hevent =>
        List.mem_append_right _ (List.mem_cons_of_mem _ hevent)) hsums)
      refine ⟨hsecond.value, ?_⟩
      rw [decisions_orElse, decisions_orElse, hfirst.decisions, hsecond.decisions]

/-- Texts that join are added up to texts that stand for one another. This is the only place where
    it matters which texts are added up: all other operators hand on one of their operands. -/
theorem sameOutcome_plus (later : ClassMap) (left left' right right' : Outcome α)
    (hleft : left.SumsJoin → SameOutcome later left left')
    (hright : right.SumsJoin → SameOutcome later right right')
    (hsums : (Outcome.plus m left right).SumsJoin) :
    SameOutcome later (Outcome.plus m left right) (Outcome.plus m left' right') := by
  have hfirst := hleft (sumsJoin_of_subset left _ (fun event hevent =>
    List.mem_append_left _ (List.mem_append_left _ hevent)) hsums)
  have hsecond := hright (sumsJoin_of_subset right _ (fun event hevent =>
    List.mem_append_left _ (List.mem_append_right _ hevent)) hsums)
  -- The last event is this sum, so both values are texts, and they join.
  rcases hsums left.value right.value (List.mem_append_right _ List.mem_cons_self) with
    ⟨s, t, hs, ht, hjoin⟩
  unfold Outcome.plus
  refine ⟨?_, ?_⟩
  · have hvalue := hfirst.value
    have hother := hsecond.value
    simp only []
    rw [hs] at hvalue ⊢
    rw [ht] at hother ⊢
    generalize left'.value = v at hvalue ⊢
    generalize right'.value = w at hother ⊢
    cases hvalue with
    | text _ s' hs' =>
        cases hother with
        | text _ t' ht' => exact .text _ _ (renders_append later s s' t t' hs' ht' hjoin)
  · have hdecisions : ∀ (o p : Outcome α) (event : Event α), event.decision? = none →
        (o.events ++ p.events ++ [event]).filterMap Event.decision?
          = o.decisions ++ p.decisions := by
      intro o p event hevent
      rw [List.filterMap_append, List.filterMap_append, List.filterMap_cons_none hevent,
        List.filterMap_nil, List.append_nil]
      rfl
    unfold Outcome.decisions
    simp only []
    rw [hdecisions left' right' _ rfl, hdecisions left right _ rfl, hfirst.decisions,
      hsecond.decisions]

end Outcomes

/-! ### Expressions -/

section Visit

variable {σ : Type} (r : Renaming σ) (s : σ)

theorem visitClass_conditional (hr : r.SparesBlanks) (span : Span) (test yes no : Node)
    (htest : Untouched r.attributes .plain test) :
    visitClass r (.conditional span test yes no) s
      = (.conditional span test (visitClass r yes s).1
          (visitClass r no (visitClass r yes s).2).1,
        (visitClass r no (visitClass r yes s).2).2) := by
  have hkept := visitAs_of_untouched r hr .plain test s htest
  rw [visitAs] at hkept
  have hvisit : visitClass r (.conditional span test yes no) s
      = (.conditional span (visit r test s).1 (visitClass r yes (visit r test s).2).1
          (visitClass r no (visitClass r yes (visit r test s).2).2).1,
        (visitClass r no (visitClass r yes (visit r test s).2).2).2) := by
    rw [visitClass]
    rfl
  rw [hvisit, hkept]

theorem visitClass_and (hr : r.SparesBlanks) (span : Span) (left right : Node)
    (hleft : Untouched r.attributes .plain left) :
    visitClass r (.binary span .and left right) s
      = (.binary span .and left (visitClass r right s).1, (visitClass r right s).2) := by
  have hkept := visitAs_of_untouched r hr .plain left s hleft
  rw [visitAs] at hkept
  have hvisit : visitClass r (.binary span .and left right) s
      = (.binary span .and (visit r left s).1 (visitClass r right (visit r left s).2).1,
        (visitClass r right (visit r left s).2).2) := by
    rw [visitClass]
    rfl
  rw [hvisit, hkept]

/-- An operator that chooses between its operands or adds them up has both of them visited, from
    left to right. -/
theorem visitClass_operands (span : Span) (op : BinaryOp) (left right : Node)
    (hop : op = .or ∨ op = .nullish ∨ op = .add) :
    visitClass r (.binary span op left right) s
      = (.binary span op (visitClass r left s).1
          (visitClass r right (visitClass r left s).2).1,
        (visitClass r right (visitClass r left s).2).2) := by
  rcases hop with rfl | rfl | rfl
  · rw [visitClass]
    · rfl
    · exact fun h => by cases h
    · exact fun _ h => by cases h
  · rw [visitClass]
    · rfl
    · exact fun h => by cases h
    · exact fun _ h => by cases h
  · rw [visitClass]
    · rfl
    · exact fun h => by cases h
    · exact fun _ h => by cases h

theorem visitClass_paren (span : Span) (inner : Node) :
    visitClass r (.paren span inner) s
      = (.paren span (visitClass r inner s).1, (visitClass r inner s).2) := by
  rw [visitClass]
  rfl

theorem visitClass_sequence (hr : r.SparesBlanks) (span : Span) (items : List Node) (last : Node)
    (hitems : ∀ item ∈ items, Untouched r.attributes .plain item) :
    visitClass r (.sequence span (items ++ [last])) s
      = (.sequence span (items ++ [(visitClass r last s).1]), (visitClass r last s).2) := by
  have hvisit : visitClass r (.sequence span (items ++ [last])) s
      = (.sequence span (visitSequence r (items ++ [last]) s).1,
        (visitSequence r (items ++ [last]) s).2) := by
    rw [visitClass]
    rfl
  rw [hvisit, visitSequence_append r hr items last s hitems]

theorem visitClass_literal (span : Span) (text : List Char) (raw : Option (List Char)) :
    ∃ raw', visitClass r (.str span (some text) raw) s
      = (.str span (some ((r.fragment text s).1.getD text)) raw', (r.fragment text s).2) := by
  rw [visitClass, renameText, Option.getD_some]
  rcases r.fragment text s with ⟨_ | renamed, after⟩
  · exact ⟨raw, rfl⟩
  · exact ⟨none, rfl⟩

theorem visitClass_template (span : Span) (piece : List Char) :
    visitClass r (.template span [piece] []) s
      = (.template span [(r.fragment piece s).1.getD piece] [], (r.fragment piece s).2) := by
  rw [visitClass, renamePiece]
  rcases r.fragment piece s with ⟨_ | renamed, after⟩
  · rfl
  · rfl

end Visit

/-- A renamed expression has an outcome that stands for that of the original. The induction is on
    how the expression is put together; the hypothesis about sums reaches an operand only if it is
    evaluated. -/
theorem sameOutcome_visitClass {α : Type} (m : Meaning α) (later : ClassMap)
    (hids : IdsArePlain later) (n : Node) (hexpr : ClassExpr attributes n) (place : Address)
    (r : Renamer) (hr : r.Agrees)
    (hlater : (visitClass (Renaming.byIds naming attributes) n r).2.memory.map <+: later)
    (hsums : (eval m place n).SumsJoin) :
    SameOutcome later (eval m place n)
      (eval m place (visitClass (Renaming.byIds naming attributes) n r).1) := by
  have hspares := sparesBlanks_byIds naming attributes
  have hfollows : ∀ n r, r.Agrees →
      Renamer.Follows naming r (visitClass (Renaming.byIds naming attributes) n r).2 :=
    fun n r hr => follows_visitAs naming attributes .list n r hr
  induction hexpr generalizing place r with
  | literal span text raw =>
      rcases visitClass_literal (Renaming.byIds naming attributes) r span text raw with
        ⟨raw', hvisit⟩
      rw [hvisit] at hlater ⊢
      exact ⟨.text _ _ (renders_renameFragment naming later hids text r hr hlater), rfl⟩
  | template span piece hplain =>
      rw [visitClass_template] at hlater ⊢
      have hrenders := renders_renameFragment naming later hids piece r hr hlater
      have hplain' := isPlain_renameFragment naming later hids piece hplain r hr hlater
      -- Neither the spelling nor the answer has a character that would be read as an escape.
      have hvalue : Renders later (cooked piece)
          (cooked ((Renamer.renameFragment naming piece r).1.getD piece)) := by
        rw [cooked_of_isPlain _ hplain', cooked_of_isPlain piece hplain]
        exact hrenders
      exact ⟨.text _ _ hvalue, rfl⟩
  | part n hpart hkept =>
      have hvisit := visitAs_of_untouched _ hspares .list n r hkept
      rw [visitAs] at hvisit
      rw [hvisit, eval_part m place n hpart]
      exact ⟨.other _, rfl⟩
  -- Both branches are renamed and one is evaluated. The first one is renamed with an earlier map,
  -- and its ids are still there later.
  | conditional span test yes no htest hyes hno ihyes ihno =>
      rw [visitClass_conditional _ r hspares span test yes no htest] at hlater ⊢
      have hfirst := hfollows yes r hr
      have hsecond := hfollows no _ hfirst.agrees
      rw [eval_conditional] at hsums ⊢
      rw [eval_conditional]
      refine sameOutcome_chosen later _ _ place _ (fun hbranch => ?_) hsums
      cases htest : m.test (place ++ [0]) test with
      | true =>
          rw [htest] at hbranch
          exact ihyes (place ++ [1]) r hr (hsecond.grows.trans hlater) hbranch
      | false =>
          rw [htest] at hbranch
          exact ihno (place ++ [2]) _ hfirst.agrees hlater hbranch
  | and span left right hleft hright ih =>
      rw [visitClass_and _ r hspares span left right hleft] at hlater ⊢
      rw [eval_and] at hsums ⊢
      rw [eval_and]
      exact sameOutcome_orElse later _ _ _ _ place _ _ rfl (fun _ => ⟨.other _, rfl⟩)
        (ih (place ++ [1]) r hr hlater) hsums
  | operands span op left right hop hleft hright ihleft ihright =>
      rw [visitClass_operands _ r span op left right hop] at hlater ⊢
      have hfirst := hfollows left r hr
      have hsecond := hfollows right _ hfirst.agrees
      have hsame := ihleft (place ++ [0]) r hr (hsecond.grows.trans hlater)
      have hother := ihright (place ++ [1]) _ hfirst.agrees hlater
      rcases hop with rfl | rfl | rfl
      · rw [eval_or] at hsums ⊢
        rw [eval_or]
        -- Whether the left operand is the value depends on whether it is empty, and that is the
        -- same.
        have hkeep := sumsJoin_of_orElse _ _ place _ hsums
        exact sameOutcome_orElse later _ _ _ _ place _ _
          (holds_of_sameValue later _ _ (hsame hkeep).value) hsame hother hsums
      · rw [eval_nullish] at hsums ⊢
        rw [eval_nullish]
        have hkeep := sumsJoin_of_orElse _ _ place _ hsums
        exact sameOutcome_orElse later _ _ _ _ place _ _
          (congrArg (!·) (isMissing_of_sameValue later _ _ (hsame hkeep).value)) hsame hother hsums
      · rw [eval_add] at hsums ⊢
        rw [eval_add]
        exact sameOutcome_plus later _ _ _ _ hsame hother hsums
  | paren span inner hinner ih =>
      rw [visitClass_paren] at hlater ⊢
      rw [eval_paren] at hsums ⊢
      rw [eval_paren]
      exact ih (place ++ [0]) r hr hlater hsums
  | sequence span items last hitems hlast ih =>
      rw [visitClass_sequence _ r hspares span items last hitems] at hlater ⊢
      rw [eval_sequence] at hsums ⊢
      rw [eval_sequence]
      exact ih (place ++ [items.length]) r hr hlater hsums

/-- An id of a store is a word, and a template with it stands for its spelling. -/
theorem idsArePlain_of_openAt (current root : String) (config : Config) (stream : Nat → String)
    (opened : Store) (hopen : Store.openAt current root config stream = .ok opened)
    (hdraws : config.Draws stream) (memory : Memory)
    (hmemory : Memory.Reached opened.naming memory) : IdsArePlain memory.map := by
  intro id hid
  have hword := Store.isWord_of_openAt current root config stream opened hopen hdraws memory hmemory
  have hletters := (Store.isId_of_openAt current root config stream opened hopen
    (config.isId_of_draws stream hdraws) memory hmemory id hid).2
  -- Neither of the two characters is a letter.
  exact ⟨hword id hid, fun hmem => absurd (hletters _ hmem) (by decide),
    fun hmem => absurd (hletters _ hmem) (by decide)⟩

/-- Renaming commutes with evaluation. A class expression is renamed by a file's renamer over a
    store that was opened and has done anything before. Whatever the parts of it are worth that are
    no texts, as long as all that is added up are texts that join: the renamed expression takes the
    same branches, has the same value if that is no text, and otherwise has a text whose words are
    the ids that the store has for the words of the original. -/
theorem eval_visitClass (current root : String) (config : Config) (stream : Nat → String)
    (opened : Store) (hopen : Store.openAt current root config stream = .ok opened)
    (hdraws : config.Draws stream) (attributes : List String) (n : Node)
    (hexpr : ClassExpr attributes n) (r : Renamer) (hr : r.Agrees)
    (hreached : Memory.Reached opened.naming r.memory) (renamed : Node) (after : Renamer)
    (hvisit : visitClass (Renaming.byIds opened.naming attributes) n r = (renamed, after))
    {α : Type} (m : Meaning α) (place : Address) (hsums : (eval m place n).SumsJoin) :
    (eval m place renamed).decisions = (eval m place n).decisions ∧
      (∀ value, (eval m place n).value = .other value →
        (eval m place renamed).value = .other value) ∧
      ∀ text, (eval m place n).value = .text text →
        ∃ text', (eval m place renamed).value = .text text' ∧
          Text.words text' = (Text.words text).map after.memory.map.renamed ∧
          ∀ word ∈ Text.words text, String.ofList word ∈ after.memory.map.names := by
  have hfollows := follows_visitAs opened.naming attributes .list n r hr
  rw [visitAs, hvisit] at hfollows
  have hids := idsArePlain_of_openAt current root config stream opened hopen hdraws after.memory
    (hfollows.reached hreached)
  have hsame := sameOutcome_visitClass opened.naming attributes m after.memory.map hids n hexpr
    place r hr (by rw [hvisit]) hsums
  rw [hvisit] at hsame
  simp only [] at hsame
  refine ⟨hsame.decisions, fun value hvalue => ?_, fun text htext => ?_⟩
  · have hsame := hsame.value
    rw [hvalue] at hsame
    generalize (eval m place renamed).value = v at hsame ⊢
    cases hsame with
    | other => rfl
  · have hsame := hsame.value
    rw [htext] at hsame
    generalize (eval m place renamed).value = v at hsame ⊢
    cases hsame with
    | text _ text' hrenders => exact ⟨text', rfl, hrenders.words, hrenders.known⟩

/-- The expression `"p-4 " + (open ? extra ?? "md:flex" : "")`. -/
def padded : Node :=
  .binary ⟨0, 41⟩ .add (.str ⟨0, 6⟩ (some "p-4 ".toList) none)
    (.paren ⟨9, 41⟩ (.conditional ⟨10, 40⟩ (.form .name ⟨10, 14⟩ ["open"] [])
      (.binary ⟨17, 35⟩ .nullish (.form .name ⟨17, 22⟩ ["extra"] [])
        (.str ⟨26, 35⟩ (some "md:flex".toList) none))
      (.str ⟨38, 40⟩ (some []) none)))

/-- All tests hold, and all that is no text is missing. -/
def allHold : Meaning Unit :=
  { test := fun _ _ => true, part := fun _ _ => (), truthy := fun _ => false,
    nullish := fun _ => true, sum := fun left _ => left }

/-- A sum of a text and a choice, evaluated after its renaming: the two words of its value have
    become their ids, although they come from two texts. -/
theorem eval_visitClass_padded :
    ∃ text', (eval allHold [] (visitClass (Renaming.byIds twoIdsStore.naming ["className"]) padded
        ⟨{}, []⟩).1).value = .text text' ∧
      Text.words text' = ["abcdefgh".toList, "ijklmnop".toList] := by
  have hagrees : Renamer.Agrees ⟨{}, []⟩ := fun _ _ hseen => by cases hseen
  have hchoice : ClassExpr ["className"] (.binary ⟨17, 35⟩ .nullish
      (.form .name ⟨17, 22⟩ ["extra"] []) (.str ⟨26, 35⟩ (some "md:flex".toList) none)) :=
    .operands _ .nullish _ _ (Or.inr (Or.inl rfl))
      (.part _ trivial (untouched_of_plain_children _ _ rfl (Or.inr ⟨_, _, _, _, rfl⟩)))
      (.literal _ _ _)
  have hexpr : ClassExpr ["className"] padded :=
    .operands _ .add _ _ (Or.inr (Or.inr rfl)) (.literal _ _ _)
      (.paren _ _ (.conditional _ _ _ _ (untouched_of_hasMarkup _ _ rfl) hchoice
        (.literal _ _ _)))
  have hsums : (eval allHold [] padded).SumsJoin := by
    intro left right hmem
    have hevents : (eval allHold [] padded).events = [.choice [1, 0] true,
        .choice [1, 0, 1] false, .sum (.text "p-4 ".toList) (.text "md:flex".toList)] := rfl
    rw [hevents] at hmem
    rcases List.mem_cons.mp hmem with h | hmem
    · cases h
    rcases List.mem_cons.mp hmem with h | hmem
    · cases h
    cases List.mem_singleton.mp hmem
    exact ⟨_, _, rfl, rfl, Or.inr (Or.inr (Or.inl rfl))⟩
  have htext : (eval allHold [] padded).value = .text "p-4 md:flex".toList := rfl
  have hrenamed := (eval_visitClass "/" "." { mapPath := "m.json" } twoIds twoIdsStore rfl
    isId_twoIds ["className"] padded hexpr ⟨{}, []⟩ hagrees Memory.Reached.empty _ _
    (Prod.eta _).symm allHold [] hsums).2.2 _ htext
  exact hrenamed.imp fun text' h => ⟨h.1, h.2.1.trans (by decide +kernel)⟩

/-- The expression `has("p-4") || "m-2"`. -/
def asked : Node :=
  .binary ⟨0, 19⟩ .or
    (.call ⟨0, 10⟩ (.form .name ⟨0, 3⟩ ["has"] []) .absent [.str ⟨4, 9⟩ (some "p-4".toList) none])
    (.str ⟨14, 19⟩ (some "m-2".toList) none)

/-- A call says whether it is about `p-4`. -/
def asksPadding : Meaning Bool :=
  { test := fun _ _ => true
    part := fun _ n => match n with
      | .call _ _ _ [.str _ (some text) _] => text == "p-4".toList
      | _ => false
    truthy := id
    nullish := fun _ => false
    sum := fun left _ => left }

/-- A text that is not well-formed keeps its words, and a call that texts are passed to may have
    another value when these are renamed. -/
theorem eval_visitClass_limits :
    (∃ text, (eval allHold [] unpaired).value = .text text ∧ "p-4".toList ∈ Text.words text ∧
      ∀ naming r, visitClass (Renaming.byIds naming ["className"]) unpaired r = (unpaired, r)) ∧
    (eval asksPadding [] asked).value = .other true ∧
      ∃ text, (eval asksPadding [] (visitClass (Renaming.byIds twoIdsStore.naming ["className"])
        asked ⟨{}, []⟩).1).value = .text text := by
  refine ⟨⟨_, rfl, ?_, fun naming r => rfl⟩, rfl, _, rfl⟩
  decide +kernel

end Script

end ClassVeil
