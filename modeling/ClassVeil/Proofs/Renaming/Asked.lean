import ClassVeil.Proofs.Markup.Exact
import ClassVeil.Proofs.Renaming.Session
import ClassVeil.Proofs.Script.Exact
import ClassVeil.Script.Transform

/-!
# What a file asks for

The renaming of a file, of markup or of script, is a conversation with its renamer: it asks for some
words in an order that the file alone decides, and the text that comes out is made of the answers
(`Asks`). Whatever is to be said about a renaming can be said about these words instead.

In particular a renaming can be repeated. The ids that it was given are in the memory, so if it asks
again it is given the same ones, however much the memory has grown in between, and nothing new is
assigned (`Asks.again`).

The words are those of the class attributes of a document, and those at the sites of a script. For
each kind of file it has been shown elsewhere what its renaming does; here this is turned into an
order of questions. A third kind of file would have to be shown to ask for some words as well, and
then all the rest would hold of it, up to the transformation with its flush at the end.

## Main definitions

* `Renamer.Asks`: The renaming asks for these words, and all else follows from the answers.
* `Renamer.Keeps`: What the renamer has met is in the memory.
* `Job`, `Job.rename?`: A file that is to be transformed, and the renaming of its classes.
* `Store.transform`: The transformation of a file.

## Theorems

* `mapClasses_again`: Whoever asks again is given the same answers.
* `asks_transform`, `asks_renameScript`: What files of markup and of script ask for.
* `exists_asks`: The same for any file that can be read.
* `transform_of_rename`: A transformation is a renaming, and then a flush if one is due.
-/

namespace ClassVeil

namespace Renamer

variable (naming : Naming)

/-- What the renamer has met is in the memory. -/
def Keeps (r : Renamer) : Prop := ∀ pair ∈ r.seen, pair ∈ r.memory.map

/-- The answer to a class, and what the renamer has become: the class was met before, or the memory
    was asked. -/
theorem mapClass_cases (name : String) (r : Renamer) :
    (∃ id, r.seen.get? name = some id ∧ mapClass naming name r = (id, r)) ∨
    (r.seen.get? name = none ∧ mapClass naming name r
      = ((r.memory.getOrCreate naming name).1, ⟨(r.memory.getOrCreate naming name).2,
        r.seen ++ [(name, (r.memory.getOrCreate naming name).1)]⟩)) := by
  rw [mapClass]
  cases hseen : r.seen.get? name with
  | some id => exact Or.inl ⟨id, rfl, rfl⟩
  | none =>
      refine Or.inr ⟨rfl, ?_⟩
      simp only []
      rw [ClassMap.insert_of_not_mem r.seen name _ ((ClassMap.get?_eq_none_iff _ _).mp hseen)]

theorem prefix_mapClass (name : String) (r : Renamer) :
    r.memory.map <+: (mapClass naming name r).2.memory.map := by
  rcases mapClass_cases naming name r with ⟨id, -, heq⟩ | ⟨-, heq⟩
  · rw [heq]
  · rw [heq]
    exact Memory.prefix_getOrCreate naming r.memory name

theorem prefix_mapClasses (words : List (List Char)) (r : Renamer) :
    r.memory.map <+: (mapClasses naming words r).2.memory.map := by
  induction words generalizing r with
  | nil => exact List.prefix_refl r.memory.map
  | cons word rest ih =>
      rw [mapClasses]
      exact (prefix_mapClass naming (String.ofList word) r).trans (ih _)

theorem keeps_mapClass (name : String) (r : Renamer) (hr : r.Keeps) :
    (mapClass naming name r).2.Keeps := by
  have hgrow := prefix_mapClass naming name r
  rcases mapClass_cases naming name r with ⟨id, -, heq⟩ | ⟨-, heq⟩
  · rw [heq]
    exact hr
  · rw [heq] at hgrow ⊢
    intro pair hpair
    rcases List.mem_append.mp hpair with hold | hnew
    · exact hgrow.subset (hr pair hold)
    · rw [List.mem_singleton.mp hnew]
      exact ClassMap.mem_of_get? _ _ _ (Memory.get?_getOrCreate naming r.memory name)

theorem keeps_mapClasses (words : List (List Char)) (r : Renamer) (hr : r.Keeps) :
    (mapClasses naming words r).2.Keeps := by
  induction words generalizing r with
  | nil => exact hr
  | cons word rest ih =>
      rw [mapClasses]
      exact ih _ (keeps_mapClass naming (String.ofList word) r hr)

/-! ### Asking again -/

/-- Whoever asks a memory again that has grown since is given the same answer, and changes nothing.
    The renamer begins where it began the first time, with only the memory being a later one. -/
theorem mapClass_again (name : String) (r : Renamer) (memory : Memory)
    (h : (mapClass naming name r).2.memory.map <+: memory.map) :
    mapClass naming name ⟨memory, r.seen⟩
      = ((mapClass naming name r).1, ⟨memory, (mapClass naming name r).2.seen⟩) := by
  rcases mapClass_cases naming name r with ⟨id, hseen, heq⟩ | ⟨hseen, heq⟩
  · rw [heq, mapClass]
    simp only [hseen]
  · rw [heq] at h ⊢
    -- The renamer has not met the class the second time either, but the memory knows it by now.
    have hget : memory.map.get? name = some (r.memory.getOrCreate naming name).1 := by
      rcases h with ⟨more, hmore⟩
      rw [← hmore]
      exact ClassMap.get?_append_left _ more _ _ (Memory.get?_getOrCreate naming r.memory name)
    have hasked : memory.getOrCreate naming name
        = ((r.memory.getOrCreate naming name).1, memory) := by
      rw [Memory.getOrCreate, Memory.get?, hget]
    rcases mapClass_cases naming name ⟨memory, r.seen⟩ with ⟨id, hmet, -⟩ | ⟨-, hnew⟩
    · simp only [hseen] at hmet
      cases hmet
    · rw [hnew]
      simp only [hasked]

/-- Asking again, with a memory that has all the answers already, gives the same answers and changes
    nothing in that memory. What the renamer has met is as it was after the first time. -/
theorem mapClasses_again (words : List (List Char)) (r : Renamer) (memory : Memory)
    (h : (mapClasses naming words r).2.memory.map <+: memory.map) :
    mapClasses naming words ⟨memory, r.seen⟩
      = ((mapClasses naming words r).1, ⟨memory, (mapClasses naming words r).2.seen⟩) := by
  -- The later memory stays the same throughout, since nobody changes it any more.
  induction words generalizing r with
  | nil => rfl
  | cons word rest ih =>
      rw [mapClasses] at h
      -- The words after the first take nothing out of the map again.
      have hfirst := mapClass_again naming (String.ofList word) r memory
        ((prefix_mapClasses naming rest _).trans h)
      rw [mapClasses, mapClasses, hfirst]
      simp only [ih _ h]

/-! ### Renamings as conversations -/

/-- The renaming asks for these words, and what comes out depends on the answers only. It may not
    look at the map of the renamer or at the memory, except by asking. -/
structure Asks {α : Type} (words : List (List Char)) (rename : Renamer → α × Renamer) : Prop where
  asked : ∀ r, (rename r).2 = (mapClasses naming words r).2
  answered : ∀ r r', (mapClasses naming words r).1 = (mapClasses naming words r').1 →
    (rename r).1 = (rename r').1

variable {naming}

/-- A renaming that is repeated after the memory has grown comes to the same, and assigns
    nothing. -/
theorem Asks.again {α : Type} {words : List (List Char)} {rename : Renamer → α × Renamer}
    (h : Asks naming words rename) (r : Renamer) (memory : Memory)
    (hgrow : (rename r).2.memory.map <+: memory.map) :
    rename ⟨memory, r.seen⟩ = ((rename r).1, ⟨memory, (rename r).2.seen⟩) := by
  rw [h.asked] at hgrow
  have hagain := mapClasses_again naming words r memory hgrow
  have hanswers := congrArg Prod.fst hagain
  have hafter := congrArg Prod.snd hagain
  refine Prod.ext (h.answered _ _ hanswers) ?_
  rw [h.asked, hafter, h.asked]

theorem Asks.keeps {α : Type} {words : List (List Char)} {rename : Renamer → α × Renamer}
    (h : Asks naming words rename) (r : Renamer) (hr : r.Keeps) : (rename r).2.Keeps := by
  rw [h.asked]
  exact keeps_mapClasses naming words r hr

/-- A renaming that begins with a fresh renamer does to the memory what requests for its words
    would do. -/
theorem Asks.memory {α : Type} {words : List (List Char)} {rename : Renamer → α × Renamer}
    (h : Asks naming words rename) (memory : Memory) :
    (rename ⟨memory, []⟩).2.memory
      = (Memory.getOrCreateAll naming memory (words.map String.ofList)).2 := by
  have hnew : Agrees ⟨memory, []⟩ := fun name id hseen => by cases hseen
  rw [h.asked]
  exact (mapClasses_eq naming words _ hnew).2.1

variable (naming)

/-- A text asks for its words. -/
theorem asks_replace (fragment : Bool) (text : List Char) :
    Asks naming (Text.words text) (replace naming fragment text) := by
  have heq := replace_eq_answer naming ⟨0, fragment, text⟩
  simp only [] at heq
  refine ⟨fun r => by rw [heq], fun r r' hanswers => ?_⟩
  rw [heq, heq, hanswers]

end Renamer

open Renamer (Asks mapClasses)

variable (naming : Naming)

/-! ### Markup -/

/-- A document asks for the words in the values of its class attributes, in the order of the
    document. Everything else in the result is determined by the answers to these. -/
theorem Html.asks_transform (source : List Char) :
    Asks naming (classWords (segments source)) (transform (Renamer.renameClasses naming) source)
    := by
  have hids : ∀ r, (mapClasses naming (classWords (segments source)) r).1
      = (classWords (segments source)).map
        (mapClasses naming (classWords (segments source)) r).2.seen.renamed :=
    fun r => (Renamer.mapClasses_of_seen naming _ _ r (List.prefix_refl _)).1
  refine ⟨fun r => ?_, fun r r' hanswers => ?_⟩
  · rw [transform, renameSegments_eq naming _ (segments source) r (hids r)]
  · -- The answers are the same, so one function of the words tells both.
    rw [transform, renameSegments_eq naming _ (segments source) r (hids r), transform,
      renameSegments_eq naming _ (segments source) r' (hanswers.symm.trans (hids r))]

/-! ### Scripts -/

namespace Script

variable (attributes : List String)

/-- Sites ask for the words of their texts, from the first site to the last. The induction is on the
    list of sites, with the renamer free, since each site finds it as the one before has left it. -/
theorem asks_rewriteSites (list : List Site) :
    Asks naming (list.flatMap fun site => Text.words site.text)
      (rewriteSites (Renaming.byIds naming attributes) list) := by
  have hsite : ∀ site : Site, Asks naming (Text.words site.text)
      ((Renaming.byIds naming attributes).rewrite site.fragment site.text) :=
    fun site => Renamer.asks_replace naming site.fragment site.text
  induction list with
  | nil => exact ⟨fun r => rfl, fun r r' _ => rfl⟩
  | cons site rest ih =>
      refine ⟨fun r => ?_, fun r r' hanswers => ?_⟩
      -- The second site asks the renamer that the first one has left.
      · rw [List.flatMap_cons, Renamer.mapClasses_append, rewriteSites]
        simp only [ih.asked, (hsite site).asked]
      · rw [List.flatMap_cons, Renamer.mapClasses_append, Renamer.mapClasses_append] at hanswers
        -- The first answers are those to the first site, as many as it has words.
        rcases List.append_inj hanswers (by rw [Renamer.length_mapClasses,
          Renamer.length_mapClasses]) with ⟨hfirst, hrest⟩
        rw [← (hsite site).asked, ← (hsite site).asked] at hrest
        simp only [rewriteSites, (hsite site).answered r r' hfirst, ih.answered _ _ hrest]

/-- A script asks for the words at its sites, in their order. As for a document, two renamers that
    answer alike give the same text. -/
theorem asks_renameScript (script : Program) :
    Asks naming
      ((sites attributes (.group script.items) .plain).flatMap fun site => Text.words site.text)
      (renameScript (Renaming.byIds naming attributes) script) := by
  -- Visiting a script is rewriting its sites and putting the texts back in place.
  have hsites := asks_rewriteSites naming attributes (sites attributes (.group script.items) .plain)
  have hvisit := visitAll_byIds naming attributes script.items
  refine ⟨fun r => ?_, fun r r' hanswers => ?_⟩
  · have hafter : (renameScript (Renaming.byIds naming attributes) script r).2
        = (visitAll (Renaming.byIds naming attributes) script.items r).2 := rfl
    rw [hafter, (hvisit r).2, hsites.asked]
  · have hitems : (visitAll (Renaming.byIds naming attributes) script.items r).1
        = (visitAll (Renaming.byIds naming attributes) script.items r').1 := by
      have hsame := (hvisit r).1
      rw [hsites.answered r r' hanswers, ← (hvisit r').1, Node.group.injEq] at hsame
      exact hsame
    -- What is printed depends on the renamed tree only.
    have htext : ∀ r, (renameScript (Renaming.byIds naming attributes) script r).1
        = restoreBlankLines (print { script with
            items := (visitAll (Renaming.byIds naming attributes) script.items r).1 }) :=
      fun _ => rfl
    rw [htext, htext, hitems]

end Script

/-! ### Transformations -/

/-- A file that is to be transformed. -/
inductive Job where
  | html (source : List Char)
  | script (name source : List Char)

/-- The renaming of the classes in a file. A script that cannot be read has none. -/
def Job.rename? (attributes : List String) : Job → Option (Renamer → List Char × Renamer)
  | .html source => some (Html.transform (Renamer.renameClasses naming) source)
  | .script name source =>
    (Script.readMarked (Script.Dialect.ofFile name) source).map
      (Script.renameScript (Script.Renaming.byIds naming attributes))

/-- Either kind of source asks for some words and nothing else. From here on it is not needed which
    kind it is. -/
theorem Job.exists_asks (attributes : List String) (job : Job)
    (rename : Renamer → List Char × Renamer) (h : job.rename? naming attributes = some rename) :
    ∃ words, Asks naming words rename := by
  cases job with
  | html source =>
      rw [rename?, Option.some.injEq] at h
      rw [← h]
      exact ⟨_, Html.asks_transform naming source⟩
  | script name source =>
      rw [rename?, Option.map_eq_some_iff] at h
      rcases h with ⟨script, -, rfl⟩
      exact ⟨_, Script.asks_renameScript naming attributes script⟩

namespace Store

/-- The transformation of a file. -/
def transform (s : Store) (fs : FileSystem) (options : TransformOptions) :
    Job → Except TransformError Transformed × Store × FileSystem
  | .html source =>
    match s.transformHtml fs options source with
    | (.ok t, s, fs) => (.ok t, s, fs)
    | (.error e, s, fs) => (.error (.store e), s, fs)
  | .script name source => s.transformScript fs options name source

/-- A file that cannot be read changes nothing. -/
theorem transform_of_unreadable (s : Store) (fs : FileSystem) (options : TransformOptions)
    (job : Job) (h : job.rename? s.naming options.classAttributes = none) :
    s.transform fs options job = (.error .unreadable, s, fs) := by
  cases job with
  | html source =>
      rw [Job.rename?] at h
      exact absurd h (Option.some_ne_none _)
  | script name source =>
      rw [Job.rename?, Option.map_eq_none_iff] at h
      rw [transform]
      unfold transformScript
      split
      · rfl
      · rename_i script hread
        cases h.symm.trans hread

/-- The store after the renaming of a file. -/
def renamedBy (s : Store) (rename : Renamer → List Char × Renamer) : Store :=
  { s with memory := (rename ⟨s.memory, []⟩).2.memory }

/-- What a renaming has to answer: the text, and the classes met with their ids. -/
def outcome (s : Store) (rename : Renamer → List Char × Renamer) : Transformed :=
  ⟨(rename ⟨s.memory, []⟩).1, (rename ⟨s.memory, []⟩).2.seen⟩

/-- A transformation is a renaming, and then a flush if one is asked for and there is something to
    write. For markup and for script alike, so no later proof need tell them apart. -/
theorem transform_of_rename (s : Store) (fs : FileSystem) (options : TransformOptions) (job : Job)
    (rename : Renamer → List Char × Renamer)
    (h : job.rename? s.naming options.classAttributes = some rename) :
    s.transform fs options job =
      if options.flushAfterTransform && (s.renamedBy rename).isDirty then
        match (s.renamedBy rename).flush fs with
        | (some e, s, fs) => (.error (.store e), s, fs)
        | (none, after, fs) => (.ok (s.outcome rename), after, fs)
      else (.ok (s.outcome rename), s.renamedBy rename, fs) := by
  have hfinish : s.transform fs options job
      = match s.finish fs options (rename ⟨s.memory, []⟩).1 (rename ⟨s.memory, []⟩).2 with
        | (.ok t, s, fs) => (.ok t, s, fs)
        | (.error e, s, fs) => (.error (.store e), s, fs) := by
    cases job with
    | html source =>
        rw [Job.rename?, Option.some.injEq] at h
        rw [transform, transformHtml, h]
    | script name source =>
        rw [Job.rename?, Option.map_eq_some_iff] at h
        rcases h with ⟨script, hread, hrename⟩
        rw [transform, ← hrename]
        unfold transformScript
        split
        · rename_i hnone
          cases hread.symm.trans hnone
        · rename_i other hother
          cases hread.symm.trans hother
          rfl
  rw [hfinish, finish]
  -- Without a flush there is nothing more; with one, it depends on whether anything is new.
  cases hflag : options.flushAfterTransform with
  | false => simp only [Bool.false_eq_true, if_false, Bool.false_and]; rfl
  | true =>
      simp only [if_true, Bool.true_and, flushIfDirty]
      by_cases hdirty : (s.renamedBy rename).isDirty = true
      · rw [renamedBy] at hdirty
        rw [if_pos hdirty, renamedBy, if_pos hdirty]
        rcases flush { s with memory := (rename ⟨s.memory, []⟩).2.memory } fs with
          ⟨_ | e, after, fs'⟩
        · rfl
        · rfl
      · rw [renamedBy] at hdirty
        rw [if_neg hdirty, renamedBy, if_neg hdirty]
        rfl

end Store

end ClassVeil
