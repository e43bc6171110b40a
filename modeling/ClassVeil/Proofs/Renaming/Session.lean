import ClassVeil.Proofs.Renaming.Seen
import ClassVeil.Proofs.Store.Assigned
import ClassVeil.Proofs.Text.Words
import ClassVeil.Renamer

/-!
# Renamers over one memory

Every file has a renamer of its own, and all renamers ask the same memory. A renamer answers a class
that it has met before from its own map, without asking. That map never says anything else than the
memory does, so it can be left out of all considerations: what a renamer answers is what the memory
would have answered (`mapClasses_eq`).

The answers can therefore be read off the memory that is there in the end. Whatever was renamed, by
whatever renamer and however early, its words are the words of the original with the final map put
through them (`words_renameAll`).

An attribute may be given as a whole or in parts, and the two ways of renaming differ in what they
make of the ids: a part keeps a space where it has a blank at an end, since another part may follow.
What they ask for does not differ. So each of them is taken apart once, into the questions for the
words and the answer that is put together from the ids (`Request.answer`), and from then on one
lemma does for both.

The agreement of renamers and memory is the invariant of a session. A request changes one renamer
and lets the memory grow, and it is the growth that has to be shown to do no harm to the others.

## Main definitions

* `Renamer.Agrees`: What the renamer knows is in the memory.
* `Request`: A text to be renamed, by one of the renamers, as a whole or as a part.
* `Request.answer`: What is made of the ids of its words.
* `Session`: The memory, and what each renamer has met.
* `Session.rename`, `Session.renameAll`: One request, and several of them.

## Theorems

* `mapClass_eq`, `mapClasses_eq`: A renamer answers what the memory would have answered.
* `mapClasses_of_later`: The answers, read off any later map.
* `replace_eq_answer`: A renaming is the questions for its words, and then the answer.
* `agrees_rename`: A request keeps every renamer in agreement with the memory.
* `words_rename`: The words of a renamed text are the renamed words.
* `words_renameAll`: The same for every text of a session, by the map at its end.
* `reached_renameAll`: A session reaches nothing that requests for ids do not reach.
-/

namespace ClassVeil

namespace Renamer

variable (naming : Naming)

/-- What the renamer knows is in the memory. -/
def Agrees (r : Renamer) : Prop :=
  ∀ name id, r.seen.get? name = some id → r.memory.map.get? name = some id

/-- What is in a map is in every map that it has grown to. So a renamer that does nothing stays in
    agreement, whatever others put into the memory. -/
theorem agrees_of_isPrefix (r : Renamer) (memory : Memory) (hr : r.Agrees)
    (hgrow : r.memory.map <+: memory.map) : Agrees ⟨memory, r.seen⟩ := by
  intro name id hseen
  rcases hgrow with ⟨more, hmore⟩
  simp only []
  rw [← hmore]
  exact ClassMap.get?_append_left _ more name id (hr name id hseen)

/-- A renamer answers what the memory would have answered, and leaves the memory as it would be. A
    class it has met is in the memory as well, where a request for it changes nothing. -/
theorem mapClass_eq (name : String) (r : Renamer) (hr : r.Agrees) :
    (mapClass naming name r).1 = (r.memory.getOrCreate naming name).1 ∧
      (mapClass naming name r).2.memory = (r.memory.getOrCreate naming name).2 ∧
      (mapClass naming name r).2.Agrees := by
  rw [mapClass]
  cases hseen : r.seen.get? name with
  | some id =>
      -- The class has been met, so the memory has it too and would not change.
      have hget := hr name id hseen
      have hask : r.memory.getOrCreate naming name = (id, r.memory) := by
        rw [Memory.getOrCreate, Memory.get?, hget]
      rw [hask]
      exact ⟨rfl, rfl, hr⟩
  | none =>
      refine ⟨rfl, rfl, fun other id hother => ?_⟩
      simp only [] at hother ⊢
      rw [ClassMap.get?_insert] at hother
      -- Either this is the class that has just been answered, or it was known before.
      split at hother
      · rename_i hname
        rw [← hname, ← Option.some.inj hother]
        exact Memory.get?_getOrCreate naming r.memory name
      · exact agrees_of_isPrefix r _ hr (Memory.prefix_getOrCreate naming r.memory name) other id
          hother

/-- A renamer that agrees with the memory answers what the memory would, and leaves it as it would
    be left by the same requests. What the renamer keeps for itself only saves the memory some of
    them. -/
theorem mapClasses_eq (words : List (List Char)) (r : Renamer) (hr : r.Agrees) :
    (mapClasses naming words r).1
        = (Memory.getOrCreateAll naming r.memory (words.map String.ofList)).1.map String.toList ∧
      (mapClasses naming words r).2.memory
        = (Memory.getOrCreateAll naming r.memory (words.map String.ofList)).2 ∧
      (mapClasses naming words r).2.Agrees := by
  induction words generalizing r with
  | nil => exact ⟨rfl, rfl, hr⟩
  | cons word rest ih =>
      rcases mapClass_eq naming (String.ofList word) r hr with ⟨hid, hmemory, hagrees⟩
      rcases ih _ hagrees with ⟨hids, hrest, hagrees⟩
      rw [hmemory] at hids hrest
      rw [mapClasses, List.map_cons, Memory.getOrCreateAll, List.map_cons]
      exact ⟨by rw [← hid, ← hids], hrest, hagrees⟩

/-- The answers can be read off any later map, and all words are in it. So many texts can be
    compared with one map at the end, whatever was asked for in between. -/
theorem mapClasses_of_later (later : ClassMap) (words : List (List Char)) (r : Renamer)
    (hr : r.Agrees) (hlater : (mapClasses naming words r).2.memory.map <+: later) :
    (mapClasses naming words r).1 = words.map later.renamed ∧
      ∀ word ∈ words, String.ofList word ∈ later.names := by
  rcases mapClasses_eq naming words r hr with ⟨hasked, hmemory, -⟩
  rw [hmemory] at hlater
  rw [hasked]
  exact Memory.renamed_getOrCreateAll naming later words r.memory hlater

/-- The renaming of a text, as a part of an attribute or as a whole. -/
def replace (fragment : Bool) : Replacement Renamer :=
  if fragment then renameFragment naming else renameClasses naming

end Renamer

/-- A text to be renamed, by the renamer of some file, as a part of an attribute or as a whole. -/
structure Request where
  file : Nat
  fragment : Bool
  text : List Char

/-- What is made of the ids of its words: nothing if there are none; otherwise they are joined,
    with spaces at the two ends if the text is a part of an attribute and has blanks there. -/
def Request.answer (request : Request) (ids : List (List Char)) : Option (List Char) :=
  if ids = [] then none
  else if request.fragment then
    some (edge request.text.head? ++ joinWords ids ++ edge request.text.getLast?)
  else some (joinWords ids)

namespace Renamer

variable (naming : Naming)

/-- Either way of renaming asks for the words of the text, and then puts the answer together. A part
    goes through the renaming as a whole first, so both are brought to that. -/
theorem replace_eq_answer (request : Request) (r : Renamer) :
    replace naming request.fragment request.text r
      = (request.answer (mapClasses naming (Text.words request.text) r).1,
        (mapClasses naming (Text.words request.text) r).2) := by
  unfold Request.answer
  rcases request with ⟨file, fragment, text⟩
  simp only []
  have hclasses : renameClasses naming text r
      = (if (mapClasses naming (Text.words text) r).1 = [] then none
          else some (joinWords (mapClasses naming (Text.words text) r).1),
        (mapClasses naming (Text.words text) r).2) := by
    rw [renameClasses]
    cases hwords : Text.words text with
    | nil => rfl
    | cons word rest =>
        have hne : (mapClasses naming (word :: rest) r).1 ≠ [] := by
          rw [mapClasses]
          exact List.cons_ne_nil _ _
        rw [if_neg hne]
  rw [replace]
  by_cases hids : (mapClasses naming (Text.words text) r).1 = []
  · cases fragment with
    | true => simp only [if_true, renameFragment, hclasses, if_pos hids]
    | false => simp only [Bool.false_eq_true, if_false, hclasses, if_pos hids]
  · cases fragment with
    | true => simp only [if_true, renameFragment, hclasses, if_neg hids]
    | false => simp only [Bool.false_eq_true, if_false, hclasses, if_neg hids]

/-- A text without words is left alone, and nothing is asked for it. -/
theorem replace_of_words_nil (fragment : Bool) (text : List Char) (r : Renamer)
    (h : Text.words text = []) : replace naming fragment text r = (none, r) := by
  have heq := replace_eq_answer naming ⟨0, fragment, text⟩ r
  simp only [h, mapClasses] at heq
  exact heq

/-- Joined ids are put together with or without spaces at the two ends. A text without words is no
    exception: nothing is asked. This is the form in which a renaming is used when all that matters
    is its words. -/
theorem replace_cases (fragment : Bool) (text : List Char) (r : Renamer) :
    (replace naming fragment text r).2 = (mapClasses naming (Text.words text) r).2 ∧
    ((Text.words text = [] ∧ (replace naming fragment text r).1 = none) ∨
      ∃ before after : Option Char, (replace naming fragment text r).1
        = some (edge before ++ joinWords (mapClasses naming (Text.words text) r).1
            ++ edge after)) := by
  have heq := replace_eq_answer naming ⟨0, fragment, text⟩ r
  refine ⟨congrArg Prod.snd heq, ?_⟩
  by_cases hwords : Text.words text = []
  · exact Or.inl ⟨hwords, by rw [replace_of_words_nil naming fragment text r hwords]⟩
  -- There are as many answers as words, so there are some.
  · have hids : (mapClasses naming (Text.words text) r).1 ≠ [] := by
      intro hnil
      have hlength := length_mapClasses naming (Text.words text) r
      rw [hnil] at hlength
      exact hwords (List.length_eq_zero_iff.mp hlength.symm)
    have hanswer := congrArg Prod.fst heq
    simp only [Request.answer, if_neg hids] at hanswer
    rw [hanswer]
    cases fragment with
    | true => exact Or.inr ⟨text.head?, text.getLast?, rfl⟩
    | false =>
        refine Or.inr ⟨none, none, ?_⟩
        simp only [Bool.false_eq_true, if_false, edge, Option.any_none, List.nil_append,
          List.append_nil]

end Renamer

/-- The memory of a store, and the classes that the renamer of each file has met. -/
structure Session where
  memory : Memory
  seen : Nat → ClassMap := fun _ => []

namespace Session

variable (naming : Naming)

/-- A request answered: the text that stands in the place of the original afterwards. -/
def rename (request : Request) (session : Session) : List Char × Session :=
  let (text, r) := Renamer.replace naming request.fragment request.text
    ⟨session.memory, session.seen request.file⟩
  (text.getD request.text,
    ⟨r.memory, fun file => if file = request.file then r.seen else session.seen file⟩)

/-- Requests answered one after the other. -/
def renameAll : List Request → Session → List (List Char) × Session
  | [], session => ([], session)
  | request :: rest, session =>
    let (text, session) := rename naming request session
    let (texts, session) := renameAll rest session
    (text :: texts, session)

/-- What any renamer knows is in the memory. -/
def Agrees (session : Session) : Prop :=
  ∀ file, Renamer.Agrees ⟨session.memory, session.seen file⟩

/-- A session in which nothing has been renamed. -/
theorem agrees_start (memory : Memory) : Agrees { memory := memory } :=
  fun _ _ _ hseen => by cases hseen

theorem memory_rename (request : Request) (session : Session) (hsession : session.Agrees) :
    (rename naming request session).2.memory = (Memory.getOrCreateAll naming session.memory
      ((Text.words request.text).map String.ofList)).2 := by
  rw [rename]
  simp only [(Renamer.replace_cases naming request.fragment request.text _).1]
  exact (Renamer.mapClasses_eq naming _ _ (hsession request.file)).2.1

/-- A request keeps every renamer in agreement with the memory. The one that was asked has met what
    was asked for; to the others the memory has only grown. -/
theorem agrees_rename (request : Request) (session : Session) (hsession : session.Agrees) :
    (rename naming request session).2.Agrees := by
  intro file
  -- The renamer of this file has asked; any other one is as it was, with more in the memory.
  by_cases hfile : file = request.file
  · have hasked := (Renamer.mapClasses_eq naming (Text.words request.text) _
      (hsession request.file)).2.2
    simp only [rename, hfile, if_true, (Renamer.replace_cases naming _ request.text _).1]
    exact hasked
  · have hgrow : session.memory.map <+: (rename naming request session).2.memory.map := by
      rw [memory_rename naming request session hsession]
      exact Memory.prefix_getOrCreateAll naming _ session.memory
    have hseen : (rename naming request session).2.seen file = session.seen file := by
      simp only [rename, if_neg hfile]
    rw [hseen]
    exact Renamer.agrees_of_isPrefix _ _ (hsession file) hgrow

/-- The words of a renamed text are the words of the original with any later map put through them,
    and all of them are in that map. -/
theorem words_rename (request : Request) (session : Session) (hsession : session.Agrees)
    (later : ClassMap) (hlater : (rename naming request session).2.memory.map <+: later)
    (hids : ∀ id ∈ later.ids, Text.IsWord id.toList) :
    Text.words (rename naming request session).1
        = (Text.words request.text).map later.renamed ∧
      ∀ word ∈ Text.words request.text, String.ofList word ∈ later.names := by
  have hstate := (Renamer.replace_cases naming request.fragment request.text
    ⟨session.memory, session.seen request.file⟩).1
  simp only [rename, hstate] at hlater
  rcases Renamer.mapClasses_of_later naming later _ _ (hsession request.file) hlater with
    ⟨hmapped, hknown⟩
  refine ⟨?_, hknown⟩
  -- The ids are words, so joining them loses none and makes no new one.
  have hwords := ClassMap.forall_renamed later Text.IsWord hids _ hknown
  rcases (Renamer.replace_cases naming request.fragment request.text
    ⟨session.memory, session.seen request.file⟩).2 with ⟨hnil, hnone⟩ | ⟨before, after, hsome⟩
  · simp only [rename, hnone, Option.getD_none, hnil, List.map_nil]
  · simp only [rename, hsome, Option.getD_some, hmapped]
    exact Text.words_edges before after _ hwords

/-! ### Whole sessions -/

theorem renameAll_cons (request : Request) (rest : List Request) (session : Session) :
    renameAll naming (request :: rest) session
      = ((rename naming request session).1
          :: (renameAll naming rest (rename naming request session).2).1,
        (renameAll naming rest (rename naming request session).2).2) := rfl

theorem reached_renameAll (requests : List Request) (session : Session)
    (hsession : session.Agrees) (h : Memory.Reached naming session.memory) :
    Memory.Reached naming (renameAll naming requests session).2.memory := by
  induction requests generalizing session with
  | nil => exact h
  | cons request rest ih =>
      rw [renameAll_cons]
      refine ih _ (agrees_rename naming request session hsession) ?_
      rw [memory_rename naming request session hsession]
      exact Memory.reached_getOrCreateAll naming _ session.memory h

theorem prefix_renameAll (requests : List Request) (session : Session)
    (hsession : session.Agrees) :
    session.memory.map <+: (renameAll naming requests session).2.memory.map := by
  induction requests generalizing session with
  | nil => exact List.prefix_refl session.memory.map
  | cons request rest ih =>
      rw [renameAll_cons]
      refine List.IsPrefix.trans ?_ (ih _ (agrees_rename naming request session hsession))
      rw [memory_rename naming request session hsession]
      exact Memory.prefix_getOrCreateAll naming _ session.memory

/-- The words of every text of a session are the words of its original with the map at the end of
    the session put through them, and all of them are in that map. The induction is on the requests;
    the map at the end is the same for all of them. -/
theorem words_renameAll (requests : List Request) (session : Session) (hsession : session.Agrees)
    (later : ClassMap) (hlater : (renameAll naming requests session).2.memory.map <+: later)
    (hids : ∀ id ∈ later.ids, Text.IsWord id.toList)
    (k : Nat) (request : Request) (hrequest : requests[k]? = some request) :
    ∃ text, (renameAll naming requests session).1[k]? = some text ∧
      Text.words text = (Text.words request.text).map later.renamed ∧
      ∀ word ∈ Text.words request.text, String.ofList word ∈ later.names := by
  induction requests generalizing session k with
  | nil => cases hrequest
  | cons first rest ih =>
      have hagrees := agrees_rename naming first session hsession
      cases k with
      | zero =>
          rw [List.getElem?_cons_zero, Option.some.injEq] at hrequest
          rw [← hrequest]
          exact ⟨_, rfl, words_rename naming first session hsession later
            ((prefix_renameAll naming rest _ hagrees).trans hlater) hids⟩
      | succ k => exact ih _ hagrees hlater k hrequest

end Session

end ClassVeil
