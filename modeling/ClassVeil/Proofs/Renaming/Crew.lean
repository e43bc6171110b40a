import ClassVeil.Proofs.Renaming.Asked
import ClassVeil.Proofs.Renaming.Agreement
import Mathlib.Logic.Function.Basic

/-!
# Renamers at work together

Renamers share one memory and may be at work at the same time. A call of a renamer is no single
step: it is given a text, asks for the words of it one after the other, and only then answers.
Between any two of these steps other renamers can make theirs, and anybody can ask the memory for
ids. Only the question for a single word is undivided, as it holds the lock of the memory.

The answer of a call is put together from ids that were given at different moments. It can still be
read off the memory of a single moment, any one after the answer, because a class keeps its id. And
what a renamer has met is what it was given so far, up to the words that it has not asked for yet.

What holds of a renamer at any moment is said in terms of three lists: the words it has been given,
those it has still to ask for, and the ids it has for the others (`Worker.Fits`). A step moves a
word from one list to another. For the renamers that do not move there is one lemma for all kinds of
steps, that they fit a memory that has grown; so the invariant of the crew is not more work than
that of a single renamer.

Runs are lists of what has happened, with the last thing at the end, since what a renamer has been
given is read off the list.

## Main definitions

* `Memory.idOf?`: The id of a word, as a text.
* `Task`, `Worker`, `Crew`: A call under way, a renamer, and renamers with the memory they share.
* `Move`, `Action`: What can happen.
* `Worker.Fits`: What holds of a renamer at any moment.
* `Crew.Step`, `Crew.Run`: One thing that happens, and several of them.
* `Crew.given`: The words that a renamer has been given.
* `Crew.Fits`: What holds of all of them.

## Theorems

* `replace_steps`: The steps that nobody disturbs are a call.
* `fits_begin`, `fits_ask`, `fits_answer`: What a renamer keeps to at each step of a call.
* `prefix_step`, `prefix_run`: The map of the memory only grows.
* `fits_step`, `fits_run`: What a step preserves, and so a run.
* `unchanged_of_words_nil`: A text without words changes nothing.
* `words_answer`: The words of an answer are the ids.
* `renamers_agree_with_memory`: Renamers agree with the memory, and so with each other.
-/

namespace ClassVeil

namespace Memory

/-- The id of a word as a text, if the word has one. -/
def idOf? (m : Memory) (word : List Char) : Option (List Char) :=
  (m.get? (String.ofList word)).map String.toList

/-- Words that have ids keep them when the map grows. The ids are given as a list beside the words,
    which is how a call under way has them. -/
theorem map_idOf?_of_isPrefix (m later : Memory) (hgrow : m.map <+: later.map)
    (words ids : List (List Char)) (h : words.map m.idOf? = ids.map some) :
    words.map later.idOf? = ids.map some := by
  rw [← h]
  refine List.map_congr_left fun word hword => ?_
  have hsome : m.idOf? word ∈ ids.map some := by
    rw [← h]
    exact List.mem_map_of_mem hword
  rcases List.mem_map.mp hsome with ⟨text, -, htext⟩
  rw [idOf?, eq_comm, Option.map_eq_some_iff] at htext
  rcases htext with ⟨id, hget, -⟩
  have hlater : later.get? (String.ofList word) = some id := by
    rcases hgrow with ⟨more, hmore⟩
    rw [get?, ← hmore]
    exact ClassMap.get?_append_left m.map more _ id hget
  rw [idOf?, idOf?, hget, hlater]

end Memory

/-- A call that is under way, with the words that it has not asked for and the ids of the others. -/
structure Task where
  request : Request
  left : List (List Char)
  ids : List (List Char)

/-- A renamer: what it has met, and the call that it is in, if it is in one. -/
structure Worker where
  seen : ClassMap := []
  task : Option Task := none

/-- Renamers that share a memory. -/
structure Crew where
  memory : Memory
  worker : Nat → Worker := fun _ => {}

/-- A step of a call. -/
inductive Move where
  | begin
  | ask (word : List Char)
  | answer (result : Option (List Char))

/-- What can happen: somebody asks the memory for the id of a class, or a call makes a step. -/
inductive Action where
  | other (name : String)
  | move (request : Request) (m : Move)

/-! ### One renamer -/

namespace Worker

/-- The words that a renamer has been given and not asked for. -/
def pending (w : Worker) : List (List Char) :=
  match w.task with
  | none => []
  | some task => task.left

/-- What holds of a renamer that has been given some words: it agrees with the memory, the ids of
    its call are those of the words that this has asked for, and what it has met is what it was
    given, up to what is pending. -/
structure Fits (memory : Memory) (given : List (List Char)) (w : Worker) : Prop where
  agrees : Renamer.Agrees ⟨memory, w.seen⟩
  asked : ∀ task, w.task = some task → ∃ asked,
    Text.words task.request.text = asked ++ task.left ∧
      asked.map memory.idOf? = task.ids.map some
  met : ∃ asked, given = asked ++ w.pending ∧
    w.seen.names = (asked.map String.ofList).eraseDups

theorem fits_new (memory : Memory) : Fits memory [] {} where
  agrees := fun _ _ hseen => by cases hseen
  asked := fun _ htask => by cases htask
  met := ⟨[], rfl, rfl⟩

/-- A renamer that does nothing fits, whatever is put into the memory. -/
theorem Fits.grow (memory later : Memory) (given : List (List Char)) (w : Worker)
    (hw : w.Fits memory given) (hgrow : memory.map <+: later.map) : w.Fits later given where
  agrees := Renamer.agrees_of_isPrefix ⟨memory, w.seen⟩ later hw.agrees hgrow
  asked := by
    intro task htask
    rcases hw.asked task htask with ⟨asked, hwords, hids⟩
    exact ⟨asked, hwords, Memory.map_idOf?_of_isPrefix memory later hgrow asked task.ids hids⟩
  met := hw.met

/-- A call begins: all its words are pending. The renamer has met none of them through this call
    yet, so the account of what it has met is the same. -/
theorem fits_begin (memory : Memory) (given : List (List Char)) (w : Worker) (request : Request)
    (hidle : w.task = none) (hw : w.Fits memory given) :
    Fits memory (given ++ Text.words request.text)
      ⟨w.seen, some ⟨request, Text.words request.text, []⟩⟩ where
  agrees := hw.agrees
  asked := by
    intro task htask
    rw [← Option.some.inj htask]
    exact ⟨[], rfl, rfl⟩
  met := by
    rcases hw.met with ⟨asked, hgiven, hseen⟩
    refine ⟨asked, ?_, hseen⟩
    rw [hgiven, pending, hidle, List.append_nil]
    rfl

/-- A renamer meets the class that it asks for, at the end of what it has met. -/
theorem names_mapClass (naming : Naming) (name : String) (r : Renamer) :
    (Renamer.mapClass naming name r).2.seen.names
      = if name ∈ r.seen.names then r.seen.names else r.seen.names ++ [name] := by
  rcases Renamer.mapClass_cases naming name r with ⟨id, hseen, heq⟩ | ⟨hseen, heq⟩
  · have hmem : name ∈ r.seen.names :=
      ClassMap.mem_names_of_mem r.seen name id (ClassMap.mem_of_get? r.seen name id hseen)
    rw [heq, if_pos hmem]
  · have hnew : name ∉ r.seen.names := (ClassMap.get?_eq_none_iff r.seen name).mp hseen
    rw [heq, if_neg hnew]
    exact ClassMap.names_append r.seen _

/-- A call asks for a word: the word is pending no more, and its id is the one in the memory. The
    ids of the words before it have been given earlier, and are still those in the memory, which has
    only grown. -/
theorem fits_ask (naming : Naming) (memory : Memory) (given : List (List Char)) (w : Worker)
    (request : Request) (word : List Char) (rest ids : List (List Char)) (id : String)
    (r : Renamer) (htask : w.task = some ⟨request, word :: rest, ids⟩)
    (hasked : Renamer.mapClass naming (String.ofList word) ⟨memory, w.seen⟩ = (id, r))
    (hw : w.Fits memory given) :
    Fits r.memory given ⟨r.seen, some ⟨request, rest, ids ++ [id.toList]⟩⟩ := by
  have hanswer := Renamer.mapClass_eq naming (String.ofList word) ⟨memory, w.seen⟩ hw.agrees
  have hgrow := Renamer.prefix_mapClass naming (String.ofList word) ⟨memory, w.seen⟩
  have hnames := names_mapClass naming (String.ofList word) ⟨memory, w.seen⟩
  have hget := Renamer.get?_mapClass naming (String.ofList word) ⟨memory, w.seen⟩
  -- What is known of asking for one word is about the renamer as it is now.
  rw [hasked] at hanswer hgrow hnames hget
  refine ⟨hanswer.2.2, fun task heq => ?_, ?_⟩
  · rcases (hw.grow memory r.memory given w hgrow).asked _ htask with ⟨asked, hwords, hids⟩
    have hid : r.memory.idOf? word = some id.toList := by
      rw [Memory.idOf?, Memory.get?, hanswer.2.2 _ _ hget, Option.map_some]
    rw [← Option.some.inj heq]
    refine ⟨asked ++ [word], ?_, ?_⟩
    · rw [List.append_assoc, List.singleton_append]
      exact hwords
    · rw [List.map_append, List.map_append, hids, List.map_singleton, List.map_singleton, hid]
  · rcases hw.met with ⟨asked, hgiven, hseen⟩
    refine ⟨asked ++ [word], ?_, ?_⟩
    · rw [hgiven, pending, htask, List.append_assoc]
      rfl
    · simp only [] at hnames
      rw [hnames, hseen, List.map_append, List.map_singleton, ClassMap.eraseDups_concat]
      simp only [List.mem_eraseDups]

/-- A call ends: nothing is pending. Its words have all moved over to those that were asked for, one
    with each question. -/
theorem fits_answer (memory : Memory) (given : List (List Char)) (w : Worker) (request : Request)
    (ids : List (List Char)) (htask : w.task = some ⟨request, [], ids⟩)
    (hw : w.Fits memory given) : Fits memory given ⟨w.seen, none⟩ where
  agrees := hw.agrees
  asked := fun _ heq => by cases heq
  met := by
    rcases hw.met with ⟨asked, hgiven, hseen⟩
    refine ⟨asked, ?_, hseen⟩
    rw [hgiven, pending, htask]
    rfl

end Worker

/-! ### All renamers -/

namespace Crew

/-- The crew with the memory and one renamer changed. -/
def put (c : Crew) (memory : Memory) (file : Nat) (w : Worker) : Crew :=
  ⟨memory, Function.update c.worker file w⟩

@[simp] theorem memory_put (c : Crew) (memory : Memory) (file : Nat) (w : Worker) :
    (c.put memory file w).memory = memory := rfl

@[simp] theorem worker_put (c : Crew) (memory : Memory) (file : Nat) (w : Worker) :
    (c.put memory file w).worker file = w := by
  simp only [put, Function.update_self]

theorem worker_put_of_ne (c : Crew) (memory : Memory) (file other : Nat) (w : Worker)
    (h : other ≠ file) : (c.put memory file w).worker other = c.worker other := by
  simp only [put, Function.update_of_ne h]

@[simp] theorem put_put (c : Crew) (memory later : Memory) (file : Nat) (w w' : Worker) :
    (c.put memory file w).put later file w' = c.put later file w' := by
  simp only [put, Function.update_idem]

variable (naming : Naming)

/-- One thing that happens. A call begins only when its renamer is not in another one. -/
inductive Step : Crew → Action → Crew → Prop
  | other (c : Crew) (name : String) :
      Step c (.other name) { c with memory := (c.memory.getOrCreate naming name).2 }
  | begin (c : Crew) (request : Request) : (c.worker request.file).task = none →
      Step c (.move request .begin) (c.put c.memory request.file
        ⟨(c.worker request.file).seen, some ⟨request, Text.words request.text, []⟩⟩)
  | ask (c : Crew) (request : Request) (word : List Char) (rest ids : List (List Char))
      (id : String) (r : Renamer) :
      (c.worker request.file).task = some ⟨request, word :: rest, ids⟩ →
      Renamer.mapClass naming (String.ofList word) ⟨c.memory, (c.worker request.file).seen⟩
        = (id, r) →
      Step c (.move request (.ask word)) (c.put r.memory request.file
        ⟨r.seen, some ⟨request, rest, ids ++ [id.toList]⟩⟩)
  | answer (c : Crew) (request : Request) (ids : List (List Char)) :
      (c.worker request.file).task = some ⟨request, [], ids⟩ →
      Step c (.move request (.answer (request.answer ids)))
        (c.put c.memory request.file ⟨(c.worker request.file).seen, none⟩)

/-- Things that happen one after the other. -/
inductive Run : Crew → List Action → Crew → Prop
  | nil (c : Crew) : Run c [] c
  | snoc (c middle later : Crew) (actions : List Action) (action : Action) :
      Run c actions middle → Step naming middle action later → Run c (actions ++ [action]) later

/-- The words that a renamer is given when something happens. -/
def givenBy (file : Nat) : Action → List (List Char)
  | .move request .begin => if request.file = file then Text.words request.text else []
  | _ => []

/-- The words that a renamer has been given. -/
def given (file : Nat) (actions : List Action) : List (List Char) := actions.flatMap (givenBy file)

/-- What holds at any moment after some things have happened. -/
structure Fits (actions : List Action) (c : Crew) : Prop where
  reached : Memory.Reached naming c.memory
  workers : ∀ file, (c.worker file).Fits c.memory (given file actions)

variable {naming}

/-- The map of the memory only grows, whoever takes the step. Other callers of the memory are among
    the actions, so this covers what happens between two questions of a renamer. -/
theorem prefix_step (c later : Crew) (action : Action) (h : Step naming c action later) :
    c.memory.map <+: later.memory.map := by
  cases h with
  | other name => exact Memory.prefix_getOrCreate naming c.memory name
  | begin request _ => exact List.prefix_refl _
  | ask request word rest ids id r _ hasked =>
      have hgrow := Renamer.prefix_mapClass naming (String.ofList word)
        ⟨c.memory, (c.worker request.file).seen⟩
      rw [hasked] at hgrow
      exact hgrow
  | answer request ids _ => exact List.prefix_refl _

/-- So it does in a run, and an id that was given at any time is the one that is found at the end.
    -/
theorem prefix_run (c later : Crew) (actions : List Action) (h : Run naming c actions later) :
    c.memory.map <+: later.memory.map := by
  induction h with
  | nil => exact List.prefix_refl _
  | snoc middle later actions action _ hstep ih =>
      exact ih.trans (prefix_step middle later action hstep)

theorem given_concat (file : Nat) (actions : List Action) (action : Action) :
    given file (actions ++ [action]) = given file actions ++ givenBy file action := by
  unfold given
  rw [List.flatMap_append, List.flatMap_singleton]

/-- A step of one renamer leaves the others as they are, so all fit if this one does. All steps of
    calls go through this, and differ in what they have to show of the renamer that moves. -/
theorem fits_put (actions : List Action) (c : Crew) (action : Action) (memory : Memory)
    (file : Nat) (w : Worker) (hc : c.Fits naming actions)
    (hreached : Memory.Reached naming memory) (hgrow : c.memory.map <+: memory.map)
    (hothers : ∀ other, other ≠ file → givenBy other action = [])
    (hw : w.Fits memory (given file actions ++ givenBy file action)) :
    Fits naming (actions ++ [action]) (c.put memory file w) := by
  refine ⟨hreached, fun other => ?_⟩
  rw [given_concat]
  by_cases hother : other = file
  · rw [hother, worker_put, memory_put]
    exact hw
  · rw [worker_put_of_ne c memory file other w hother, hothers other hother, List.append_nil]
    exact (hc.workers other).grow c.memory memory _ _ hgrow

/-- What a step preserves. Somebody else who asks for an id moves no renamer; a call begins, asks or
    answers, and is dealt with by what is known of a single renamer. -/
theorem fits_step (actions : List Action) (c later : Crew) (action : Action)
    (hc : c.Fits naming actions) (h : Step naming c action later) :
    later.Fits naming (actions ++ [action]) := by
  have hgrow := prefix_step c later action h
  cases h with
  | other name =>
      refine ⟨hc.reached.getOrCreate c.memory name, fun file => ?_⟩
      rw [given_concat, show givenBy file (.other name) = [] from rfl, List.append_nil]
      exact (hc.workers file).grow c.memory _ _ _ hgrow
  | begin request hidle =>
      have hgiven : givenBy request.file (.move request .begin) = Text.words request.text :=
        if_pos rfl
      refine fits_put actions c _ c.memory request.file _ hc hc.reached hgrow
        (fun other hother => if_neg (Ne.symm hother)) ?_
      rw [hgiven]
      exact Worker.fits_begin c.memory _ _ request hidle (hc.workers request.file)
  | ask request word rest ids id r htask hasked =>
      have hmemory := (Renamer.mapClass_eq naming (String.ofList word) _
        (hc.workers request.file).agrees).2.1
      rw [hasked] at hmemory
      have hreached : Memory.Reached naming r.memory := by
        rw [hmemory]
        exact hc.reached.getOrCreate c.memory _
      refine fits_put actions c _ r.memory request.file _ hc hreached hgrow (fun _ _ => rfl) ?_
      rw [show givenBy request.file (.move request (.ask word)) = [] from rfl, List.append_nil]
      exact Worker.fits_ask naming c.memory _ _ request word rest ids id r htask hasked
        (hc.workers request.file)
  | answer request ids htask =>
      refine fits_put actions c _ c.memory request.file _ hc hc.reached hgrow
        (fun _ _ => rfl) ?_
      rw [show givenBy request.file (.move request (.answer (request.answer ids))) = [] from rfl,
        List.append_nil]
      exact Worker.fits_answer c.memory _ _ request ids htask (hc.workers request.file)

/-- What a run preserves, by induction on the things that have happened. The invariant speaks of all
    files at once, and a step concerns one of them. -/
theorem fits_run (memory : Memory) (hmemory : Memory.Reached naming memory)
    (actions : List Action) (c : Crew) (h : Run naming { memory := memory } actions c) :
    c.Fits naming actions := by
  induction h with
  | nil => exact ⟨hmemory, fun _ => Worker.fits_new memory⟩
  | snoc middle later actions action _ hstep ih =>
      exact fits_step actions middle later action ih hstep

/-! ### Whole calls -/

/-- What happens during a call that nobody disturbs. -/
def undisturbed (request : Request) (result : Option (List Char)) : List Action :=
  .move request .begin
    :: (Text.words request.text).map (fun word => .move request (.ask word))
    ++ [.move request (.answer result)]

/-- Asking for words one after the other is asking for all of them. Nothing happens in between in
    this run, so it is the one to compare others with, and to build examples from. -/
theorem run_asks (first c : Crew) (request : Request) (left ids : List (List Char)) (r : Renamer)
    (actions : List Action)
    (h : Run naming first actions
      (c.put r.memory request.file ⟨r.seen, some ⟨request, left, ids⟩⟩)) :
    Run naming first (actions ++ left.map fun word => .move request (.ask word))
      (c.put (Renamer.mapClasses naming left r).2.memory request.file
        ⟨(Renamer.mapClasses naming left r).2.seen,
          some ⟨request, [], ids ++ (Renamer.mapClasses naming left r).1⟩⟩) := by
  -- One question after the other, each from the crew that the one before has left.
  induction left generalizing ids r actions with
  | nil =>
      rw [List.map_nil, List.append_nil, Renamer.mapClasses, List.append_nil]
      exact h
  | cons word rest ih =>
      have hstep : Step naming _ _ _ := Step.ask
        (c.put r.memory request.file ⟨r.seen, some ⟨request, word :: rest, ids⟩⟩) request word rest
        ids (Renamer.mapClass naming (String.ofList word) r).1
        (Renamer.mapClass naming (String.ofList word) r).2 (by rw [worker_put])
        (by rw [worker_put, memory_put])
      rw [put_put] at hstep
      have hrest := ih _ _ _ (Run.snoc _ _ _ _ _ h hstep)
      rw [List.append_assoc, List.append_assoc] at hrest
      exact hrest

/-- The steps of a call that nobody disturbs are the renaming of its text. So the calls of this
    module are the calls that files are renamed with, only cut into smaller steps. -/
theorem replace_steps (c : Crew) (request : Request)
    (hidle : (c.worker request.file).task = none) :
    Run naming c
      (undisturbed request (Renamer.replace naming request.fragment request.text
        ⟨c.memory, (c.worker request.file).seen⟩).1)
      (c.put (Renamer.replace naming request.fragment request.text
          ⟨c.memory, (c.worker request.file).seen⟩).2.memory request.file
        ⟨(Renamer.replace naming request.fragment request.text
          ⟨c.memory, (c.worker request.file).seen⟩).2.seen, none⟩) := by
  rw [Renamer.replace_eq_answer]
  have hbegin : Run naming c _ _ := Run.snoc c c _ [] _ (Run.nil c) (Step.begin c request hidle)
  have hasks := run_asks c c request (Text.words request.text) []
    ⟨c.memory, (c.worker request.file).seen⟩ _ hbegin
  generalize Renamer.mapClasses naming (Text.words request.text)
    ⟨c.memory, (c.worker request.file).seen⟩ = answers at hasks ⊢
  have hanswer : Step naming _ _ _ := Step.answer
    (c.put answers.2.memory request.file ⟨answers.2.seen, some ⟨request, [], answers.1⟩⟩) request
    answers.1 (by rw [worker_put])
  have hall := Run.snoc _ _ _ _ _ hasks hanswer
  rw [put_put, worker_put, memory_put] at hall
  exact hall

/-- What a call answers: nothing if it has no ids; otherwise its words are the ids, and a part of an
    attribute has a space at an end exactly if its text has a blank there. -/
theorem words_answer (request : Request) (ids : List (List Char))
    (hids : ∀ id ∈ ids, Text.IsWord id) :
    (request.answer ids = none ↔ ids = []) ∧
    ∀ text, request.answer ids = some text → Text.words text = ids ∧
      (request.fragment = true →
        (text.head? = some ' ' ↔ request.text.head?.any Text.isBlank = true) ∧
        (text.getLast? = some ' ' ↔ request.text.getLast?.any Text.isBlank = true)) := by
  unfold Request.answer
  by_cases hnil : ids = []
  · rw [if_pos hnil]
    exact ⟨⟨fun _ => hnil, fun _ => rfl⟩, fun text h => by cases h⟩
  · rw [if_neg hnil]
    by_cases hfragment : request.fragment = true
    · rw [if_pos hfragment]
      refine ⟨⟨fun h => absurd h (Option.some_ne_none _), fun h => absurd h hnil⟩, fun text h => ?_⟩
      rw [← Option.some.inj h]
      exact ⟨Text.words_edges _ _ ids hids, fun _ => ⟨Text.head?_edges_iff _ _ ids hnil hids,
        Text.getLast?_edges_iff _ _ ids hnil hids⟩⟩
    · rw [if_neg hfragment]
      refine ⟨⟨fun h => absurd h (Option.some_ne_none _), fun h => absurd h hnil⟩, fun text h => ?_⟩
      rw [← Option.some.inj h]
      exact ⟨Text.words_joinWords ids hids, fun h => absurd h hfragment⟩

/-- A call of a text without words has nothing to ask for, and only questions change anything. It
    begins and ends, and nobody can tell that it was there. -/
theorem unchanged_of_words_nil (actions : List Action) (c later : Crew) (request : Request)
    (m : Move) (hc : c.Fits naming actions) (hwords : Text.words request.text = [])
    (h : Step naming c (.move request m) later) :
    later.memory = c.memory ∧ ∀ file, (later.worker file).seen = (c.worker file).seen := by
  -- What a renamer is in does not matter for what it has met.
  have hseen : ∀ file task, ((c.put c.memory request.file
      ⟨(c.worker request.file).seen, task⟩).worker file).seen = (c.worker file).seen := by
    intro file task
    by_cases hfile : file = request.file
    · rw [hfile, worker_put]
    · rw [worker_put_of_ne c c.memory request.file file _ hfile]
  cases h with
  | begin _ _ => exact ⟨rfl, fun file => hseen file _⟩
  | ask _ word rest ids id r htask _ =>
      rcases (hc.workers request.file).asked _ htask with ⟨asked, hsplit, -⟩
      -- A word that is still to be asked for would be a word of the text.
      rw [hwords] at hsplit
      have hlength := congrArg List.length hsplit
      rw [List.length_nil, List.length_append, List.length_cons] at hlength
      omega
  | answer _ ids _ => exact ⟨rfl, fun file => hseen file _⟩

end Crew

/-- What is answered with ids of the memory is answered with words, if its ids are words. Each id of
    the call is one of the map. -/
theorem Memory.isWord_of_map_idOf? (m : Memory) (hm : ∀ id ∈ m.map.ids, Text.IsWord id.toList)
    (words ids : List (List Char)) (h : words.map m.idOf? = ids.map some) :
    ∀ id ∈ ids, Text.IsWord id := by
  intro id hid
  have hsome : some id ∈ words.map m.idOf? := by
    rw [h]
    exact List.mem_map_of_mem hid
  rcases List.mem_map.mp hsome with ⟨word, -, hword⟩
  rw [idOf?, Option.map_eq_some_iff] at hword
  rcases hword with ⟨name, hget, rfl⟩
  exact hm name (ClassMap.mem_ids_of_mem m.map _ name (ClassMap.mem_of_get? m.map _ name hget))

/-- Renamers share the memory of a store that was opened and has done anything before, and they
    have been at work at the same time. Whatever has happened:

    A renamer that is idle can be called, and what happens if nobody disturbs it is the renaming of
    the text. Nothing that a call of a text without words does changes the memory or what any
    renamer has met. A call answers nothing exactly if its text has no words; otherwise the words of
    the answer are the ids of the words of the text, by the memory as it is then or at any later
    time, and a part of an attribute keeps a space at either end exactly if it has a blank there.
    And each renamer has met the classes that it was given, in the order of their first appearance
    and up to those that it has not asked for yet, with the ids that the memory has for them from
    now on. -/
theorem renamers_agree_with_memory (current root : String) (config : Config)
    (stream : Nat → String) (opened : Store)
    (hopen : Store.openAt current root config stream = .ok opened) (hdraws : config.Draws stream)
    (memory : Memory) (hmemory : Memory.Reached opened.naming memory) (actions : List Action)
    (c : Crew) (hrun : Crew.Run opened.naming { memory := memory } actions c) :
    (∀ request : Request, (c.worker request.file).task = none →
      let renamed := Renamer.replace opened.naming request.fragment request.text
        ⟨c.memory, (c.worker request.file).seen⟩
      Crew.Run opened.naming c (Crew.undisturbed request renamed.1)
        (c.put renamed.2.memory request.file ⟨renamed.2.seen, none⟩)) ∧
    (∀ request m next, Crew.Step opened.naming c (.move request m) next →
      Text.words request.text = [] →
      next.memory = c.memory ∧ ∀ file, (next.worker file).seen = (c.worker file).seen) ∧
    (∀ request result next, Crew.Step opened.naming c (.move request (.answer result)) next →
      (result = none ↔ Text.words request.text = []) ∧
      ∀ text, result = some text →
        (∀ actions' later, Crew.Run opened.naming next actions' later →
          (Text.words text).map some = (Text.words request.text).map later.memory.idOf?) ∧
        (request.fragment = true →
          (text.head? = some ' ' ↔ request.text.head?.any Text.isBlank = true) ∧
          (text.getLast? = some ' ' ↔ request.text.getLast?.any Text.isBlank = true))) ∧
    (∀ file, ∃ asked, Crew.given file actions = asked ++ (c.worker file).pending ∧
      (c.worker file).seen.names = (asked.map String.ofList).eraseDups ∧
      ∀ name id, (c.worker file).seen.get? name = some id →
        ∀ actions' later, Crew.Run opened.naming c actions' later →
          later.memory.get? name = some id) := by
  have hfits := Crew.fits_run memory hmemory actions c hrun
  refine ⟨fun request hidle => Crew.replace_steps c request hidle,
    fun request m next hstep hwords =>
      Crew.unchanged_of_words_nil actions c next request m hfits hwords hstep,
    fun request result next hstep => ?_, fun file => ?_⟩
  · cases hstep with
    | answer _ ids htask =>
        -- All words have been asked for, and their ids are words.
        rcases (hfits.workers request.file).asked _ htask with ⟨asked, hsplit, hids⟩
        rw [List.append_nil] at hsplit
        simp only [] at hsplit hids
        rw [← hsplit] at hids
        have hlength := congrArg List.length hids
        rw [List.length_map, List.length_map] at hlength
        have hwords := Memory.isWord_of_map_idOf? c.memory (Store.isWord_of_openAt current root
          config stream opened hopen hdraws c.memory hfits.reached) _ ids hids
        rcases Crew.words_answer request ids hwords with ⟨hnone, hsome⟩
        refine ⟨?_, fun text htext => ?_⟩
        · rw [hnone, ← List.length_eq_zero_iff, ← hlength, List.length_eq_zero_iff]
        · rcases hsome text htext with ⟨htokens, hends⟩
          refine ⟨fun actions' later hlater => ?_, hends⟩
          have hgrow := Crew.prefix_run _ later actions' hlater
          rw [Crew.memory_put] at hgrow
          rw [htokens]
          exact (Memory.map_idOf?_of_isPrefix c.memory later.memory hgrow _ ids hids).symm
  · rcases (hfits.workers file).met with ⟨asked, hgiven, hnames⟩
    refine ⟨asked, hgiven, hnames, fun name id hget actions' later hlater => ?_⟩
    rcases Crew.prefix_run c later actions' hlater with ⟨more, hmore⟩
    rw [Memory.get?, ← hmore]
    exact ClassMap.get?_append_left c.memory.map more name id
      ((hfits.workers file).agrees name id hget)

/-- A part of an attribute of the first file, and an attribute of the second one. -/
def firstRequest : Request := ⟨0, true, " p-4 m-2".toList⟩
@[inherit_doc firstRequest] def secondRequest : Request := ⟨1, false, "m-2".toList⟩

/-- The second call begins and ends while the first one is under way. -/
def nestedCalls : List Action :=
  [.move firstRequest .begin, .move secondRequest .begin, .move secondRequest (.ask "m-2".toList),
    .move firstRequest (.ask "p-4".toList),
    .move secondRequest (.answer (some "abcdefgh".toList)),
    .move firstRequest (.ask "m-2".toList)]

/-- Two calls for two files, of which the second is made in the middle of the first. Such a run is
    possible, so the theorem about runs speaks of it. -/
theorem run_nestedCalls :
    ∃ c : Crew, Crew.Run twoIdsStore.naming { memory := {} } nestedCalls c ∧
      (c.worker 0).task
        = some ⟨firstRequest, [], ["ijklmnop".toList, "abcdefgh".toList]⟩ := by
  have h1 : Crew.Run twoIdsStore.naming _ _ _ := Crew.Run.snoc _ _ _ [] _
    (Crew.Run.nil { memory := {} }) (Crew.Step.begin { memory := {} } firstRequest rfl)
  have h2 := Crew.Run.snoc _ _ _ _ _ h1 (Crew.Step.begin _ secondRequest rfl)
  have h3 := Crew.Run.snoc _ _ _ _ _ h2
    (Crew.Step.ask _ secondRequest "m-2".toList [] [] _ _ rfl rfl)
  have h4 := Crew.Run.snoc _ _ _ _ _ h3
    (Crew.Step.ask _ firstRequest "p-4".toList ["m-2".toList] [] _ _ rfl rfl)
  have h5 := Crew.Run.snoc _ _ _ _ _ h4
    (Crew.Step.answer _ secondRequest ["abcdefgh".toList] rfl)
  have h6 := Crew.Run.snoc _ _ _ _ _ h5
    (Crew.Step.ask _ firstRequest "m-2".toList [] ["ijklmnop".toList] _ _ rfl rfl)
  exact ⟨_, h6, rfl⟩

/-- In that run the first file is told the ids that the memory has for its two words, although the
    second file has asked for one of them in between. -/
theorem renamers_agree_with_memory_nestedCalls :
    ∃ c next : Crew, Crew.Run twoIdsStore.naming { memory := {} } nestedCalls c ∧
      Crew.Step twoIdsStore.naming c
        (.move firstRequest (.answer (some " ijklmnop abcdefgh".toList))) next ∧
      ["ijklmnop".toList, "abcdefgh".toList].map some
        = ["p-4".toList, "m-2".toList].map next.memory.idOf? ∧
      (c.worker 0).seen.names = ["p-4", "m-2"] := by
  rcases run_nestedCalls with ⟨c, hrun, htask⟩
  have hanswer : Crew.Step twoIdsStore.naming _ _ _ := Crew.Step.answer c firstRequest _ htask
  rcases renamers_agree_with_memory "/" "." { mapPath := "m.json" } twoIds twoIdsStore rfl
    isId_twoIds {} Memory.Reached.empty nestedCalls c hrun with ⟨-, -, hcalls, hmet⟩
  rcases (hcalls firstRequest _ _ hanswer).2 _ rfl with ⟨hwords, -⟩
  rcases hmet 0 with ⟨asked, hgiven, hnames, -⟩
  -- Nothing is pending, so all words of the text have been asked for.
  have hpending : (c.worker 0).pending = [] := by rw [Worker.pending, htask]
  have hasked : asked = ["p-4".toList, "m-2".toList] := by
    rw [hpending, List.append_nil] at hgiven
    rw [← hgiven]
    decide +kernel
  refine ⟨c, _, hrun, hanswer, ?_, ?_⟩
  · exact hwords [] _ (Crew.Run.nil _)
  · rw [hnames, hasked]
    decide +kernel

end ClassVeil
