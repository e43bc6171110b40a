import ClassVeil.Proofs.Script.Commuting
import ClassVeil.Proofs.Script.Rigid
import ClassVeil.Proofs.Store.RoundTrip

/-!
# What the marking of blank lines leaves behind

Blank lines are marked before a script is read for the second time, and the marks are meant to be
seen by nobody: not by the store, and not in the text.

Between the two readings every byte behind a mark is moved. So the two trees are not the same, but
one is the other with its places moved, and so are the comments once the marks are taken out of
them. This is all that is asked of the two readings here. A visit does not look at places
(`visitAll_moved`), so the store is left as it would have been without any marks. Printing does look
at them, but only at those near a node (`print_moved`), so but for the marks the text is the same
too.

What becomes of the marks depends on where they are printed. A mark that begins a line has that line
for itself and is taken out again, with nothing else changed. But a comment can come to stand behind
the comment before it, or behind the statement that it trails, and a mark that does stays in the
text for good.

## Main definitions

* `Store.renamedScript`: A script with the classes of its elements renamed.
* `Store.transformPlain`: The transformation of a source without regard to blank lines.
* `Script.DifferByMarks`: Two readings of which one is the other with blank lines marked.

## Theorems

* `restoreBlankLines_print`: What is restored from a script with marks, compared with the script
  without them.
* `transformScript_marked`: What the marking changes, in the store and in the text.
* `transformScript_marked_between`: Blank lines between statements, of which nothing is left.
* `transformScript_marked_behind`: A blank line behind a comment, whose mark is left.
-/

namespace ClassVeil

open Script

namespace Store

/-- A script with the classes of its elements renamed. -/
def renamedScript (s : Store) (options : TransformOptions) (script : Program) : Program :=
  { script with items := (visitAll (Renaming.byIds s.naming options.classAttributes) script.items
    ⟨s.memory, []⟩).1 }

/-- The end of a renaming that has answered with a text and has left the renamer `r`. -/
def finishScript (s : Store) (fs : FileSystem) (options : TransformOptions) (code : List Char)
    (r : Renamer) : Except TransformError Transformed × Store × FileSystem :=
  let answer := s.finish fs options code r
  (answer.1.mapError .store, answer.2)

/-- The transformation of a source that is read once and printed without regard to blank lines. -/
def transformPlain (s : Store) (fs : FileSystem) (options : TransformOptions)
    (name source : List Char) : Except TransformError Transformed × Store × FileSystem :=
  match read (Dialect.ofFile name) source with
  | none => (.error .unreadable, s, fs)
  | some script =>
    s.finishScript fs options (print (s.renamedScript options script))
      (visitAll (Renaming.byIds s.naming options.classAttributes) script.items ⟨s.memory, []⟩).2

/-- The text has no bearing on the rest of what is answered. -/
theorem finishScript_code (s : Store) (fs : FileSystem) (options : TransformOptions)
    (code other : List Char) (r : Renamer) :
    (s.finishScript fs options code r).2 = (s.finishScript fs options other r).2 ∧
      (s.finishScript fs options code r).1.map (·.classMap)
        = (s.finishScript fs options other r).1.map (·.classMap) ∧
      ∀ t, (s.finishScript fs options code r).1 = .ok t → t.code = code := by
  rw [finishScript, finishScript, finish, finish]
  split
  · split
    · exact ⟨rfl, rfl, fun t ht => by cases ht⟩
    · exact ⟨rfl, rfl, fun t ht => by cases ht; rfl⟩
  · exact ⟨rfl, rfl, fun t ht => by cases ht; rfl⟩

/-- The transformation of a script that can be read, told by its parts: it is renamed, printed and
    restored, and the renamer that is left is what the store goes on with. -/
theorem transformScript_eq (s : Store) (fs : FileSystem) (options : TransformOptions)
    (name source : List Char) (script : Program)
    (h : readMarked (Dialect.ofFile name) source = some script) :
    s.transformScript fs options name source =
      s.finishScript fs options (restoreBlankLines (print (s.renamedScript options script)))
        (visitAll (Renaming.byIds s.naming options.classAttributes) script.items
          ⟨s.memory, []⟩).2 := by
  have hrename : renameScript (Renaming.byIds s.naming options.classAttributes) script
      ⟨s.memory, []⟩ = (restoreBlankLines (print (s.renamedScript options script)),
        (visitAll (Renaming.byIds s.naming options.classAttributes) script.items
          ⟨s.memory, []⟩).2) := rfl
  unfold transformScript
  split
  · next hnone => cases h.symm.trans hnone
  · next other hother =>
      cases h.symm.trans hother
      simp only [hrename, finishScript]
      rcases s.finish fs options (restoreBlankLines (print (s.renamedScript options script)))
        (visitAll (Renaming.byIds s.naming options.classAttributes) script.items
          ⟨s.memory, []⟩).2 with ⟨_ | t, s', fs'⟩
      · rfl
      · rfl

theorem transformPlain_eq (s : Store) (fs : FileSystem) (options : TransformOptions)
    (name source : List Char) (script : Program)
    (h : read (Dialect.ofFile name) source = some script) :
    s.transformPlain fs options name source =
      s.finishScript fs options (print (s.renamedScript options script))
        (visitAll (Renaming.byIds s.naming options.classAttributes) script.items
          ⟨s.memory, []⟩).2 := by
  rw [transformPlain, h]

end Store

/-- A script that has been read with its blank lines marked, next to the same script read without:
    every place of the one is moved by `f` to its place in the other, and the blank marks are the
    only comments that come in addition. No mark is put inside an item, so the bytes of an item keep
    together, and with them the places beside its nodes. -/
structure Script.DifferByMarks (f : Nat → Nat) (plain marked : Program) : Prop where
  injective : f.Injective
  rigid : (Node.group plain.items).allRigid f = true
  moved : marked.unmarked = plain.moved f

/-- The classes of a script are renamed alike with and without the marks, and the renamed scripts
    are printed alike when the marks are left out. -/
theorem Script.DifferByMarks.renamed {f : Nat → Nat} {plain marked : Program}
    (h : DifferByMarks f plain marked) (s : Store) (options : TransformOptions) :
    (visitAll (Renaming.byIds s.naming options.classAttributes) marked.items ⟨s.memory, []⟩).2
        = (visitAll (Renaming.byIds s.naming options.classAttributes) plain.items
            ⟨s.memory, []⟩).2 ∧
      print (s.renamedScript options marked).unmarked = print (s.renamedScript options plain) := by
  have hitems : marked.items = plain.items.map (Node.moved f) :=
    show marked.unmarked.items = (plain.moved f).items by rw [h.moved]
  have hvisit := visitAll_moved f (Renaming.byIds s.naming options.classAttributes) plain.items
    ⟨s.memory, []⟩
  rw [← hitems] at hvisit
  -- The renamed script with the marks differs from the other one as the two did before.
  have hscript : (s.renamedScript options marked).unmarked
      = (s.renamedScript options plain).moved f := by
    have hbanner : marked.unmarked.banner = plain.banner := by rw [h.moved]; rfl
    have hcomments : marked.unmarked.comments = plain.comments.moved f := by rw [h.moved]; rfl
    rw [Store.renamedScript, Store.renamedScript, hvisit]
    exact (Program.mk.injEq ..).mpr ⟨hbanner, rfl, hcomments⟩
  rw [hvisit]
  refine ⟨rfl, ?_⟩
  rw [hscript]
  exact print_moved h.injective _ (allRigid_visitAll _ _ _ h.rigid)

/-- The text of a script whose blank marks begin lines, or stick to something. Neither of the two
    may be the case, as with a mark that stands behind blanks only; then nothing is said. -/
theorem Script.restoreBlankLines_print (shown : Program) :
    (shown.marksBeginLines = true → ¬ markText <:+: print shown.unmarked →
      ¬ markText <:+: restoreBlankLines (print shown) ∧
        (Text.pieces '\n' (restoreBlankLines (print shown))).filter (fun line => !line.isEmpty)
          = filledLines (print shown.unmarked)) ∧
    (shown.marksStick = true → markText <:+: restoreBlankLines (print shown)) := by
  refine ⟨fun hbegin hclean => ?_, markText_of_marksStick shown⟩
  have hlines := restoredLines_print shown hbegin
  rcases restoredLines_of_clean _ hclean with ⟨hfilled, hnone⟩
  rw [markText_infix_restoreBlankLines, filledLines_restoreBlankLines, hlines]
  refine ⟨?_, hfilled⟩
  rintro ⟨line, hline, hpart⟩
  exact hnone line hline hpart

/-- The marking of blank lines does not change what is done to the store, nor the classes met, nor
    whether there is an answer at all. As for the text, it is compared with the text that the script
    is printed to without regard to blank lines. If every mark begins a line there is no mark in the
    answer, and but for empty lines the two are the same; a mark that comes to stand behind
    something is in the answer. -/
theorem transformScript_marked (s : Store) (fs : FileSystem) (options : TransformOptions)
    (name source : List Char) (plain marked : Program) (f : Nat → Nat)
    (hplain : read (Dialect.ofFile name) source = some plain)
    (hmarked : readMarked (Dialect.ofFile name) source = some marked)
    (h : DifferByMarks f plain marked) :
    (s.transformScript fs options name source).2 = (s.transformPlain fs options name source).2 ∧
      (s.transformScript fs options name source).1.map (·.classMap)
        = (s.transformPlain fs options name source).1.map (·.classMap) ∧
      ∀ t, (s.transformScript fs options name source).1 = .ok t →
        ∃ u, (s.transformPlain fs options name source).1 = .ok u ∧
          ((s.renamedScript options marked).marksBeginLines = true → ¬ markText <:+: u.code →
            ¬ markText <:+: t.code ∧
              (Text.pieces '\n' t.code).filter (fun line => !line.isEmpty)
                = filledLines u.code) ∧
          ((s.renamedScript options marked).marksStick = true → markText <:+: t.code) := by
  -- Both readings are renamed alike, so the two transformations end with the same renamer and
  -- differ in their texts.
  rcases h.renamed s options with ⟨hafter, hprint⟩
  rw [s.transformScript_eq fs options name source marked hmarked, hafter,
    s.transformPlain_eq fs options name source plain hplain]
  have hcode := s.finishScript_code fs options
    (restoreBlankLines (print (s.renamedScript options marked)))
    (print (s.renamedScript options plain)) (visitAll (Renaming.byIds s.naming
      options.classAttributes) plain.items ⟨s.memory, []⟩).2
  refine ⟨hcode.1, hcode.2.1, fun t ht => ?_⟩
  -- The two answer with the same classes, so where one has an answer the other has one too.
  have hclasses := hcode.2.1
  rw [ht] at hclasses
  cases hu : (s.finishScript fs options (print (s.renamedScript options plain)) (visitAll
      (Renaming.byIds s.naming options.classAttributes) plain.items ⟨s.memory, []⟩).2).1 with
  | error e => rw [hu] at hclasses; cases hclasses
  | ok u =>
      refine ⟨u, rfl, ?_⟩
      rw [(s.finishScript_code fs options _ [] _).2.2 t ht,
        (s.finishScript_code fs options _ [] _).2.2 u hu, ← hprint]
      exact restoreBlankLines_print (s.renamedScript options marked)

/-- Two statements with a comment between them, and a blank line on each side of it. -/
def spacedOut : List Char := "x=<p className=\"a\"/>\n\n// c\n\ny".toList

theorem isSome_readMarked_spacedOut :
    (readMarked (Dialect.ofFile "a.jsx".toList) spacedOut).isSome = true := by decide +kernel

theorem isSome_read_spacedOut :
    (read (Dialect.ofFile "a.jsx".toList) spacedOut).isSome = true := by decide +kernel

/-- The places of what is behind the first of two marks, and behind the second one. -/
def spacedOutPlace (p : Nat) : Nat := if p ≤ 20 then p else if p ≤ 26 then p + 28 else p + 56

theorem injective_spacedOutPlace : spacedOutPlace.Injective := by
  intro p q h
  unfold spacedOutPlace at h
  grind

theorem differByMarks_spacedOut : DifferByMarks spacedOutPlace
    ((read (Dialect.ofFile "a.jsx".toList) spacedOut).get isSome_read_spacedOut)
    ((readMarked (Dialect.ofFile "a.jsx".toList) spacedOut).get isSome_readMarked_spacedOut) where
  injective := injective_spacedOutPlace
  rigid := by decide +kernel
  moved := (Program.mk.injEq ..).mpr ⟨by decide +kernel, by decide +kernel, by decide +kernel⟩

/-- Blank lines on both sides of a comment between two statements. The marks begin lines, so nothing
    is left of them, and but for empty lines the text is that of the script without blank lines. -/
theorem transformScript_marked_between :
    ∃ script plain t u, readMarked (Dialect.ofFile "a.jsx".toList) spacedOut = some script ∧
      read (Dialect.ofFile "a.jsx".toList) spacedOut = some plain ∧
      DifferByMarks spacedOutPlace plain script ∧
      (openedWorld.store.transformScript ⟨[], 0⟩ ⟨["className"], false⟩ "a.jsx".toList
        spacedOut).1 = .ok t ∧
      (openedWorld.store.transformPlain ⟨[], 0⟩ ⟨["className"], false⟩ "a.jsx".toList
        spacedOut).1 = .ok u ∧
      ¬ markText <:+: t.code ∧
      (Text.pieces '\n' t.code).filter (fun line => !line.isEmpty) = filledLines u.code ∧
      filledLines u.code
        = ["x = <p className=\"abcdefgh\"/>;".toList, "// c".toList, "y;".toList] := by
  have hmarked := (Option.some_get isSome_readMarked_spacedOut).symm
  have hplain := (Option.some_get isSome_read_spacedOut).symm
  have hanswer : ∃ t, (openedWorld.store.transformScript ⟨[], 0⟩ ⟨["className"], false⟩
      "a.jsx".toList spacedOut).1 = .ok t := by
    rw [Store.transformScript_eq _ _ _ _ _ _ hmarked]
    exact ⟨_, rfl⟩
  rcases hanswer with ⟨t, hok⟩
  rcases transformScript_marked openedWorld.store ⟨[], 0⟩ ⟨["className"], false⟩ "a.jsx".toList
    spacedOut _ _ spacedOutPlace hplain hmarked differByMarks_spacedOut with ⟨-, -, htext⟩
  rcases htext t hok with ⟨u, hu, hbegin, -⟩
  have hcode := hu
  rw [Store.transformPlain_eq _ _ _ _ _ _ hplain] at hcode
  have hprinted := (Store.finishScript_code _ _ _ _ [] _).2.2 u hcode
  rcases hbegin (by decide +kernel) (by rw [hprinted]; decide +kernel) with ⟨hclean, hlines⟩
  refine ⟨_, _, t, u, hmarked, hplain, differByMarks_spacedOut, hok, hu, hclean, hlines, ?_⟩
  rw [hprinted]
  decide +kernel

/-- A function with a comment that describes it, and a blank line between the two. -/
def documented : List Char := "/** d */\n\nfunction f() \x7b\x7d".toList

/-- A comment that describes a function is put in front of it on the same line, and so is the mark
    between the two. It stays in the answer, although there was none in the source. -/
theorem transformScript_marked_behind :
    ¬ markText <:+: documented ∧
      (openedWorld.store.transformScript ⟨[], 0⟩ ⟨["className"], false⟩ "a.js".toList
        documented).1.toOption.map (·.code)
        = some ("/** d */ ".toList ++ blankMark ++ "\nfunction f() \x7b\x7d".toList) := by
  constructor
  · decide +kernel
  · decide +kernel

end ClassVeil
