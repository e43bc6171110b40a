import ClassVeil.Css.Transform
import ClassVeil.Proofs.Css.Heads
import ClassVeil.Proofs.Id.Letters
import ClassVeil.Proofs.Renaming.Session
import ClassVeil.Proofs.Store.Opened

/-!
# Markup and stylesheet agree

The two passes share nothing but a file. One store assigns ids while markup is renamed and writes
its map; another store, perhaps in another process, loads the map and renames a stylesheet. A class
is styled after the two passes exactly if it was styled before: a rule that is about one class
applies to an element just when the class was one of the words of the attribute.

What has to be said about the ids is that no two classes share one, which the generator makes likely
and cannot promise, and that no class of the stylesheet that markup does not know is spelled like an
id.

Each side is brought to the same function. Markup is renamed word by word, with ids that can all be
read off the map in the end, so its attributes hold what `ClassMap.renamed` makes of their words.
The stylesheet is renamed by that map, so its selectors hold what `ClassMap.renamed` makes of their
classes. After this the two passes are out of the way, and what remains is that this function tells
the words of an attribute from all other classes.

## Theorems

* `renameSheet_of_flush`: A store that shares the file renames by the map that was flushed.
* `heads_renameWithMap_getElem?`: The rule of a class is still there, for the renamed class.
* `applies_iff_applies_renamed`: The two passes agree.
-/

namespace ClassVeil

/-- A store that shares the file renames stylesheets by the map that was flushed, whatever it
    remembers itself, unless it takes the file for one that it has read. -/
theorem Store.renameSheet_of_flush (writer written reader : Store) (fs fs' : FileSystem)
    (hwriter : writer.Confined) (hnames : writer.memory.map.names.Nodup)
    (hflush : writer.flush fs = (none, written, fs')) (hpath : reader.path = writer.path)
    (hcache : ∀ status, fs'.stat reader.file = .ok status → reader.cached? status = none)
    (sheet : Css.Stylesheet) :
    ∃ reader', reader.renameSheet fs' sheet
      = (((Css.renameWithMap writer.memory.map sheet).1,
          .renamed (Css.renameWithMap writer.memory.map sheet).2), reader') := by
  rcases find_of_flush writer written hwriter fs fs' hflush with ⟨time, hfind⟩
  rw [file, ← hpath] at hfind
  rcases load_of_find reader fs' time writer.memory.map hnames hfind hcache with ⟨reader', hload⟩
  refine ⟨reader', ?_⟩
  rw [renameSheet, hload]

/-- The rule of a class is still in its place after the renaming, for the renamed class. Only how it
    is spelled is left open: a renamed class has lost its spelling, and one that is not in the map
    has kept it. -/
theorem Css.heads_renameWithMap_getElem? (map : ClassMap) (hmap : map.names.Nodup)
    (sheet : Stylesheet) (i : Nat) (c : List Char) (raw : Option (List Char))
    (h : (heads sheet)[i]? = some (classHead c raw)) :
    ∃ raw', (heads (renameWithMap map sheet).1)[i]? = some (classHead (map.renamed c) raw') := by
  rw [heads_renameWithMap, List.getElem?_map, h, Option.map_some,
    renameHead_classHead map hmap c raw]
  exact ⟨_, rfl⟩

/-- The two passes agree. Markup is renamed through any number of renamers, over a store that was
    opened and has done anything before; its map is flushed; another store with the same file
    renames a stylesheet. Then the rule of a class `c` is in its place for a class `c'`, and `c` is
    a word of an attribute exactly if `c'` is a word of the attribute renamed. -/
theorem applies_iff_applies_renamed (current root : String) (config : Config)
    (stream : Nat → String) (opened : Store) (hcurrent : current.toList.head? = some '/')
    (hopen : Store.openAt current root config stream = .ok opened) (hdraws : config.Draws stream)
    (memory : Memory) (hmemory : Memory.Reached opened.naming memory) (requests : List Request)
    (texts : List (List Char)) (session : Session)
    (hrequests : Session.renameAll opened.naming requests { memory := memory } = (texts, session))
    (hdistinct : session.memory.map.ids.Nodup) (fs fs' : FileSystem) (written reader : Store)
    (hflush : Store.flush { opened with memory := session.memory } fs = (none, written, fs'))
    (hpath : reader.path = opened.path)
    (hcache : ∀ status, fs'.stat reader.file = .ok status → reader.cached? status = none)
    (sheet : Css.Stylesheet)
    (hsheet : ∀ c raw, Css.classHead c raw ∈ Css.heads sheet →
      String.ofList c ∉ session.memory.map.names → String.ofList c ∉ session.memory.map.ids) :
    ∃ sheet' rules reader', reader.renameSheet fs' sheet = ((sheet', .renamed rules), reader') ∧
      (Css.heads sheet').length = (Css.heads sheet).length ∧
      ∀ (i : Nat) (c : List Char) (raw : Option (List Char)),
        (Css.heads sheet)[i]? = some (Css.classHead c raw) →
        ∃ c' raw', (Css.heads sheet')[i]? = some (Css.classHead c' raw') ∧
          ∀ (k : Nat) (request : Request), requests[k]? = some request →
            ∃ text, texts[k]? = some text ∧
              (c ∈ Text.words request.text ↔ c' ∈ Text.words text) := by
  have hagrees := Session.agrees_start memory
  have hreached : Memory.Reached opened.naming session.memory := by
    have h := Session.reached_renameAll opened.naming requests _ hagrees hmemory
    rw [hrequests] at h
    exact h
  have hnames : session.memory.map.names.Nodup :=
    (Memory.sound_of_reached opened.naming session.memory hreached).nodup
  have hids := Store.isWord_of_openAt current root config stream opened hopen hdraws _ hreached
  have hconfined : Store.Confined { opened with memory := session.memory } :=
    Store.confined_of_openAt current root config stream opened hcurrent hopen
  rcases Store.renameSheet_of_flush _ written reader fs fs' hconfined hnames hflush hpath hcache
    sheet with ⟨reader', hrename⟩
  refine ⟨_, _, reader', hrename, ?_, fun i c raw hrule => ?_⟩
  · rw [Css.heads_renameWithMap, List.length_map]
  · rcases Css.heads_renameWithMap_getElem? _ hnames sheet i c raw hrule with ⟨raw', hrule'⟩
    refine ⟨session.memory.map.renamed c, raw', hrule', fun k request hk => ?_⟩
    -- The map that was written is the one the last renamer has left.
    have hlater : (Session.renameAll opened.naming requests { memory := memory }).2.memory.map
        <+: session.memory.map := by
      rw [hrequests]
    rcases Session.words_renameAll opened.naming requests _ hagrees _ hlater hids k request hk with
      ⟨text, htext, hwords, hknown⟩
    rw [hrequests] at htext
    refine ⟨text, htext, ?_⟩
    -- Both sides are images under the map now, and the ids are distinct.
    rw [hwords]
    exact ClassMap.renamed_mem_map_iff _ hdistinct _ hknown c
      (hsheet c raw (List.mem_of_getElem? hrule))

/-- A stream that offers two ids. -/
def twoIds (n : Nat) : String := if n = 0 then "abcdefgh" else "ijklmnop"

theorem isId_twoIds (n : Nat) : Id.IsId 8 (twoIds n) := by
  rw [twoIds]
  split
  · exact ⟨rfl, (by decide : "abcdefgh".toList ⊆ Id.alphabet)⟩
  · exact ⟨rfl, (by decide : "ijklmnop".toList ⊆ Id.alphabet)⟩

/-- A store that draws its ids from this stream. -/
def twoIdsStore : Store :=
  ⟨"/", [.root, .name "m.json"], ⟨.regenerate, Id.random twoIds⟩, {}, none, 0⟩

/-- Attributes of two files that have a class in common. -/
def twoFiles : List Request :=
  [⟨0, false, "p-4  md:flex".toList⟩, ⟨1, true, " md:flex".toList⟩]

/-- A rule for that class, and one for a class that is in neither file. -/
def twoRules : Css.Stylesheet :=
  [.rule (Css.classHead "md:flex".toList (some "md\\:flex".toList)) [],
   .rule (Css.classHead "other".toList (some "other".toList)) []]

/-- The file system after the attributes of both files have been renamed and the map flushed. -/
def twoIdsFlushed : FileSystem :=
  (Store.flush { twoIdsStore with
    memory := (Session.renameAll twoIdsStore.naming twoFiles { memory := {} }).2.memory }
    ⟨[], 0⟩).2.2

/-- A rule that applies to an element still does after both have been renamed, in a store with two
    classes, through a flush and another store that loads the file. -/
theorem applies_iff_applies_renamed_twoIds :
    ∃ sheet' rules reader',
      twoIdsStore.renameSheet twoIdsFlushed twoRules = ((sheet', .renamed rules), reader') ∧
      ∃ c' raw', (Css.heads sheet')[0]? = some (Css.classHead c' raw') ∧
        ∃ text, (Session.renameAll twoIdsStore.naming twoFiles { memory := {} }).1[1]? = some text ∧
          c' ∈ Text.words text := by
  have hother : ∀ c raw, Css.classHead c raw ∈ Css.heads twoRules →
      String.ofList c ∉ (Session.renameAll twoIdsStore.naming twoFiles
        { memory := {} }).2.memory.map.ids := by
    intro c raw hc
    rw [show Css.heads twoRules = [Css.classHead "md:flex".toList (some "md\\:flex".toList),
      Css.classHead "other".toList (some "other".toList)] from rfl, List.mem_cons,
      List.mem_singleton] at hc
    rcases hc with hc | hc
    · cases hc
      decide +kernel
    · cases hc
      decide +kernel
  rcases applies_iff_applies_renamed "/" "." { mapPath := "m.json" } twoIds twoIdsStore rfl rfl
    isId_twoIds {} Memory.Reached.empty twoFiles
    _ _ rfl (by decide +kernel) ⟨[], 0⟩ _ _ twoIdsStore rfl rfl (fun _ _ => rfl) twoRules
    (fun c raw hc _ => hother c raw hc) with ⟨sheet', rules, reader', hrename, -, hrules⟩
  rcases hrules 0 "md:flex".toList _ rfl with ⟨c', raw', hc', happlies⟩
  rcases happlies 1 ⟨1, true, " md:flex".toList⟩ rfl with ⟨text, htext, hiff⟩
  exact ⟨sheet', rules, reader', hrename, c', raw', hc', text, htext, hiff.mp (by decide +kernel)⟩

end ClassVeil
