import ClassVeil.Proofs.ClassMap.Basic
import ClassVeil.Proofs.Json.Written
import ClassVeil.Proofs.Text.Utf8

/-!
# The file of a class map

A class map goes through its file and comes back: reading what was written gives the same pairs in
the same order. Names and ids can be any texts, the empty one included.

The reader puts the pairs in one by one, so the order comes back because a name that is new goes to
the end. That takes distinct names, which is what an insertion-ordered map has.

The writer makes one line for a pair, and commas stand between lines; the reader takes a comma in
front of every pair but the first. So the text is cut for the proof in front of the commas, where
the reader cuts it, and not behind them. Then there is one lemma for a line, an induction for the
lines that follow the first, and the first is the same lemma once more without a comma. The fuel of
the reader is the length of the text, and each pair needs one unit and brings many characters.

## Main definitions

* `lead`: What stands in front of the line of a pair.
* `fileBytes`: The bytes of the file of a map.

## Theorems

* `readEntries_entry`: The line of a pair puts the pair in.
* `readEntries_lines`: Lines put all their pairs in.
* `read_write_eq`: A written map is read as itself.
* `fileBytes_injective`: Maps with the same file are the same map.
-/

namespace ClassVeil

namespace ClassMap

open Json

/-- What stands in front of the line of a pair: a line break, behind a comma unless the pair is the
    first one. -/
def lead (first : Bool) : List Char := if first then ['\n'] else [',', '\n']

/-- The lines of pairs behind those that have been read. -/
def laterLines (m : ClassMap) : List Char := m.flatMap fun entry => lead false ++ writeEntry entry

theorem laterLines_cons (entry : String × String) (rest : ClassMap) :
    laterLines (entry :: rest) = lead false ++ writeEntry entry ++ laterLines rest := rfl

theorem writeEntries_cons (entry : String × String) (rest : ClassMap) :
    writeEntries (entry :: rest) = writeEntry entry ++ laterLines rest := by
  -- The comma that the writer puts behind a line is moved in front of the next.
  induction rest generalizing entry with
  | nil => rw [writeEntries, laterLines, List.flatMap_nil, List.append_nil]
  | cons next rest ih =>
      rw [writeEntries, ih, laterLines_cons]
      · simp only [lead, Bool.false_eq_true, if_false, List.cons_append, List.nil_append]
      · exact List.cons_ne_nil next rest

theorem isSpace_newline : ∀ b ∈ ['\n'], Cursor.isSpace b = true := List.all_eq_true.mp (by decide)

theorem isSpace_space : ∀ b ∈ [' '], Cursor.isSpace b = true := List.all_eq_true.mp (by decide)

theorem isSpace_indent : ∀ b ∈ ['\n', ' ', ' '], Cursor.isSpace b = true :=
  List.all_eq_true.mp (by decide)

/-- The key of a pair, up to the colon. -/
theorem readKey?_entry (first : Bool) (name rest : List Char) :
    Reads (readKey? first) (lead first ++ ([' ', ' '] ++ writeString name ++ rest))
      (some (String.ofList name)) rest := by
  cases first with
  | true => exact readKey?_first ['\n', ' ', ' '] name rest isSpace_indent
  | false => exact readKey?_next ['\n', ' ', ' '] name rest isSpace_indent

/-- The line of a pair puts the pair in: key, colon and value are read by the lemmas on written
    values, and what is left is the text behind the line, with one unit of fuel less. -/
theorem readEntries_entry (fuel : Nat) (first : Bool) (m : ClassMap) (name id : String)
    (rest : List Char) (pos : Position) :
    ∃ next, readEntries (fuel + 1) first m ⟨lead first ++ writeEntry (name, id) ++ rest, pos⟩
      = readEntries fuel false (insert m name id) ⟨rest, next⟩ := by
  have hline : lead first ++ writeEntry (name, id) ++ rest
      = lead first ++ ([' ', ' '] ++ writeString name.toList
        ++ ':' :: ([' '] ++ writeString id.toList ++ rest)) := by
    simp only [writeEntry, List.append_assoc, List.cons_append, List.nil_append]
  rcases readKey?_entry first name.toList (':' :: ([' '] ++ writeString id.toList ++ rest)) pos with
    ⟨p1, hkey⟩
  rcases readColon_colon ([' '] ++ writeString id.toList ++ rest) p1 with ⟨p2, hcolon⟩
  rcases readText_writeString "a string" [' '] id.toList rest isSpace_space p2 with ⟨p3, hid⟩
  refine ⟨p3, ?_⟩
  rw [hline, readEntries, hkey]
  simp only []
  rw [hcolon]
  simp only [bind, Except.bind]
  rw [hid]
  simp only [String.ofList_toList]

/-- Lines put all their pairs in, one after the other, as long as their names are new. The induction
    is on the pairs, for any map that has been read so far, to whose end they go. -/
theorem readEntries_lines (pairs : ClassMap) (rest : List Char) :
    ∀ (fuel : Nat) (m : ClassMap) (pos : Position), pairs.length < fuel →
      (names (m ++ pairs)).Nodup → ∃ next,
        readEntries fuel false m ⟨laterLines pairs ++ '\n' :: '\x7d' :: rest, pos⟩
          = .ok (m ++ pairs, ⟨'\x7d' :: rest, next⟩) := by
  induction pairs with
  | nil =>
      intro fuel m pos hfuel _
      -- No line is left: the reader finds the end where a key could be.
      rcases Nat.exists_eq_succ_of_ne_zero (Nat.ne_of_gt hfuel) with ⟨k, rfl⟩
      rcases readKey?_end false ['\n'] rest isSpace_newline pos with ⟨next, hnext⟩
      refine ⟨next, ?_⟩
      rw [laterLines, List.flatMap_nil, List.nil_append, readEntries]
      rw [show '\n' :: '\x7d' :: rest = ['\n'] ++ '\x7d' :: rest from rfl, hnext, List.append_nil]
  | cons pair pairs ih =>
      rcases pair with ⟨name, id⟩
      intro fuel m pos hfuel hnames
      rcases Nat.exists_eq_succ_of_ne_zero (Nat.ne_of_gt (Nat.zero_lt_of_lt hfuel)) with ⟨k, rfl⟩
      -- The name is new, so the pair goes to the end, where the writer took it from.
      have hnew : name ∉ names m := by
        rw [names_append, List.nodup_append] at hnames
        intro hmem
        exact hnames.2.2 name hmem name List.mem_cons_self rfl
      rcases readEntries_entry k false m name id (laterLines pairs ++ '\n' :: '\x7d' :: rest) pos
        with ⟨mid, hmid⟩
      rw [List.append_cons m (name, id) pairs] at hnames ⊢
      rcases ih k (m ++ [(name, id)]) mid (Nat.lt_of_succ_lt_succ hfuel) hnames with ⟨next, hnext⟩
      refine ⟨next, ?_⟩
      rw [laterLines_cons, List.append_assoc, hmid, insert_of_not_mem m name id hnew, hnext]

theorem length_le_length_laterLines (m : ClassMap) : m.length ≤ (laterLines m).length := by
  induction m with
  | nil => exact Nat.zero_le _
  | cons entry rest ih =>
      rw [laterLines_cons, List.length_append, List.length_cons]
      have hlead : (lead false ++ writeEntry entry).length
          = (writeEntry entry).length + 2 := by
        simp only [lead, Bool.false_eq_true, if_false, List.length_append, List.length_cons,
          List.length_nil]
        omega
      omega

/-- The object of a map that has pairs is read as the map, one entry after the other. The names must
    be distinct, because the reader puts a name that comes again in its first place. -/
theorem readEntries_object (pair : String × String) (pairs : ClassMap) (fuel : Nat) (pos : Position)
    (hfuel : pairs.length + 1 < fuel) (hnames : (names (pair :: pairs)).Nodup) :
    ∃ next, readEntries fuel true [] ⟨'\n' :: (writeEntries (pair :: pairs) ++ ['\n', '\x7d']), pos⟩
      = .ok (pair :: pairs, ⟨['\x7d'], next⟩) := by
  rcases pair with ⟨name, id⟩
  rcases Nat.exists_eq_succ_of_ne_zero (Nat.ne_of_gt (Nat.zero_lt_of_lt hfuel)) with ⟨k, rfl⟩
  rcases readEntries_entry k true [] name id (laterLines pairs ++ ['\n', '\x7d']) pos with
    ⟨mid, hmid⟩
  rcases readEntries_lines pairs [] k [(name, id)] mid (by omega) hnames with ⟨next, hnext⟩
  refine ⟨next, ?_⟩
  rw [writeEntries_cons]
  have htext : '\n' :: (writeEntry (name, id) ++ laterLines pairs ++ ['\n', '\x7d'])
      = lead true ++ writeEntry (name, id) ++ (laterLines pairs ++ ['\n', '\x7d']) := by
    simp only [lead, if_true, List.append_assoc, List.cons_append, List.nil_append]
  rw [htext, hmid, insert_of_not_mem [] name id List.not_mem_nil]
  exact hnext

/-- A written map is read as itself: the same pairs in the same order. The empty map is written
    without a line break, and is the one case in which there is no first line. -/
theorem read_write_eq (m : ClassMap) (h : (names m).Nodup) : read (write m) = .ok m := by
  cases m with
  | nil => rfl
  | cons pair pairs =>
      have hwrite : write (pair :: pairs)
          = '\x7b' :: '\n' :: (writeEntries (pair :: pairs) ++ ['\n', '\x7d']) := by
        rw [write, if_neg (List.cons_ne_nil pair pairs)]
        rfl
      -- A line has more than one character, so the length of the text is fuel enough.
      have hfuel : pairs.length + 1 < (write (pair :: pairs)).length + 1 := by
        have hle := length_le_length_laterLines pairs
        rw [hwrite, writeEntries_cons]
        simp only [List.length_cons, List.length_append]
        omega
      rcases skipSpace_append [] '\x7b' ('\n' :: (writeEntries (pair :: pairs) ++ ['\n', '\x7d']))
        ⟨1, 0⟩ (fun b hb => absurd hb List.not_mem_nil) (by decide) with ⟨p0, hstart⟩
      rcases readEntries_object pair pairs ((write (pair :: pairs)).length + 1) (p0.after '\x7b')
        hfuel h with ⟨p1, hentries⟩
      rcases endObject_brace [] p1 with ⟨p2, hend⟩
      rw [List.nil_append] at hstart
      rw [read]
      simp only [Cursor.ofChars]
      rw [show (write (pair :: pairs)) = _ from hwrite] at hentries ⊢
      rw [hstart]
      simp only [Cursor.peek?, List.head?_cons, if_true, Cursor.advance]
      rw [hentries]
      simp only [bind, Except.bind]
      rw [hend]
      simp only [endText_nil]
      rfl

/-- The bytes of the file of a map. -/
def fileBytes (m : ClassMap) : List UInt8 := Utf8.encode (write m)

/-- Maps with the same file are the same map, for reading undoes what has been written of either of
    them. -/
theorem fileBytes_injective (m n : ClassMap) (hm : (names m).Nodup) (hn : (names n).Nodup)
    (h : fileBytes m = fileBytes n) : m = n := by
  have hread := read_write_eq m hm
  rw [Utf8.encode_injective _ _ h, read_write_eq n hn] at hread
  exact (Except.ok.inj hread).symm

end ClassMap

end ClassVeil
