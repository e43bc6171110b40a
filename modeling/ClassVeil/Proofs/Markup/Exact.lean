import ClassVeil.Markup.Rename
import ClassVeil.Proofs.Markup.Bytes
import ClassVeil.Proofs.Renaming.Seen

/-!
# What renaming does to a document

Renaming goes through the values of the class attributes in the order of the document and asks for
the id of each word in them. Which ids it is answered depends on the renamer, which changes all the
while; but an answer never changes later on, so the document that comes out can be told without a
renamer: it is the division with each of these values put through one function
(`renameSegments_eq`).

The renamer enters through a hypothesis on all the answers together: there is one function of words,
and asked for the words of the document in turn, the renamer answers with its values. The words of a
document are those of its first segment and then those of the rest, and so it is with items and
values. So the hypothesis is divided along with the words, by way of one lemma on asking for two
lists after each other, and each value gets the answers to its own words.

That the division is a division of the text, and the only one, is known already. Here it is taken
together with the map over it, and with the order in which the words are met, to say everything
about a document that is renamed: which bytes of it are others, and what stands in their place.

## Main definitions

* `renamedValue`: A value with the ids of its words in place of them.
* `Segment.classValues`: The values of the class attributes.
* `Segment.mapClassValues`: A segment with these values put through a function.

## Theorems

* `renameItem_eq`, `renameItems_eq`, `renameSegments_eq`: Renaming is a map over the division.
* `transform_exact`: The division of a document, and what renaming makes of it.
-/

namespace ClassVeil

namespace Html

/-- A value with the ids of its words, joined by spaces, in place of them. A value without words
    stays as it is. -/
def renamedValue (ids : List Char → List Char) (value : List Char) : List Char :=
  if Text.words value = [] then value else joinWords ((Text.words value).map ids)

/-- The value of a class attribute. -/
def Item.classValue? : Item → Option (List Char)
  | .valued name _ _ value => if isClassAttribute name then some value else none
  | .filler _ | .flag _ => none

/-- A part of a start tag with the value of a class attribute put through a function. -/
def Item.mapClassValue (f : List Char → List Char) (item : Item) : Item :=
  match item with
  | .valued name link quoting value =>
    if isClassAttribute name then .valued name link quoting (f value) else item
  | .filler _ | .flag _ => item

/-- The values of the class attributes, from the first to the last. -/
def Segment.classValues : Segment → List (List Char)
  | .tag t => t.items.filterMap Item.classValue?
  | .text _ | .comment _ | .raw _ => []

/-- A segment with the values of the class attributes put through a function. -/
def Segment.mapClassValues (f : List Char → List Char) (segment : Segment) : Segment :=
  match segment with
  | .tag t => .tag { t with items := t.items.map (Item.mapClassValue f) }
  | .text _ | .comment _ | .raw _ => segment

/-- The words in the values of the class attributes, from the first to the last. -/
def classWords (segments : List Segment) : List (List Char) :=
  (segments.flatMap Segment.classValues).flatMap Text.words

variable (naming : Naming) (ids : List Char → List Char)

/-- Renaming a value asks for its words, and the value that comes out is made of the answers. A
    value without words is given back as it is, which is what the renaming answers nothing for. -/
theorem renameClasses_eq (value : List Char) (r : Renamer)
    (hids : (Renamer.mapClasses naming (Text.words value) r).1 = (Text.words value).map ids) :
    (Renamer.renameClasses naming value r).1.getD value = renamedValue ids value ∧
      (Renamer.renameClasses naming value r).2
        = (Renamer.mapClasses naming (Text.words value) r).2 := by
  unfold Renamer.renameClasses renamedValue
  cases hwords : Text.words value with
  | nil => exact ⟨rfl, rfl⟩
  | cons word rest =>
      rw [hwords] at hids
      simp only [hids, Option.getD_some, reduceCtorEq, if_false, and_self]

/-- Asking for words and then for others divides the answers: the first ones are the answers to the
    words, as many as there are, and the others those that the renamer gives afterwards. -/
theorem answers_append (words more : List (List Char)) (r : Renamer)
    (hids : (Renamer.mapClasses naming (words ++ more) r).1 = (words ++ more).map ids) :
    (Renamer.mapClasses naming words r).1 = words.map ids ∧
      (Renamer.mapClasses naming more (Renamer.mapClasses naming words r).2).1
        = more.map ids := by
  rw [Renamer.mapClasses_append, List.map_append] at hids
  refine List.append_inj hids ?_
  rw [Renamer.length_mapClasses, List.length_map]

/-- An item is renamed by its words: if it is a class attribute its value is put together from their
    ids, and otherwise it has no words and stays as it is. -/
theorem renameItem_eq (item : Item) (r : Renamer)
    (hids : (Renamer.mapClasses naming (item.classValue?.toList.flatMap Text.words) r).1
      = (item.classValue?.toList.flatMap Text.words).map ids) :
    renameItem (Renamer.renameClasses naming) item r
      = (item.mapClassValue (renamedValue ids),
        (Renamer.mapClasses naming (item.classValue?.toList.flatMap Text.words) r).2) := by
  cases item with
  | filler c => rfl
  | flag name => rfl
  | valued name link quoting value =>
      by_cases hclass : isClassAttribute name = true
      · simp only [Item.classValue?, if_pos hclass, Option.toList_some, List.flatMap_cons,
          List.flatMap_nil, List.append_nil] at hids
        rcases renameClasses_eq naming ids value r hids with ⟨hvalue, hafter⟩
        simp only [renameItem, Item.mapClassValue, Item.classValue?, if_pos hclass,
          Option.toList_some, List.flatMap_cons, List.flatMap_nil, List.append_nil]
        rw [← hvalue, ← hafter]
        rcases Renamer.renameClasses naming value r with ⟨_ | renamed, after⟩
        · rfl
        · rfl
      · simp only [renameItem, Item.mapClassValue, Item.classValue?, if_neg hclass,
          Option.toList_none, List.flatMap_nil, Renamer.mapClasses]

/-- The items of a tag are renamed one after the other, so their words are asked for in the order of
    the items. The ids are a function of the words, whatever has been asked for before. -/
theorem renameItems_eq (items : List Item) (r : Renamer)
    (hids : (Renamer.mapClasses naming
        ((items.filterMap Item.classValue?).flatMap Text.words) r).1
      = ((items.filterMap Item.classValue?).flatMap Text.words).map ids) :
    renameItems (Renamer.renameClasses naming) items r
      = (items.map (Item.mapClassValue (renamedValue ids)),
        (Renamer.mapClasses naming
          ((items.filterMap Item.classValue?).flatMap Text.words) r).2) := by
  induction items generalizing r with
  | nil => rfl
  | cons item rest ih =>
      -- The words of an item come before those of the items behind it.
      have hwords : ((item :: rest).filterMap Item.classValue?).flatMap Text.words
          = item.classValue?.toList.flatMap Text.words
            ++ (rest.filterMap Item.classValue?).flatMap Text.words := by
        rw [List.filterMap_cons]
        cases item.classValue? with
        | none => rfl
        | some value =>
            simp only [List.flatMap_cons, Option.toList_some, List.flatMap_nil, List.append_nil]
      rw [hwords] at hids ⊢
      rcases answers_append naming ids _ _ r hids with ⟨hfirst, hrest⟩
      rw [renameItems, renameItem_eq naming ids item r hfirst]
      simp only [ih _ hrest, List.map_cons, Renamer.mapClasses_append]

/-- Renaming puts the values of the class attributes through one function. Which renamer it was, and
    what it knew before, can only be seen in the function. -/
theorem renameSegments_eq (segments : List Segment) (r : Renamer)
    (hids : (Renamer.mapClasses naming (classWords segments) r).1
      = (classWords segments).map ids) :
    renameSegments (Renamer.renameClasses naming) segments r
      = (segments.map (Segment.mapClassValues (renamedValue ids)),
        (Renamer.mapClasses naming (classWords segments) r).2) := by
  induction segments generalizing r with
  | nil => rfl
  | cons segment rest ih =>
      have hwords : classWords (segment :: rest)
          = segment.classValues.flatMap Text.words ++ classWords rest := by
        rw [classWords, List.flatMap_cons, List.flatMap_append]
        rfl
      rw [hwords] at hids ⊢
      rcases answers_append naming ids _ _ r hids with ⟨hfirst, hrest⟩
      cases segment with
      | tag t =>
          have hitems := renameItems_eq naming ids t.items r hfirst
          rw [renameSegments, hitems]
          simp only [Segment.classValues] at hrest
          simp only [ih _ hrest, List.map_cons, Segment.mapClassValues, Segment.classValues,
            Renamer.mapClasses_append]
      -- What is no tag has no words in it, and takes nothing from the renamer.
      | text chars | comment chars | raw chars =>
          simp only [renameSegments, ih r hrest, List.map_cons, Segment.mapClassValues,
            Segment.classValues, List.flatMap_nil, List.nil_append]

/-- A document is divided in exactly one way, and the scanner finds it, by characters and by bytes
    alike. Renaming puts the ids of the words in place of them in the values of the class
    attributes, and nothing else changes; the words are asked for from the first to the last, with
    these ids for answers, and the renamer has met them all. -/
theorem transform_exact (source : List Char) (r : Renamer) :
    write (segments source) = source ∧
      (∀ division, Divides source division ↔ segments source = division) ∧
      segments (inBytes source) = (segments source).map Segment.bytes ∧
      ∃ after : Renamer,
        transform (Renamer.renameClasses naming) source r
            = (write ((segments source).map
                (Segment.mapClassValues (renamedValue after.seen.renamed))), after) ∧
          Renamer.mapClasses naming (classWords (segments source)) r
            = ((classWords (segments source)).map after.seen.renamed, after) ∧
          ∀ word ∈ classWords (segments source), String.ofList word ∈ after.seen.names := by
  rcases Renamer.mapClasses_of_seen naming _ (classWords (segments source)) r
    (List.prefix_refl _) with ⟨hids, hmet⟩
  refine ⟨write_segments source, divides_iff source, segments_inBytes source,
    (Renamer.mapClasses naming (classWords (segments source)) r).2, ?_, ?_, hmet⟩
  · rw [transform, renameSegments_eq naming _ (segments source) r hids]
  · rw [← hids]

end Html

end ClassVeil
