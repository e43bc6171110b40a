import ClassVeil.Proofs.Store.Lifetime

/-!
# What becomes of a stylesheet

A stylesheet is transformed while something else is built, and its author can do nothing about the
map. So whatever the file of the map is like, the transformation has an answer: without a map, or
with one that cannot be read, the stylesheet stays as it is, to the last character, and so it does
if the map is read and no rule is in it. A rule is renamed by the map that loading answers with and
by nothing else of the store, so ids that have not been written yet cannot get into a stylesheet.

The transformation is split at the answer of loading. What comes before it is the store's business
and changes nothing but what the store remembers of the file; what comes after is a function of the
answer and the source (`restyle`), with no store in it. Independence of the memory needs no further
proof then: two stores with the same answer have the same result because it is computed from nothing
else.

## Main definitions

* `Store.answer`: The map that loading answers with.
* `Css.restyle`: A stylesheet transformed by such an answer.

## Theorems

* `load_error_cases`: Loading fails in two ways only.
* `transformCss_eq`: The answer of loading is all that a transformation takes from a store.
* `restyle_of_no_rules`: Unless a rule is renamed, the text stays as it is.
* `transformCss_depends_on_load`: What becomes of a stylesheet, and that nothing else changes.
-/

namespace ClassVeil

namespace Store

/-- Loading fails in two ways only: the file cannot be read, or it holds no map. In particular there
    is no failure when there is no file. -/
theorem load_error_cases (s : Store) (fs : FileSystem) (e : StoreError)
    (h : (s.load fs).1 = .error e) :
    (∃ cause, e = .readFailure s.path.toString cause) ∨
    ∃ cause, e = .corruptMap s.path.toString cause := by
  have hread : ∀ e, s.readMap fs = .error e → (∃ cause, e = .readFailure s.path.toString cause) ∨
      ∃ cause, e = .corruptMap s.path.toString cause := by
    intro e hread
    rw [readMap] at hread
    split at hread
    · cases hread
    · rename_i cause _ _
      exact Or.inl ⟨cause, (Except.error.inj hread).symm⟩
    · split at hread
      · rename_i cause _
        exact Or.inr ⟨cause, (Except.error.inj hread).symm⟩
      · cases hread
  -- The status of the file is asked for first, and failing at that is a failure to read.
  rw [load] at h
  split at h
  · cases h
  · rename_i cause _ _
    exact Or.inl ⟨cause, (Except.error.inj h).symm⟩
  · split at h
    · cases h
    · split at h
      · rename_i e' hmap
        rw [← Except.error.inj h]
        exact hread e' hmap
      · cases h
      · cases h

/-- The map that loading answers with, if there is a file. -/
def answer (s : Store) (fs : FileSystem) : Except StoreError (Option ClassMap) :=
  (s.load fs).1.map fun loaded => loaded.map Loaded.map

theorem answer_eq_error_iff (s : Store) (fs : FileSystem) (e : StoreError) :
    s.answer fs = .error e ↔ (s.load fs).1 = .error e := by
  unfold answer
  cases (s.load fs).1 with
  | error e' => simp only [Except.map, Except.error.injEq]
  | ok loaded => simp only [Except.map, reduceCtorEq]

theorem answer_eq_none_iff (s : Store) (fs : FileSystem) :
    s.answer fs = .ok none ↔ (s.load fs).1 = .ok none := by
  unfold answer
  cases (s.load fs).1 with
  | error e => simp only [Except.map, reduceCtorEq]
  | ok loaded => simp only [Except.map, Except.ok.injEq, Option.map_eq_none_iff]

end Store

/-- A stylesheet transformed by the answer of loading: its text afterwards, and what became of
    it. -/
def Css.restyle (style : Css.Style) (source : List Char) :
    Except StoreError (Option ClassMap) → List Char × SheetOutcome
  | .error e => (source, .skipped e.message)
  | .ok none => (source, .noMap)
  | .ok (some map) =>
    let (sheet, rules) := Css.renameWithMap map (Css.readStylesheet source)
    (if 0 < rules then Css.print style sheet else source, .renamed rules)

/-- The answer of loading is all that a transformation takes from a store. The load also files what
    it has read, and this is all that it leaves behind. -/
theorem Store.transformCss_eq (s : Store) (fs : FileSystem) (style : Css.Style)
    (source : List Char) :
    s.transformCss fs style source = (Css.restyle style source (s.answer fs), (s.load fs).2) := by
  unfold transformCss renameSheet answer
  rcases s.load fs with ⟨e | _ | loaded, s'⟩
  · rfl
  · rfl
  · rfl

/-- Unless a rule is renamed, the text stays as it is. It is not printed again, so not even blanks
    and comments change; this covers a load that fails or finds no map, for then no rule is renamed.
    -/
theorem Css.restyle_of_no_rules (style : Css.Style) (source : List Char)
    (answer : Except StoreError (Option ClassMap))
    (h : (restyle style source answer).2.rules = 0) : (restyle style source answer).1 = source := by
  cases answer with
  | error e => rfl
  | ok map =>
      cases map with
      | none => rfl
      | some map =>
          have hrules : (renameWithMap map (readStylesheet source)).2 = 0 := h
          simp only [restyle, hrules, Nat.lt_irrefl, if_false]

/-- A stylesheet is transformed whatever the files, the memory of the store and its cache are like,
    since neither reading it nor printing it can fail. There is no map exactly if loading answers
    that there is none; the stylesheet is skipped exactly if loading fails, which it does because
    the file cannot be read or holds no map, and the reason is the wording of that failure. If the
    outcome is not that rules have been renamed, the text stays as it is. No file changes, and of
    the store nothing but what it remembers of the file. And a store that gets the same answer from
    loading comes to the same result, whatever ids it has assigned itself. -/
theorem transformCss_depends_on_load (s : Store) (fs : FileSystem) (style : Css.Style)
    (source : List Char) : ∃ text outcome cache nextSerial,
    s.transformCss fs style source
      = ((text, outcome), { s with cache := cache, nextSerial := nextSerial }) ∧
    Call.run s fs (.transformCss style source)
      = ({ s with cache := cache, nextSerial := nextSerial }, fs) ∧
    (outcome = .noMap ↔ (s.load fs).1 = .ok none) ∧
    (∀ reason, outcome = .skipped reason ↔
      ∃ e, (s.load fs).1 = .error e ∧ reason = e.message) ∧
    (∀ e, (s.load fs).1 = .error e → e.isReadError = true ∧
      ((∃ cause, e = .readFailure s.path.toString cause) ∨
        ∃ cause, e = .corruptMap s.path.toString cause)) ∧
    (∀ loaded, (s.load fs).1 = .ok (some loaded) → outcome
      = .renamed (Css.renameWithMap loaded.map (Css.readStylesheet source)).2) ∧
    ((¬ ∃ rules, 0 < rules ∧ outcome = .renamed rules) → text = source) ∧
    ∀ other : Store, other.answer fs = s.answer fs →
      (other.transformCss fs style source).1 = (text, outcome) := by
  rcases s.store_load fs with ⟨cache, nextSerial, hstore⟩
  have heq := s.transformCss_eq fs style source
  rw [hstore] at heq
  refine ⟨(Css.restyle style source (s.answer fs)).1, (Css.restyle style source (s.answer fs)).2,
    cache, nextSerial, heq, by rw [Call.run, heq], ?_, fun reason => ?_, fun e he => ?_,
    fun loaded hloaded => ?_, fun hnone => ?_,
    fun other hanswer => by rw [other.transformCss_eq, hanswer]⟩
  · rw [← Store.answer_eq_none_iff]
    cases s.answer fs with
    | error e => simp only [Css.restyle, reduceCtorEq]
    | ok map =>
        cases map with
        | none => simp only [Css.restyle]
        | some map => simp only [Css.restyle, Except.ok.injEq, reduceCtorEq]
  · simp only [← Store.answer_eq_error_iff]
    cases s.answer fs with
    | error e =>
        simp only [Css.restyle, SheetOutcome.skipped.injEq, Except.error.injEq, exists_eq_left']
        exact eq_comm
    | ok map =>
        cases map with
        | none => simp only [Css.restyle, reduceCtorEq, false_and, exists_false]
        | some map => simp only [Css.restyle, reduceCtorEq, false_and, exists_false]
  · rcases s.load_error_cases fs e he with ⟨cause, rfl⟩ | ⟨cause, rfl⟩
    · exact ⟨rfl, Or.inl ⟨cause, rfl⟩⟩
    · exact ⟨rfl, Or.inr ⟨cause, rfl⟩⟩
  · rw [Store.answer, hloaded]
    rfl
  -- An outcome other than renamed rules counts as no rules.
  · refine Css.restyle_of_no_rules style source _ ?_
    cases houtcome : (Css.restyle style source (s.answer fs)).2 with
    | renamed rules =>
        rw [SheetOutcome.rules]
        by_contra hrules
        exact hnone ⟨rules, Nat.pos_of_ne_zero hrules, houtcome⟩
    | _ => rfl

end ClassVeil
