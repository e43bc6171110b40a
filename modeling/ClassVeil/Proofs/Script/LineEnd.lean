import ClassVeil.Proofs.Script.Lines
import ClassVeil.Proofs.Script.Spelling
import Mathlib.Data.List.Chain

/-!
# Line ends

Scripts know three line breaks: a line feed, a carriage return, and the two together. The lines of a
source end with line feeds alone, and all carriage returns in front of one go with it when the line
is cut. So a line that ends with two or more of them ends with as many line breaks, of which the
text of the cut lines has only one.

Such a line is the only one that loses something. If there is none, the cut lines put together are
the source but for the way its lines are broken and perhaps a last line break. That the converse
holds as well takes an argument: further line breaks in one place might be made up for by others
that are missing further on. But nothing is ever added, so the cut lines are no longer than the
source, and where they are as long they do not end with a line feed (`length_joinLines_le`). Then a
line feed too many at the front cannot be balanced by one at the end.

Every line is handled in the same shape: a text that does not end with a line break, some carriage
returns, and a line feed unless it is the last line (`exists_cut`). What is to be shown is then a
statement about the number of carriage returns.

## Main definitions

* `Cut`: A text that does not end with a line break.
* `EndsTwice`: A line that ends with more than one line break.
* `Nearly`, `SameText`: Texts that agree but for a last line break, and how lines are broken.
* `Paired`: A carriage return that something follows has a line feed behind it.

## Theorems

* `exists_cut`: A line is its text and what is cut off.
* `unifyBreaks_append`: Line breaks in the parts of a text are those of the text.
* `sameText_joinLines_iff`: What is lost is the line breaks of lines that end twice.
* `splitLines_unifyBreaks`: Without lone carriage returns, the lines of a text are those it has in
  every reading.
-/

namespace ClassVeil

namespace Script

/-! ### Lines and what ends them -/

/-- A line is its text and what is cut off. -/
theorem exists_lineEnd (line : List Char) :
    ∃ ending, line = trimLineEnd line ++ ending ∧ ∀ c ∈ ending, c = '\n' ∨ c = '\r' := by
  refine ⟨(line.reverse.takeWhile fun c => c = '\n' || c = '\r').reverse, ?_, fun c hc => ?_⟩
  · rw [trimLineEnd, ← List.reverse_append, List.takeWhile_append_dropWhile, List.reverse_reverse]
  · have hend := List.mem_takeWhile_imp (List.mem_reverse.mp hc)
    simpa only [Bool.or_eq_true, decide_eq_true_eq] using hend

/-- A text that does not end with a line break. -/
def Cut (text : List Char) : Prop := ∀ c, text.getLast? = some c → c ≠ '\n' ∧ c ≠ '\r'

theorem Cut.getLast?_ne {text : List Char} (h : Cut text) : text.getLast? ≠ some '\r' :=
  fun hlast => (h '\r' hlast).2 rfl

theorem cut_trimLineEnd (line : List Char) : Cut (trimLineEnd line) := by
  intro c h
  have hstop := List.head?_dropWhile_not (fun c => c = '\n' || c = '\r') line.reverse
  rw [trimLineEnd, List.getLast?_reverse] at h
  rw [h] at hstop
  simpa only [Bool.or_eq_false_iff, decide_eq_false_iff_not] using hstop

/-- Line breaks behind a text are all that is cut off. -/
theorem trimLineEnd_append (text ending : List Char) (htext : Cut text)
    (hending : ∀ c ∈ ending, c = '\n' ∨ c = '\r') : trimLineEnd (text ++ ending) = text := by
  have hdrop : text.reverse.dropWhile (fun c => c = '\n' || c = '\r') = text.reverse := by
    cases hreverse : text.reverse with
    | nil => rfl
    | cons c rest =>
        have hlast : text.getLast? = some c := by
          rw [← List.head?_reverse, hreverse, List.head?_cons]
        rw [List.dropWhile_cons_of_neg]
        simpa only [Bool.or_eq_true, decide_eq_true_eq, not_or] using htext c hlast
  rw [trimLineEnd, List.reverse_append, List.dropWhile_append_of_pos, hdrop, List.reverse_reverse]
  intro c hc
  simpa only [Bool.or_eq_true, decide_eq_true_eq] using hending c (List.mem_reverse.mp hc)

theorem isBlank_of_lineEnd (c : Char) (h : c = '\n' ∨ c = '\r') : Text.isBlank c = true := by
  rcases h with rfl | rfl
  · decide
  · decide

/-- What is cut off is blank. -/
theorem trim_trimLineEnd (line : List Char) : Text.trim (trimLineEnd line) = Text.trim line := by
  rcases exists_lineEnd line with ⟨ending, hline, hending⟩
  calc Text.trim (trimLineEnd line)
      = Text.trim (trimLineEnd line ++ ending) :=
        (Text.trim_append_blanks _ ending fun c hc => isBlank_of_lineEnd c (hending c hc)).symm
    _ = Text.trim line := by rw [← hline]

theorem all_isBlank_trimLineEnd (line : List Char) :
    (trimLineEnd line).all Text.isBlank = line.all Text.isBlank := by
  rcases exists_lineEnd line with ⟨ending, hline, hending⟩
  have hblank : ending.all Text.isBlank = true :=
    List.all_eq_true.mpr fun c hc => isBlank_of_lineEnd c (hending c hc)
  calc (trimLineEnd line).all Text.isBlank
      = (trimLineEnd line ++ ending).all Text.isBlank := by
        rw [List.all_append, hblank, Bool.and_true]
    _ = line.all Text.isBlank := by rw [← hline]

/-- A line without its line feed is a text with carriage returns behind it, and these are cut off
    with the line feed or without it. What is cut off are line breaks of either kind, and there is
    no line feed among them. -/
theorem exists_cut (body : List Char) (hfeed : '\n' ∉ body) :
    ∃ text n, body = text ++ List.replicate n '\r' ∧ Cut text ∧ trimLineEnd body = text ∧
      trimLineEnd (body ++ ['\n']) = text := by
  rcases exists_lineEnd body with ⟨ending, hbody, hending⟩
  have hreturns : ∀ c ∈ ending, c = '\r' := fun c hc => (hending c hc).resolve_left fun heq =>
    hfeed (heq ▸ hbody ▸ List.mem_append_right _ hc)
  refine ⟨trimLineEnd body, ending.length, ?_, cut_trimLineEnd body, rfl, ?_⟩
  · rw [← List.eq_replicate_of_mem hreturns]
    exact hbody
  · conv_lhs => rw [hbody, List.append_assoc]
    refine trimLineEnd_append _ _ (cut_trimLineEnd body) fun c hc => ?_
    rcases List.mem_append.mp hc with hc | hc
    · exact hending c hc
    · exact Or.inl (List.mem_singleton.mp hc)

/-- A line that ends with more than one line break. -/
def EndsTwice (line : List Char) : Prop :=
  ['\r', '\r'] <:+ line ∨ ['\r', '\r', '\n'] <:+ line

instance (line : List Char) : Decidable (EndsTwice line) :=
  inferInstanceAs (Decidable (_ ∨ _))

/-- A text that does not end with a line break, with some carriage returns behind it, ends with two
    of them exactly if there are two or more. -/
theorem suffix_replicate_iff (text : List Char) (htext : Cut text) (n : Nat) :
    ['\r', '\r'] <:+ text ++ List.replicate n '\r' ↔ 2 ≤ n := by
  have hone : ¬ ['\r'] <:+ text := by
    rintro ⟨before, rfl⟩
    exact htext.getLast?_ne List.getLast?_concat
  -- Two carriage returns at the end are peeled off one by one; the text itself does not end with
  -- one.
  cases n with
  | zero =>
      rw [List.replicate_zero, List.append_nil]
      exact ⟨fun h => absurd ((List.suffix_cons '\r' ['\r']).trans h) hone, fun h => by omega⟩
  | succ n =>
      rw [List.replicate_succ', ← List.append_assoc]
      cases n with
      | zero =>
          rw [List.replicate_zero, List.append_nil]
          have hpeel : ['\r'] ++ ['\r'] <:+ text ++ ['\r'] ↔ ['\r'] <:+ text :=
            List.suffix_append_self_iff
          exact ⟨fun h => absurd (hpeel.mp h) hone, fun h => by omega⟩
      | succ n =>
          rw [List.replicate_succ', ← List.append_assoc, List.append_assoc]
          exact ⟨fun _ => by omega, fun _ => List.suffix_append _ _⟩

theorem endsTwice_last_iff (body : List Char) (hfeed : '\n' ∉ body) :
    EndsTwice body ↔ ['\r', '\r'] <:+ body := by
  refine ⟨fun h => h.resolve_right fun hsuffix => ?_, Or.inl⟩
  exact hfeed (hsuffix.subset (by decide))

theorem endsTwice_cons_iff (body : List Char) :
    EndsTwice (body ++ ['\n']) ↔ ['\r', '\r'] <:+ body := by
  have hpeel : ['\r', '\r'] ++ ['\n'] <:+ body ++ ['\n'] ↔ ['\r', '\r'] <:+ body :=
    List.suffix_append_self_iff
  rw [EndsTwice, show ['\r', '\r', '\n'] = ['\r', '\r'] ++ ['\n'] from rfl, hpeel]
  refine ⟨fun h => h.resolve_left fun hsuffix => ?_, Or.inr⟩
  have hlast := hsuffix.getLast (by decide)
  rw [List.getLast_concat] at hlast
  exact absurd hlast (by decide)

/-! ### How lines are broken -/

theorem unifyBreaks_cons (c : Char) (rest : List Char) (hc : c ≠ '\r') :
    unifyBreaks (c :: rest) = c :: unifyBreaks rest := by
  rw [unifyBreaks]
  · exact fun more heq _ => hc heq
  · exact hc

/-- Line breaks in the parts of a text are those of the text, unless one is divided. That happens if
    the first part ends with a carriage return and the second begins with a line feed. -/
theorem unifyBreaks_append (x y : List Char)
    (h : x.getLast? ≠ some '\r' ∨ y.head? ≠ some '\n') :
    unifyBreaks (x ++ y) = unifyBreaks x ++ unifyBreaks y := by
  -- What holds of the end of `x` holds of the end of what follows its first characters.
  have hshorter : ∀ (c : Char) (rest : List Char),
      ((c :: rest).getLast? ≠ some '\r' ∨ y.head? ≠ some '\n') →
        rest.getLast? ≠ some '\r' ∨ y.head? ≠ some '\n' := by
    intro c rest hends
    refine hends.imp_left fun hlast hrest => ?_
    rw [List.getLast?_cons, hrest] at hlast
    exact hlast rfl
  fun_induction unifyBreaks x with
  | case1 => rfl
  | case2 rest ih =>
      rw [List.cons_append, List.cons_append, unifyBreaks, ih (hshorter _ _ (hshorter _ _ h)),
        List.cons_append]
  | case3 rest hrest ih =>
      -- A line feed behind the carriage return is behind it in `x` already, or `y` begins with it.
      have hnext : ∀ more, rest ++ y = '\n' :: more → False := by
        intro more heq
        cases rest with
        | nil =>
            rw [List.nil_append] at heq
            exact (h.resolve_left fun hlast => hlast rfl) (by rw [heq, List.head?_cons])
        | cons d rest =>
            rw [List.cons_append, List.cons.injEq] at heq
            exact hrest rest (by rw [heq.1])
      rw [List.cons_append, unifyBreaks, ih (hshorter _ _ h), List.cons_append]
      exact hnext
  | case4 c rest hpair hc ih =>
      rw [List.cons_append, unifyBreaks_cons c _ hc, ih (hshorter _ _ h), List.cons_append]

theorem unifyBreaks_replicate (n : Nat) :
    unifyBreaks (List.replicate n '\r') = List.replicate n '\n' := by
  induction n with
  | zero => rfl
  | succ n ih =>
      rw [List.replicate_succ, unifyBreaks, ih, List.replicate_succ]
      intro more heq
      cases n with
      | zero => cases heq
      | succ n => exact absurd (List.cons.inj heq).1 (by decide)

/-- The carriage returns in front of a line feed are as many line breaks, or with none of them it
    is one itself. -/
theorem unifyBreaks_ending (n : Nat) :
    unifyBreaks (List.replicate n '\r' ++ ['\n']) = '\n' :: List.replicate (n - 1) '\n' := by
  cases n with
  | zero => rfl
  | succ n =>
      have hpair : unifyBreaks (['\r'] ++ ['\n']) = ['\n'] := rfl
      -- The last carriage return goes with the line feed, and the others stand alone.
      rw [List.replicate_succ', List.append_assoc, unifyBreaks_append _ _ (Or.inr (by decide)),
        unifyBreaks_replicate, hpair, ← List.replicate_succ', Nat.add_sub_cancel,
        List.replicate_succ]

/-- A line of which the rest of the text follows, and its text in the same place. -/
theorem unifyBreaks_line (text : List Char) (htext : Cut text) (n : Nat) (rest : List Char) :
    unifyBreaks (text ++ List.replicate n '\r' ++ ['\n'] ++ rest)
        = unifyBreaks text ++ '\n' :: (List.replicate (n - 1) '\n' ++ unifyBreaks rest) ∧
      unifyBreaks (text ++ '\n' :: rest) = unifyBreaks text ++ '\n' :: unifyBreaks rest := by
  constructor
  · have hlast : (text ++ List.replicate n '\r' ++ ['\n']).getLast? ≠ some '\r' := by
      rw [List.getLast?_concat]
      decide
    rw [unifyBreaks_append _ _ (Or.inl hlast), List.append_assoc,
      unifyBreaks_append _ _ (Or.inl htext.getLast?_ne), unifyBreaks_ending, List.append_assoc,
      List.cons_append]
  · rw [unifyBreaks_append _ _ (Or.inl htext.getLast?_ne), unifyBreaks_cons _ _ (by decide)]

/-- A text that does not end with a line break has none at its end however it is read. -/
theorem getLast?_unifyBreaks_of_cut (text : List Char) (htext : Cut text) :
    (unifyBreaks text).getLast? ≠ some '\n' := by
  rcases List.eq_nil_or_concat text with rfl | ⟨before, c, rfl⟩
  · exact fun h => by cases h
  · rw [List.concat_eq_append] at htext ⊢
    rcases htext c List.getLast?_concat with ⟨hfeed, hreturn⟩
    have hsingle : unifyBreaks [c] = [c] :=
      unifyBreaks_of_not_mem [c] fun hmem => hreturn (List.mem_singleton.mp hmem).symm
    have hhead : [c].head? ≠ some '\n' := fun heq => hfeed (Option.some.inj heq)
    rw [unifyBreaks_append _ _ (Or.inr hhead), hsingle, List.getLast?_concat]
    exact fun heq => hfeed (Option.some.inj heq)

/-- Two texts that are the same, but for a line feed at the end of one of them. -/
def Nearly (x y : List Char) : Prop := x = y ∨ x ++ ['\n'] = y ∨ x = y ++ ['\n']

/-- Two texts that are the same but for the way their lines are broken, and a last line break. -/
def SameText (x y : List Char) : Prop := Nearly (unifyBreaks x) (unifyBreaks y)

instance (x y : List Char) : Decidable (SameText x y) :=
  inferInstanceAs (Decidable (_ ∨ _ ∨ _))

theorem nearly_append_iff (z x y : List Char) : Nearly (z ++ x) (z ++ y) ↔ Nearly x y := by
  rw [Nearly, Nearly, List.append_assoc, List.append_assoc, List.append_cancel_left_eq,
    List.append_cancel_left_eq, List.append_cancel_left_eq]

theorem nearly_cons_iff (c : Char) (x y : List Char) : Nearly (c :: x) (c :: y) ↔ Nearly x y :=
  nearly_append_iff [c] x y

theorem nearly_replicate_iff (x : List Char) (n : Nat) :
    Nearly x (x ++ List.replicate n '\n') ↔ n ≤ 1 := by
  constructor
  · rintro (h | h | h)
    all_goals
      have hlength := congrArg List.length h
      simp only [List.length_append, List.length_replicate, List.length_singleton] at hlength
      omega
  · intro h
    rcases Nat.le_one_iff_eq_zero_or_eq_one.mp h with rfl | rfl
    · exact Or.inl (List.append_nil x).symm
    · exact Or.inr (Or.inl rfl)

/-- Further line feeds in front of a text are seen, if it is no shorter than the other one and,
    being as long, does not end with a line feed. -/
theorem nearly_further_iff (n : Nat) (x y : List Char) (hle : x.length ≤ y.length)
    (hend : x.length = y.length → y ≠ [] ∧ y.getLast? ≠ some '\n') :
    Nearly x (List.replicate n '\n' ++ y) ↔ n = 0 ∧ Nearly x y := by
  cases n with
  | zero =>
      rw [List.replicate_zero, List.nil_append]
      exact ⟨fun h => ⟨rfl, h⟩, And.right⟩
  | succ n =>
      refine ⟨fun h => ?_, fun h => absurd h.1 (Nat.succ_ne_zero n)⟩
      exfalso
      have hlength : (List.replicate (n + 1) '\n' ++ y).length = n + 1 + y.length := by
        rw [List.length_append, List.length_replicate]
      rcases h with h | h | h
      · rw [← h] at hlength
        omega
      · -- One line feed too many is at the front, and the last one at the end.
        rw [← h, List.length_append, List.length_singleton] at hlength
        rcases hend (by omega) with ⟨hne, hlast⟩
        have hends := congrArg List.getLast? h
        rw [List.getLast?_concat, List.getLast?_append_of_ne_nil _ hne] at hends
        exact hlast hends.symm
      · rw [h, List.length_append, hlength] at hle
        omega

/-- The cut lines are no longer than the source, and where they are as long, the source does not end
    with a line break. Cutting takes line breaks off, and putting together puts one back between two
    lines. -/
theorem length_joinLines_le (lines : List (List Char)) (h : Divided lines) (hne : lines ≠ []) :
    (unifyBreaks (joinLines (lines.map trimLineEnd))).length
        ≤ (unifyBreaks lines.flatten).length ∧
      ((unifyBreaks (joinLines (lines.map trimLineEnd))).length
          = (unifyBreaks lines.flatten).length →
        unifyBreaks lines.flatten ≠ [] ∧
          (unifyBreaks lines.flatten).getLast? ≠ some '\n') := by
  induction h with
  | nil => exact absurd rfl hne
  | last body hfeed hbody =>
      rcases exists_cut body hfeed with ⟨text, n, heq, htext, hcut, -⟩
      rw [List.map_singleton, List.flatten_singleton, joinLines, hcut, heq,
        unifyBreaks_append _ _ (Or.inl htext.getLast?_ne), unifyBreaks_replicate,
        List.length_append, List.length_replicate]
      refine ⟨Nat.le_add_right _ n, fun hlength => ?_⟩
      -- Nothing is cut off if the line is as long as its text.
      have hn : n = 0 := by omega
      rw [hn, List.replicate_zero, List.append_nil] at heq ⊢
      exact ⟨unifyBreaks_ne_nil text (heq ▸ hbody), getLast?_unifyBreaks_of_cut text htext⟩
  | cons body rest hfeed hrest ih =>
      rcases exists_cut body hfeed with ⟨text, n, heq, htext, -, hcut⟩
      have hline := unifyBreaks_line text htext n rest.flatten
      rw [List.map_cons, List.flatten_cons, hcut, heq, hline.1]
      -- Without a line behind it, the line feed at the end of this one is not put back, and the
      -- text is shorter.
      by_cases hlast : rest = []
      · rw [hlast, List.map_nil, joinLines, List.length_append, List.length_cons]
        exact ⟨by omega, fun hlength => by omega⟩
      · rcases ih hlast with ⟨hle, hend⟩
        rw [joinLines_cons _ _ (List.map_eq_nil_iff.not.mpr hlast),
          (unifyBreaks_line text htext n _).2]
        simp only [List.length_append, List.length_cons, List.length_replicate]
        refine ⟨by omega, fun hlength => ?_⟩
        rcases hend (by omega) with ⟨hne, hfeeds⟩
        rw [← List.cons_append, ← List.append_assoc, List.getLast?_append_of_ne_nil _ hne]
        exact ⟨List.append_ne_nil_of_right_ne_nil _ hne, hfeeds⟩

/-- The cut lines put together are the source but for the way its lines are broken and a last line
    break, if and only if no line ends twice. By induction on the lines: the first line gives a
    condition on its own carriage returns, and what is left is the statement for the rest. -/
theorem sameText_joinLines_iff (lines : List (List Char)) (h : Divided lines) (hne : lines ≠ []) :
    SameText (joinLines (lines.map trimLineEnd)) lines.flatten
      ↔ ∀ line ∈ lines, ¬ EndsTwice line := by
  induction h with
  | nil => exact absurd rfl hne
  | last body hfeed hbody =>
      rcases exists_cut body hfeed with ⟨text, n, heq, htext, hcut, -⟩
      rw [List.forall_mem_singleton, List.map_singleton, List.flatten_singleton, joinLines, hcut,
        endsTwice_last_iff body hfeed, heq, suffix_replicate_iff text htext, SameText,
        unifyBreaks_append _ _ (Or.inl htext.getLast?_ne), unifyBreaks_replicate,
        nearly_replicate_iff]
      omega
  | cons body rest hfeed hrest ih =>
      rcases exists_cut body hfeed with ⟨text, n, heq, htext, -, hcut⟩
      have htwice : ¬ EndsTwice (body ++ ['\n']) ↔ n - 1 = 0 := by
        rw [endsTwice_cons_iff, heq, suffix_replicate_iff text htext]
        omega
      rw [List.forall_mem_cons, htwice, List.map_cons, List.flatten_cons, hcut, heq, SameText,
        (unifyBreaks_line text htext n rest.flatten).1]
      -- What the source has more is `n - 1` line feeds, and one if nothing is behind the line.
      by_cases hlast : rest = []
      · rw [hlast, List.map_nil, joinLines, List.flatten_nil, unifyBreaks, List.append_nil,
          ← List.replicate_succ, nearly_replicate_iff]
        exact ⟨fun hle => ⟨by omega, fun line hline => by cases hline⟩, fun hboth => by omega⟩
      · rcases length_joinLines_le rest hrest hlast with ⟨hle, hend⟩
        rw [joinLines_cons _ _ (List.map_eq_nil_iff.not.mpr hlast),
          (unifyBreaks_line text htext n _).2, nearly_append_iff, nearly_cons_iff,
          nearly_further_iff _ _ _ hle hend, ← ih hlast, SameText]

/-! ### Lone carriage returns -/

/-- A carriage return that something follows has a line feed behind it. -/
def Paired (text : List Char) : Prop := text.IsChain fun c d => c = '\r' → d = '\n'

instance (text : List Char) : Decidable (Paired text) :=
  inferInstanceAs (Decidable (List.IsChain _ _))

/-- Without lone carriage returns, no line ends twice. -/
theorem Paired.not_endsTwice {text : List Char} (h : Paired text) :
    ∀ line ∈ splitLines text, ¬ EndsTwice line := by
  intro line hline htwice
  have hpart : ['\r', '\r'] <:+: line := by
    rcases htwice with hsuffix | hsuffix
    · exact hsuffix.isInfix
    · exact (List.prefix_append ['\r', '\r'] ['\n']).isInfix.trans hsuffix.isInfix
  have htext := List.infix_of_mem_flatten hline
  rw [flatten_splitLines] at htext
  have hpair := List.IsChain.infix h (hpart.trans htext)
  exact absurd ((List.isChain_cons_cons.mp hpair).1 rfl) (by decide)

/-- Without lone carriage returns, the lines of a text are those it has in every reading. So it does
    not matter there that the marking counts line feeds only. -/
theorem splitLines_unifyBreaks (text : List Char) (h : Paired text) :
    splitLines (unifyBreaks text) = (splitLines text).map unifyBreaks := by
  fun_induction unifyBreaks text with
  | case1 => rfl
  | case2 rest ih =>
      rw [splitLines, if_pos rfl, ih h.tail.tail, splitLines, if_neg (by decide), splitLines,
        if_pos rfl, List.map_cons]
      rfl
  -- A carriage return without a line feed behind it can only be the last character.
  | case3 rest hrest ih =>
      cases rest with
      | nil => rfl
      | cons d rest =>
          have hfeed : d = '\n' := (List.isChain_cons_cons.mp h).1 rfl
          exact absurd (by rw [hfeed]) (hrest rest)
  | case4 c rest hpair hc ih =>
      have hrest := ih h.tail
      rw [splitLines, splitLines]
      split
      · rw [hrest, List.map_cons, unifyBreaks_cons c [] hc, unifyBreaks]
      · rw [hrest]
        cases splitLines rest with
        | nil => rw [List.map_nil, List.map_singleton, unifyBreaks_cons c [] hc, unifyBreaks]
        | cons line lines =>
            rw [List.map_cons, List.map_cons, unifyBreaks_cons c line hc]

end Script

end ClassVeil
