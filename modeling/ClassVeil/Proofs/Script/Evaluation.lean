import ClassVeil.Proofs.Script.Site
import ClassVeil.Script.Token

/-!
# The value of a class expression

The expression in a class attribute is evaluated when the script runs, long after its texts have
been renamed. What has to be known of its evaluation is how the operators that choose and join treat
texts. All else is left open: what a test says and which value an expression has that is no text, is
given from outside, by the place and the expression that stands there (`Meaning`). A theorem about
all such meanings holds whatever the script computes besides.

An evaluation yields a value, and what it did on its way: which branches it took, and what it added
up. The second is where renaming can be noticed, because two texts without a blank between them grow
into one word. Nothing else can be noticed, since a text is asked only whether it is empty, and a
text with a word keeps one.

There is no fuel and no error here. The operators that matter are evaluated by recursion over the
expression, and everything else is a part whose value is given.

## Main definitions

* `literalText`, `cooked`: The text that a literal or a template without expressions stands for.
* `Meaning`: What the expressions that are no texts are worth.
* `Value`, `Event`, `Outcome`: What an evaluation yields.
* `eval`: The evaluation of a class expression.
* `Untouched`: No text in a node that is renamed has a word in it.
* `ClassExpr`: The expressions whose texts become lists of classes.

## Theorems

* `cooked_of_isPlain`: A template without backslashes stands for its spelling.
* `untouched_of_hasMarkup`: Without markup nothing is renamed outside of class positions.
* `eval_part`, `evalLast_append`: The evaluation of parts and of sequences.
-/

namespace ClassVeil

namespace Script

/-! ### The texts of literals -/

/-- The characters of code units; a lone surrogate is shown as the replacement character. -/
def joinLoosely : List Nat → List Char
  | [] => []
  | n :: rest =>
    if 0xD800 ≤ n && n < 0xDC00 then
      match rest with
      | m :: more =>
        if 0xDC00 ≤ m && m < 0xE000 then
          Char.ofNat (0x10000 + (n - 0xD800) * 1024 + (m - 0xDC00)) :: joinLoosely more
        else '\ufffd' :: joinLoosely (m :: more)
      | [] => ['\ufffd']
    else if 0xDC00 ≤ n && n < 0xE000 then '\ufffd' :: joinLoosely rest
    else Char.ofNat n :: joinLoosely rest

/-- The text of a literal. One that is not well-formed Unicode has its spelling only. -/
def literalText (value raw : Option (List Char)) : List Char :=
  match value with
  | some text => text
  | none => match raw with
    | some raw => ((unescape true (raw.drop 1).dropLast).map joinLoosely).getD []
    | none => []

/-- A text with a line feed for every line break that has a carriage return in it. -/
def unifyBreaks : List Char → List Char
  | [] => []
  | '\r' :: '\n' :: rest => '\n' :: unifyBreaks rest
  | '\r' :: rest => '\n' :: unifyBreaks rest
  | c :: rest => c :: unifyBreaks rest

/-- The text of a template without expressions, from its spelling. -/
def cooked (piece : List Char) : List Char :=
  ((unescape false (unifyBreaks piece)).map joinLoosely).getD []

/-- A spelling that stands for itself. -/
def IsPlain (piece : List Char) : Prop := '\\' ∉ piece ∧ '\r' ∉ piece

theorem unifyBreaks_of_not_mem (piece : List Char) (h : '\r' ∉ piece) :
    unifyBreaks piece = piece := by
  induction piece with
  | nil => rfl
  | cons c piece ih =>
      rw [List.mem_cons, not_or] at h
      have hc : c ≠ '\r' := Ne.symm h.1
      rw [unifyBreaks, ih h.2]
      · rintro rest rfl _
        exact hc rfl
      · exact hc

/-- A character that begins no escape stands for itself. -/
theorem escapedUnits_cons (loose : Bool) (fuel : Nat) (c : Char) (rest : List Char)
    (h : c ≠ '\\' ∨ rest = []) :
    escapedUnits loose (fuel + 1) (c :: rest)
      = (escapedUnits loose fuel rest).map (c.toNat :: ·) := by
  have hno : ∀ d more, c = '\\' → rest = d :: more → False := by
    rintro d more rfl rfl
    rcases h with h | h
    · exact h rfl
    · cases h
  -- The other clauses are about a backslash with something behind it.
  rw [escapedUnits]
  · exact fun text => hno 'u' text
  · exact fun a b more => hno 'x' (a :: b :: more)
  · exact fun more => hno '\r' ('\n' :: more)
  · exact hno

/-- A text without backslashes is read character by character, in either way of reading, if there is
    fuel for all of it. -/
theorem escapedUnits_of_not_mem (loose : Bool) (piece : List Char) (h : '\\' ∉ piece) (fuel : Nat)
    (hfuel : piece.length < fuel) :
    escapedUnits loose fuel piece = some (piece.map Char.toNat) := by
  -- There is fuel for every character, and without a backslash each of them uses one unit.
  induction piece generalizing fuel with
  | nil =>
      cases fuel with
      | zero => cases hfuel
      | succ fuel => rw [escapedUnits, List.map_nil]; exact Nat.succ_ne_zero fuel
  | cons c piece ih =>
      rw [List.mem_cons, not_or] at h
      rw [List.length_cons] at hfuel
      cases fuel with
      | zero => cases hfuel
      | succ fuel =>
          rw [escapedUnits_cons loose fuel c piece (Or.inl (Ne.symm h.1)), ih h.2 fuel (by omega)]
          rfl

/-- A character that is no surrogate is one code unit. -/
theorem joinUnits_toNat (text : List Char) : joinUnits (text.map Char.toNat) = some text := by
  induction text with
  | nil => rfl
  | cons c text ih =>
      have hvalid : c.toNat < 0xD800 ∨ 0xDFFF < c.toNat ∧ c.toNat < 0x110000 := c.valid
      -- A character is no surrogate, so it is neither half of a pair.
      have hhigh : ¬ (0xD800 ≤ c.toNat && c.toNat < 0xDC00) = true := by
        rw [Bool.and_eq_true, decide_eq_true_eq, decide_eq_true_eq]
        omega
      have hlow : ¬ (0xDC00 ≤ c.toNat && c.toNat < 0xE000) = true := by
        rw [Bool.and_eq_true, decide_eq_true_eq, decide_eq_true_eq]
        omega
      rw [List.map_cons, joinUnits.eq_def]
      simp only [if_neg hhigh, if_neg hlow, ih, Option.map_some, Char.ofNat_toNat]

/-- Code units that have characters are shown as these. The two ways of joining differ in lone
    surrogates only, and with one of them there is no text at all in the strict way. -/
theorem joinLoosely_of_joinUnits (units : List Nat) (text : List Char)
    (h : joinUnits units = some text) : joinLoosely units = text := by
  fun_induction joinUnits units generalizing text with
  | case1 =>
      cases h
      rfl
  | case2 n hhigh m rest hlow ih =>
      rcases Option.map_eq_some_iff.mp h with ⟨more, hmore, rfl⟩
      rw [joinLoosely, if_pos hhigh]
      simp only [if_pos hlow, ih more hmore]
  -- The code units with a lone surrogate in them have no characters.
  | case3 n hhigh m rest hlow => cases h
  | case4 n hhigh => cases h
  | case5 n rest hhigh hlow => cases h
  | case6 n rest hhigh hlow ih =>
      rcases Option.map_eq_some_iff.mp h with ⟨more, hmore, rfl⟩
      rw [joinLoosely.eq_def]
      simp only [if_neg hhigh, if_neg hlow, ih more hmore]

/-- A template stands for the text of its code units. -/
theorem cooked_of_joinUnits (piece : List Char) (units : List Nat) (text : List Char)
    (hunits : unescape false (unifyBreaks piece) = some units)
    (htext : joinUnits units = some text) : cooked piece = text := by
  rw [cooked, hunits, Option.map_some, Option.getD_some, joinLoosely_of_joinUnits units text htext]

/-- A text without backslashes has its own characters for code units. -/
theorem unescape_of_not_mem (loose : Bool) (text : List Char) (h : '\\' ∉ text) :
    unescape loose text = some (text.map Char.toNat) :=
  escapedUnits_of_not_mem loose text h _ (Nat.lt_succ_self _)

/-- A template without backslashes and carriage returns stands for its spelling. With either of them
    it stands for something else, and then a renaming by the spelling is no renaming of the text. -/
theorem cooked_of_isPlain (piece : List Char) (h : IsPlain piece) : cooked piece = piece := by
  refine cooked_of_joinUnits piece (piece.map Char.toNat) piece ?_ (joinUnits_toNat piece)
  rw [unifyBreaks_of_not_mem piece h.2, unescape_of_not_mem false piece h.1]

/-! ### Evaluation -/

/-- A value: a text, or anything else. -/
inductive Value (α : Type) where
  | text (chars : List Char)
  | other (value : α)

/-- What an evaluation does on its way. -/
inductive Event (α : Type) where
  /-- A choice at a place is made; `held` tells that the test held, or that the left operand was the
      value. -/
  | choice (place : Address) (held : Bool)
  /-- Two values are added up. -/
  | sum (left right : Value α)

/-- A value, and what was done to get it. -/
structure Outcome (α : Type) where
  value : Value α
  events : List (Event α) := []

/-- What the expressions that are no texts are worth. -/
structure Meaning (α : Type) where
  /-- The test that stands at a place holds. -/
  test : Address → Node → Bool
  /-- The value of the expression that stands at a place. -/
  part : Address → Node → α
  truthy : α → Bool
  nullish : α → Bool
  /-- The sum of two values of which one is no text. -/
  sum : Value α → Value α → Value α

/-- A decision, if the event is one. -/
def Event.decision? {α : Type} : Event α → Option (Address × Bool)
  | .choice place held => some (place, held)
  | .sum .. => none

/-- The branches that an evaluation took. -/
def Outcome.decisions {α : Type} (o : Outcome α) : List (Address × Bool) :=
  o.events.filterMap Event.decision?

/-- Two texts whose words are those of the first and those of the second when they are joined. -/
def Joins (left right : List Char) : Prop :=
  left = [] ∨ right = [] ∨ left.getLast?.any Text.isBlank = true ∨
    right.head?.any Text.isBlank = true

/-- Whatever was added up were texts that join. -/
def Outcome.SumsJoin {α : Type} (o : Outcome α) : Prop :=
  ∀ left right, .sum left right ∈ o.events →
    ∃ s t, left = .text s ∧ right = .text t ∧ Joins s t

section Eval

variable {α : Type} (m : Meaning α)

/-- A value counts as true; the empty text does not. -/
def Meaning.holds : Value α → Bool
  | .text chars => chars ≠ []
  | .other value => m.truthy value

/-- A value is missing; no text is. -/
def Meaning.isMissing : Value α → Bool
  | .text _ => false
  | .other value => m.nullish value

/-- The sum of two values. -/
def Meaning.add : Value α → Value α → Value α
  | .text left, .text right => .text (left ++ right)
  | left, right => m.sum left right

/-- The outcome of a branch that was chosen at a place. -/
def Outcome.chosen (place : Address) (held : Bool) (branch : Outcome α) : Outcome α :=
  ⟨branch.value, .choice place held :: branch.events⟩

/-- The outcome of an addition. -/
def Outcome.plus (left right : Outcome α) : Outcome α :=
  ⟨m.add left.value right.value, left.events ++ right.events ++ [.sum left.value right.value]⟩

/-- A value, unless `keep` says that it is replaced; then the outcome of the right operand
    counts. -/
def Outcome.orElse (left : Outcome α) (place : Address) (keep : Bool) (right : Outcome α) :
    Outcome α :=
  if keep then ⟨left.value, left.events ++ [.choice place true]⟩
  else ⟨right.value, left.events ++ .choice place false :: right.events⟩

mutual

/-- The outcome of the expression at a place. An expression that is neither a text nor put together
    from others has the value that is given for it. -/
def eval (place : Address) : Node → Outcome α
  | .str _ value raw => { value := .text (literalText value raw) }
  | .template _ [piece] [] => { value := .text (cooked piece) }
  | .conditional _ test yes no =>
    Outcome.chosen place (m.test (place ++ [0]) test)
      (if m.test (place ++ [0]) test then eval (place ++ [1]) yes else eval (place ++ [2]) no)
  | .binary _ .and left right =>
    let value := m.part (place ++ [0]) left
    Outcome.orElse { value := .other value } place (!m.truthy value) (eval (place ++ [1]) right)
  | .binary _ .or left right =>
    let left := eval (place ++ [0]) left
    left.orElse place (m.holds left.value) (eval (place ++ [1]) right)
  | .binary _ .nullish left right =>
    let left := eval (place ++ [0]) left
    left.orElse place (!m.isMissing left.value) (eval (place ++ [1]) right)
  | .binary _ .add left right =>
    Outcome.plus m (eval (place ++ [0]) left) (eval (place ++ [1]) right)
  | .paren _ inner => eval (place ++ [0]) inner
  | .sequence _ items => evalLast place 0 items
  | n => { value := .other (m.part place n) }

/-- The outcome of the last of several expressions; the others are evaluated for what they do. -/
def evalLast (place : Address) : Nat → List Node → Outcome α
  | _, [] => { value := .text [] }
  | i, [last] => eval (place ++ [i]) last
  | i, _ :: rest => evalLast place (i + 1) rest

end

/-- An expression that is neither a text nor put together from others. -/
def IsPart : Node → Prop
  | .str .. | .template .. | .conditional .. | .paren .. | .sequence .. => False
  | .binary _ op _ _ => ∃ sign, op = .other sign
  | _ => True

theorem eval_part (place : Address) (n : Node) (h : IsPart n) :
    eval m place n = { value := .other (m.part place n) } := by
  cases n with
  | str | template | conditional | paren | sequence => cases h
  | binary span op left right =>
      rcases h with ⟨sign, rfl⟩
      rfl
  | _ => rfl

theorem eval_conditional (place : Address) (span : Span) (test yes no : Node) :
    eval m place (.conditional span test yes no)
      = Outcome.chosen place (m.test (place ++ [0]) test)
          (if m.test (place ++ [0]) test then eval m (place ++ [1]) yes
            else eval m (place ++ [2]) no) := by rw [eval]

theorem eval_and (place : Address) (span : Span) (left right : Node) :
    eval m place (.binary span .and left right)
      = Outcome.orElse { value := .other (m.part (place ++ [0]) left) } place
          (!m.truthy (m.part (place ++ [0]) left)) (eval m (place ++ [1]) right) := by rw [eval]

theorem eval_or (place : Address) (span : Span) (left right : Node) :
    eval m place (.binary span .or left right)
      = (eval m (place ++ [0]) left).orElse place (m.holds (eval m (place ++ [0]) left).value)
          (eval m (place ++ [1]) right) := by rw [eval]

theorem eval_nullish (place : Address) (span : Span) (left right : Node) :
    eval m place (.binary span .nullish left right)
      = (eval m (place ++ [0]) left).orElse place
          (!m.isMissing (eval m (place ++ [0]) left).value) (eval m (place ++ [1]) right) := by
  rw [eval]

theorem eval_add (place : Address) (span : Span) (left right : Node) :
    eval m place (.binary span .add left right)
      = Outcome.plus m (eval m (place ++ [0]) left) (eval m (place ++ [1]) right) := by rw [eval]

theorem eval_paren (place : Address) (span : Span) (inner : Node) :
    eval m place (.paren span inner) = eval m (place ++ [0]) inner := by rw [eval]

theorem evalLast_append (place : Address) (i : Nat) (items : List Node) (last : Node) :
    evalLast m place i (items ++ [last]) = eval m (place ++ [i + items.length]) last := by
  induction items generalizing i with
  | nil => rw [List.nil_append, evalLast, List.length_nil, Nat.add_zero]
  | cons item items ih =>
      have hshift : i + 1 + items.length = i + (items.length + 1) := by omega
      rw [List.cons_append, evalLast, ih, List.length_cons, hshift]
      intro h
      cases List.append_eq_nil_iff.mp h |>.2

theorem eval_sequence (place : Address) (span : Span) (items : List Node) (last : Node) :
    eval m place (.sequence span (items ++ [last]))
      = eval m (place ++ [items.length]) last := by
  rw [eval, evalLast_append, Nat.zero_add]

end Eval

/-! ### Class expressions -/

variable (attributes : List String)

/-- There is no class in the node when it is looked at in this role. It may have texts that are
    looked at, like the one in `has(" ")`, if nothing but blanks is in them: where there is no word
    there is nothing to be renamed. -/
def Untouched (role : Role) (n : Node) : Prop :=
  ∀ site ∈ sites attributes n role, Text.words site.text = []

/-- The node is markup. -/
def Node.isMarkup : Node → Bool
  | .attr .. | .form .element .. | .form .emptyElement .. | .form .fragment .. => true
  | _ => false

/-- There is markup in the tree. -/
def Node.hasMarkup : Node → Bool := Node.fold fun n below => n.isMarkup || below.any id

theorem Node.hasMarkup_eq_false (n : Node) :
    n.hasMarkup = false ↔ n.isMarkup = false ∧ ∀ c ∈ n.children, c.hasMarkup = false := by
  rw [hasMarkup, fold_eq, Bool.or_eq_false_iff, List.any_eq_false]
  refine and_congr Iff.rfl ⟨fun h c hc => ?_, fun h below hbelow => ?_⟩
  · exact Bool.eq_false_iff.mpr (h _ (List.mem_map_of_mem hc))
  · rcases List.mem_map.mp hbelow with ⟨c, hc, rfl⟩
    exact Bool.eq_false_iff.mp (h c hc)

/-- A node is untouched if it is none of the texts and its children are untouched in their roles,
    for its sites are then those of the children. -/
theorem untouched_of_children (role : Role) (n : Node) (hleaf : role.leaf? n = none)
    (h : ∀ i c, n.children[i]? = some c → Untouched attributes (role.child attributes n i) c) :
    Untouched attributes role n := by
  intro site hsite
  rw [sites_eq, hleaf] at hsite
  rcases (mem_collect_iff attributes _ 0 n.children site).mp hsite with
    ⟨i, c, below, hi, hbelow, rfl⟩
  rw [Nat.zero_add] at hbelow
  exact h i c hi below hbelow

/-- Without markup nothing is renamed outside of class positions. A position begins at an attribute,
    and only markup has attributes, so the way down from a plain node never leaves the plain role.
    -/
theorem untouched_of_hasMarkup (n : Node) (h : n.hasMarkup = false) :
    Untouched attributes .plain n := by
  induction n using Node.induction_children with
  | h n ih =>
      rcases (Node.hasMarkup_eq_false n).mp h with ⟨hself, hchildren⟩
      refine untouched_of_children attributes .plain n ?_ fun i c hi => ?_
      · cases n <;> rfl
      · have hrole : Role.plain.child attributes n i = .plain := by
          cases n with
          | attr => cases hself
          | _ => rfl
        have hc := List.mem_of_getElem? hi
        rw [hrole]
        exact ih c hc (hchildren c hc)

/-- Nor is anything renamed in the operands of a comparison, or in any form, wherever these
    stand. -/
theorem untouched_of_plain_children (n : Node) (h : n.hasMarkup = false)
    (hn : (∃ span sign left right, n = .binary span (.other sign) left right) ∨
      ∃ f span words parts, n = .form f span words parts) : Untouched attributes .list n := by
  rcases (Node.hasMarkup_eq_false n).mp h with ⟨-, hchildren⟩
  rcases hn with ⟨span, sign, left, right, rfl⟩ | ⟨f, span, words, parts, rfl⟩
  · refine untouched_of_children attributes .list _ rfl fun i c hi => ?_
    exact untouched_of_hasMarkup attributes c (hchildren c (List.mem_of_getElem? hi))
  · refine untouched_of_children attributes .list _ rfl fun i c hi => ?_
    exact untouched_of_hasMarkup attributes c (hchildren c (List.mem_of_getElem? hi))

/-- The expressions that are put together from texts and from parts that renaming leaves as they
    are. -/
inductive ClassExpr : Node → Prop where
  | literal (span : Span) (text : List Char) (raw : Option (List Char)) :
      ClassExpr (.str span (some text) raw)
  | template (span : Span) (piece : List Char) (hplain : IsPlain piece) :
      ClassExpr (.template span [piece] [])
  | part (n : Node) (hpart : IsPart n) (hkept : Untouched attributes .list n) : ClassExpr n
  | conditional (span : Span) (test yes no : Node) (htest : Untouched attributes .plain test)
      (hyes : ClassExpr yes) (hno : ClassExpr no) : ClassExpr (.conditional span test yes no)
  | and (span : Span) (left right : Node) (hleft : Untouched attributes .plain left)
      (hright : ClassExpr right) : ClassExpr (.binary span .and left right)
  /-- The operator chooses between its operands or adds them up. -/
  | operands (span : Span) (op : BinaryOp) (left right : Node)
      (hop : op = .or ∨ op = .nullish ∨ op = .add) (hleft : ClassExpr left)
      (hright : ClassExpr right) : ClassExpr (.binary span op left right)
  | paren (span : Span) (inner : Node) (hinner : ClassExpr inner) : ClassExpr (.paren span inner)
  /-- Only the last expression has the value. -/
  | sequence (span : Span) (items : List Node) (last : Node)
      (hitems : ∀ item ∈ items, Untouched attributes .plain item) (hlast : ClassExpr last) :
      ClassExpr (.sequence span (items ++ [last]))

end Script

end ClassVeil
