import ClassVeil.Proofs.Script.Printing

/-!
# The layout of what has been moved

The marks of a node are made of the marks of its parts, of texts, and of requests for the comments
at certain places. Almost all of these places are the ends of nodes, and when the whole script is
moved they are moved with the nodes. So a layout of moved parts is the layout of the parts with its
marks moved, and that is shown for one kind of construct after the other: first for what the forms
are put together from, then for the forms themselves, in the groups in which the printer tries them.

A few requests count bytes. A block asks in front of its closing brace, one byte before its end, and
a list in front of the comma that may follow an item; a member asks in front of the full stop before
its name, which stands one byte or two before it. These places are moved to the right ones only if
the bytes beside a node are moved together with it, which is therefore asked of the parts.

Nowhere is a place in front of everything, and it has to stay there: an absent node begins and ends
at it, and so does a group.

## Main definitions

* `Printed.moved`: A printed node that has been moved.
* `Span.EndMoves`, `Span.StartMoves`: The bytes in front of an end, or of a beginning, are moved
  together with it.
* `PartsRigid`: What is asked of the parts of a form.

## Theorems

* `marks_moved`, `full_moved`, `statement_moved`: The marks of a moved node are its marks, moved.
* `inLine_moved`, `elements_moved`: The same for lists of nodes.
* `memberMarks_moved`, `block_moved`: The same where bytes are counted.
* `expressionLayout_moved`, `patternLayout_moved`, `typeLayout_moved`, `declarationLayout_moved`,
  `layout_moved`: The same for all forms.
-/

namespace ClassVeil

namespace Script

/-! ### Nodes and their marks -/

mutual

/-- A printed node that has been moved: its tree, its marks, and its items. -/
def Printed.moved (f : Nat → Nat) : Printed → Printed
  | .mk node inner items =>
    .mk (node.moved f) (inner.map (Mark.moved f)) (Printed.allMoved f items)

/-- Several printed nodes that have been moved. -/
def Printed.allMoved (f : Nat → Nat) : List Printed → List Printed
  | [] => []
  | p :: rest => p.moved f :: Printed.allMoved f rest

end

theorem Printed.allMoved_eq (f : Nat → Nat) (ps : List Printed) :
    Printed.allMoved f ps = ps.map (Printed.moved f) := by
  induction ps with
  | nil => rfl
  | cons p rest ih => rw [Printed.allMoved, ih, List.map_cons]

section

variable (f : Nat → Nat)

@[simp] theorem node_moved (p : Printed) : (p.moved f).node = p.node.moved f := by
  cases p
  rfl

@[simp] theorem inner_moved (p : Printed) : (p.moved f).inner = p.inner.map (Mark.moved f) := by
  cases p
  rfl

@[simp] theorem items_moved (p : Printed) : (p.moved f).items = p.items.map (Printed.moved f) := by
  cases p
  exact Printed.allMoved_eq f _

@[simp] theorem nothing_moved : Printed.nothing.moved f = .nothing := rfl

theorem form?_moved (n : Node) : (n.moved f).form? = n.form? := by
  cases n <;> rfl

@[simp] theorem isAbsent_moved (p : Printed) : (p.moved f).isAbsent = p.isAbsent := by
  rcases p with ⟨n, inner, items⟩
  cases n <;> rfl

@[simp] theorem isBlock_moved (p : Printed) : (p.moved f).isBlock = p.isBlock := by
  rw [Printed.isBlock, Printed.isBlock, node_moved, form?_moved]

@[simp] theorem map_lit (s : String) : (lit s).map (Mark.moved f) = lit s := rfl

@[simp] theorem ifPresent_moved (p : Printed) (marks : List Mark) :
    ifPresent (p.moved f) marks = ifPresent p marks := by
  rw [ifPresent, ifPresent, isAbsent_moved]

@[simp] theorem map_ifPresent (p : Printed) (marks : List Mark) :
    (ifPresent p marks).map (Mark.moved f) = ifPresent p (marks.map (Mark.moved f)) := by
  rw [ifPresent, ifPresent]
  split <;> rfl

@[simp] theorem map_indented (opening closing : String) (marks : List Mark) :
    (indented opening closing marks).map (Mark.moved f)
      = indented opening closing (marks.map (Mark.moved f)) := by
  simp only [indented, List.map_append, map_lit]
  rfl

@[simp] theorem map_spaced (words : List String) :
    (spaced words).map (Mark.moved f) = spaced words := rfl

theorem runsTogether_moved (mark : String) (n : Node) :
    runsTogether mark (n.moved f) = runsTogether mark n := by
  cases n with
  | form kind span words parts =>
      cases kind with
      | unary | updateBefore => rcases words with _ | ⟨word, _ | ⟨other, words⟩⟩ <;> rfl
      | _ => rfl
  | _ => rfl

theorem endsWhole_moved (n : Node) : endsWhole (n.moved f) = endsWhole n := by
  cases n with
  | form kind span words parts =>
      cases kind with
      | literal => rcases words with _ | ⟨word, _ | ⟨other, words⟩⟩ <;> rfl
      | _ => rfl
  | _ => rfl

end

section

variable {f : Nat → Nat} (h0 : f 0 = 0)

include h0

/-- A moved node stands where its place has been moved to. This holds of a node without a place too,
    because nowhere stays nowhere. -/
theorem span_moved (n : Node) : (n.moved f).span = n.span.moved f := by
  have hnowhere : Span.moved f ⟨0, 0⟩ = ⟨0, 0⟩ := by rw [Span.moved, h0]
  -- Only absent nodes and groups have no place of their own.
  cases n with
  | absent | group => exact hnowhere.symm
  | _ => rfl

@[simp] theorem marks_moved (p : Printed) : (p.moved f).marks = p.marks.map (Mark.moved f) := by
  rw [Printed.marks, Printed.marks, isAbsent_moved]
  split
  · rfl
  · rw [node_moved, span_moved h0, inner_moved]
    rfl

@[simp] theorem full_moved (p : Printed) : (p.moved f).full = p.full.map (Mark.moved f) := by
  rw [Printed.full, Printed.full, isAbsent_moved]
  split
  · rfl
  · rw [marks_moved h0, node_moved, span_moved h0, List.map_append]
    rfl

@[simp] theorem statement_moved (p : Printed) :
    (p.moved f).statement = p.statement.map (Mark.moved f) := by
  rw [Printed.statement, Printed.statement, isAbsent_moved, isBlock_moved, marks_moved h0,
    full_moved h0]
  split
  · rfl
  · rw [List.map_append]
    rfl

@[simp] theorem typed_moved (p : Printed) : typed (p.moved f) = (typed p).map (Mark.moved f) := by
  rw [typed, typed, ifPresent_moved, map_ifPresent, marks_moved h0, List.map_append, map_lit]

@[simp] theorem valued_moved (p : Printed) :
    valued (p.moved f) = (valued p).map (Mark.moved f) := by
  rw [valued, valued, ifPresent_moved, map_ifPresent, full_moved h0, List.map_append, map_lit]

@[simp] theorem named_moved (p : Printed) : named (p.moved f) = (named p).map (Mark.moved f) := by
  rw [named, named, ifPresent_moved, map_ifPresent, marks_moved h0, List.map_append, map_lit]

@[simp] theorem bodyOr_moved (before : String) (body : Printed) :
    bodyOr before (body.moved f) = (bodyOr before body).map (Mark.moved f) := by
  rw [bodyOr, bodyOr, isAbsent_moved, marks_moved h0]
  split
  · rfl
  · rw [List.map_append, map_lit]

@[simp] theorem unaryMarks_moved (mark : String) (operand : Printed) :
    unaryMarks mark (operand.moved f) = (unaryMarks mark operand).map (Mark.moved f) := by
  rw [unaryMarks, unaryMarks, node_moved, runsTogether_moved, full_moved h0]
  simp only [List.map_append, map_lit]
  split <;> rfl

@[simp] theorem handedOut_moved (p : Printed) :
    handedOut (p.moved f) = (handedOut p).map (Mark.moved f) := by
  rw [handedOut, handedOut, node_moved, span_moved h0, full_moved h0]
  simp only [List.map_append]
  rfl

@[simp] theorem source_moved (module attributes : Printed) :
    source (module.moved f) (attributes.moved f)
      = (source module attributes).map (Mark.moved f) := by
  rw [source, source, List.map_append, ifPresent_moved, map_ifPresent, marks_moved h0,
    marks_moved h0, List.map_append, map_lit]

@[simp] theorem tag_moved (name args attributes : Printed) :
    tag (name.moved f) (args.moved f) (attributes.moved f)
      = (tag name args attributes).map (Mark.moved f) := by
  rw [tag, tag, marks_moved h0, marks_moved h0, items_moved]
  simp only [List.map_append, map_lit, List.map_flatMap, List.flatMap_map, inner_moved]

@[simp] theorem sequenced_moved (ps : List Printed) :
    sequenced (ps.map (Printed.moved f)) = (sequenced ps).map (Mark.moved f) := by
  fun_induction sequenced ps with
  | case1 => rfl
  | case2 p => exact full_moved h0 p
  | case3 p rest hrest ih =>
      rw [List.map_cons, sequenced, ih, full_moved h0, List.map_append, List.map_append, map_lit]
      exact fun hnil => hrest (List.map_eq_nil_iff.mp hnil)

@[simp] theorem itemLines_moved (ps : List Printed) :
    itemLines (ps.map (Printed.moved f)) = (itemLines ps).map (Mark.moved f) := by
  rw [itemLines, itemLines, map_indented, List.map_flatMap, List.flatMap_map]
  simp only [marks_moved h0, List.map_append]
  rfl

@[simp] theorem statements_moved (ps : List Printed) :
    statements (ps.map (Printed.moved f)) = (statements ps).map (Mark.moved f) := by
  rw [statements, statements, List.map_flatMap, List.flatMap_map]
  simp only [statement_moved h0, List.map_append]
  rfl

theorem typingMarks_moved (typing : Typing) (expr type : Printed) :
    typingMarks typing (expr.moved f) (type.moved f)
      = (typingMarks typing expr type).map (Mark.moved f) := by
  unfold typingMarks
  rw [full_moved h0, marks_moved h0, List.map_append]
  cases typing <;> simp only [List.map_append, map_lit]

omit h0 in
theorem templateMarks_moved (pieces : List (List Char)) (ps : List (List Mark)) :
    templateMarks pieces (ps.map (List.map (Mark.moved f)))
      = (templateMarks pieces ps).map (Mark.moved f) := by
  fun_induction templateMarks pieces ps with
  | case1 piece pieces p ps ih =>
      simp only [List.map_cons, templateMarks, ih, List.map_append, map_lit]
      rfl
  | case2 pieces ps hne =>
      rw [templateMarks]
      · rw [List.map_map]
        rfl
      · rintro piece rest p more rfl heq
        rcases List.map_eq_cons_iff.mp heq with ⟨q, others, rfl, -⟩
        exact hne piece rest q others rfl rfl

end

/-! ### Places beside nodes -/

/-- The byte in front of the end of a stretch is still in front of it when both are moved. -/
def Span.EndMoves (f : Nat → Nat) (s : Span) : Prop := f (s.hi - 1) = f s.hi - 1

instance (f : Nat → Nat) (s : Span) : Decidable (s.EndMoves f) :=
  inferInstanceAs (Decidable (_ = _))

/-- The two bytes in front of a stretch are still in front of it when all are moved. -/
def Span.StartMoves (f : Nat → Nat) (s : Span) : Prop :=
  f (s.lo - 1) = f s.lo - 1 ∧ f (s.lo - 2) = f s.lo - 2

instance (f : Nat → Nat) (s : Span) : Decidable (s.StartMoves f) :=
  inferInstanceAs (Decidable (_ ∧ _))

/-- The byte in front of the end of a printed node is moved with it. -/
def Printed.EndMoves (f : Nat → Nat) (p : Printed) : Prop := p.node.span.EndMoves f

/-- The same for a printed node and for its items. -/
structure Printed.Rigid (f : Nat → Nat) (p : Printed) : Prop where
  self : p.EndMoves f
  items : ∀ q ∈ p.items, q.EndMoves f

/-- What is asked of the parts of a form, so that the places that it counts from them are moved with
    them. Only a member is asked for its beginning. -/
structure PartsRigid (f : Nat → Nat) (form : Form) (parts : List Printed) : Prop where
  each : ∀ p ∈ parts, p.Rigid f
  member : form = .member → ∀ object m, parts = [object, m] → m.node.span.StartMoves f

section

variable {f : Nat → Nat} (hf : f.Injective) (h0 : f 0 = 0)

include hf h0

/-- The place where the list ends decides whether there is anything to be asked for, and two places
    are moved to one only if they are one. -/
theorem beforeEnd_moved (hi : Nat) (p : Printed) (hp : p.EndMoves f) :
    beforeEnd (f hi) (p.moved f) = (beforeEnd hi p).map (Mark.moved f) := by
  simp only [beforeEnd, isAbsent_moved, node_moved, span_moved h0, Span.moved, hf.eq_iff]
  -- Either nothing is asked for, or the place in front of the end, which is moved with it.
  split
  · rfl
  · rw [← hp]
    rfl

/-- A list on one line, by induction on its items. Where nodes stand matters for the comma behind an
    item and for the end of the list, and for these their ends must be moved as a whole. -/
theorem inLine_moved (item : Printed → List Mark)
    (hitem : ∀ p, item (p.moved f) = (item p).map (Mark.moved f)) (between : String) (hi : Nat)
    (ps : List Printed) (hps : ∀ p ∈ ps, p.EndMoves f) :
    inLine item between (f hi) (ps.map (Printed.moved f))
      = (inLine item between hi ps).map (Mark.moved f) := by
  induction ps with
  | nil => rfl
  | cons p rest ih =>
      have hbetween : (if (rest.map (Printed.moved f)).isEmpty then [] else lit between)
          = (if rest.isEmpty then [] else lit between).map (Mark.moved f) := by
        rw [List.isEmpty_map]
        split <;> rfl
      have htrailing : ifPresent (p.moved f) [.trailing (p.moved f).node.span.hi false]
          = (ifPresent p [.trailing p.node.span.hi false]).map (Mark.moved f) := by
        rw [ifPresent_moved, map_ifPresent, node_moved, span_moved h0]
        rfl
      rw [List.map_cons, inLine, inLine, hitem, htrailing, hbetween,
        beforeEnd_moved hf h0 hi p (hps p List.mem_cons_self),
        ih fun q hq => hps q (List.mem_cons_of_mem p hq)]
      simp only [List.map_append]

theorem commas_moved (ps : List Printed) (hps : ∀ p ∈ ps, p.EndMoves f) :
    commas (ps.map (Printed.moved f)) = (commas ps).map (Mark.moved f) := by
  have hline := inLine_moved hf h0 Printed.full (full_moved h0) ", " 0 ps hps
  rw [h0] at hline
  exact hline

theorem plainCommas_moved (ps : List Printed) (hps : ∀ p ∈ ps, p.EndMoves f) :
    plainCommas (ps.map (Printed.moved f)) = (plainCommas ps).map (Mark.moved f) := by
  have hline := inLine_moved hf h0 Printed.marks (marks_moved h0) ", " 0 ps hps
  rw [h0] at hline
  exact hline

/-- A list with an absent last item is one with a comma at its end. The cases are those of the
    printer, and an item stays absent or present. -/
theorem elements_moved (item : Printed → List Mark)
    (hitem : ∀ p, item (p.moved f) = (item p).map (Mark.moved f)) (between : List Mark)
    (hbetween : between.map (Mark.moved f) = between) (ps : List Printed)
    (hps : ∀ p ∈ ps, p.EndMoves f) :
    elements item between (ps.map (Printed.moved f))
      = (elements item between ps).map (Mark.moved f) := by
  have hend : ∀ p ∈ ps, beforeEnd 0 (p.moved f) = (beforeEnd 0 p).map (Mark.moved f) := by
    intro p hp
    have hend := beforeEnd_moved hf h0 0 p (hps p hp)
    rw [h0] at hend
    exact hend
  fun_induction elements item between ps with
  | case1 => rfl
  | case2 p habsent =>
      rw [List.map_cons, List.map_nil, elements, isAbsent_moved, if_pos habsent]
      rfl
  | case3 p habsent =>
      rw [List.map_cons, List.map_nil, elements, isAbsent_moved, if_neg habsent, hitem,
        hend p List.mem_cons_self, List.map_append]
  | case4 p rest hrest ih =>
      rw [List.map_cons, elements, hitem, hend p List.mem_cons_self,
        ih (fun q hq => hps q (List.mem_cons_of_mem p hq))
          fun q hq => hend q (List.mem_cons_of_mem p hq)]
      · simp only [List.map_append, hbetween]
      · exact fun hnil => hrest (List.map_eq_nil_iff.mp hnil)

theorem elementLines_moved (item : Printed → List Mark)
    (hitem : ∀ p, item (p.moved f) = (item p).map (Mark.moved f)) (opening closing : String)
    (ps : List Printed) (hps : ∀ p ∈ ps, p.EndMoves f) :
    elementLines item opening closing (ps.map (Printed.moved f))
      = (elementLines item opening closing ps).map (Mark.moved f) := by
  rw [elementLines, elementLines, map_indented,
    elements_moved hf h0 item hitem (lit "," ++ [Mark.line]) rfl ps hps]

theorem signature_moved (types params result : Printed) (hparams : params.Rigid f) :
    signature (types.moved f) (params.moved f) (result.moved f)
      = (signature types params result).map (Mark.moved f) := by
  rw [signature, signature, marks_moved h0, items_moved,
    plainCommas_moved hf h0 _ hparams.items, typed_moved h0]
  simp only [List.map_append, map_lit]

theorem namesInBraces_moved (ps : List Printed) (hps : ∀ p ∈ ps, p.EndMoves f) :
    namesInBraces (ps.map (Printed.moved f)) = (namesInBraces ps).map (Mark.moved f) := by
  rw [namesInBraces, namesInBraces, List.isEmpty_map, plainCommas_moved hf h0 ps hps]
  split
  · rfl
  · simp only [List.map_append, map_lit]

/-- The marks of a class move with those of its parts. Only the list of what it promises is asked
    for places, so nothing is assumed of the others. -/
theorem classMarks_moved (head : String) (name members base args types promised : Printed)
    (hpromised : promised.Rigid f) :
    classMarks head (name.moved f) (members.moved f) (base.moved f) (args.moved f) (types.moved f)
        (promised.moved f)
      = (classMarks head name members base args types promised).map (Mark.moved f) := by
  have hlist : (if (promised.moved f).items.isEmpty then []
        else lit " implements " ++ plainCommas (promised.moved f).items)
      = (if promised.items.isEmpty then []
        else lit " implements " ++ plainCommas promised.items).map (Mark.moved f) := by
    rw [items_moved, List.isEmpty_map, plainCommas_moved hf h0 _ hpromised.items]
    split
    · rfl
    · rw [List.map_append, map_lit]
  rw [classMarks, classMarks, hlist, named_moved h0, marks_moved h0, marks_moved h0, full_moved h0,
    items_moved, itemLines_moved h0]
  simp only [List.map_append, map_lit, ifPresent_moved, map_ifPresent]

omit hf h0 in
/-- Texts that are the same for all nodes are put between lists of marks before or after moving. -/
theorem intersperse_moved (between : String) (lists : List (List Mark)) :
    List.intersperse (lit between) (lists.map (List.map (Mark.moved f)))
      = (List.intersperse (lit between) lists).map (List.map (Mark.moved f)) := by
  induction lists with
  | nil => rfl
  | cons first rest ih =>
      cases rest with
      | nil => rfl
      | cons second rest =>
          rw [List.map_cons] at ih
          simp only [List.map_cons, List.intersperse_cons_cons, ih, map_lit]

/-- The marks of an import, with up to three things to import. Which of them are there is seen from
    their marks, and moving a list of marks does not empty it. -/
theorem importMarks_moved (before : String) (first star names module attributes : Printed)
    (hnames : names.Rigid f) :
    importMarks before (first.moved f) (star.moved f) (names.moved f) (module.moved f)
        (attributes.moved f)
      = (importMarks before first star names module attributes).map (Mark.moved f) := by
  have hbraces : (if (names.moved f).items.isEmpty then []
        else [namesInBraces (names.moved f).items])
      = (if names.items.isEmpty then [] else [namesInBraces names.items]).map
          (List.map (Mark.moved f)) := by
    rw [items_moved, List.isEmpty_map, namesInBraces_moved hf h0 _ hnames.items]
    split <;> rfl
  have hheads : [(first.moved f).marks, (star.moved f).marks].filter (fun m => !m.isEmpty)
      = ([first.marks, star.marks].filter fun m => !m.isEmpty).map (List.map (Mark.moved f)) := by
    rw [marks_moved h0, marks_moved h0, ← List.map_singleton, ← List.map_cons, List.filter_map]
    congr 2
    funext m
    simp only [Function.comp_apply, List.isEmpty_map]
  simp only [importMarks, hbraces, hheads, ← List.map_append, intersperse_moved, List.isEmpty_map,
    source_moved h0, ← List.map_flatten]
  simp only [List.map_append, map_lit, apply_ite (List.map (Mark.moved f)), List.map_nil]

omit hf in
/-- Comments are asked for in front of the full stop before a member, and if the object is a whole
    number in front of the first of two. -/
theorem memberMarks_moved (object member : Printed) (hmember : member.node.span.StartMoves f) :
    memberMarks (object.moved f) (member.moved f)
      = (memberMarks object member).map (Mark.moved f) := by
  rcases hmember with ⟨hlast, hfirst⟩
  simp only [memberMarks, node_moved, span_moved h0, Span.moved, form?_moved, endsWhole_moved,
    marks_moved h0, full_moved h0, inner_moved, ← hlast]
  split
  · cases hwhole : endsWhole object.node with
    | true =>
        rw [← hfirst]
        simp only [if_true, List.map_append, List.map_cons, map_lit]
        rfl
    | false =>
        simp only [Bool.false_eq_true, if_false, List.map_append, List.map_cons, map_lit]
        rfl
  · simp only [List.map_append, List.map_cons, map_lit]
    rfl

omit hf in
theorem block_moved (span : Span) (hspan : span.EndMoves f) (ps : List Printed) :
    block (span.moved f) (ps.map (Printed.moved f)) = (block span ps).map (Mark.moved f) := by
  -- The closing brace is the last byte of the block, and comments are asked for in front of it.
  rw [Span.EndMoves] at hspan
  simp only [block, Span.moved, ← hspan, List.isEmpty_map, statements_moved h0]
  split
  · rfl
  · simp only [List.map_append, map_lit]
    rfl

theorem objectMarks_moved (span : Span) (hspan : span.EndMoves f)
    (members : List Printed) (hmembers : ∀ p ∈ members, p.EndMoves f) :
    objectMarks (span.moved f) (members.map (Printed.moved f))
      = (objectMarks span members).map (Mark.moved f) := by
  rw [Span.EndMoves] at hspan
  simp only [objectMarks, Span.moved, ← hspan, List.isEmpty_map,
    elementLines_moved hf h0 _ (marks_moved h0) _ _ members hmembers]
  split <;> rfl

omit hf in
theorem containerMarks_moved (span : Span) (hspan : span.EndMoves f)
    (hinner : f (span.lo + 1) = f span.lo + 1) (expr : Printed) :
    containerMarks (span.moved f) (expr.moved f)
      = (containerMarks span expr).map (Mark.moved f) := by
  rw [Span.EndMoves] at hspan
  simp only [containerMarks, Span.moved, ← hspan, ← hinner, isAbsent_moved, full_moved h0,
    List.map_append, map_lit]
  split <;> rfl

/-! ### Forms -/

/-- The marks of a form of expressions are moved with its parts. Most forms only put texts between
    the marks of their parts. The others are taken first: those with a list, with a function's
    parameters, or with a part that they look into. -/
theorem expressionLayout_moved (form : Form) (words : List String) (parts : List Printed)
    (hparts : PartsRigid f form parts) :
    expressionLayout form words (parts.map (Printed.moved f))
      = (expressionLayout form words parts).map (Mark.moved f) := by
  rcases hparts with ⟨hparts, hmember⟩
  fun_cases expressionLayout form words parts
  case case8 p m => exact memberMarks_moved h0 p m (hmember rfl p m rfl)
  case case12 mark p args =>
    have hargs := commas_moved hf h0 args fun q hq => (hparts q (List.mem_cons_of_mem p hq)).self
    simp [expressionLayout, h0, hargs]
  case case13 p types args =>
    -- Arguments in brackets are a group, even if there are none; without brackets it is absent.
    have hargs := commas_moved hf h0 args.items (hparts args (by simp)).items
    simp only [List.map_cons, List.map_nil, expressionLayout, node_moved, items_moved, hargs,
      full_moved h0, marks_moved h0, List.map_append, map_lit]
    cases args.node <;> simp only [List.map_append, map_lit, List.map_nil] <;> rfl
  case case15 async types params result body =>
    have hparams := commas_moved hf h0 params.items (hparts params (by simp)).items
    simp [expressionLayout, h0, hparams, apply_ite (List.map (Mark.moved f))]
  case case16 head name types params result body =>
    have hparams := signature_moved hf h0 types params result (hparts params (by simp))
    simp [expressionLayout, h0, hparams]
  case case17 head name members base args types promised =>
    exact classMarks_moved hf h0 head name members base args types promised
      (hparts promised (by simp))
  case case21 head key types params result body
  | case22 head key types params result body =>
    have hparams := signature_moved hf h0 types params result (hparts params (by simp))
    simp [expressionLayout, h0, hparams]
  case case23 | case25 => simp [expressionLayout, h0, List.map_flatMap, List.flatMap_map]
  case case29 =>
    -- Parts that fit none of the forms do not fit any when they are moved, since there are as many.
    rw [expressionLayout]
    · rfl
    all_goals
      intros
      rename_i h
      try simp only [List.map_eq_cons_iff, List.map_eq_nil_iff] at h
      repeat obtain ⟨_, _, rfl, -, h⟩ := h
      subst_vars
      solve_by_elim
  all_goals simp [expressionLayout, h0]

/-- The marks of a form of patterns. What is no pattern is printed as an expression, so the lemma
    about expressions takes over there. -/
theorem patternLayout_moved (form : Form) (words : List String) (parts : List Printed)
    (hparts : PartsRigid f form parts) :
    patternLayout form words (parts.map (Printed.moved f))
      = (patternLayout form words parts).map (Mark.moved f) := by
  have hends : ∀ p ∈ parts, p.EndMoves f := fun p hp => (hparts.each p hp).self
  fun_cases patternLayout form words parts
  case case1 =>
    have hps := elements_moved hf h0 _ (full_moved h0) (lit ", ") rfl parts hends
    simp [patternLayout, hps]
  case case3 hne =>
    have hps := plainCommas_moved hf h0 parts hends
    cases parts with
    | nil => exact absurd rfl hne
    | cons p rest => simp_all [patternLayout]
  case case9 => simp [patternLayout, h0, apply_ite (List.map (Mark.moved f))]
  case case10 =>
    -- Parts that are no pattern are none when they are moved.
    rw [patternLayout]
    · exact expressionLayout_moved hf h0 form words parts hparts
    all_goals
      intros
      rename_i h
      try simp only [List.map_eq_cons_iff, List.map_eq_nil_iff] at h
      repeat obtain ⟨_, _, rfl, -, h⟩ := h
      subst_vars
      solve_by_elim
  all_goals simp [patternLayout, h0]

/-- The marks of a form of types. The end of the type itself is given as well, because less is asked
    for at the last part of a union, which ends there; that end is moved too. -/
theorem typeLayout_moved (form : Form) (hi : Nat) (words : List String) (parts : List Printed)
    (hparts : PartsRigid f form parts) :
    typeLayout form (f hi) words (parts.map (Printed.moved f))
      = (typeLayout form hi words parts).map (Mark.moved f) := by
  have hends : ∀ p ∈ parts, p.EndMoves f := fun p hp => (hparts.each p hp).self
  fun_cases typeLayout form hi words parts
  case case1 | case2 | case8 =>
    have hps := plainCommas_moved hf h0 parts hends
    simp [typeLayout, hps]
  case case9 => simp [typeLayout, h0, span_moved, Span.moved]
  case case12 =>
    exact inLine_moved hf h0 _ (marks_moved h0) " | " hi parts hends
  case case13 =>
    exact inLine_moved hf h0 _ (marks_moved h0) " & " hi parts hends
  case case17 types params result =>
    have hparams := signature_moved hf h0 types params .nothing (hparts.each params (by simp))
    rw [nothing_moved] at hparams
    simp [typeLayout, h0, hparams, apply_ite (List.map (Mark.moved f))]
  case case21 head inner items types params result =>
    have hparams := signature_moved hf h0 types params .nothing (hparts.each params (by simp))
    have habsent : (Printed.mk .absent inner items).moved f
        = .mk .absent (inner.map (Mark.moved f)) (Printed.allMoved f items) := rfl
    rw [nothing_moved] at hparams
    simp [typeLayout, h0, hparams, habsent]
  case case22 head types params result =>
    have hparams := signature_moved hf h0 types params result (hparts.each params (by simp))
    simp [typeLayout, hparams]
  case case23 mark words key types params result habsent hnew =>
    have hparams := signature_moved hf h0 types params result (hparts.each params (by simp))
    -- A method without a name has been dealt with, so this one has, and it keeps it.
    have hkey : ∀ (inner : List Mark) (items : List Printed), words = [] →
        key.moved f = .mk .absent inner items → False := by
      rintro inner items hwords hmoved
      rcases key with ⟨n, inner', items'⟩
      cases n with
      | absent => exact habsent inner' items' hwords rfl
      | _ => cases hmoved
    rw [List.map_cons, List.map_cons, List.map_cons, List.map_cons, List.map_nil,
      typeLayout, hparams, full_moved h0]
    · simp only [List.map_append, map_lit, map_spaced]
    · exact hkey
    · exact hnew
  case case24 param type =>
    have hparam := plainCommas_moved hf h0 [param] fun q hq => hends q (by simp_all)
    simp_all [typeLayout]
  case case25 =>
    have htemplate := templateMarks_moved (f := f) (words.map String.toList)
      (parts.map Printed.marks)
    have hmarks : (parts.map (Printed.moved f)).map Printed.marks
        = (parts.map Printed.marks).map (List.map (Mark.moved f)) := by
      simp [marks_moved h0]
    simp only [typeLayout, hmarks, htemplate, List.map_append, map_lit]
  case case28 =>
    -- Nor do moved parts become those of a type.
    rw [typeLayout]
    · exact patternLayout_moved hf h0 form words parts hparts
    all_goals
      intros
      rename_i h
      try simp only [List.map_eq_cons_iff, List.map_eq_nil_iff] at h
      repeat obtain ⟨_, _, rfl, -, h⟩ := h
      subst_vars
      solve_by_elim
  all_goals simp [typeLayout, h0]

/-- The marks of a form of declarations. What is no declaration is printed as a type, an expression
    or a pattern. -/
theorem declarationLayout_moved (form : Form) (hi : Nat) (words : List String)
    (parts : List Printed) (hparts : PartsRigid f form parts) :
    declarationLayout form (f hi) words (parts.map (Printed.moved f))
      = (declarationLayout form hi words parts).map (Mark.moved f) := by
  fun_cases declarationLayout form hi words parts
  case case1 before head name types params result body
  | case3 before mark key types params result body =>
    have hparams := signature_moved hf h0 types params result (hparts.each params (by simp))
    simp [declarationLayout, h0, hparams]
  case case2 head name members base args types promised =>
    exact classMarks_moved hf h0 head name members base args types promised
      (hparts.each promised (by simp))
  case case4 before params body =>
    have hparams := signature_moved hf h0 .nothing params .nothing (hparts.each params (by simp))
    rw [nothing_moved] at hparams
    simp [declarationLayout, h0, hparams]
  case case7 before first star names module attributes =>
    exact importMarks_moved hf h0 before first star names module attributes
      (hparts.each names (by simp))
  case case10 before names module attributes =>
    have hnames := namesInBraces_moved hf h0 names.items (hparts.each names (by simp)).items
    simp [declarationLayout, h0, hnames]
  case case13 => simp [declarationLayout, h0, apply_ite (List.map (Mark.moved f))]
  case case16 before name types bases members =>
    have hbases := plainCommas_moved hf h0 bases.items (hparts.each bases (by simp)).items
    simp [declarationLayout, h0, hbases, apply_ite (List.map (Mark.moved f))]
  case case18 before name ps =>
    have hps := elementLines_moved hf h0 _ (marks_moved h0) "\x7b" "\x7d" ps
      fun q hq => (hparts.each q (List.mem_cons_of_mem name hq)).self
    simp [declarationLayout, h0, hps]
  case case23 =>
    -- Nor those of a declaration.
    rw [declarationLayout]
    · exact typeLayout_moved hf h0 form hi words parts hparts
    all_goals
      intros
      rename_i h
      try simp only [List.map_eq_cons_iff, List.map_eq_nil_iff] at h
      repeat obtain ⟨_, _, rfl, -, h⟩ := h
      subst_vars
      solve_by_elim
  all_goals simp [declarationLayout, h0]

/-- The marks of any form. A block is asked for the byte in front of its own end, so something is
    asked of its place here as well; all other forms are handed on by groups. -/
theorem layout_moved (form : Form) (span : Span) (hspan : span.EndMoves f) (words : List String)
    (parts : List Printed) (hparts : PartsRigid f form parts) :
    layout form (span.moved f) words (parts.map (Printed.moved f))
      = (layout form span words parts).map (Mark.moved f) := by
  fun_cases layout form span words parts
  case case2 => exact block_moved h0 span hspan parts
  case case4 before word last =>
    have hps := inLine_moved hf h0 _ (marks_moved h0) ", " span.hi parts
      fun q hq => (hparts.each q hq).self
    simp [layout, hps, Span.moved]
  case case1 => simp [layout, h0, Span.moved]
  case case6 | case14 => simp [layout, h0, apply_ite (List.map (Mark.moved f))]
  case case13 => simp [layout, h0, List.map_flatMap, List.flatMap_map]
  case case21 =>
    rw [layout]
    · exact declarationLayout_moved hf h0 form span.hi words parts hparts
    all_goals
      intros
      rename_i h
      try simp only [List.map_eq_cons_iff, List.map_eq_nil_iff] at h
      repeat obtain ⟨_, _, rfl, -, h⟩ := h
      subst_vars
      solve_by_elim
  all_goals simp [layout, h0]

end

end Script

end ClassVeil
