import ClassVeil.Proofs.Script.Layout

/-!
# Scripts that have been moved

A script that is moved as a whole is printed as it was. That is not so for every way of moving: a
block asks for the comments in front of its closing brace by counting back one byte from its end,
and a list does so for the comma behind an item. If the end of a node and the byte in front of it
were moved apart, the comments there would be looked for where they are not.

So the printing of a moved script is stated for trees that are rigid: whatever place beside a node
its marks ask for is moved along with the node. This is no strong condition. Blank lines are marked
between the items of a script alone, which moves each item as it is, by as many bytes as have been
put in front of it.

A visit leaves a tree rigid, because it replaces texts and lets every node stand where it stood. For
this reason the condition only has to be known of a script as it has been read, and holds of the one
that is printed in the end.

## Main definitions

* `Node.Rigid`, `Node.allRigid`: The places beside a node that are asked for are moved with it; and
  so for everything below it.
* `Program.moved`: A script with all its places moved, those of its comments included.

## Theorems

* `printNode_moved`: A moved node is printed as the node, with the marks moved.
* `print_moved`: A script that has been moved is printed as it was.
* `allRigid_visitAll`: A visit leaves a script rigid.
-/

namespace ClassVeil

namespace Script

/-! ### Rigid trees -/

namespace Node

/-- An expression in braces inside markup. -/
def isContainer : Node → Bool
  | container .. => true
  | _ => false

/-- The places beside a node that its marks ask for are moved with it: the one in front of its end,
    the one behind the brace that it begins with, and those in front of a member. -/
structure Rigid (f : Nat → Nat) (n : Node) : Prop where
  stop : n.span.EndMoves f
  brace : n.isContainer = true → f (n.span.lo + 1) = f n.span.lo + 1
  member : n.form? = some .member → ∀ m ∈ n.children.drop 1, m.span.StartMoves f

instance (f : Nat → Nat) (n : Node) : Decidable (n.Rigid f) :=
  decidable_of_iff
    (n.span.EndMoves f ∧ (n.isContainer = true → f (n.span.lo + 1) = f n.span.lo + 1) ∧
      (n.form? = some .member → ∀ m ∈ n.children.drop 1, m.span.StartMoves f))
    ⟨fun h => ⟨h.1, h.2.1, h.2.2⟩, fun h => ⟨h.stop, h.brace, h.member⟩⟩

/-- The same for a node and everything below it. -/
def allRigid (f : Nat → Nat) : Node → Bool := fold fun n below => decide (n.Rigid f) && below.all id

theorem allRigid_iff (f : Nat → Nat) (n : Node) :
    n.allRigid f = true ↔ n.Rigid f ∧ ∀ c ∈ n.children, c.allRigid f = true := by
  rw [allRigid, fold_eq, Bool.and_eq_true, decide_eq_true_iff, List.all_map, List.all_eq_true]
  rfl

end Node

theorem node_printNode (n : Node) : (printNode n).node = n := by
  cases n <;> rw [printNode] <;> rfl

theorem printNodes_eq (nodes : List Node) : printNodes nodes = nodes.map printNode := by
  induction nodes with
  | nil => rw [printNodes, List.map_nil]
  | cons n rest ih => rw [printNodes, ih, List.map_cons]

variable {f : Nat → Nat}

theorem endMoves_printNode (n : Node) (h : n.allRigid f = true) : (printNode n).EndMoves f := by
  rw [Printed.EndMoves, node_printNode]
  exact ((Node.allRigid_iff f n).mp h).1.stop

theorem endMoves_printNodes (nodes : List Node) (h : ∀ n ∈ nodes, n.allRigid f = true) :
    ∀ p ∈ printNodes nodes, p.EndMoves f := by
  rw [printNodes_eq]
  rintro p hp
  rcases List.mem_map.mp hp with ⟨n, hn, rfl⟩
  exact endMoves_printNode n (h n hn)

theorem rigid_printNode (n : Node) (h : n.allRigid f = true) : (printNode n).Rigid f := by
  refine ⟨endMoves_printNode n h, ?_⟩
  cases n with
  | group items =>
      rw [printNode]
      exact endMoves_printNodes items ((Node.allRigid_iff f _).mp h).2
  | _ =>
      rw [printNode]
      rintro q hq
      cases hq

/-- The parts of a form can be moved if they are rigid and the form is. -/
theorem partsRigid_printNodes (kind : Form) (span : Span) (words : List String) (parts : List Node)
    (hself : (Node.form kind span words parts).Rigid f)
    (hbelow : ∀ c ∈ parts, c.allRigid f = true) : PartsRigid f kind (printNodes parts) := by
  rw [printNodes_eq]
  constructor
  · rintro p hp
    rcases List.mem_map.mp hp with ⟨c, hc, rfl⟩
    exact rigid_printNode c (hbelow c hc)
  · rintro rfl object m hpair
    obtain ⟨o, rest, rfl, -, hrest⟩ := List.map_eq_cons_iff.mp hpair
    obtain ⟨c, none, rfl, rfl, hnil⟩ := List.map_eq_cons_iff.mp hrest
    obtain rfl := List.map_eq_nil_iff.mp hnil
    rw [node_printNode]
    exact hself.member rfl c List.mem_cons_self

theorem Printed.eq_moved (p q : Printed) (hnode : q.node = p.node.moved f)
    (hinner : q.inner = p.inner.map (Mark.moved f))
    (hitems : q.items = p.items.map (Printed.moved f)) : q = p.moved f := by
  rcases p with ⟨n, inner, items⟩
  rcases q with ⟨n', inner', items'⟩
  rw [Printed.moved, Printed.allMoved_eq]
  exact (Printed.mk.injEq ..).mpr ⟨hnode, hinner, hitems⟩

/-- Nodes are printed one by one, so several moved nodes are printed as the nodes if each of them
    is. -/
theorem printNodes_moved (nodes : List Node)
    (h : ∀ n ∈ nodes, printNode (n.moved f) = (printNode n).moved f) :
    printNodes (nodes.map (Node.moved f)) = (printNodes nodes).map (Printed.moved f) := by
  rw [printNodes_eq, printNodes_eq, List.map_map, List.map_map]
  exact List.map_congr_left h

/-- The marks of a moved node are the moved marks of the node, if that is so for what is printed of
    its children. -/
theorem inner_printNode_moved (hf : f.Injective) (h0 : f 0 = 0) (n : Node) (hself : n.Rigid f)
    (hbelow : ∀ c ∈ n.children, c.allRigid f = true)
    (hchild : ∀ c ∈ n.children, printNode (c.moved f) = (printNode c).moved f) :
    (printNode (n.moved f)).inner = (printNode n).inner.map (Mark.moved f) := by
  have hspan := hself.stop
  rw [Node.moved_eq]
  -- What the children are printed to is known, so it is left to see which marks a node puts around
  -- them. The constructs with a list or with a counted place have lemmas of their own.
  cases n with
  | absent | group | str => rfl
  | template span pieces exprs =>
      have hexprs := printNodes_moved exprs hchild
      have hfull : ((printNodes exprs).map (Printed.moved f)).map Printed.full
          = ((printNodes exprs).map Printed.full).map (List.map (Mark.moved f)) := by
        simp only [List.map_map, Function.comp_def, full_moved h0]
      simp only [Node.moveSpan, Node.children, Node.rebuild, printNode, Printed.inner, hexprs,
        hfull, templateMarks_moved, List.map_append, map_lit]
  | array span items =>
      have hitems := printNodes_moved items hchild
      have hlines := elementLines_moved hf h0 Printed.full (full_moved h0) "[" "]" _
        (endMoves_printNodes items hbelow)
      simp only [Node.moveSpan, Node.children, Node.rebuild, printNode, Printed.inner, hitems,
        hlines, List.isEmpty_map]
      split <;> rfl
  | object span members =>
      have hmembers := printNodes_moved members hchild
      simp only [Node.moveSpan, Node.children, Node.rebuild, printNode, Printed.inner, hmembers]
      exact objectMarks_moved hf h0 span hspan _ (endMoves_printNodes members hbelow)
  | sequence span items =>
      have hitems := printNodes_moved items hchild
      simp only [Node.moveSpan, Node.children, Node.rebuild, printNode, Printed.inner, hitems,
        sequenced_moved h0]
  | call span callee types args =>
      -- The types come last among the children, but in front of the arguments in the text.
      have hcallee := hchild callee List.mem_cons_self
      have htypes := hchild types (by simp [Node.children])
      have hsub : args ⊆ (Node.call span callee types args).children :=
        fun c hc => List.mem_cons_of_mem _ (List.mem_append_left _ hc)
      have hargs := printNodes_moved args fun c hc => hchild c (hsub hc)
      have hcommas := commas_moved hf h0 _ (endMoves_printNodes args fun c hc => hbelow c (hsub hc))
      simp only [Node.moveSpan, Node.children, List.map_cons, List.map_append, List.map_nil,
        Node.rebuild, List.getLastD_concat, List.dropLast_concat, printNode, Printed.inner,
        hcallee, htypes, hargs, hcommas, full_moved h0, marks_moved h0, map_lit]
  | container span expr =>
      have hexpr := hchild expr List.mem_cons_self
      simp only [Node.moveSpan, Node.children, List.map_cons, List.map_nil, Node.rebuild,
        printNode, Printed.inner, hexpr]
      exact containerMarks_moved h0 span hspan (hself.brace rfl) _
  | form kind span words parts =>
      have hparts := printNodes_moved parts hchild
      simp only [Node.moveSpan, Node.children, Node.rebuild, printNode, Printed.inner, hparts]
      exact layout_moved hf h0 kind span hspan words _
        (partsRigid_printNodes kind span words parts hself hbelow)
  | conditional | binary | spread | pair | paren | typed | attr =>
      simp only [Node.children, List.mem_cons, List.not_mem_nil, or_false, forall_eq_or_imp,
        forall_eq] at hchild
      simp only [Node.moveSpan, Node.children, List.map_cons, List.map_nil, Node.rebuild,
        printNode, Printed.inner, hchild, full_moved h0, marks_moved h0, typingMarks_moved h0,
        ifPresent_moved, map_ifPresent, List.map_append, map_lit]

/-- A moved node is printed as the node, with its marks moved. The induction goes by the children,
    and a node that is rigid with everything below it hands that on to them. -/
theorem printNode_moved (hf : f.Injective) (h0 : f 0 = 0) (n : Node) (h : n.allRigid f = true) :
    printNode (n.moved f) = (printNode n).moved f := by
  induction n using Node.induction_children with
  | h n ih =>
      rw [Node.allRigid_iff] at h
      rcases h with ⟨hself, hbelow⟩
      have hchild : ∀ c ∈ n.children, printNode (c.moved f) = (printNode c).moved f :=
        fun c hc => ih c hc (hbelow c hc)
      refine Printed.eq_moved _ _ ?_ (inner_printNode_moved hf h0 n hself hbelow hchild) ?_
      · rw [node_printNode, node_printNode]
      · cases n with
        | group items =>
            rw [Node.moved_group]
            exact printNodes_moved items hchild
        | _ => rfl

/-! ### Scripts -/

/-- A script with all its places moved, those of its comments included. -/
def Program.moved (f : Nat → Nat) (s : Program) : Program :=
  { s with items := s.items.map (Node.moved f), comments := s.comments.moved f }

/-- A script that has been moved is printed as it was. The marks of the moved script are the moved
    marks, and these make the same text of the moved comments. -/
theorem print_moved (hf : f.Injective) (s : Program) (h : (Node.group s.items).allRigid f = true) :
    print (s.moved f) = print s := by
  rw [Node.allRigid_iff] at h
  rcases h with ⟨hself, hbelow⟩
  -- A group stands nowhere, so it is rigid only if nowhere is moved to nowhere.
  have h0 : f 0 = 0 := by
    have hnowhere : f 0 = f 0 - 1 := hself.stop
    omega
  have hitems : printNodes (s.moved f).items = (printNodes s.items).map (Printed.moved f) :=
    printNodes_moved s.items fun c hc => printNode_moved hf h0 c (hbelow c hc)
  -- The marks of a script are those of its banner, of its items, and requests for the comments at
  -- the two ends.
  have hmarks : (s.moved f).marks = s.marks.map (Mark.moved f) := by
    have hbanner : (s.banner.map fun line => [Mark.text line, .line]).getD []
        = ((s.banner.map fun line => [Mark.text line, .line]).getD []).map (Mark.moved f) := by
      cases s.banner <;> rfl
    rw [Program.marks, Program.marks, hitems]
    simp only [List.map_append, List.map_cons, List.map_flatMap, List.flatMap_map, Mark.moved, h0,
      statement_moved h0, ← hbanner]
    rfl
  rw [print, print, hmarks]
  exact Page.text_moved hf s.comments s.marks

/-! ### Renaming -/

namespace Node

/-- A node with other children stands where it stood and is of the same kind. These are the things
    that being rigid depends on, besides the places of the children. -/
theorem rebuild_same (n : Node) (nodes : List Node) (h : nodes.length = n.children.length) :
    (n.rebuild nodes).span = n.span ∧ (n.rebuild nodes).form? = n.form? ∧
      (n.rebuild nodes).isContainer = n.isContainer := by
  cases n with
  | call =>
      match nodes, h with
      | _ :: _, _ => exact ⟨rfl, rfl, rfl⟩
  | conditional =>
      match nodes, h with
      | [_, _, _], _ => exact ⟨rfl, rfl, rfl⟩
  | binary | pair | typed =>
      match nodes, h with
      | [_, _], _ => exact ⟨rfl, rfl, rfl⟩
  | spread | paren | container | attr =>
      match nodes, h with
      | [_], _ => exact ⟨rfl, rfl, rfl⟩
  | _ => exact ⟨rfl, rfl, rfl⟩

/-- A node is rigid as long as its children begin where they began. Only a member asks for the
    places of its children, and it asks for nothing else of them. -/
theorem rigid_rebuild (n : Node) (nodes : List Node) (h : nodes.map span = n.children.map span)
    (hn : n.Rigid f) : (n.rebuild nodes).Rigid f := by
  have hlength : nodes.length = n.children.length := by
    rw [← List.length_map (f := span), h, List.length_map]
  rcases n.rebuild_same nodes hlength with ⟨hspan, hform, hcontainer⟩
  constructor
  · rw [hspan]
    exact hn.stop
  · rw [hspan, hcontainer]
    exact hn.brace
  · rw [hform, children_rebuild n nodes hlength]
    rintro hmember m hm
    -- The child that stood there began where the new one begins.
    have hspans : m.span ∈ (n.children.drop 1).map span := by
      rw [List.map_drop, ← h, ← List.map_drop]
      exact List.mem_map_of_mem hm
    rcases List.mem_map.mp hspans with ⟨c, hc, hsame⟩
    rw [← hsame]
    exact hn.member hmember c hc

theorem mem_replaceEach (texts : Texts) (i : Nat) (nodes : List Node) (m : Node)
    (h : m ∈ replaceEach texts i (nodes.map replaceTexts)) :
    ∃ c ∈ nodes, ∃ below, m = c.replaceTexts below := by
  induction nodes generalizing i with
  | nil => cases h
  | cons n rest ih =>
      rw [List.map_cons, replaceEach, List.mem_cons] at h
      rcases h with rfl | hrest
      · exact ⟨n, List.mem_cons_self, _, rfl⟩
      · rcases ih (i + 1) hrest with ⟨c, hc, hm⟩
        exact ⟨c, List.mem_cons_of_mem n hc, hm⟩

theorem map_replaceEach {α : Type} (g : Node → α) (hg : ∀ n texts, g (n.replaceTexts texts) = g n)
    (texts : Texts) (i : Nat) (nodes : List Node) :
    (replaceEach texts i (nodes.map replaceTexts)).map g = nodes.map g := by
  induction nodes generalizing i with
  | nil => rfl
  | cons n rest ih => rw [List.map_cons, replaceEach, List.map_cons, hg, ih, List.map_cons]

theorem span_replaceTexts (n : Node) (texts : Texts) : (n.replaceTexts texts).span = n.span := by
  rcases replaceTexts_cases n texts with
    hgoes | ⟨text, htext, ⟨span, value, raw, rfl⟩ | ⟨span, pieces, exprs, rfl⟩⟩
  · rw [replaceTexts_children n texts hgoes]
    exact (n.rebuild_same _ (by rw [length_replaceEach, List.length_map])).1
  · rw [replaceTexts_str _ _ _ _ _ htext]
    rfl
  · rw [replaceTexts_template _ _ _ _ _ htext]
    rfl

/-- A node with nothing below it is rigid with its last byte. -/
theorem allRigid_of_children_nil (n : Node) (h : n.children = [])
    (hcontainer : n.isContainer = false) (hstop : n.span.EndMoves f) : n.allRigid f = true := by
  rw [allRigid_iff, h]
  refine ⟨⟨hstop, fun hbrace => ?_, fun _ m hm => ?_⟩, fun c hc => by cases hc⟩
  · cases hcontainer.symm.trans hbrace
  · rw [h] at hm
    cases hm

/-- Replacing texts leaves a tree rigid: every node that is left stands where it stood. By induction
    over the children; where a text is put, the node has no children any more. -/
theorem allRigid_replaceTexts (n : Node) (texts : Texts) (h : n.allRigid f = true) :
    (n.replaceTexts texts).allRigid f = true := by
  induction n using induction_children generalizing texts with
  | h n ih =>
      rcases (allRigid_iff f n).mp h with ⟨hself, hbelow⟩
      rcases replaceTexts_cases n texts with
        hgoes | ⟨text, htext, ⟨span, value, raw, rfl⟩ | ⟨span, pieces, exprs, rfl⟩⟩
      -- The node is kept, and its children are what texts were replaced in: they begin where they
      -- began, and each is rigid by induction.
      · have hlength : (replaceEach texts 0 (n.children.map replaceTexts)).length
            = n.children.length := by
          rw [length_replaceEach, List.length_map]
        rw [replaceTexts_children n texts hgoes, allRigid_iff, children_rebuild n _ hlength]
        refine ⟨n.rigid_rebuild _ (map_replaceEach span span_replaceTexts texts 0 n.children) hself,
          fun m hm => ?_⟩
        rcases mem_replaceEach texts 0 n.children m hm with ⟨c, hc, below, rfl⟩
        exact ih c hc below (hbelow c hc)
      -- A text is put here, and nothing is below it any more.
      · rw [replaceTexts_str _ _ _ _ _ htext]
        exact allRigid_of_children_nil _ rfl rfl hself.stop
      · rw [replaceTexts_template _ _ _ _ _ htext]
        exact allRigid_of_children_nil _ rfl rfl hself.stop

end Node

/-- A visit leaves a script rigid, because all it does is replace texts. So what has been asked of a
    script as it was read holds of the one that is printed. -/
theorem allRigid_visitAll {σ : Type} (r : Renaming σ) (items : List Node) (s : σ)
    (h : (Node.group items).allRigid f = true) :
    (Node.group (visitAll r items s).1).allRigid f = true := by
  rw [(visitAll_eq_replaceTexts r items s).1]
  exact Node.allRigid_replaceTexts _ _ h

end Script

end ClassVeil
