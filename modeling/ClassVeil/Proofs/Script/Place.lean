import ClassVeil.Proofs.Script.Visit

/-!
# Places do not matter to a visit

A node knows where in the source it stands. Printing needs that for the comments, but a visit only
hands it on. So if everything in a script is moved, each place `p` to some place `f p`, the visit
meets the same texts, asks the rewriter for the same things in the same order, and answers with what
it would have answered before, moved in the same way.

The function `f` is any function on places here. Nothing is asked of it, because a visit never
compares two places and never looks at the source through one. What has to be asked of it before a
script may be printed is said where scripts are printed.

That a visit replaces texts at addresses, and does nothing else, is known already
(`visitAll_eq_replaceTexts`), and addresses count children, not bytes. So there are two things to be
shown: that the sites of a moved tree are those of the tree, and that replacing texts and moving can
be done in either order. Both go by induction over the children.

## Main definitions

* `Span.moved`: A stretch of the source with both its ends moved.
* `Node.moved`: A tree with all its places moved.

## Theorems

* `children_moved`: The children of a moved tree are the moved children.
* `sites_moved`: A moved tree has the sites of the tree.
* `replaceTexts_moved`: Texts are replaced in a moved tree as in the tree.
* `visitAll_moved`: A moved script is visited like the script itself.
-/

namespace ClassVeil

namespace Script

/-- A stretch of the source with both its ends moved. -/
def Span.moved (f : Nat → Nat) (s : Span) : Span := ⟨f s.lo, f s.hi⟩

namespace Node

variable (f : Nat → Nat)

/-- A node that has been moved, with its children where they are. -/
def moveSpan : Node → Node
  | absent => absent
  | group items => group items
  | str span value raw => str (span.moved f) value raw
  | template span pieces exprs => template (span.moved f) pieces exprs
  | conditional span test yes no => conditional (span.moved f) test yes no
  | binary span op left right => binary (span.moved f) op left right
  | call span callee types args => call (span.moved f) callee types args
  | array span elements => array (span.moved f) elements
  | spread span inner => spread (span.moved f) inner
  | object span members => object (span.moved f) members
  | pair span key value => pair (span.moved f) key value
  | paren span inner => paren (span.moved f) inner
  | sequence span items => sequence (span.moved f) items
  | typed span typing expr type => typed (span.moved f) typing expr type
  | attr span name plain value => attr (span.moved f) name plain value
  | container span expr => container (span.moved f) expr
  | form kind span words parts => form kind (span.moved f) words parts

/-- A tree with all its places moved. -/
def moved : Node → Node := fold fun n below => (n.moveSpan f).rebuild below

theorem moved_eq (n : Node) : n.moved f = (n.moveSpan f).rebuild (n.children.map (moved f)) :=
  fold_eq _ n

theorem children_moveSpan (n : Node) : (n.moveSpan f).children = n.children := by
  cases n <;> rfl

/-- The children of a moved tree are the moved children. So an address leads to the same node in
    both trees, but for its place. -/
theorem children_moved (n : Node) : (n.moved f).children = n.children.map (moved f) := by
  rw [moved_eq, children_rebuild]
  rw [children_moveSpan, List.length_map]

/-- The place of a node and its children are changed apart from each other, in either order. The
    children have to be as many as before, since otherwise the node would keep its own. -/
theorem moveSpan_rebuild (n : Node) (nodes : List Node) (h : nodes.length = n.children.length) :
    (n.rebuild nodes).moveSpan f = (n.moveSpan f).rebuild nodes := by
  cases n with
  | call =>
      match nodes, h with
      | _ :: _, _ => rfl
  | conditional =>
      match nodes, h with
      | [_, _, _], _ => rfl
  | binary | pair | typed =>
      match nodes, h with
      | [_, _], _ => rfl
  | spread | paren | container | attr =>
      match nodes, h with
      | [_], _ => rfl
  | _ => rfl

/-- Of two lists of children that are put in, the second one counts. Nothing is left of the first
    one, because all children are replaced. -/
theorem rebuild_rebuild (n : Node) (nodes more : List Node)
    (h : nodes.length = n.children.length) (hmore : more.length = n.children.length) :
    (n.rebuild nodes).rebuild more = n.rebuild more := by
  cases n with
  | call =>
      match nodes, more, h, hmore with
      | _ :: _, _ :: _, _, _ => rfl
  | conditional =>
      match nodes, more, h, hmore with
      | [_, _, _], [_, _, _], _, _ => rfl
  | binary | pair | typed =>
      match nodes, more, h, hmore with
      | [_, _], [_, _], _, _ => rfl
  | spread | paren | container | attr =>
      match nodes, more, h, hmore with
      | [_], [_], _, _ => rfl
  | _ => rfl

/-- A tree with other children is moved by moving these. Nothing has to be known of the node but how
    many children it has, since its own are gone on both sides. -/
theorem moved_rebuild (n : Node) (nodes : List Node) (h : nodes.length = n.children.length) :
    (n.rebuild nodes).moved f = (n.moved f).rebuild (nodes.map (moved f)) := by
  have hspan : nodes.length = (n.moveSpan f).children.length := by rw [children_moveSpan, h]
  -- Both sides come down to the moved node with the moved list in it; what else was put into the
  -- node on the way is overwritten.
  rw [moved_eq, children_rebuild n nodes h, moveSpan_rebuild f n nodes h,
    rebuild_rebuild _ _ _ hspan (by rw [List.length_map, hspan]), moved_eq f n,
    rebuild_rebuild]
  · rw [List.length_map, children_moveSpan]
  · rw [List.length_map, hspan]

theorem moved_group (items : List Node) :
    (group items).moved f = group (items.map (moved f)) := moved_eq f _

end Node

variable (f : Nat → Nat)

/-! ### Sites -/

/-- A node is looked at in the same way wherever it stands. -/
theorem leaf?_moved (role : Role) (n : Node) : role.leaf? (n.moved f) = role.leaf? n := by
  cases n with
  | template span pieces exprs =>
      have heq : (Node.template span pieces exprs).moved f
          = .template (span.moved f) pieces (exprs.map (Node.moved f)) := Node.moved_eq f _
      rw [heq]
      cases role with
      | list =>
          match pieces, exprs with
          | [], _ | [_], [] | [_], _ :: _ | _ :: _ :: _, _ => rfl
      | _ => rfl
  | _ => cases role <;> rfl

/-- How a child is looked at depends on the node and the number of the child. Of the children
    themselves it depends on their number at most, and that stays the same. -/
theorem child_moved (attributes : List String) (role : Role) (n : Node) (i : Nat) :
    role.child attributes (n.moved f) i = role.child attributes n i := by
  cases n with
  | call span callee types args =>
      have heq : (Node.call span callee types args).moved f = .call (span.moved f)
          (callee.moved f) (types.moved f) (args.map (Node.moved f)) := by
        rw [Node.moved_eq]
        simp only [Node.moveSpan, Node.children, Node.rebuild, List.map_cons, List.map_append,
          List.map_nil, List.getLastD_concat, List.dropLast_concat]
      rw [heq]
      cases role with
      | list => rw [Role.child, Role.child, List.length_map]
      | _ => rfl
  | sequence span items =>
      have heq : (Node.sequence span items).moved f
          = .sequence (span.moved f) (items.map (Node.moved f)) := Node.moved_eq f _
      rw [heq]
      cases role with
      | list => rw [Role.child, Role.child, List.length_map]
      | _ => rfl
  | binary span op left right => cases op <;> cases role <;> rfl
  | _ => cases role <;> rfl

/-- A moved tree has the sites of the tree: they are found by their addresses, and these count
    children. -/
theorem sites_moved (attributes : List String) (n : Node) (role : Role) :
    sites attributes (n.moved f) role = sites attributes n role := by
  induction n using Node.induction_children generalizing role with
  | h n ih =>
      -- Role and text of a node stay; so it is left to compare what comes from the children.
      have hbelow : ((n.moved f).children).map (sites attributes)
          = n.children.map (sites attributes) := by
        rw [Node.children_moved, List.map_map]
        exact List.map_congr_left fun c hc => funext (ih c hc)
      rw [sites_eq, sites_eq, leaf?_moved, hbelow,
        funext (child_moved f attributes role n)]

/-! ### Texts -/

/-- A node that has a text which can be replaced. -/
def Node.isText : Node → Bool
  | .str .. | .template .. => true
  | _ => false

theorem isText_moved (n : Node) : (n.moved f).isText = n.isText := by
  cases n <;> rfl

/-- Where there is no text to be put, or no text that it could replace, the replacement goes on with
    the children. -/
theorem replaceTexts_children (n : Node) (texts : Node.Texts)
    (h : texts [] = none ∨ n.isText = false) :
    n.replaceTexts texts
      = n.rebuild (Node.replaceEach texts 0 (n.children.map Node.replaceTexts)) := by
  rcases h with hnone | hno
  · exact Node.replaceTexts_eq n texts hnone
  · rw [Node.replaceTexts, Node.fold_eq]
    cases n with
    | str | template => cases hno
    | _ => rfl

/-- All other nodes have a text and are given another one. -/
theorem replaceTexts_cases (n : Node) (texts : Node.Texts) :
    (texts [] = none ∨ n.isText = false) ∨ ∃ text, texts [] = some text ∧
      ((∃ span value raw, n = .str span value raw) ∨
        ∃ span pieces exprs, n = .template span pieces exprs) := by
  cases htext : texts [] with
  | none => exact .inl (.inl rfl)
  | some text =>
      cases n with
      | str span value raw => exact .inr ⟨text, rfl, .inl ⟨span, value, raw, rfl⟩⟩
      | template span pieces exprs => exact .inr ⟨text, rfl, .inr ⟨span, pieces, exprs, rfl⟩⟩
      | _ => exact .inl (.inr rfl)

theorem replaceEach_moved (texts : Node.Texts) (i : Nat) (nodes : List Node)
    (h : ∀ c ∈ nodes, ∀ texts, (c.moved f).replaceTexts texts = (c.replaceTexts texts).moved f) :
    Node.replaceEach texts i ((nodes.map (Node.moved f)).map Node.replaceTexts)
      = (Node.replaceEach texts i (nodes.map Node.replaceTexts)).map (Node.moved f) := by
  induction nodes generalizing i with
  | nil => rfl
  | cons n rest ih =>
      simp only [List.map_cons, Node.replaceEach]
      rw [h n List.mem_cons_self, ih (i + 1) fun c hc => h c (List.mem_cons_of_mem n hc)]

/-- Texts are replaced in a moved tree as in the tree. A text that is put somewhere is all that is
    left of the node there, and stands where the node stood. -/
theorem replaceTexts_moved (n : Node) (texts : Node.Texts) :
    (n.moved f).replaceTexts texts = (n.replaceTexts texts).moved f := by
  induction n using Node.induction_children generalizing texts with
  | h n ih =>
      rcases replaceTexts_cases n texts with
        hgoes | ⟨text, htext, ⟨span, value, raw, rfl⟩ | ⟨span, pieces, exprs, rfl⟩⟩
      -- The node is kept and the work goes on below, in either order.
      · rw [replaceTexts_children n texts hgoes,
          replaceTexts_children _ texts (by rw [isText_moved]; exact hgoes), Node.children_moved,
          replaceEach_moved f texts 0 _ ih,
          Node.moved_rebuild f n _ (by rw [Node.length_replaceEach, List.length_map])]
      -- The node gets the text. Its children are lost on both sides, so only its place is left to
      -- be moved.
      · have heq : (Node.str span value raw).moved f = .str (span.moved f) value raw := rfl
        rw [heq, Node.replaceTexts_str _ _ _ _ _ htext, Node.replaceTexts_str _ _ _ _ _ htext]
        rfl
      · have heq : (Node.template span pieces exprs).moved f
            = .template (span.moved f) pieces (exprs.map (Node.moved f)) := Node.moved_eq f _
        rw [heq, Node.replaceTexts_template _ _ _ _ _ htext,
          Node.replaceTexts_template _ _ _ _ _ htext]
        rfl

/-! ### Visits -/

/-- A moved script is visited like the script itself, and what comes back is moved like the script
    was. -/
theorem visitAll_moved {σ : Type} (r : Renaming σ) (items : List Node) (s : σ) :
    visitAll r (items.map (Node.moved f)) s
      = ((visitAll r items s).1.map (Node.moved f), (visitAll r items s).2) := by
  have hsites : sites r.attributes (.group (items.map (Node.moved f))) .plain
      = sites r.attributes (.group items) .plain := by
    rw [← Node.moved_group, sites_moved]
  -- A visit is a replacement of texts, with the answers that the sites lead to, and the sites are
  -- the same.
  rcases visitAll_eq_replaceTexts r items s with ⟨hnodes, hafter⟩
  rcases visitAll_eq_replaceTexts r (items.map (Node.moved f)) s with ⟨hmoved, hafter'⟩
  rw [hsites, ← Node.moved_group, replaceTexts_moved, ← hnodes, Node.moved_group,
    Node.group.injEq] at hmoved
  rw [hsites, ← hafter] at hafter'
  exact Prod.ext hmoved hafter'

end Script

end ClassVeil
