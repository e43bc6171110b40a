import ClassVeil.Proofs.Script.Site

/-!
# What a visit does

A visit hands the sites of a tree to the rewriter, in their order and each of them once, and puts
the answers where the sites are. It does nothing else (`visitAs_eq_replaceTexts`). So whatever is to
be known of a visit can be asked about a list of texts and a function on addresses, and no proof has
to follow the visit through the tree again.

The functions of the visit differ in the places where they stand, and agree in that they visit the
children, each in its role, and build the node from what comes back. That is shown for all roles and
constructors at once (`visitAs_eq`); from there on, the tree only has children. A mistake in one of
the visiting functions, like a child that is passed over or visited as something else, would show up
in that lemma.

The rewriter is any function with any state. What it answers may depend on everything that it was
asked before, so the answers are not a function of the text, and the order of the sites matters:
`rewriteSites` runs through them once, from the first to the last. The answers are then looked up by
their addresses. Each child finds only its own, because the addresses of two children begin with
different numbers (`replaceEach_texts`).

## Main definitions

* `Renaming.rewrite`: The rewriter for fragments and the one for whole attributes.
* `rewriteSites`: The sites handed to the rewriter one after the other, with its answers.
* `answers`: The texts that the rewriter has answered with, by address.
* `visitAs`: A node visited in its role.

## Theorems

* `visitAs_eq`: A node that is not renamed itself is built from its visited children.
* `visitAs_eq_replaceTexts`, `visitAll_eq_replaceTexts`: A visit replaces the texts at the sites by
  what the rewriter answers.
-/

namespace ClassVeil

namespace Script

variable {σ : Type} (r : Renaming σ)

/-- The renaming of a text, as a fragment of an attribute or as a whole. -/
def Renaming.rewrite (fragment : Bool) : Replacement σ := if fragment then r.fragment else r.whole

/-! ### A node and its children -/

/-- A node visited in its role. -/
def visitAs : Role → Node → StateM σ Node
  | .plain, n => visit r n
  | .list, n => visitClass r n
  | .hidden, n => return n
  | .value, n =>
    match n with
    | .str span text raw => renameText r.whole span text raw
    | .container span expr => return .container span (← visitClass r expr)
    | n => visit r n
  | .member, n =>
    match n with
    | .pair span (.str inner text raw) value =>
      return .pair span (← renameText r.fragment inner text raw) (← visit r value)
    | n => visit r n
  | .key, n =>
    match n with
    | .str span text raw => renameText r.fragment span text raw
    | n => visit r n

/-- Nodes visited from the first to the last, each in the role that its number has. -/
def visitEach (roles : Nat → Role) : Nat → List Node → StateM σ (List Node)
  | _, [] => return []
  | i, n :: rest => return (← visitAs r (roles i) n) :: (← visitEach roles (i + 1) rest)

theorem visitEach_congr (roles others : Nat → Role) (i : Nat) (nodes : List Node)
    (h : ∀ k, i ≤ k → k < i + nodes.length → roles k = others k) :
    visitEach r roles i nodes = visitEach r others i nodes := by
  induction nodes generalizing i with
  | nil => rfl
  | cons n rest ih =>
      have hrest := ih (i + 1) fun k hk hlt => h k (by omega) (by
        rw [List.length_cons]
        omega)
      have hfirst := h i (Nat.le_refl i) (by
        rw [List.length_cons]
        omega)
      rw [visitEach, visitEach, hfirst, hrest]

theorem visitEach_append (roles : Nat → Role) (i : Nat) (nodes more : List Node) :
    visitEach r roles i (nodes ++ more) = do
      let first ← visitEach r roles i nodes
      let rest ← visitEach r roles (i + nodes.length) more
      return first ++ rest := by
  induction nodes generalizing i with
  | nil =>
      simp only [List.nil_append, visitEach, List.length_nil, Nat.add_zero, pure_bind, bind_pure]
  | cons n rest ih =>
      have hshift : i + (rest.length + 1) = i + 1 + rest.length := by omega
      simp only [List.cons_append, visitEach, ih, List.length_cons, hshift, bind_assoc, pure_bind]

theorem visitAll_eq (i : Nat) (nodes : List Node) :
    visitAll r nodes = visitEach r (fun _ => .plain) i nodes := by
  induction nodes generalizing i with
  | nil => rw [visitAll, visitEach]
  | cons n rest ih => rw [visitAll, visitEach, ih (i + 1), visitAs]

theorem visitClasses_eq (i : Nat) (nodes : List Node) :
    visitClasses r nodes = visitEach r (fun _ => .list) i nodes := by
  induction nodes generalizing i with
  | nil => rw [visitClasses, visitEach]
  | cons n rest ih => rw [visitClasses, visitEach, ih (i + 1), visitAs]

theorem visitMembers_eq (i : Nat) (nodes : List Node) :
    visitMembers r nodes = visitEach r (fun _ => .member) i nodes := by
  induction nodes generalizing i with
  | nil => rw [visitMembers, visitEach]
  | cons n rest ih =>
      rw [visitMembers.eq_def, visitEach, ← ih (i + 1)]
      cases n with
      | pair span key value =>
          cases key with
          | str inner text raw => simp only [visitAs, bind_assoc, pure_bind]
          | _ => rfl
      | _ => rfl

/-- The expressions of a sequence are visited in their roles. Which one is the last is seen from the
    number that they have altogether. -/
theorem visitSequence_eq (i count : Nat) (nodes : List Node) (h : i + nodes.length = count) :
    visitSequence r nodes
      = visitEach r (fun k => if k + 1 = count then .list else .plain) i nodes := by
  induction nodes generalizing i with
  | nil => rw [visitSequence, visitEach]
  | cons n rest ih =>
      rw [List.length_cons] at h
      -- Only the last expression of the list is in a class position, and the list says by its
      -- length which one that is.
      cases rest with
      | nil =>
          rw [List.length_nil] at h
          rw [visitSequence, visitEach, visitEach, if_pos (by omega), visitAs]
          simp only [pure_bind]
      | cons next rest =>
          rw [List.length_cons] at h ih
          rw [visitSequence, visitEach, if_neg (by omega), visitAs, ih (i + 1) (by omega)]
          exact List.cons_ne_nil next rest

theorem visitEach_hidden (i : Nat) (nodes : List Node) :
    visitEach r (fun _ => .hidden) i nodes = pure nodes := by
  induction nodes generalizing i with
  | nil => rw [visitEach]
  | cons n rest ih => rw [visitEach, ih, visitAs, pure_bind, pure_bind]

/-- The value of an attribute has a role of its own only if the attribute holds classes. -/
theorem visit_attr (span : Span) (name : String) (simple : Bool) (value : Node) :
    visit r (.attr span name simple value) = do
      let role : Role := if simple && r.attributes.contains name then .value else .plain
      return .attr span name simple (← visitAs r role value) := by
  rw [visit.eq_def]
  simp only []
  split
  · cases value <;> simp only [visitAs, bind_assoc, pure_bind]
  · rfl

theorem visit_eq (n : Node) :
    visit r n = do
      let children ← visitEach r (Role.plain.child r.attributes n) 0 n.children
      return n.rebuild children := by
  cases n with
  | attr span name simple value =>
      simp only [visit_attr, Node.children, visitEach, bind_assoc, pure_bind]
      rfl
  | call span callee types args =>
      simp only [visit, visitAll_eq r 1, Node.children, visitEach, visitEach_append, bind_assoc,
        pure_bind, Node.rebuild, List.getLastD_concat, List.dropLast_concat]
      rfl
  | _ =>
      simp only [visit, visitAll_eq r 0, Node.children, visitEach, bind_assoc, pure_bind]
      rfl

/-- A node in a class position is built from its visited children, unless it is a text. The
    constructors have visiting functions of their own here, and each of them is a visit of the
    children with roles. -/
theorem visitClass_eq (n : Node) (h : Role.list.leaf? n = none) :
    visitClass r n = do
      let children ← visitEach r (Role.list.child r.attributes n) 0 n.children
      return n.rebuild children := by
  cases n with
  | str span text raw => cases h
  | attr span name simple value =>
      have hplain : visitClass r (.attr span name simple value)
          = visit r (.attr span name simple value) := by
        rw [visitClass.eq_def, visit.eq_def]
      rw [hplain, visit_eq]
      rfl
  | template span pieces exprs =>
      have hpieces : visitClass r (.template span pieces exprs) = do
          return .template span pieces (← visitClasses r exprs) := by
        rw [visitClass]
        rintro piece rfl rfl
        cases h
      rw [hpieces, visitClasses_eq r 0]
      rfl
  | binary span op left right =>
      cases op <;> simp only [visitClass, Node.children, visitEach, bind_assoc, pure_bind] <;> rfl
  | call span callee types args =>
      -- The callee comes first and the types last, so the arguments have the numbers in between.
      have hargs : visitEach r (Role.list.child r.attributes (.call span callee types args)) 1 args
          = visitClasses r args := by
        rw [visitClasses_eq r 1]
        refine visitEach_congr r _ _ 1 args fun k hk hlt => ?_
        rw [Role.child, if_neg (by omega), if_pos (by omega)]
      have htypes : Role.list.child r.attributes (.call span callee types args) (1 + args.length)
          = .hidden := by
        rw [Role.child, if_neg (by omega), if_neg (by omega)]
      simp only [visitClass, Node.children, visitEach, visitEach_append, hargs, htypes, bind_assoc,
        pure_bind, Node.rebuild, List.getLastD_concat, List.dropLast_concat]
      rfl
  | sequence span items =>
      rw [visitClass, visitSequence_eq r 0 items.length items (Nat.zero_add _)]
      rfl
  | object span members =>
      rw [visitClass, visitMembers_eq r 0]
      rfl
  | _ =>
      simp only [visitClass, visitAll_eq r 0, visitClasses_eq r 0, Node.children, visitEach,
        bind_assoc, pure_bind]
      rfl

/-- A node that is not renamed itself is built from its visited children. In a class position the
    constructors differ most; in the other roles all nodes but one or two are visited as anywhere
    else. -/
theorem visitAs_eq (role : Role) (n : Node) (h : role.leaf? n = none) :
    visitAs r role n = do
      let children ← visitEach r (role.child r.attributes n) 0 n.children
      return n.rebuild children := by
  cases role with
  | plain => exact visit_eq r n
  | list => exact visitClass_eq r n h
  | hidden =>
      have hchildren := visitEach_hidden r 0 n.children
      have hroles : Role.hidden.child r.attributes n = fun _ => .hidden := rfl
      rw [hroles, hchildren, pure_bind, Node.rebuild_children]
      rfl
  -- Only few nodes are looked at in another way than elsewhere.
  | value =>
      cases n with
      | str span text raw => cases h
      | container span expr =>
          simp only [visitAs, Node.children, visitEach, bind_assoc, pure_bind]
          rfl
      | _ => exact visit_eq r _
  | member =>
      cases n with
      | pair span key value =>
          cases key with
          | str inner text raw =>
              simp only [visitAs, Node.children, visitEach, bind_assoc, pure_bind]
              rfl
          | _ => exact visit_eq r _
      | _ => exact visit_eq r _
  | key =>
      cases n with
      | str span text raw => cases h
      | _ => exact visit_eq r _

/-! ### The sites and the answers -/

/-- What the rewriter has answered, by address; with `none` it has left the text alone. -/
abbrev Answers := List (Address × Option (List Char))

/-- The texts among the answers. -/
def Answers.texts (answers : Answers) : Node.Texts := fun a => (answers.lookup a).join

/-- The answers as seen from the parent, if they are seen from the child with this number. -/
def Answers.under (i : Nat) (answers : Answers) : Answers :=
  answers.map fun answer => (i :: answer.1, answer.2)

/-- The sites handed to the rewriter one after the other, and its answers. -/
def rewriteSites : List Site → σ → Answers × σ
  | [], s => ([], s)
  | site :: rest, s =>
    let (text, s) := r.rewrite site.fragment site.text s
    let (answers, s) := rewriteSites rest s
    ((site.address, text) :: answers, s)

/-- An answer is what the rewriter says to some site, in some state. -/
theorem mem_rewriteSites (list : List Site) (s : σ) (answer : Address × Option (List Char))
    (h : answer ∈ (rewriteSites r list s).1) :
    ∃ site ∈ list, ∃ s',
      answer = (site.address, (r.rewrite site.fragment site.text s').1) := by
  induction list generalizing s with
  | nil => cases h
  | cons site rest ih =>
      rw [rewriteSites] at h
      rcases List.mem_cons.mp h with rfl | h
      · exact ⟨site, List.mem_cons_self, s, rfl⟩
      · rcases ih _ h with ⟨other, hother, s', heq⟩
        exact ⟨other, List.mem_cons_of_mem site hother, s', heq⟩

/-- An answer that is found at an address is that to a site there. -/
theorem site_of_lookup (list : List Site) (s : σ) (a : Address) (text : Option (List Char))
    (h : (rewriteSites r list s).1.lookup a = some text) :
    ∃ site ∈ list, site.address = a ∧
      ∃ s', (r.rewrite site.fragment site.text s').1 = text := by
  rcases List.lookup_eq_some_iff.mp h with ⟨before, after, hlist, -⟩
  have hmem : (a, text) ∈ (rewriteSites r list s).1 := by
    rw [hlist]
    exact List.mem_append_right before List.mem_cons_self
  rcases mem_rewriteSites r list s (a, text) hmem with ⟨site, hsite, s', heq⟩
  rw [Prod.mk.injEq] at heq
  exact ⟨site, hsite, heq.1.symm, s', heq.2.symm⟩

theorem rewriteSites_append (first rest : List Site) (s : σ) :
    rewriteSites r (first ++ rest) s
      = ((rewriteSites r first s).1 ++ (rewriteSites r rest (rewriteSites r first s).2).1,
        (rewriteSites r rest (rewriteSites r first s).2).2) := by
  induction first generalizing s with
  | nil => rfl
  | cons site first ih =>
      simp only [List.cons_append, rewriteSites, ih]

/-- What the rewriter answers does not depend on where a text stands. -/
theorem rewriteSites_under (i : Nat) (list : List Site) (s : σ) :
    rewriteSites r (list.map (Site.under i)) s
      = (((rewriteSites r list s).1).under i, (rewriteSites r list s).2) := by
  induction list generalizing s with
  | nil => rfl
  | cons site rest ih =>
      simp only [List.map_cons, rewriteSites, Site.under, ih, Answers.under]

theorem lookup_under (i : Nat) (a : Address) (answers : Answers) :
    (answers.under i).lookup (i :: a) = answers.lookup a := by
  induction answers with
  | nil => rfl
  | cons answer rest ih =>
      rcases answer with ⟨b, text⟩
      have hbeq : (i :: a == i :: b) = (a == b) := by
        rw [List.cons_beq_cons, beq_self_eq_true, Bool.true_and]
      rw [Answers.under] at ih ⊢
      rw [List.map_cons, List.lookup_cons, List.lookup_cons, hbeq, ih]

/-- Only the child that the answers are for has any of them. -/
theorem lookup_under_of_head?_ne (i : Nat) (a : Address) (answers : Answers)
    (h : a.head? ≠ some i) : (answers.under i).lookup a = none := by
  rw [List.lookup_eq_none_iff]
  intro answer hanswer
  rcases List.mem_map.mp hanswer with ⟨below, -, rfl⟩
  rw [bne_iff_ne]
  intro heq
  rw [heq] at h
  exact h rfl

/-- The answers for a child are followed by those for its later siblings. The child finds its own
    answers, and the others find theirs behind these. -/
theorem replaceEach_texts (i : Nat) (first more : Answers) (replace : Node.Texts → Node)
    (rest : List (Node.Texts → Node)) (hmore : ∀ a, more.lookup (i :: a) = none) :
    Node.replaceEach (Answers.texts (first.under i ++ more)) i (replace :: rest)
      = replace first.texts :: Node.replaceEach more.texts (i + 1) rest := by
  -- The answers for the child come first and are found under its number.
  have hfound : (fun a => Answers.texts (first.under i ++ more) (i :: a)) = first.texts := by
    funext a
    rw [Answers.texts, List.lookup_append, lookup_under, hmore, Option.or_none, Answers.texts]
  -- A later sibling has another number, so it looks past all of them.
  have hothers : Node.replaceEach (Answers.texts (first.under i ++ more)) (i + 1) rest
      = Node.replaceEach more.texts (i + 1) rest := by
    refine Node.replaceEach_congr _ _ (i + 1) _ fun k a hk => ?_
    have hother : (k :: a).head? ≠ some i := by
      rw [List.head?_cons, Ne, Option.some.injEq]
      omega
    rw [Answers.texts, List.lookup_append, lookup_under_of_head?_ne i (k :: a) first hother,
      Option.none_or, Answers.texts]
  rw [Node.replaceEach, hfound, hothers]

/-- No site below the children from some number on begins with a smaller number. -/
theorem lookup_rewriteSites_collect (roles : Nat → Role) (i : Nat) (nodes : List Node)
    (a : Address) (s : σ) (h : ∀ k, a.head? = some k → k < i) :
    (rewriteSites r (collect roles i (nodes.map (sites r.attributes))) s).1.lookup a = none := by
  rw [List.lookup_eq_none_iff]
  intro answer hanswer
  rcases mem_rewriteSites r _ s answer hanswer with ⟨site, hsite, s', rfl⟩
  rcases address_of_mem_collect r.attributes roles i nodes site hsite with ⟨k, b, hk, heq⟩
  rw [bne_iff_ne]
  intro hsame
  have := h k (by rw [hsame, heq]; rfl)
  omega

/-! ### The visit of a tree -/

theorem renameText_eq (rename : Replacement σ) (span : Span) (value raw : Option (List Char))
    (s : σ) (f : Node.Texts) (h : f [] = (rename (value.getD []) s).1) :
    renameText rename span value raw s
      = ((Node.str span value raw).replaceTexts f, (rename (value.getD []) s).2) := by
  rw [renameText]
  generalize rename (value.getD []) s = result at h ⊢
  rcases result with ⟨answer, s⟩
  cases answer with
  | none => rw [Node.replaceTexts_eq _ f h]; rfl
  | some text => rw [Node.replaceTexts_str f span value raw text h]

theorem renamePiece_eq (rename : Replacement σ) (span : Span) (piece : List Char) (s : σ)
    (f : Node.Texts) (h : f [] = (rename piece s).1) :
    renamePiece rename span piece s
      = ((Node.template span [piece] []).replaceTexts f, (rename piece s).2) := by
  rw [renamePiece]
  generalize rename piece s = result at h ⊢
  rcases result with ⟨answer, s⟩
  cases answer with
  | none => rw [Node.replaceTexts_eq _ f h]; rfl
  | some text => rw [Node.replaceTexts_template f span [piece] [] text h]

/-- A text that is renamed itself is the only site, and there is one answer, which is put in its
    place. The cases are the roles that a text can have. -/
theorem visitAs_leaf (role : Role) (n : Node) (fragment : Bool) (text : List Char) (s : σ)
    (h : role.leaf? n = some (fragment, text)) :
    visitAs r role n s
      = (n.replaceTexts (rewriteSites r [⟨[], fragment, text⟩] s).1.texts,
        (rewriteSites r [⟨[], fragment, text⟩] s).2) := by
  unfold Role.leaf? at h
  split at h
  · cases h
    exact renameText_eq r.whole _ _ _ s _ rfl
  · cases h
    rw [visitAs, visitClass]
    exact renameText_eq r.fragment _ _ _ s _ rfl
  · cases h
    exact renameText_eq r.fragment _ _ _ s _ rfl
  · cases h
    rw [visitAs, visitClass]
    exact renamePiece_eq r.fragment _ _ s _ rfl
  · cases h

/-- A visit of some children replaces the texts at the sites below them, if that holds of each. The
    state goes from one child to the next as it goes from its sites to those of the next, so the
    induction is over the children with the state free. -/
theorem visitEach_eq_replaceEach (roles : Nat → Role) (i : Nat) (nodes : List Node) (s : σ)
    (h : ∀ c ∈ nodes, ∀ role s, visitAs r role c s
      = (c.replaceTexts (rewriteSites r (sites r.attributes c role) s).1.texts,
        (rewriteSites r (sites r.attributes c role) s).2)) :
    visitEach r roles i nodes s
      = (Node.replaceEach
          (rewriteSites r (collect roles i (nodes.map (sites r.attributes))) s).1.texts i
          (nodes.map Node.replaceTexts),
        (rewriteSites r (collect roles i (nodes.map (sites r.attributes))) s).2) := by
  induction nodes generalizing i s with
  | nil => rfl
  | cons n rest ih =>
      have hvisit : visitEach r roles i (n :: rest) s
          = ((visitAs r (roles i) n s).1
              :: (visitEach r roles (i + 1) rest (visitAs r (roles i) n s).2).1,
            (visitEach r roles (i + 1) rest (visitAs r (roles i) n s).2).2) := rfl
      rw [hvisit, h n List.mem_cons_self (roles i) s,
        ih (i + 1) _ fun c hc => h c (List.mem_cons_of_mem n hc), List.map_cons, collect,
        rewriteSites_append, rewriteSites_under, List.map_cons]
      rw [replaceEach_texts i _ _ _ _ fun a => lookup_rewriteSites_collect r roles (i + 1) rest _ _
        fun k hk => ?_]
      rw [List.head?_cons, Option.some.injEq] at hk
      omega

/-- A visit replaces the texts at the sites by what the rewriter answers, and does nothing else.
    There are no hypotheses: it holds of every tree in every role, for every rewriter and every
    state of it. -/
theorem visitAs_eq_replaceTexts (role : Role) (n : Node) (s : σ) :
    visitAs r role n s
      = (n.replaceTexts (rewriteSites r (sites r.attributes n role) s).1.texts,
        (rewriteSites r (sites r.attributes n role) s).2) := by
  induction n using Node.induction_children generalizing role s with
  | h n ih =>
      rw [sites_eq]
      cases hleaf : role.leaf? n with
      | some leaf =>
        rcases leaf with ⟨fragment, text⟩
        exact visitAs_leaf r role n fragment text s hleaf
      | none =>
          -- The visit is one of the children, and by induction each of them has its texts replaced.
          have hvisit : visitAs r role n s
              = (n.rebuild (visitEach r (role.child r.attributes n) 0 n.children s).1,
                (visitEach r (role.child r.attributes n) 0 n.children s).2) := by
            rw [visitAs_eq r role n hleaf]
            rfl
          -- All sites are below the children, so the node itself has no answer.
          have hroot := lookup_rewriteSites_collect r (role.child r.attributes n) 0 n.children []
            s fun k hk => by cases hk
          rw [hvisit, visitEach_eq_replaceEach r _ 0 n.children s ih]
          simp only []
          rw [Node.replaceTexts_eq n _ (by rw [Answers.texts, hroot]; rfl)]

/-- The same for all items of a script, which are put together to a single node. The group has the
    items for its children, so an address in a script begins with the number of an item. -/
theorem visitAll_eq_replaceTexts (items : List Node) (s : σ) :
    Node.group (visitAll r items s).1 = (Node.group items).replaceTexts
        (rewriteSites r (sites r.attributes (.group items) .plain) s).1.texts ∧
      (visitAll r items s).2
        = (rewriteSites r (sites r.attributes (.group items) .plain) s).2 := by
  have hgroup := visitAs_eq_replaceTexts r .plain (.group items) s
  exact ⟨congrArg Prod.fst hgroup, congrArg Prod.snd hgroup⟩

/-- The renaming to ids, with the attributes it was made for. -/
theorem visitAll_byIds (naming : Naming) (attributes : List String) (items : List Node)
    (r : Renamer) :
    Node.group (visitAll (Renaming.byIds naming attributes) items r).1
        = (Node.group items).replaceTexts (rewriteSites (Renaming.byIds naming attributes)
            (sites attributes (.group items) .plain) r).1.texts ∧
      (visitAll (Renaming.byIds naming attributes) items r).2
        = (rewriteSites (Renaming.byIds naming attributes)
            (sites attributes (.group items) .plain) r).2 :=
  visitAll_eq_replaceTexts (Renaming.byIds naming attributes) items r

end Script

end ClassVeil
