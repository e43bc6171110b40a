import ClassVeil.Script.Node

/-!
# Addresses in a script

A node is described by its children and by what it is made of besides. The children stand in the
order in which they are visited, so a list of numbers tells the way from the root to a node, and the
order of these lists is the order of the visit.

The tree has a constructor for every construct that matters to classes, and most of what is proved
about it does not care which. `rebuild` takes the children out and puts others in, and `fold` and
`induction_children` walk through a tree by way of the children alone, so each constructor is looked
at once, here. A new construct would need a line in each of these functions and in
`sizeOf_lt_of_mem_children`, and nothing that only speaks of children would notice.

An address stays good when texts are replaced: a text has no children, and all other nodes keep
theirs in their places (`at?_replaceTexts`). That is why what a renaming does can be said as a
function from addresses to texts. With places in the source instead it could not, because what is
printed has other places.

## Main definitions

* `Node.children`, `Node.rebuild`: The children of a node, and the node with others in their place.
* `Node.fold`: A value for each node, from the values of its children.
* `Node.at?`: The node at an address.
* `Node.replaceTexts`: A tree with the texts at some addresses replaced, and nothing else.

## Theorems

* `sizeOf_lt_of_mem_children`: A child is smaller than its parent.
* `induction_children`: What passes from the children to the parent holds of every tree.
* `fold_eq`: A fold goes on with the children.
* `rebuild_children`, `children_rebuild`: A node is what its own children rebuild, and has the
  children that it is rebuilt from.
* `replaceTexts_eq`: Where no text is replaced, the replacement goes on with the children.
* `at?_replaceTexts`: Every node stays where it is, and only texts at and below it are replaced.
* `replaceTexts_none`: Where there is no text to be put, the tree stays as it is.
-/

namespace ClassVeil

namespace Script

/-- The way from the root to a node. -/
abbrev Address := List Nat

theorem Address.append_two (a : Address) (i k : Nat) : a ++ [i, k] = a ++ [i] ++ [k] := by
  rw [List.append_assoc, List.singleton_append]

namespace Node

/-- The children of a node, in the order in which they are visited. -/
def children : Node → List Node
  | absent | str .. => []
  | group items | sequence _ items => items
  | template _ _ exprs => exprs
  | conditional _ test yes no => [test, yes, no]
  | binary _ _ left right => [left, right]
  | call _ callee types args => callee :: (args ++ [types])
  | array _ elements => elements
  | spread _ inner | paren _ inner | container _ inner | attr _ _ _ inner => [inner]
  | object _ members => members
  | pair _ key value => [key, value]
  | typed _ _ expr type => [expr, type]
  | form _ _ _ parts => parts

/-- The node with other children in their places. -/
def rebuild : Node → List Node → Node
  | group _, items => group items
  | template span pieces _, exprs => template span pieces exprs
  | conditional span .., [test, yes, no] => conditional span test yes no
  | binary span op .., [left, right] => binary span op left right
  | call span .., callee :: rest => call span callee (rest.getLastD absent) rest.dropLast
  | array span _, elements => array span elements
  | spread span _, [inner] => spread span inner
  | object span _, members => object span members
  | pair span .., [key, value] => pair span key value
  | paren span _, [inner] => paren span inner
  | sequence span _, items => sequence span items
  | typed span typing .., [expr, type] => typed span typing expr type
  | attr span name plain _, [value] => attr span name plain value
  | container span _, [expr] => container span expr
  | form f span words _, parts => form f span words parts
  | n, _ => n

/-- A node is what its own children rebuild. With the next lemma this says that a node is its
    children and what it is made of besides, and nothing else. -/
theorem rebuild_children (n : Node) : n.rebuild n.children = n := by
  cases n with
  | call span callee types args =>
      simp only [children, rebuild, List.getLastD_concat, List.dropLast_concat]
  | _ => rfl

/-- A node has the children that it is rebuilt from, if these are as many as before. The number is
    what a constructor with its children in separate places has to be given. -/
theorem children_rebuild (n : Node) (nodes : List Node) (h : nodes.length = n.children.length) :
    (n.rebuild nodes).children = nodes := by
  cases n with
  | absent | str => exact (List.length_eq_zero_iff.mp h).symm
  | call span callee types args =>
      simp only [children, List.length_cons, List.length_append, List.length_nil] at h
      match nodes with
      | first :: rest =>
          -- The types of a call are visited last, so they are split off from the end.
          rcases List.eq_nil_or_concat rest with rfl | ⟨args, types, rfl⟩
          · simp only [List.length_cons, List.length_nil] at h
            omega
          · simp only [List.concat_eq_append, rebuild, children, List.getLastD_concat,
              List.dropLast_concat]
  | conditional =>
      match nodes, h with
      | [_, _, _], _ => rfl
  | binary | pair | typed =>
      match nodes, h with
      | [_, _], _ => rfl
  | spread | paren | container | attr =>
      match nodes, h with
      | [_], _ => rfl
  | _ => rfl

/-- A child is smaller than its parent. The recursion by way of children ends for this reason,
    whatever the constructor. -/
theorem sizeOf_lt_of_mem_children (n c : Node) (h : c ∈ n.children) : sizeOf c < sizeOf n := by
  have hmem : ∀ nodes : List Node, c ∈ nodes → sizeOf c < sizeOf nodes :=
    fun _ hc => List.sizeOf_lt_of_mem hc
  cases n with
  | absent => cases h
  | str span value raw => cases h
  -- The children are a list that the node holds.
  | group items =>
      have := hmem items h
      simp only [group.sizeOf_spec]
      omega
  | template span pieces exprs =>
      have := hmem exprs h
      simp only [template.sizeOf_spec]
      omega
  | array span elements =>
      have := hmem elements h
      simp only [array.sizeOf_spec]
      omega
  | object span members =>
      have := hmem members h
      simp only [object.sizeOf_spec]
      omega
  | sequence span items =>
      have := hmem items h
      simp only [sequence.sizeOf_spec]
      omega
  | form f span words parts =>
      have := hmem parts h
      simp only [form.sizeOf_spec]
      omega
  | call span callee types args =>
      simp only [children, List.mem_cons, List.mem_append, List.not_mem_nil, or_false] at h
      simp only [call.sizeOf_spec]
      rcases h with rfl | h | rfl
      · omega
      · have := hmem args h
        omega
      · omega
  -- The children are the node's own.
  | conditional span test yes no =>
      simp only [children, List.mem_cons, List.not_mem_nil, or_false] at h
      rcases h with rfl | rfl | rfl <;> simp only [conditional.sizeOf_spec] <;> omega
  | binary span op left right =>
      simp only [children, List.mem_cons, List.not_mem_nil, or_false] at h
      rcases h with rfl | rfl <;> simp only [binary.sizeOf_spec] <;> omega
  | pair span key value =>
      simp only [children, List.mem_cons, List.not_mem_nil, or_false] at h
      rcases h with rfl | rfl <;> simp only [pair.sizeOf_spec] <;> omega
  | typed span typing expr type =>
      simp only [children, List.mem_cons, List.not_mem_nil, or_false] at h
      rcases h with rfl | rfl <;> simp only [typed.sizeOf_spec] <;> omega
  | spread span inner =>
      rw [List.mem_singleton.mp h]
      simp only [spread.sizeOf_spec]
      omega
  | paren span inner =>
      rw [List.mem_singleton.mp h]
      simp only [paren.sizeOf_spec]
      omega
  | container span inner =>
      rw [List.mem_singleton.mp h]
      simp only [container.sizeOf_spec]
      omega
  | attr span name plain inner =>
      rw [List.mem_singleton.mp h]
      simp only [attr.sizeOf_spec]
      omega

/-- What passes from the children to the parent holds of every tree. The induction that comes with
    the type has a motive for the lists in it as well, and a case for each constructor; here there
    is one case, and a child is any element of `children`. -/
theorem induction_children (P : Node → Prop) (h : ∀ n, (∀ c ∈ n.children, P c) → P n) (n : Node) :
    P n := h n fun c _ => induction_children P h c
termination_by sizeOf n
decreasing_by exact sizeOf_lt_of_mem_children n c ‹_›

/-! ### Comparing trees -/

mutual

/-- Two trees that are the same, compared node by node. -/
def same : Node → Node → Bool
  | absent, absent => true
  | group items, group others => sameAll items others
  | str span value raw, str span' value' raw' => span = span' && value = value' && raw = raw'
  | template span pieces exprs, template span' pieces' exprs' =>
    span = span' && pieces = pieces' && sameAll exprs exprs'
  | conditional span test yes no, conditional span' test' yes' no' =>
    span = span' && same test test' && same yes yes' && same no no'
  | binary span op left right, binary span' op' left' right' =>
    span = span' && op = op' && same left left' && same right right'
  | call span callee types args, call span' callee' types' args' =>
    span = span' && same callee callee' && same types types' && sameAll args args'
  | array span elements, array span' elements' => span = span' && sameAll elements elements'
  | spread span inner, spread span' inner' => span = span' && same inner inner'
  | object span members, object span' members' => span = span' && sameAll members members'
  | pair span key value, pair span' key' value' =>
    span = span' && same key key' && same value value'
  | paren span inner, paren span' inner' => span = span' && same inner inner'
  | sequence span items, sequence span' items' => span = span' && sameAll items items'
  | typed span typing expr type, typed span' typing' expr' type' =>
    span = span' && typing = typing' && same expr expr' && same type type'
  | attr span name plain value, attr span' name' plain' value' =>
    span = span' && name = name' && plain = plain' && same value value'
  | container span expr, container span' expr' => span = span' && same expr expr'
  | form kind span words parts, form kind' span' words' parts' =>
    kind = kind' && span = span' && words = words' && sameAll parts parts'
  | _, _ => false

/-- Two lists of the same trees. -/
def sameAll : List Node → List Node → Bool
  | [], [] => true
  | n :: rest, m :: others => same n m && sameAll rest others
  | _, _ => false

end

theorem eq_of_sameAll (nodes others : List Node)
    (hnodes : ∀ n ∈ nodes, ∀ m, same n m = true → n = m) (h : sameAll nodes others = true) :
    nodes = others := by
  induction nodes generalizing others with
  | nil =>
      cases others with
      | nil => rfl
      | cons => simp [sameAll] at h
  | cons n rest ih =>
      cases others with
      | nil => simp [sameAll] at h
      | cons m others =>
          rw [sameAll, Bool.and_eq_true] at h
          rw [hnodes n List.mem_cons_self m h.1,
            ih others (fun c hc => hnodes c (List.mem_cons_of_mem n hc)) h.2]

theorem eq_of_same (n m : Node) (h : same n m = true) : n = m := by
  induction n using induction_children generalizing m with
  | h n ih =>
      -- Two different constructors are never the same, and for equal ones the parts are compared.
      cases n <;> cases m <;> simp [same] at h
      all_goals grind [children, eq_of_sameAll]

theorem sameAll_self (nodes : List Node) (h : ∀ n ∈ nodes, same n n = true) :
    sameAll nodes nodes = true := by
  induction nodes with
  | nil => rfl
  | cons n rest ih =>
      rw [sameAll, h n List.mem_cons_self, ih fun c hc => h c (List.mem_cons_of_mem n hc)]
      rfl

theorem same_self (n : Node) : same n n = true := by
  induction n using induction_children with
  | h n ih => cases n <;> grind [children, same, sameAll_self]

instance : DecidableEq Node := fun n m =>
  decidable_of_iff (same n m = true) ⟨eq_of_same n m, fun h => h ▸ same_self n⟩

/-! ### Walking through a tree -/

mutual

/-- A value for each node, from the node and the values of its children. -/
def fold {α : Type} (f : Node → List α → α) : Node → α
  | absent => f absent []
  | group items => f (group items) (foldAll f items)
  | str span value raw => f (str span value raw) []
  | template span pieces exprs => f (template span pieces exprs) (foldAll f exprs)
  | conditional span test yes no =>
    f (conditional span test yes no) [fold f test, fold f yes, fold f no]
  | binary span op left right => f (binary span op left right) [fold f left, fold f right]
  | call span callee types args =>
    f (call span callee types args) (fold f callee :: (foldAll f args ++ [fold f types]))
  | array span elements => f (array span elements) (foldAll f elements)
  | spread span inner => f (spread span inner) [fold f inner]
  | object span members => f (object span members) (foldAll f members)
  | pair span key value => f (pair span key value) [fold f key, fold f value]
  | paren span inner => f (paren span inner) [fold f inner]
  | sequence span items => f (sequence span items) (foldAll f items)
  | typed span typing expr type => f (typed span typing expr type) [fold f expr, fold f type]
  | attr span name plain value => f (attr span name plain value) [fold f value]
  | container span expr => f (container span expr) [fold f expr]
  | form kind span words parts => f (form kind span words parts) (foldAll f parts)

/-- The values of several nodes. -/
def foldAll {α : Type} (f : Node → List α → α) : List Node → List α
  | [] => []
  | n :: rest => fold f n :: foldAll f rest

end

theorem foldAll_eq {α : Type} (f : Node → List α → α) (nodes : List Node) :
    foldAll f nodes = nodes.map (fold f) := by
  induction nodes with
  | nil => rw [foldAll, List.map_nil]
  | cons n rest ih => rw [foldAll, List.map_cons, ih]

/-- A fold goes on with the children. This is the only equation that is needed of a fold, and it
    does not mention the constructors. -/
theorem fold_eq {α : Type} (f : Node → List α → α) (n : Node) :
    fold f n = f n (n.children.map (fold f)) := by
  cases n <;> simp only [fold, children, foldAll_eq, List.map_cons, List.map_nil, List.map_append]

/-- The node at an address, if the address leads anywhere. -/
def at? : Node → Address → Option Node
  | n, [] => some n
  | n, i :: a =>
    match n.children[i]? with
    | some c => at? c a
    | none => none

theorem at?_append (n : Node) (a b : Address) : n.at? (a ++ b) = (n.at? a).bind (·.at? b) := by
  induction a generalizing n with
  | nil => rfl
  | cons i a ih =>
      rw [List.cons_append, at?, at?]
      cases n.children[i]? with
      | none => rfl
      | some c => exact ih c

theorem at?_concat (n m : Node) (a : Address) (i : Nat) (h : n.at? a = some m) :
    n.at? (a ++ [i]) = m.children[i]? := by
  rw [at?_append, h, Option.bind_some, at?]
  cases m.children[i]? with
  | none => rfl
  | some c => rfl

/-! ### Replacing texts -/

/-- Texts to be put at addresses. -/
abbrev Texts := Address → Option (List Char)

/-- Replacements applied from left to right, each to what concerns the child with its number. -/
def replaceEach (f : Texts) : Nat → List (Texts → Node) → List Node
  | _, [] => []
  | i, replace :: rest => replace (fun a => f (i :: a)) :: replaceEach f (i + 1) rest

/-- A node with its text replaced, if there is a text for it, or else its children. -/
def replaceStep (n : Node) (below : List (Texts → Node)) (f : Texts) : Node :=
  match n, f [] with
  | str span _ _, some text => str span (some text) none
  | template span _ _, some text => template span [text] []
  | n, _ => n.rebuild (replaceEach f 0 below)

/-- A tree with the texts at some addresses replaced, and nothing else. A text in quotes loses its
    spelling with its value, and a template becomes a single piece. -/
def replaceTexts : Node → Texts → Node := fold replaceStep

/-- Where no text is replaced, the replacement goes on with the children. -/
theorem replaceTexts_eq (n : Node) (f : Texts) (h : f [] = none) :
    n.replaceTexts f = n.rebuild (replaceEach f 0 (n.children.map replaceTexts)) := by
  rw [replaceTexts, fold_eq, replaceStep.eq_def, h]
  cases n <;> rfl

theorem replaceTexts_str (f : Texts) (span : Span) (value raw : Option (List Char))
    (text : List Char) (h : f [] = some text) :
    (str span value raw).replaceTexts f = str span (some text) none := by
  rw [replaceTexts, fold_eq, replaceStep.eq_def, h]

theorem replaceTexts_template (f : Texts) (span : Span) (pieces : List (List Char))
    (exprs : List Node) (text : List Char) (h : f [] = some text) :
    (template span pieces exprs).replaceTexts f = template span [text] [] := by
  rw [replaceTexts, fold_eq, replaceStep.eq_def, h]

theorem getElem?_replaceEach (f : Texts) (i k : Nat) (rest : List (Texts → Node)) :
    (replaceEach f i rest)[k]? = rest[k]?.map fun replace => replace fun a => f ((i + k) :: a) := by
  induction rest generalizing i k with
  | nil => rfl
  | cons replace rest ih =>
      cases k with
      | zero => rfl
      | succ k =>
          have hshift : i + 1 + k = i + (k + 1) := by omega
          rw [replaceEach, List.getElem?_cons_succ, ih, hshift, List.getElem?_cons_succ]

theorem length_replaceEach (f : Texts) (i : Nat) (rest : List (Texts → Node)) :
    (replaceEach f i rest).length = rest.length := by
  induction rest generalizing i with
  | nil => rfl
  | cons replace rest ih => rw [replaceEach, List.length_cons, ih, List.length_cons]

/-- Every node stays where it is, with the texts replaced at and below it. Only on the way to it
    none may be: a node that a text is put for has no children any more, and what was below it is
    gone. -/
theorem at?_replaceTexts (n m : Node) (f : Texts) (a : Address) (h : n.at? a = some m)
    (hway : ∀ b i c, a = b ++ i :: c → f b = none) :
    (n.replaceTexts f).at? a = some (m.replaceTexts fun b => f (a ++ b)) := by
  induction a generalizing n f with
  | nil =>
      rw [at?, Option.some.injEq] at h
      rw [at?, h]
      rfl
  | cons i a ih =>
      rw [at?] at h
      cases hchild : n.children[i]? with
      | none => rw [hchild] at h; cases h
      | some c =>
          rw [hchild] at h
          -- Seen from the child, the way to the node is shorter by one number, and so are the
          -- addresses of the texts.
          have hbelow := ih c (fun b => f (i :: b)) h fun b k d heq =>
            hway (i :: b) k d (by rw [heq, List.cons_append])
          rw [replaceTexts_eq n f (hway [] i a rfl), at?, children_rebuild n _ (by
            rw [length_replaceEach, List.length_map]), getElem?_replaceEach, List.getElem?_map,
            hchild, Nat.zero_add]
          exact hbelow

/-- Only the texts for the children at hand matter. -/
theorem replaceEach_congr (f g : Texts) (i : Nat) (rest : List (Texts → Node))
    (h : ∀ k a, i ≤ k → f (k :: a) = g (k :: a)) : replaceEach f i rest = replaceEach g i rest := by
  induction rest generalizing i with
  | nil => rfl
  | cons replace rest ih =>
      have hfirst : (fun a => f (i :: a)) = fun a => g (i :: a) :=
        funext fun a => h i a (Nat.le_refl i)
      rw [replaceEach, replaceEach, hfirst, ih (i + 1) fun k a hk => h k a (by omega)]

/-- Without texts to be put anywhere, nothing is replaced. The induction is over the children, for a
    node is what its own children rebuild. -/
theorem replaceTexts_none (n : Node) : n.replaceTexts (fun _ => none) = n := by
  induction n using induction_children with
  | h n ih =>
      have hchildren : replaceEach (fun _ => none) 0 (n.children.map replaceTexts)
          = n.children := by
        refine List.ext_getElem? fun k => ?_
        rw [getElem?_replaceEach, List.getElem?_map]
        cases hk : n.children[k]? with
        | none => rfl
        | some c => exact congrArg some (ih c (List.mem_of_getElem? hk))
      rw [replaceTexts_eq n _ rfl, hchildren, rebuild_children]

end Node

end Script

end ClassVeil
