import ClassVeil.Proofs.Script.Site
import Mathlib.Data.List.Induction

/-!
# Class positions

Where a class list can stand is said here without a visit in mind: the expression in the braces of a
class attribute is in a class position, and some parts of an expression are in one if the expression
is (`Carries`). The texts with classes are the leaves: those in a class position, the keys of an
object in one, and the plain values of class attributes. These definitions are inductive predicates
on addresses of the whole script, so that they can be read against a description of the language,
and they mention neither roles nor visiting functions.

A visit knows of the way to a node only what the role of the node says. That is enough: each role
says that the node stands in a certain way (`Stands`), which passes from a node to its children
(`stands_child`), and the other way around, a position determines the role, unless the address leads
through the types of an expression in a class position, which a visit leaves out.

The two directions are proved in different ways. From roles to positions the induction adds one
number at the end of an address, since roles are computed from the root downwards. From positions to
roles it follows the derivation of the position.

## Main definitions

* `Carries`: The parts of an expression that become part of its value.
* `ClassPosition`: The addresses where a class list can stand.
* `Leaf`: The texts with classes.
* `InTypes`: The addresses that lead through types in a class position.

## Theorems

* `stands_roleAt`: Every node stands as its role says.
* `roleAt_of_classPosition`: A class position is visited as one, or not at all.
* `mem_sites_iff_leaf`: The sites are the leaves outside of types in a class position.
-/

namespace ClassVeil

namespace Script

/-- The parts of an expression that become part of its value, or of the class list that a function
    makes of it. -/
inductive Carries : Node → Nat → Prop where
  | yes (span : Span) (test yes no : Node) : Carries (.conditional span test yes no) 1
  | no (span : Span) (test yes no : Node) : Carries (.conditional span test yes no) 2
  | right (span : Span) (left right : Node) : Carries (.binary span .and left right) 1
  | operand (span : Span) (op : BinaryOp) (left right : Node) (i : Nat)
      (hop : op = .or ∨ op = .nullish ∨ op = .add) (hi : i < 2) :
      Carries (.binary span op left right) i
  | argument (span : Span) (callee types : Node) (args : List Node) (i : Nat)
      (hi : i < args.length) : Carries (.call span callee types args) (i + 1)
  | element (span : Span) (elements : List Node) (i : Nat) : Carries (.array span elements) i
  | spread (span : Span) (inner : Node) : Carries (.spread span inner) 0
  | paren (span : Span) (inner : Node) : Carries (.paren span inner) 0
  | last (span : Span) (items : List Node) (i : Nat) (hi : i + 1 = items.length) :
      Carries (.sequence span items) i
  | typed (span : Span) (typing : Typing) (expr type : Node) :
      Carries (.typed span typing expr type) 0
  | interpolation (span : Span) (pieces : List (List Char)) (exprs : List Node) (i : Nat) :
      Carries (.template span pieces exprs) i

/-- The parts of an expression that are types: the type arguments of a call, and the type that an
    expression is said to have. -/
inductive Types : Node → Nat → Prop where
  | arguments (span : Span) (callee types : Node) (args : List Node) :
      Types (.call span callee types args) (args.length + 1)
  | said (span : Span) (typing : Typing) (expr type : Node) : Types (.typed span typing expr type) 1

variable (attributes : List String) (root : Node)

/-- The addresses where a class list can stand. -/
inductive ClassPosition : Address → Prop where
  /-- The expression in the braces of a class attribute. -/
  | value (a : Address) (span inner : Span) (name : String) (expr : Node)
      (hat : root.at? a = some (.attr span name true (.container inner expr)))
      (hname : name ∈ attributes) : ClassPosition (a ++ [0, 0])
  /-- A part that becomes part of the value. -/
  | inside (a : Address) (n : Node) (i : Nat) (ha : ClassPosition a) (hat : root.at? a = some n)
      (hi : Carries n i) : ClassPosition (a ++ [i])

/-- The texts with classes: where they are, whether they are fragments of an attribute, and what
    they say. A text that is not well-formed says nothing. -/
inductive Leaf : Address → Bool → List Char → Prop where
  /-- The plain value of a class attribute. -/
  | whole (a : Address) (span inner : Span) (name : String) (value raw : Option (List Char))
      (hat : root.at? a = some (.attr span name true (.str inner value raw)))
      (hname : name ∈ attributes) : Leaf (a ++ [0]) false (value.getD [])
  /-- A text in quotes in a class position. -/
  | literal (a : Address) (span : Span) (value raw : Option (List Char))
      (ha : ClassPosition attributes root a) (hat : root.at? a = some (.str span value raw)) :
      Leaf a true (value.getD [])
  /-- A template without expressions in a class position. -/
  | template (a : Address) (span : Span) (piece : List Char)
      (ha : ClassPosition attributes root a) (hat : root.at? a = some (.template span [piece] [])) :
      Leaf a true piece
  /-- A key in quotes of an object in a class position. -/
  | key (a : Address) (i : Nat) (span pair inner : Span) (members : List Node)
      (value raw : Option (List Char)) (held : Node) (ha : ClassPosition attributes root a)
      (hat : root.at? a = some (.object span members))
      (hi : members[i]? = some (.pair pair (.str inner value raw) held)) :
      Leaf (a ++ [i, 0]) true (value.getD [])

/-- The address leads through types in a class position. -/
def InTypes (a : Address) : Prop :=
  ∃ b i c n, a = b ++ i :: c ∧ ClassPosition attributes root b ∧ root.at? b = some n ∧ Types n i

/-! ### From roles to positions -/

/-- How a node stands whose address has a given role. -/
def Stands : Role → Address → Prop
  | .plain, _ => True
  | .list, a => ClassPosition attributes root a
  | .value, a => ∃ b span name value, a = b ++ [0] ∧
      root.at? b = some (.attr span name true value) ∧ name ∈ attributes
  | .member, a => ∃ b i span members, a = b ++ [i] ∧ ClassPosition attributes root b ∧
      root.at? b = some (.object span members)
  | .key, a => ∃ b i span members pair key value, a = b ++ [i, 0] ∧
      ClassPosition attributes root b ∧ root.at? b = some (.object span members) ∧
      members[i]? = some (.pair pair key value)
  | .hidden, a => InTypes attributes root a

/-- What is below types is below them all the more. -/
theorem inTypes_concat (a : Address) (i : Nat) (h : InTypes attributes root a) :
    InTypes attributes root (a ++ [i]) := by
  rcases h with ⟨b, k, c, n, rfl, hb, hn, hk⟩
  exact ⟨b, k, c ++ [i], n, by rw [List.append_assoc, List.cons_append], hb, hn, hk⟩

/-- An attribute that holds classes does so wherever it is looked at, and its value stands as one.
    Only in a place that is not looked at is this different. -/
theorem stands_child_attr (role : Role) (hrole : role ≠ .hidden) (a : Address) (span : Span)
    (name : String) (simple : Bool) (value : Node) (i : Nat)
    (hn : root.at? a = some (.attr span name simple value)) (hi : i < 1) :
    Stands attributes root (role.child attributes (.attr span name simple value) i) (a ++ [i]) := by
  have hchild : role.child attributes (.attr span name simple value) i
      = if simple && attributes.contains name then .value else .plain := by
    cases role with
    | hidden => exact absurd rfl hrole
    | _ => rfl
  rw [hchild]
  split
  · rename_i hclass
    rw [Bool.and_eq_true, List.contains_iff_mem] at hclass
    rcases hclass with ⟨rfl, hname⟩
    obtain rfl : i = 0 := by omega
    exact ⟨a, span, name, value, rfl, hn, hname⟩
  · trivial

/-- The children of an expression in a class position. This is where the constructors have to be
    looked at: for each child there is a reason why it carries the value, or is a type, or is
    neither. -/
theorem stands_child_list (a : Address) (n : Node) (i : Nat)
    (ha : ClassPosition attributes root a) (hn : root.at? a = some n) (hi : i < n.children.length) :
    Stands attributes root (Role.list.child attributes n i) (a ++ [i]) := by
  have hinside : Carries n i → ClassPosition attributes root (a ++ [i]) :=
    .inside a n i ha hn
  have htypes : Types n i → InTypes attributes root (a ++ [i]) :=
    fun h => ⟨a, i, [], n, rfl, ha, hn, h⟩
  cases n with
  | conditional span test yes no =>
      simp only [Node.children, List.length_cons, List.length_nil] at hi
      rcases i with _ | _ | _ | i
      · trivial
      · exact hinside (.yes span test yes no)
      · exact hinside (.no span test yes no)
      · omega
  | binary span op left right =>
      simp only [Node.children, List.length_cons, List.length_nil] at hi
      cases op with
      | and =>
          rcases i with _ | _ | i
          · trivial
          · exact hinside (.right span left right)
          · omega
      | or => exact hinside (.operand span .or left right i (Or.inl rfl) hi)
      | nullish => exact hinside (.operand span .nullish left right i (Or.inr (Or.inl rfl)) hi)
      | add => exact hinside (.operand span .add left right i (Or.inr (Or.inr rfl)) hi)
      | other sign => trivial
  | call span callee types args =>
      simp only [Node.children, List.length_cons, List.length_append, List.length_nil] at hi
      rw [Role.child]
      by_cases hcallee : i = 0
      · rw [if_pos hcallee]
        trivial
      by_cases hargs : i ≤ args.length
      · obtain ⟨k, rfl⟩ : ∃ k, i = k + 1 := ⟨i - 1, by omega⟩
        rw [if_neg hcallee, if_pos hargs]
        exact hinside (.argument span callee types args k hargs)
      · obtain rfl : i = args.length + 1 := by omega
        rw [if_neg hcallee, if_neg hargs]
        exact htypes (.arguments span callee types args)
  | sequence span items =>
      rw [Role.child]
      split
      · exact hinside (.last span items i ‹_›)
      · trivial
  | typed span typing expr type =>
      simp only [Node.children, List.length_cons, List.length_nil] at hi
      rcases i with _ | _ | i
      · exact hinside (.typed span typing expr type)
      · exact htypes (.said span typing expr type)
      · omega
  | template span pieces exprs => exact hinside (.interpolation span pieces exprs i)
  | array span elements => exact hinside (.element span elements i)
  | spread span inner =>
      obtain rfl : i = 0 := Nat.lt_one_iff.mp hi
      exact hinside (.spread span inner)
  | paren span inner =>
      obtain rfl : i = 0 := Nat.lt_one_iff.mp hi
      exact hinside (.paren span inner)
  | object span members => exact ⟨a, i, span, members, rfl, ha, hn⟩
  | attr span name simple value =>
      exact stands_child_attr attributes root .list (by decide) a span name simple value i hn hi
  | _ => trivial

/-- The children of a node stand as their roles say, if the node does. The roles other than that of
    a class position keep to a single construct, and any other node in them is plain. -/
theorem stands_child (role : Role) (a : Address) (n : Node) (i : Nat)
    (ha : Stands attributes root role a) (hn : root.at? a = some n) (hi : i < n.children.length) :
    Stands attributes root (role.child attributes n i) (a ++ [i]) := by
  cases role with
  | list => exact stands_child_list attributes root a n i ha hn hi
  | hidden => exact inTypes_concat attributes root a i ha
  | plain =>
      cases n with
      | attr span name simple value =>
          exact stands_child_attr attributes root .plain (by decide) a span name simple value i hn
            hi
      | _ => trivial
  | value =>
      cases n with
      | attr span name simple value =>
          exact stands_child_attr attributes root .value (by decide) a span name simple value i hn
            hi
      | container span expr =>
          -- The value of the attribute is this container, so the expression in it is a position.
          rcases ha with ⟨b, outer, name, value, rfl, hb, hname⟩
          have hvalue := Node.at?_concat root _ b 0 hb
          rw [hn] at hvalue
          cases hvalue
          obtain rfl : i = 0 := Nat.lt_one_iff.mp hi
          rw [List.append_assoc]
          exact .value b outer span name expr hb hname
      | _ => trivial
  | member =>
      cases n with
      | attr span name simple value =>
          exact stands_child_attr attributes root .member (by decide) a span name simple value i hn
            hi
      | pair span key value =>
          -- The key of a member is two steps below the object, and the member is known from both
          -- sides.
          rcases ha with ⟨b, k, outer, members, rfl, hb, hobject⟩
          have hpair := Node.at?_concat root _ b k hobject
          rw [hn] at hpair
          rw [Role.child]
          split
          · obtain rfl := ‹i = 0›
            rw [List.append_assoc]
            exact ⟨b, k, outer, members, span, key, value, rfl, hb, hobject, hpair.symm⟩
          · trivial
      | _ => trivial
  | key =>
      cases n with
      | attr span name simple value =>
          exact stands_child_attr attributes root .key (by decide) a span name simple value i hn hi
      | _ => trivial

/-- Every node stands as its role says. There is nothing to assume: an address of a node in the tree
    is enough. -/
theorem stands_roleAt (a : Address) (n : Node) (h : root.at? a = some n) :
    Stands attributes root (roleAt attributes .plain root a) a := by
  -- The root is plain, and the role of a node comes from that of its parent.
  induction a using List.reverseRecOn generalizing n with
  | nil => trivial
  | append_singleton a i ih =>
      rw [Node.at?_append] at h
      cases hparent : root.at? a with
      | none => rw [hparent] at h; cases h
      | some parent =>
          rw [hparent, Option.bind_some, Node.at?] at h
          cases hchild : parent.children[i]? with
          | none => rw [hchild] at h; cases h
          | some child =>
              rcases List.getElem?_eq_some_iff.mp hchild with ⟨hi, -⟩
              rw [roleAt_concat attributes .plain root parent child a i hparent hchild]
              exact stands_child attributes root _ a parent i (ih parent hparent) hparent hi

/-! ### From positions to roles -/

theorem child_of_carries (n : Node) (i : Nat) (h : Carries n i) :
    Role.list.child attributes n i = .list := by
  cases h with
  | operand span op left right i hop hi => rcases hop with rfl | rfl | rfl <;> rfl
  | argument span callee types args i hi => rw [Role.child, if_neg (by omega), if_pos (by omega)]
  | last span items i hi => rw [Role.child, if_pos hi]
  | _ => rfl

theorem child_of_types (n : Node) (i : Nat) (h : Types n i) :
    Role.list.child attributes n i = .hidden := by
  cases h with
  | arguments span callee types args => rw [Role.child, if_neg (by omega), if_neg (by omega)]
  | said span typing expr type => rfl

/-- The value of a class attribute is looked at as one, or not at all. -/
theorem roleAt_value (a : Address) (span : Span) (name : String) (value : Node)
    (hat : root.at? a = some (.attr span name true value)) (hname : name ∈ attributes) :
    roleAt attributes .plain root (a ++ [0]) = .value ∨
      roleAt attributes .plain root (a ++ [0]) = .hidden := by
  rw [roleAt_concat attributes .plain root _ value a 0 hat rfl]
  generalize roleAt attributes .plain root a = role
  have hclass : (true && attributes.contains name) = true := by
    rw [Bool.true_and, List.contains_iff_mem]
    exact hname
  cases role with
  | hidden => exact Or.inr rfl
  | _ => exact Or.inl (if_pos hclass)

/-- A class position is looked at as one, or not at all. The second cannot be left out: a position
    in the types of a call is below an expression that is in a class position itself, and a visit
    does not go there. -/
theorem roleAt_of_classPosition (a : Address) (h : ClassPosition attributes root a) :
    roleAt attributes .plain root a = .list ∨ roleAt attributes .plain root a = .hidden := by
  induction h with
  | value a span inner name expr hat hname =>
      have hcontainer := Node.at?_concat root _ a 0 hat
      rw [Address.append_two,
        roleAt_concat attributes .plain root _ expr (a ++ [0]) 0 hcontainer rfl]
      rcases roleAt_value attributes root a span name _ hat hname with hrole | hrole
      · exact Or.inl (by rw [hrole]; rfl)
      · exact Or.inr (by rw [hrole]; rfl)
  | inside a n i ha hat hi ih =>
      cases hchild : n.children[i]? with
      -- The address leads nowhere, so nothing is looked at there.
      | none =>
          refine Or.inr ?_
          rw [roleAt_append attributes .plain root n a [i] hat, roleAt, hchild]
      | some c =>
          rw [roleAt_concat attributes .plain root n c a i hat hchild]
          rcases ih with hrole | hrole
          · exact Or.inl (by rw [hrole, child_of_carries attributes n i hi])
          · exact Or.inr (by rw [hrole]; rfl)

/-- A key of an object in a class position is looked at as one, or not at all. -/
theorem roleAt_key (a : Address) (i : Nat) (span pair : Span) (members : List Node)
    (key held : Node) (ha : ClassPosition attributes root a)
    (hat : root.at? a = some (.object span members))
    (hi : members[i]? = some (.pair pair key held)) :
    roleAt attributes .plain root (a ++ [i, 0]) = .key ∨
      roleAt attributes .plain root (a ++ [i, 0]) = .hidden := by
  have hmember : root.at? (a ++ [i]) = some (.pair pair key held) :=
    (Node.at?_concat root _ a i hat).trans hi
  rw [Address.append_two, roleAt_concat attributes .plain root _ key (a ++ [i]) 0 hmember rfl,
    roleAt_concat attributes .plain root _ _ a i hat hi]
  rcases roleAt_of_classPosition attributes root a ha with hrole | hrole
  · exact Or.inl (by rw [hrole]; rfl)
  · exact Or.inr (by rw [hrole]; rfl)

/-- What leads through types in a class position is not looked at. -/
theorem roleAt_of_inTypes (a : Address) (h : InTypes attributes root a) :
    roleAt attributes .plain root a = .hidden := by
  rcases h with ⟨b, i, c, n, rfl, hb, hn, ht⟩
  rw [roleAt_append attributes .plain root n b (i :: c) hn, roleAt]
  cases n.children[i]? with
  | none => rfl
  | some child =>
      -- The types begin right below a class position, and what is hidden once stays hidden.
      rcases roleAt_of_classPosition attributes root b hb with hrole | hrole
      · rw [hrole]
        simp only [child_of_types attributes n i ht, roleAt_hidden]
      · rw [hrole]
        exact roleAt_hidden attributes child c

/-! ### Sites and leaves -/

/-- A site is a leaf. Its role says how it stands, and for each of the roles that a text can have
    there is a clause of the definition. -/
theorem leaf_of_mem_sites (a : Address) (n : Node) (fragment : Bool) (text : List Char)
    (hn : root.at? a = some n)
    (hleaf : (roleAt attributes .plain root a).leaf? n = some (fragment, text)) :
    Leaf attributes root a fragment text := by
  have hstands := stands_roleAt attributes root a n hn
  unfold Role.leaf? at hleaf
  split at hleaf
  · rename_i hrole
    cases hleaf
    rw [hrole] at hstands
    rcases hstands with ⟨b, span, name, value, rfl, hb, hname⟩
    rw [Node.at?_concat root _ b 0 hb] at hn
    cases hn
    exact .whole b span _ name _ _ hb hname
  · rename_i hrole
    cases hleaf
    rw [hrole] at hstands
    exact .literal a _ _ _ hstands hn
  · rename_i hrole
    cases hleaf
    rw [hrole] at hstands
    rcases hstands with ⟨b, i, span, members, pair, key, held, rfl, hb, hobject, hpair⟩
    have hmember : root.at? (b ++ [i]) = some (.pair pair key held) :=
      (Node.at?_concat root _ b i hobject).trans hpair
    rw [Address.append_two, Node.at?_concat root _ (b ++ [i]) 0 hmember] at hn
    cases hn
    exact .key b i span pair _ members _ _ held hb hobject hpair
  · rename_i hrole
    cases hleaf
    rw [hrole] at hstands
    exact .template a _ _ hstands hn
  · cases hleaf

/-- A leaf that is looked at has a role that makes it a site. Its position leaves two roles, and the
    one of what is hidden would mean that it stands in types. -/
theorem mem_sites_of_leaf (a : Address) (fragment : Bool) (text : List Char)
    (h : Leaf attributes root a fragment text) (hnot : ¬ InTypes attributes root a) :
    ∃ n, root.at? a = some n ∧
      (roleAt attributes .plain root a).leaf? n = some (fragment, text) := by
  -- What is hidden stands in types, which the leaf does not.
  have hlooked : ∀ n, root.at? a = some n → roleAt attributes .plain root a ≠ .hidden := by
    intro n hn hrole
    have hstands := stands_roleAt attributes root a n hn
    rw [hrole] at hstands
    exact hnot hstands
  cases h with
  | whole a span inner name value raw hat hname =>
      have hn := Node.at?_concat root _ a 0 hat
      rcases roleAt_value attributes root a span name _ hat hname with hrole | hrole
      · exact ⟨_, hn, by rw [hrole]; rfl⟩
      · exact absurd hrole (hlooked _ hn)
  | literal a span value raw ha hat =>
      rcases roleAt_of_classPosition attributes root a ha with hrole | hrole
      · exact ⟨_, hat, by rw [hrole]; rfl⟩
      · exact absurd hrole (hlooked _ hat)
  | template a span piece ha hat =>
      rcases roleAt_of_classPosition attributes root a ha with hrole | hrole
      · exact ⟨_, hat, by rw [hrole]; rfl⟩
      · exact absurd hrole (hlooked _ hat)
  | key a i span pair inner members value raw held ha hat hi =>
      have hmember : root.at? (a ++ [i]) = some (.pair pair (.str inner value raw) held) :=
        (Node.at?_concat root _ a i hat).trans hi
      have hn : root.at? (a ++ [i, 0]) = some (.str inner value raw) := by
        rw [Address.append_two, Node.at?_concat root _ (a ++ [i]) 0 hmember]
        rfl
      rcases roleAt_key attributes root a i span pair members _ held ha hat hi with hrole | hrole
      · exact ⟨_, hn, by rw [hrole]; rfl⟩
      · exact absurd hrole (hlooked _ hn)

/-- The sites are the leaves, but for those in the types of an expression in a class position. So
    the texts that are renamed are known without a visit, and a reader can tell from a script which
    they are. -/
theorem mem_sites_iff_leaf (site : Site) :
    site ∈ sites attributes root .plain ↔
      Leaf attributes root site.address site.fragment site.text ∧
        ¬ InTypes attributes root site.address := by
  rw [mem_sites_iff]
  constructor
  · rintro ⟨n, hn, hleaf⟩
    refine ⟨leaf_of_mem_sites attributes root _ n _ _ hn hleaf, fun htypes => ?_⟩
    rw [roleAt_of_inTypes attributes root _ htypes] at hleaf
    cases hleaf
  · rintro ⟨hleaf, hnot⟩
    exact mem_sites_of_leaf attributes root _ _ _ hleaf hnot

end Script

end ClassVeil
