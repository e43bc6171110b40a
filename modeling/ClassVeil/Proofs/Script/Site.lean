import ClassVeil.Proofs.Script.Address
import ClassVeil.Script.Rename

/-!
# The sites of a script

A renaming goes through a script and hands one text after the other to a rewriter. The texts and
their addresses depend on the script alone, not on what the rewriter answers, so they can be listed
beforehand: these are the sites.

How a node is looked at depends on where it stands, and what follows for its children is said once
for each role (`Role.child`). The sites of a node are then those of its children, unless the node is
a text that is renamed itself. Six roles are enough, because a visit remembers nothing else of the
way down. Whether they are the right ones for what a class list is, is another question, and it is
asked where class positions are defined.

Two things are shown of the list. It has the texts whose role says so and no others
(`mem_sites_iff`), which turns a recursion into a statement about single addresses. And the
addresses increase (`sites_ordered`), so that the order of the calls to the rewriter is known, and
no text is handed to it twice.

## Main definitions

* `Role`: How a node is looked at.
* `Role.child`: How its children are looked at.
* `Role.leaf?`: The text to be renamed, if the node is one.
* `Site`, `sites`: The texts to be renamed in a tree, in the order of the visit.
* `roleAt`: The role of the node at an address.

## Theorems

* `mem_sites_iff`: The sites are the texts whose role says so.
* `sites_ordered`: The addresses of the sites increase.
-/

namespace ClassVeil

namespace Script

/-- How a node is looked at. -/
inductive Role where
  /-- It may have classes inside and is none itself. -/
  | plain
  /-- Its value becomes a list of classes. -/
  | list
  /-- It is the value of a class attribute. -/
  | value
  /-- It is a member of an object that stands for a list of classes. -/
  | member
  /-- It is the key of such a member. -/
  | key
  /-- It is not looked at. -/
  | hidden
deriving DecidableEq

/-- A text to be renamed, as a fragment of an attribute or as a whole. -/
structure Site where
  address : Address
  fragment : Bool
  text : List Char
deriving DecidableEq

/-- The site as seen from the parent, if it is seen from the child with this number. -/
def Site.under (i : Nat) (site : Site) : Site := { site with address := i :: site.address }

/-- How the child with a number is looked at. An attribute that holds classes does so wherever it
    stands. -/
def Role.child (attributes : List String) (role : Role) (n : Node) (i : Nat) : Role :=
  match role, n with
  | .hidden, _ => .hidden
  | _, .attr _ name simple _ => if simple && attributes.contains name then .value else .plain
  | .list, .conditional .. => if i = 0 then .plain else .list
  | .list, .binary _ .and .. => if i = 0 then .plain else .list
  | .list, .binary _ (.other _) .. => .plain
  | .list, .binary .. => .list
  | .list, .call _ _ _ args => if i = 0 then .plain else if i ≤ args.length then .list else .hidden
  | .list, .template .. | .list, .array .. | .list, .spread .. | .list, .paren .. => .list
  | .list, .object .. => .member
  | .list, .sequence _ items => if i + 1 = items.length then .list else .plain
  | .list, .typed .. => if i = 0 then .list else .hidden
  | .value, .container .. => .list
  | .member, .pair .. => if i = 0 then .key else .plain
  | _, _ => .plain

/-- The text to be renamed, if the node is one: whether it is a fragment, and the text. -/
def Role.leaf? : Role → Node → Option (Bool × List Char)
  | .value, .str _ text _ => some (false, text.getD [])
  | .list, .str _ text _ | .key, .str _ text _ => some (true, text.getD [])
  | .list, .template _ [piece] [] => some (true, piece)
  | _, _ => none

/-- A text that is renamed has no children. -/
theorem children_of_leaf? (role : Role) (n : Node) (fragment : Bool) (text : List Char)
    (h : role.leaf? n = some (fragment, text)) : n.children = [] := by
  unfold Role.leaf? at h
  split at h
  · rfl
  · rfl
  · rfl
  · rfl
  · cases h

/-- The sites below a node, from those of its children. -/
def collect (roles : Nat → Role) : Nat → List (Role → List Site) → List Site
  | _, [] => []
  | i, below :: rest => (below (roles i)).map (Site.under i) ++ collect roles (i + 1) rest

variable (attributes : List String)

def siteStep (n : Node) (below : List (Role → List Site)) (role : Role) : List Site :=
  match role.leaf? n with
  | some (fragment, text) => [⟨[], fragment, text⟩]
  | none => collect (role.child attributes n) 0 below

/-- The texts to be renamed in a tree, in the order of the visit. -/
def sites : Node → Role → List Site := Node.fold (siteStep attributes)

theorem sites_eq (n : Node) (role : Role) :
    sites attributes n role = match role.leaf? n with
      | some (fragment, text) => [⟨[], fragment, text⟩]
      | none => collect (role.child attributes n) 0 (n.children.map (sites attributes)) := by
  rw [sites, Node.fold_eq, siteStep]

/-! ### Which texts are sites -/

/-- The sites of several nodes are the sites of each of them, with the number of the node in front
    of the address. The numbers go on from that of the first node, which the induction has free. -/
theorem mem_collect_iff (roles : Nat → Role) (i : Nat) (nodes : List Node) (site : Site) :
    site ∈ collect roles i (nodes.map (sites attributes)) ↔
      ∃ k c below, nodes[k]? = some c ∧ below ∈ sites attributes c (roles (i + k)) ∧
        site = below.under (i + k) := by
  induction nodes generalizing i with
  | nil =>
      rw [List.map_nil, collect]
      refine ⟨fun h => absurd h List.not_mem_nil, ?_⟩
      rintro ⟨k, c, below, hk, -⟩
      cases hk
  | cons n rest ih =>
      rw [List.map_cons, collect, List.mem_append, List.mem_map, ih (i + 1)]
      constructor
      · rintro (⟨below, hbelow, rfl⟩ | ⟨k, c, below, hk, hbelow, rfl⟩)
        · exact ⟨0, n, below, rfl, hbelow, rfl⟩
        -- The children of the rest count from one further on.
        · have hshift : i + 1 + k = i + (k + 1) := by omega
          rw [hshift] at hbelow ⊢
          exact ⟨k + 1, c, below, hk, hbelow, rfl⟩
      · rintro ⟨k, c, below, hk, hbelow, rfl⟩
        cases k with
        | zero =>
            rw [List.getElem?_cons_zero, Option.some.injEq] at hk
            exact Or.inl ⟨below, by rw [hk]; exact hbelow, rfl⟩
        | succ k =>
            have hshift : i + (k + 1) = i + 1 + k := by omega
            rw [hshift] at hbelow ⊢
            exact Or.inr ⟨k, c, below, hk, hbelow, rfl⟩

/-- The role of the node at an address, seen from a node with a given role. -/
def roleAt (role : Role) : Node → Address → Role
  | _, [] => role
  | n, i :: a =>
    match n.children[i]? with
    | some c => roleAt (role.child attributes n i) c a
    | none => .hidden

/-- What is not looked at has nothing inside that is. -/
theorem roleAt_hidden (n : Node) (a : Address) : roleAt attributes .hidden n a = .hidden := by
  induction a generalizing n with
  | nil => rfl
  | cons i a ih =>
      rw [roleAt]
      cases n.children[i]? with
      | none => rfl
      | some c => exact ih c

theorem roleAt_append (role : Role) (n m : Node) (a b : Address) (h : n.at? a = some m) :
    roleAt attributes role n (a ++ b)
      = roleAt attributes (roleAt attributes role n a) m b := by
  induction a generalizing role n with
  | nil =>
      rw [Node.at?, Option.some.injEq] at h
      rw [List.nil_append, roleAt, h]
  | cons i a ih =>
      rw [Node.at?] at h
      rw [List.cons_append, roleAt, roleAt]
      cases hi : n.children[i]? with
      | none => rw [hi] at h; cases h
      | some c =>
          rw [hi] at h
          exact ih (role.child attributes n i) c h

theorem roleAt_concat (role : Role) (n m c : Node) (a : Address) (i : Nat)
    (h : n.at? a = some m) (hi : m.children[i]? = some c) :
    roleAt attributes role n (a ++ [i]) = (roleAt attributes role n a).child attributes m i := by
  rw [roleAt_append attributes role n m a [i] h, roleAt, hi]
  rfl

/-- The sites are the texts whose role says so. The role at an address comes down from the root and
    the sites come up from the leaves, so the induction over the children has the role free. -/
theorem mem_sites_iff (n : Node) (role : Role) (site : Site) :
    site ∈ sites attributes n role ↔
      ∃ m, n.at? site.address = some m ∧
        (roleAt attributes role n site.address).leaf? m = some (site.fragment, site.text) := by
  induction n using Node.induction_children generalizing role site with
  | h n ih =>
      rcases site with ⟨a, fragment, text⟩
      rw [sites_eq]
      cases hleaf : role.leaf? n with
      | some leaf =>
          rcases leaf with ⟨w, t⟩
          -- A text that is renamed is the only site here, and nothing is below it that could be
          -- another one.
          have hnone := children_of_leaf? role n w t hleaf
          simp only [List.mem_singleton, Site.mk.injEq]
          constructor
          · rintro ⟨rfl, rfl, rfl⟩
            exact ⟨n, rfl, hleaf⟩
          · rintro ⟨m, hm, hmleaf⟩
            cases a with
            | nil =>
                rw [Node.at?, Option.some.injEq] at hm
                rw [roleAt, ← hm, hleaf, Option.some.injEq, Prod.mk.injEq] at hmleaf
                exact ⟨rfl, hmleaf.1.symm, hmleaf.2.symm⟩
            | cons i a =>
                rw [Node.at?, hnone] at hm
                cases hm
      | none =>
          -- Any other node has the sites of its children, and a site is the node's own only if the
          -- address is empty.
          simp only [mem_collect_iff, Nat.zero_add]
          constructor
          · rintro ⟨k, c, below, hk, hbelow, heq⟩
            rcases below with ⟨b, w, t⟩
            rw [Site.under, Site.mk.injEq] at heq
            rcases heq with ⟨rfl, rfl, rfl⟩
            rw [Node.at?, roleAt, hk]
            exact (ih c (List.mem_of_getElem? hk) _ _).mp hbelow
          · rintro ⟨m, hm, hmleaf⟩
            cases a with
            | nil =>
                rw [Node.at?, Option.some.injEq] at hm
                rw [roleAt, ← hm, hleaf] at hmleaf
                cases hmleaf
            | cons i a =>
                rw [Node.at?] at hm
                rw [roleAt] at hmleaf
                cases hi : n.children[i]? with
                | none => rw [hi] at hm; cases hm
                | some c =>
                    rw [hi] at hm hmleaf
                    exact ⟨i, c, ⟨a, fragment, text⟩, hi,
                      (ih c (List.mem_of_getElem? hi) _ _).mpr ⟨m, hm, hmleaf⟩, rfl⟩

/-! ### The order of the sites -/

/-- The sites below a node begin with the number of a child. -/
theorem address_of_mem_collect (roles : Nat → Role) (i : Nat) (nodes : List Node) (site : Site)
    (h : site ∈ collect roles i (nodes.map (sites attributes))) :
    ∃ k a, i ≤ k ∧ site.address = k :: a := by
  rcases (mem_collect_iff attributes roles i nodes site).mp h with ⟨k, c, below, -, -, rfl⟩
  exact ⟨i + k, below.address, Nat.le_add_right i k, rfl⟩

theorem collect_ordered (roles : Nat → Role) (i : Nat) (nodes : List Node)
    (h : ∀ c ∈ nodes, ∀ role, (sites attributes c role).Pairwise (·.address < ·.address)) :
    (collect roles i (nodes.map (sites attributes))).Pairwise (·.address < ·.address) := by
  induction nodes generalizing i with
  | nil => exact List.Pairwise.nil
  | cons n rest ih =>
      rw [List.map_cons, collect, List.pairwise_append]
      refine ⟨?_, ih (i + 1) fun c hc => h c (List.mem_cons_of_mem n hc), fun a ha b hb => ?_⟩
      -- Two sites below the first child, and then one below it and one below a later child.
      · rw [List.pairwise_map]
        exact (h n List.mem_cons_self (roles i)).imp fun hlt => List.Lex.cons hlt
      · rcases List.mem_map.mp ha with ⟨below, -, rfl⟩
        rcases address_of_mem_collect attributes roles (i + 1) rest b hb with ⟨k, c, hk, heq⟩
        rw [heq]
        exact List.Lex.rel (by omega)

/-- The addresses of the sites increase, so no text is a site twice. Below one child this is the
    same statement, and two children differ in the first number. -/
theorem sites_ordered (n : Node) (role : Role) :
    (sites attributes n role).Pairwise (·.address < ·.address) := by
  induction n using Node.induction_children generalizing role with
  | h n ih =>
      rw [sites_eq]
      cases role.leaf? n with
      | some leaf => exact List.pairwise_singleton _ _
      | none => exact collect_ordered attributes _ 0 n.children ih

end Script

end ClassVeil
