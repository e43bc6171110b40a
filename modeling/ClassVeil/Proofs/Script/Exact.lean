import ClassVeil.Proofs.Renaming.Session
import ClassVeil.Proofs.Script.Position
import ClassVeil.Proofs.Script.Visit

/-!
# The renaming of a script is exact

The texts with classes are where the class positions are, the rewriter gets each of them once and in
the order of the script, and its answers are all that changes. What the rewriter is does not matter
for this; the one of the store leaves exactly those texts alone that have no words.

The statement is put together from three that were proved apart: the sites of a tree are its leaves,
their addresses increase, and a visit replaces the texts at the sites. What is added here looks at a
single site. The visit asks for it when it has asked for the sites before it, and no other site is
on the way to it, since a site has no children; so what becomes of it can be said without the rest
of the script (`at?_visited_site`).

Two things that look like classes are none. A text in quotes that is not well-formed Unicode has no
value that could be looked up, whatever it is spelled like. And the types of an expression in a
class position are not looked at, although elements could be inside of them.

## Theorems

* `replace_eq_none_iff`: The rewriter of the store leaves alone what has no words.
* `at?_visited_site`: The text at a site is visited when those before it have been visited.
* `visitAll_replaces_leaves`: A visit replaces the leaves of a script, and nothing else.
* `leaves_left_alone`: A text that is not well-formed and a text inside of types, both left alone.
-/

namespace ClassVeil

namespace Renamer

variable (naming : Naming)

/-- The texts that are left alone are those without words. Any other text is put together anew, even
    if all its words become themselves. -/
theorem replace_eq_none_iff (fragment : Bool) (text : List Char) (r : Renamer) :
    (replace naming fragment text r).1 = none ↔ Text.words text = [] := by
  constructor
  · intro hnone
    rcases replace_cases naming fragment text r with ⟨-, ⟨hwords, -⟩ | ⟨before, after, hsome⟩⟩
    · exact hwords
    · rw [hsome] at hnone
      cases hnone
  · intro h
    rw [replace_of_words_nil naming fragment text r h]

end Renamer

namespace Script

/-- A site is a text, so no other site is on the way to it. -/
theorem texts_of_isPrefix {σ : Type} (r : Renaming σ) (root n : Node) (s : σ) (b c : Address)
    (i : Nat) (hn : root.at? (b ++ i :: c) = some n) :
    (rewriteSites r (sites r.attributes root .plain) s).1.texts b = none := by
  rw [Answers.texts]
  cases hlookup : (rewriteSites r (sites r.attributes root .plain) s).1.lookup b with
  | none => rfl
  | some text =>
      rcases site_of_lookup r _ s b text hlookup with ⟨site, hsite, rfl, -⟩
      rcases (mem_sites_iff r.attributes root .plain site).mp hsite with ⟨m, hm, hleaf⟩
      rw [Node.at?_append, hm, Option.bind_some, Node.at?,
        children_of_leaf? _ m _ _ hleaf] at hn
      cases hn

/-- The text of a leaf only depends on what is said about itself. -/
theorem replaceTexts_leaf (role : Role) (n : Node) (fragment : Bool) (text : List Char)
    (h : role.leaf? n = some (fragment, text)) (f g : Node.Texts) (hfg : f [] = g []) :
    n.replaceTexts f = n.replaceTexts g := by
  have hchildren := children_of_leaf? role n fragment text h
  rw [Node.replaceTexts, Node.fold_eq, hchildren, List.map_nil, Node.replaceStep.eq_def,
    Node.replaceStep.eq_def, hfg]
  rfl

/-- The rewriter is asked for a site when it has been asked for those before it, and what it answers
    is found at the address of the site. -/
theorem texts_rewriteSites {σ : Type} (r : Renaming σ) (before after : List Site) (site : Site)
    (s : σ) (hbefore : ∀ other ∈ before, other.address ≠ site.address) :
    (rewriteSites r (before ++ site :: after) s).1.texts site.address
      = (r.rewrite site.fragment site.text (rewriteSites r before s).2).1 := by
  have hnone : (rewriteSites r before s).1.lookup site.address = none := by
    rw [List.lookup_eq_none_iff]
    intro answer hanswer
    rcases mem_rewriteSites r before s answer hanswer with ⟨other, hother, s', rfl⟩
    rw [bne_iff_ne]
    exact (hbefore other hother).symm
  rw [Answers.texts, rewriteSites_append, List.lookup_append, hnone, Option.none_or, rewriteSites]
  simp only [List.lookup_cons_self, Option.join_some]

/-- The text at a site is visited when those before it have been visited, in its role. The list of
    sites is split at the site, and the state of the rewriter is what the first part has made of it.
    -/
theorem at?_visited_site {σ : Type} (r : Renaming σ) (root n : Node) (s : σ)
    (before after : List Site) (site : Site)
    (hsites : sites r.attributes root .plain = before ++ site :: after)
    (hn : root.at? site.address = some n) :
    (root.replaceTexts (rewriteSites r (sites r.attributes root .plain) s).1.texts).at? site.address
      = some (visitAs r (roleAt r.attributes .plain root site.address) n
          (rewriteSites r before s).2).1 := by
  have hordered := sites_ordered r.attributes root .plain
  rw [hsites, List.pairwise_append] at hordered
  -- The addresses increase, so no site before this one has its address, and none of their answers
  -- is found there.
  have hbefore : ∀ other ∈ before, other.address ≠ site.address := by
    intro other hother heq
    have hlt := hordered.2.2 other hother site List.mem_cons_self
    rw [heq] at hlt
    exact List.lt_irrefl _ hlt
  have hsite : site ∈ sites r.attributes root .plain := by
    rw [hsites]
    exact List.mem_append_right before List.mem_cons_self
  have hleaf : (roleAt r.attributes .plain root site.address).leaf? n
      = some (site.fragment, site.text) := by
    rcases (mem_sites_iff r.attributes root .plain site).mp hsite with ⟨m, hm, hleaf⟩
    rw [hn, Option.some.injEq] at hm
    rw [hm]
    exact hleaf
  rw [Node.at?_replaceTexts root n _ site.address hn fun b i c heq =>
    texts_of_isPrefix r root n s b c i (by rw [← heq]; exact hn), visitAs_leaf r _ n _ _ _ hleaf]
  refine congrArg some (replaceTexts_leaf _ n _ _ hleaf _ _ ?_)
  rw [List.append_nil, hsites, texts_rewriteSites r before after site s hbefore]
  rfl

/-- A text stays what it is if the rewriter leaves it alone. -/
theorem at?_visited {σ : Type} (r : Renaming σ) (root : Node) (s : σ) (site : Site)
    (hsite : site ∈ sites r.attributes root .plain)
    (halone : ∀ s', (r.rewrite site.fragment site.text s').1 = none) :
    (root.replaceTexts (rewriteSites r (sites r.attributes root .plain) s).1.texts).at?
        site.address = root.at? site.address := by
  rcases (mem_sites_iff r.attributes root .plain site).mp hsite with ⟨n, hn, hleaf⟩
  rcases List.append_of_mem hsite with ⟨before, after, hsites⟩
  rw [at?_visited_site r root n s before after site hsites hn, visitAs_leaf r _ n _ _ _ hleaf,
    replaceTexts_leaf _ n _ _ hleaf _ (fun _ => none) (halone _), Node.replaceTexts_none, hn]

/-- A visit is exact: the same texts go to any rewriter, each of them once and in the order of the
    script; they are the leaves outside of types in a class position; and the answers are all that
    changes. The rewriter of a store leaves exactly those alone that have no words. -/
theorem visitAll_replaces_leaves (attributes : List String) (items : List Node) :
    ∃ list : List Site,
      list.Pairwise (·.address < ·.address) ∧
      (∀ site, site ∈ list ↔
        Leaf attributes (.group items) site.address site.fragment site.text ∧
          ¬ InTypes attributes (.group items) site.address) ∧
      (∀ (σ : Type) (whole fragment : Replacement σ) (s : σ),
        Node.group (visitAll ⟨attributes, whole, fragment⟩ items s).1
            = (Node.group items).replaceTexts
                (rewriteSites ⟨attributes, whole, fragment⟩ list s).1.texts ∧
          (visitAll ⟨attributes, whole, fragment⟩ items s).2
            = (rewriteSites ⟨attributes, whole, fragment⟩ list s).2) ∧
      ∀ (naming : Naming) (r : Renamer), ∀ site ∈ list,
        (((Renaming.byIds naming attributes).rewrite site.fragment site.text r).1 = none ↔
          Text.words site.text = []) ∧
        (Text.words site.text = [] →
          ((Renaming.byIds naming attributes).rewrite site.fragment site.text r).2 = r ∧
          (Node.group (visitAll (Renaming.byIds naming attributes) items r).1).at? site.address
            = (Node.group items).at? site.address) := by
  have hvisit : ∀ (σ : Type) (whole fragment : Replacement σ) (s : σ),
      Node.group (visitAll ⟨attributes, whole, fragment⟩ items s).1
          = (Node.group items).replaceTexts (rewriteSites ⟨attributes, whole, fragment⟩
              (sites attributes (.group items) .plain) s).1.texts ∧
        (visitAll ⟨attributes, whole, fragment⟩ items s).2
          = (rewriteSites ⟨attributes, whole, fragment⟩
              (sites attributes (.group items) .plain) s).2 := by
    intro σ whole fragment s
    exact visitAll_eq_replaceTexts ⟨attributes, whole, fragment⟩ items s
  refine ⟨sites attributes (.group items) .plain, sites_ordered attributes _ .plain,
    mem_sites_iff_leaf attributes _, hvisit, fun naming r site hsite => ?_⟩
  -- The rewriter of a store is the renamer, for fragments as for whole attributes.
  have hrewrite : ∀ r : Renamer,
      (Renaming.byIds naming attributes).rewrite site.fragment site.text r
        = Renamer.replace naming site.fragment site.text r := fun _ => rfl
  refine ⟨?_, fun hwords => ⟨?_, ?_⟩⟩
  · rw [hrewrite]
    exact Renamer.replace_eq_none_iff naming site.fragment site.text r
  · rw [hrewrite, Renamer.replace_of_words_nil naming site.fragment site.text r hwords]
  · have halone : ∀ r' : Renamer,
        ((Renaming.byIds naming attributes).rewrite site.fragment site.text r').1 = none := by
      intro r'
      rw [hrewrite]
      exact (Renamer.replace_eq_none_iff naming site.fragment site.text r').mpr hwords
    rw [Renaming.byIds, (hvisit Renamer _ _ r).1]
    exact at?_visited (Renaming.byIds naming attributes) (.group items) r site hsite halone

/-- The script `x=<p className={…}/>` with a value in the braces. -/
def assigned (value : Node) : List Node :=
  [.form .expressionStatement ⟨0, 33⟩ [] [.form .assignment ⟨0, 33⟩ ["="]
    [.form .name ⟨0, 1⟩ ["x"] [],
      .form .emptyElement ⟨2, 33⟩ []
        [.form .name ⟨3, 4⟩ ["p"] [], .absent,
          .group [.attr ⟨5, 31⟩ "className" true (.container ⟨15, 31⟩ value)]]]]]

/-- A text in quotes with a class and one half of a pair of surrogates. -/
def unpaired : Node := .str ⟨16, 30⟩ none (some "\" p-4 \\ud83d \"".toList)

/-- An expression that is said to have a type with an element inside. -/
def saidType : Node :=
  .typed ⟨16, 30⟩ .cast (.form .name ⟨16, 17⟩ ["c"] [])
    (.form .objectType ⟨21, 30⟩ []
      [.form .typeProperty ⟨22, 29⟩ [""]
        [.form .computedKey ⟨22, 26⟩ []
          [.form .emptyElement ⟨23, 25⟩ [] [.form .name ⟨23, 24⟩ ["b"] [], .absent,
            .group [.attr ⟨24, 25⟩ "className" true (.str ⟨24, 25⟩ (some "p-4".toList) none)]]],
          .form .literal ⟨28, 29⟩ ["1"] []]])

/-- The two texts that look like classes and are none, each in a script where nothing is renamed:
    half of a pair of surrogates in a text in quotes, and a class attribute inside of a type. -/
theorem leaves_left_alone :
    (∃ a span raw, ClassPosition ["className"] (.group (assigned unpaired)) a ∧
      (Node.group (assigned unpaired)).at? a = some (.str span none (some raw)) ∧
      "p-4".toList ∈ Text.words raw ∧
      ∀ naming r, visitAll (Renaming.byIds naming ["className"]) (assigned unpaired) r
        = (assigned unpaired, r)) ∧
    (∃ a, Leaf ["className"] (.group (assigned saidType)) a false "p-4".toList ∧
      ∀ naming r, visitAll (Renaming.byIds naming ["className"]) (assigned saidType) r
        = (assigned saidType, r)) := by
  refine ⟨⟨[0, 0, 1, 2, 0] ++ [0, 0], _, _, ?_, rfl, by decide, fun naming r => ?_⟩,
    ⟨[0, 0, 1, 2, 0, 0, 0, 1, 0, 0, 0, 2, 0] ++ [0], ?_, fun naming r => ?_⟩⟩
  · exact .value [0, 0, 1, 2, 0] _ _ "className" _ rfl (by decide)
  · rfl
  · exact .whole [0, 0, 1, 2, 0, 0, 0, 1, 0, 0, 0, 2, 0] _ _ "className" (some "p-4".toList) none
      rfl (by decide)
  · rfl

end Script

end ClassVeil
