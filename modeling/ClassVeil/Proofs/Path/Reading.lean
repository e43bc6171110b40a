import ClassVeil.Path.Basic
import ClassVeil.Proofs.Text.Pieces

/-!
# Paths and their texts

A text is read as a path piece by piece. Only two things hang on more than the piece at hand: a
slash in front of everything is the root, and a `.` counts as the first piece alone. They are what
opens a text, its `lead`, and the rest are its `parts`; a name that is put behind the text adds its
own parts and changes nothing else. So joining paths is a matter of slashes.

The way back needs that no component is spelled with a slash in it or like a piece that is dropped.
This is true of all components that have been read.

What is read from a text never has a root in the middle, since only the first slash stands for one.
Nearly all that is proved of paths needs this, and it is assumed in the form in which it is known of
any text: the path is absolute, or there is no root in it at all.

## Main definitions

* `Path.Rooted`: The root, and then anything but a root.
* `Path.parts`, `Path.lead`: The components that the pieces of a text stand for, and what opens it.
* `Component.Spelled`: The spelling of a component is one piece that stands for it.
* `Path.joinText`: The text of a joined path.
* `Path.spelling`: The text of some components.

## Theorems

* `ofChars_eq`: A text is read as what opens it and the components of its pieces.
* `rooted_or_ofChars`: A text is read as an absolute path or has no root in it at all.
* `parts_toString`: A component is read back from its spelling.
* `ofChars_append`: One more name behind a text is one more component.
* `ofString_joinText`: The text of a joined path is read as the joined path.
* `ofString_toString`: A path is read back from its text.
-/

namespace ClassVeil

/-- The spelling of the component is one piece, and that piece stands for the component. The root is
    no such component, as its spelling is the separator. -/
def Component.Spelled (part : Component) : Prop :=
  '/' ∉ part.toString.toList ∧ ofPiece? part.toString.toList = some part

/-- Only the empty piece and `.` stand for nothing. -/
theorem Component.ofPiece?_eq_none_iff (piece : List Char) :
    ofPiece? piece = none ↔ piece = [] ∨ piece = ['.'] := by
  unfold ofPiece?
  split
  · rename_i h
    exact iff_of_true rfl h
  · rename_i h
    refine iff_of_false (fun hnone => ?_) h
    split at hnone <;> cases hnone

namespace Path

/-- The root, and then anything but a root. -/
def Rooted (p : Path) : Prop := ∃ rest : Path, p = .root :: rest ∧ Component.root ∉ rest

theorem isAbsolute_iff_rooted (p : Path) (hp : Rooted p ∨ Component.root ∉ p) :
    p.isAbsolute = true ↔ Rooted p := by
  constructor
  · intro habs
    refine hp.resolve_right fun hroot => ?_
    cases p with
    | nil => cases habs
    | cons part rest =>
        cases part with
        | root => exact hroot List.mem_cons_self
        | here | parent | name => cases habs
  · rintro ⟨rest, rfl, -⟩
    rfl

theorem isAbsolute_of_not_mem (p : Path) (hp : Component.root ∉ p) : p.isAbsolute = false := by
  rw [Bool.eq_false_iff, ne_eq, isAbsolute_iff_rooted p (Or.inr hp)]
  rintro ⟨rest, rfl, -⟩
  exact hp List.mem_cons_self

/-- An absolute path does not depend on what it is joined to. -/
theorem join_of_isAbsolute (base p : Path) (h : p.isAbsolute = true) : base.join p = p := by
  rw [join, h, Bool.true_or, if_pos rfl]

theorem join_nil (p : Path) : join [] p = p := by
  rw [join, List.isEmpty_nil, Bool.or_true, if_pos rfl]

/-- A relative path is put behind what it is joined to, without the `.` in front of it. -/
theorem join_of_ne_nil (base p : Path) (hp : p.isAbsolute = false) (hbase : base ≠ []) :
    base.join p = base ++ p.filter (· ≠ .here) := by
  have hcond : ¬ (p.isAbsolute || base.isEmpty) = true := by
    rw [hp, Bool.false_or, List.isEmpty_iff]
    exact hbase
  rw [join, if_neg hcond]

/-! ### Pieces and components -/

/-- The components that the pieces of a text stand for; what a slash or a `.` in front makes of them
    is left to `lead`. -/
def parts (text : List Char) : Path := (Text.pieces '/' text).filterMap Component.ofPiece?

theorem parts_nil : parts [] = [] := rfl

theorem parts_append_slash (front behind : List Char) :
    parts (front ++ '/' :: behind) = parts front ++ parts behind := by
  rw [parts, Text.pieces_append_sep, List.filterMap_append]
  rfl

/-- The spelling of a component that stands in a text is one piece, and it stands for that
    component. -/
theorem spelled_of_mem_parts (text : List Char) (part : Component) (h : part ∈ parts text) :
    part.Spelled := by
  rcases List.mem_filterMap.mp h with ⟨piece, hmem, hpiece⟩
  have hslash := Text.not_mem_of_mem_pieces '/' text piece hmem
  -- A component keeps the piece that it was read from.
  have hspelling : part.toString.toList = piece := by
    unfold Component.ofPiece? at hpiece
    split at hpiece
    · cases hpiece
    · split at hpiece
      · rename_i hparent
        rw [← Option.some.inj hpiece, hparent]
        rfl
      · rw [← Option.some.inj hpiece, Component.toString, String.toList_ofList]
  rw [Component.Spelled, hspelling]
  exact ⟨hslash, hpiece⟩

/-- A component is read back from its spelling. It has no slash in it, so it is one piece, and this
    piece is read as the component. -/
theorem parts_toString (part : Component) (h : part.Spelled) :
    parts part.toString.toList = [part] := by
  rw [parts, Text.pieces_of_sep_not_mem '/' _ h.1, List.filterMap_cons, h.2, List.filterMap_nil]

theorem root_not_mem_parts (text : List Char) : Component.root ∉ parts text :=
  fun hmem => (spelled_of_mem_parts text .root hmem).1 (by decide)

theorem here_not_mem_parts (text : List Char) : Component.here ∉ parts text := by
  intro hmem
  have hpiece := (spelled_of_mem_parts text .here hmem).2
  cases hpiece

/-! ### What opens a text -/

/-- What stands in front of the components of the pieces: the root if a slash opens the text, or a
    `.` if that is its first piece. -/
def lead (text : List Char) : Path :=
  if text.head? = some '/' then [.root]
  else if (Text.pieces '/' text).head? = some ['.'] then [.here] else []

/-- A text is read as what opens it and the components of its pieces. After this the definition is
    not opened any more: texts that are put together are compared by their leads and by their parts.
    -/
theorem ofChars_eq (text : List Char) : ofChars text = lead text ++ parts text := by
  cases text with
  | nil => rfl
  | cons c rest =>
      rw [ofChars, lead, parts]
      -- With a slash in front, the first piece is empty, and the root stands for it.
      by_cases hslash : c = '/'
      · have hpieces : Text.pieces '/' (c :: rest) = [] :: Text.pieces '/' rest := by
          rw [Text.pieces, if_pos hslash]
        rw [hpieces, hslash]
        simp only []
        rw [if_neg (by decide), if_pos ⟨trivial, Text.pieces_ne_nil '/' rest⟩, List.head?_cons,
          if_pos rfl, List.singleton_append]
      · rcases Text.exists_pieces_cons '/' c rest hslash with ⟨p, ps, hpieces⟩
        have hhead : ¬ (c :: rest).head? = some '/' := by
          rwa [List.head?_cons, Option.some.injEq]
        rw [hpieces, if_neg hhead, List.head?_cons]
        simp only [Option.some.injEq, reduceCtorEq, false_and, if_false]
        split <;> rfl

/-- A slash in front stands for the root. -/
theorem ofChars_of_slash (text : List Char) (h : text.head? = some '/') :
    ofChars text = .root :: parts text := by
  rw [ofChars_eq, lead, if_pos h, List.singleton_append]

theorem root_not_mem_ofChars (text : List Char) (h : text.head? ≠ some '/') :
    Component.root ∉ ofChars text := by
  rw [ofChars_eq, List.mem_append, not_or, lead, if_neg h]
  refine ⟨?_, root_not_mem_parts text⟩
  split
  · exact fun hmem => Component.noConfusion (List.mem_singleton.mp hmem)
  · exact List.not_mem_nil

/-- What a text is read as are the components of its pieces, with the root or a `.` in front. -/
theorem mem_parts_of_mem_ofChars (text : List Char) (part : Component) (h : part ∈ ofChars text)
    (hroot : part ≠ .root) (hhere : part ≠ .here) : part ∈ parts text := by
  rw [ofChars_eq, List.mem_append] at h
  refine h.resolve_left fun hlead => ?_
  unfold lead at hlead
  split at hlead
  · exact hroot (List.mem_singleton.mp hlead)
  · split at hlead
    · exact hhere (List.mem_singleton.mp hlead)
    · cases hlead

/-- A text that starts with a slash is read as an absolute path. -/
theorem rooted_ofString (text : String) (h : text.toList.head? = some '/') :
    Rooted (ofString text) :=
  ⟨parts text.toList, ofChars_of_slash text.toList h, root_not_mem_parts text.toList⟩

/-- A text is read as an absolute path or has no root in it at all. A slash in the middle divides
    components, and only one in front of everything is the root. -/
theorem rooted_or_ofChars (text : List Char) :
    Rooted (ofChars text) ∨ Component.root ∉ ofChars text := by
  by_cases hslash : text.head? = some '/'
  · exact Or.inl ⟨parts text, ofChars_of_slash text hslash, root_not_mem_parts text⟩
  · exact Or.inr (root_not_mem_ofChars text hslash)

/-- A path is absolute if its text starts with a slash. -/
theorem isAbsolute_ofChars (text : List Char) :
    (ofChars text).isAbsolute = true ↔ text.head? = some '/' := by
  by_cases hslash : text.head? = some '/'
  · rw [ofChars_of_slash text hslash]
    exact iff_of_true rfl hslash
  · rw [isAbsolute_of_not_mem _ (root_not_mem_ofChars text hslash)]
    exact iff_of_false Bool.false_ne_true hslash

/-- Only the empty text has no components. A text of slashes alone has the root, and a full stop
    that opens a text is a component too. -/
theorem ofChars_eq_nil_iff (text : List Char) : ofChars text = [] ↔ text = [] := by
  refine ⟨fun h => ?_, fun h => by rw [h]; rfl⟩
  cases text with
  | nil => rfl
  | cons c rest =>
      exfalso
      by_cases hslash : c = '/'
      · rw [ofChars_of_slash _ (by rw [hslash]; rfl)] at h
        cases h
      · rcases Text.exists_pieces_cons '/' c rest hslash with ⟨p, ps, hpieces⟩
        rw [ofChars_eq, List.append_eq_nil_iff, lead, parts, hpieces,
          List.filterMap_eq_nil_iff] at h
        have hnone := h.2 (c :: p) List.mem_cons_self
        rw [Component.ofPiece?_eq_none_iff] at hnone
        -- A first piece that is dropped is a `.`, and that opens the text.
        have hdot := hnone.resolve_left (List.cons_ne_nil c p)
        have hhead : ¬ (c :: rest).head? = some '/' := by
          rwa [List.head?_cons, Option.some.injEq]
        rw [if_neg hhead, List.head?_cons, hdot, if_pos rfl] at h
        cases h.1

/-! ### Putting names behind a text -/

theorem parts_append (text name : List Char) :
    parts (append text name) = parts text ++ parts name := by
  unfold append
  split
  · rename_i hlast
    rcases List.getLast?_eq_some_iff.mp hlast with ⟨front, rfl⟩
    -- The slash is there already, and nothing stands between it and the name.
    rw [List.append_assoc, List.singleton_append, parts_append_slash, parts_append_slash, parts_nil,
      List.append_nil]
  · exact parts_append_slash text name

/-- What opens a text is seen before the first slash inside of it. -/
theorem lead_append_slash (front behind : List Char) (h : front ≠ []) :
    lead (front ++ '/' :: behind) = lead front := by
  have hpieces := Text.pieces_ne_nil '/' front
  unfold lead
  rw [Text.pieces_append_sep, List.head?_append, List.head?_append,
    Option.or_of_isSome (List.isSome_head?.mpr h),
    Option.or_of_isSome (List.isSome_head?.mpr hpieces)]

theorem lead_append (text name : List Char) (h : text ≠ []) :
    lead (append text name) = lead text := by
  unfold append
  split
  · rename_i hlast
    rcases List.getLast?_eq_some_iff.mp hlast with ⟨front, rfl⟩
    rw [List.append_assoc, List.singleton_append]
    by_cases hfront : front = []
    · rw [hfront]
      rfl
    · rw [lead_append_slash front name hfront, lead_append_slash front [] hfront]
  · exact lead_append_slash text name h

/-- One more name behind a path is one more component. The path must not be empty, since a slash in
    front of the name would make it absolute then. -/
theorem ofChars_append (text name : List Char) (h : text ≠ []) :
    ofChars (append text name) = ofChars text ++ parts name := by
  -- The name is put behind the parts, and what opens the text is not affected.
  rw [ofChars_eq, ofChars_eq text, lead_append text name h, parts_append, List.append_assoc]

theorem append_slash (text name : List Char) (h : text.head? = some '/') :
    (append text name).head? = some '/' := by
  cases text with
  | nil => cases h
  | cons c rest =>
      rw [append]
      split <;> exact h

theorem foldl_append_slash (names : List String) (base : List Char) (h : base.head? = some '/') :
    (names.foldl (fun text name => append text name.toList) base).head? = some '/' := by
  induction names generalizing base with
  | nil => exact h
  | cons name names ih => exact ih _ (append_slash base name.toList h)

theorem ne_nil_of_slash (text : List Char) (h : text.head? = some '/') : text ≠ [] := by
  rintro rfl
  cases h

theorem ofChars_foldl_append (p : Path) (base : List Char) (h : base.head? = some '/')
    (hp : ∀ part ∈ p, part.Spelled) :
    ofChars ((p.map Component.toString).foldl (fun text name => append text name.toList) base)
      = ofChars base ++ p := by
  induction p generalizing base with
  | nil => rw [List.map_nil, List.foldl_nil, List.append_nil]
  | cons part rest ih =>
      have hpart := parts_toString part (hp part List.mem_cons_self)
      rw [List.map_cons, List.foldl_cons, ih _ (append_slash base _ h)
        fun q hq => hp q (List.mem_cons_of_mem part hq),
        ofChars_append base _ (ne_nil_of_slash base h), hpart, List.append_assoc,
        List.singleton_append]

/-! ### Joined texts -/

/-- The text of a path that is seen from another one. -/
def joinText (base path : String) : String :=
  if path.toList.head? = some '/' ∨ base.toList = [] then path
  else String.ofList (append base.toList path.toList)

/-- Of a relative path joining leaves out the `.` in front and nothing else. -/
theorem filter_ofChars (text : List Char) (h : text.head? ≠ some '/') :
    (ofChars text).filter (· ≠ .here) = parts text := by
  have hlead : (lead text).filter (· ≠ .here) = [] := by
    rw [lead, if_neg h]
    split <;> rfl
  have hparts : (parts text).filter (· ≠ .here) = parts text := by
    refine List.filter_eq_self.mpr fun part hpart => decide_eq_true fun hhere => ?_
    exact here_not_mem_parts text (hhere ▸ hpart)
  rw [ofChars_eq, List.filter_append, hlead, hparts, List.nil_append]

/-- The text of a joined path is read as the joined path. The cases are those of joining: a path
    that is absolute, nothing to join it to, and a relative path behind something. -/
theorem ofString_joinText (base path : String) :
    ofString (joinText base path) = (ofString base).join (ofString path) := by
  unfold joinText
  by_cases hslash : path.toList.head? = some '/'
  · have habs : (ofString path).isAbsolute = true := (isAbsolute_ofChars path.toList).mpr hslash
    rw [if_pos (Or.inl hslash), join_of_isAbsolute _ _ habs]
  by_cases hbase : base.toList = []
  · have hempty : ofString base = [] := (ofChars_eq_nil_iff base.toList).mpr hbase
    rw [if_pos (Or.inr hbase), hempty, join_nil]
  · have hrelative : (ofString path).isAbsolute = false :=
      isAbsolute_of_not_mem _ (root_not_mem_ofChars path.toList hslash)
    have hne : ofString base ≠ [] := mt (ofChars_eq_nil_iff base.toList).mp hbase
    rw [if_neg (not_or.mpr ⟨hslash, hbase⟩), join_of_ne_nil _ _ hrelative hne, ofString,
      String.toList_ofList, ofChars_append _ _ hbase, ofString, ofString, filter_ofChars _ hslash]

/-! ### Writing -/

/-- The spellings of some components, with slashes between them. -/
def spelling (p : Path) : List Char := (String.intercalate "/" (p.map Component.toString)).toList

theorem spelling_cons_cons (part next : Component) (rest : Path) :
    spelling (part :: next :: rest) = part.toString.toList ++ '/' :: spelling (next :: rest) := by
  rw [spelling, List.map_cons, List.map_cons, String.intercalate_cons_cons, String.toList_append,
    String.toList_append, List.append_assoc]
  rfl

theorem parts_spelling (p : Path) (hp : ∀ part ∈ p, part.Spelled) : parts (spelling p) = p := by
  -- Each component is a piece, and the slash behind it separates it from the others.
  induction p with
  | nil => rfl
  | cons part rest ih =>
      have hpart := parts_toString part (hp part List.mem_cons_self)
      have hrest := ih fun q hq => hp q (List.mem_cons_of_mem part hq)
      cases rest with
      | nil => exact hpart
      | cons next rest =>
          rw [spelling_cons_cons, parts_append_slash, hpart, hrest, List.singleton_append]

/-- Neither a slash nor a `.` opens the spelling of components. What opens a text is read apart from
    its pieces, so the spelling of a relative path is read back as its components alone. -/
theorem lead_spelling (p : Path) (hp : ∀ part ∈ p, part.Spelled) : lead (spelling p) = [] := by
  cases p with
  | nil => rfl
  | cons part rest =>
      rcases hp part List.mem_cons_self with ⟨hslash, hpiece⟩
      have hne : part.toString.toList ≠ [] := by
        intro hnil
        rw [(Component.ofPiece?_eq_none_iff _).mpr (Or.inl hnil)] at hpiece
        cases hpiece
      have hdot : part.toString.toList ≠ ['.'] := by
        intro hdot
        rw [(Component.ofPiece?_eq_none_iff _).mpr (Or.inr hdot)] at hpiece
        cases hpiece
      have hhead : ¬ part.toString.toList.head? = some '/' :=
        fun heq => hslash (List.mem_of_mem_head? heq)
      have hfirst : lead part.toString.toList = [] := by
        rw [lead, if_neg hhead, Text.pieces_of_sep_not_mem '/' _ hslash, List.head?_cons,
          if_neg fun heq => hdot (Option.some.inj heq)]
      -- What opens the first component opens the text, whatever follows.
      cases rest with
      | nil => exact hfirst
      | cons next rest => rw [spelling_cons_cons, lead_append_slash _ _ hne, hfirst]

/-- A path is read back from its text, if its components are from their spellings. A root in front
    gives the text its first slash, and the others are put between the components. -/
theorem ofString_toString (p : Path) (hp : Rooted p ∨ Component.root ∉ p)
    (hspelled : ∀ part ∈ p, part ≠ .root → part.Spelled) : ofString p.toString = p := by
  rcases hp with ⟨rest, rfl, hroot⟩ | hroot
  · have hrest : ∀ part ∈ rest, part.Spelled := fun part hpart =>
      hspelled part (List.mem_cons_of_mem _ hpart) fun heq => hroot (heq ▸ hpart)
    have htext : (toString (.root :: rest)).toList = [] ++ '/' :: spelling rest := by
      rw [toString, String.toList_append]
      rfl
    rw [ofString, htext, ofChars_of_slash _ rfl, parts_append_slash, parts_nil, List.nil_append,
      parts_spelling rest hrest]
  · have hall : ∀ part ∈ p, part.Spelled := fun part hpart =>
      hspelled part hpart fun heq => hroot (heq ▸ hpart)
    have htext : (toString p).toList = spelling p := by
      rw [toString.eq_def]
      split
      · exact absurd List.mem_cons_self hroot
      · rfl
    rw [ofString, htext, ofChars_eq, lead_spelling p hall, parts_spelling p hall, List.nil_append]

end Path

end ClassVeil
