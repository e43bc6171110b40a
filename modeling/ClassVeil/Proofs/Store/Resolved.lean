import ClassVeil.Proofs.Path.Absolute
import ClassVeil.Proofs.Store.Cache

/-!
# The path of a store is resolved once and for all

The path of the map is resolved when a store is opened, against a root that has been made absolute
as a text and may still have `..` in it. Before every write it is resolved again, against the same
text, while loading takes it as it is. So writer and reader stay with one file only if resolving it
again changes nothing.

It changes nothing because the path already spells a place: the one where a walk ends that goes to
the current directory, from there along the root, and from there along the path of the map. That is
also all that the path depends on, so spellings of the same place make the same store.

Paths are texts to the code and walks to the proofs. `openAt_eq` crosses over once: it says what
opening comes to in terms of where walks end, with no path left that has to be normalised or
compared. Everything after it is read off this equation, and off the fact that a place at or below
another is spelled by the other's spelling with names behind.

## Main definitions

* `rootPlace`, `mapPlace`: The places that the root and the path of a map lead to.

## Theorems

* `openAt_eq`: What opening a store comes to, with a path that lies below the root.
* `mapPlace_below_of_openAt`: The map of an opened store lies at or below its root.
* `flush_error_of_confined`: A confined store is never refused its path.
* `path_stays_resolved`: What the path of an opened store is, and that it stays with its file.
-/

namespace ClassVeil

open ClassVeil.Location ClassVeil.Path

/-- The place that a root leads to, from the current directory. -/
def rootPlace (current root : String) : Location :=
  (start.walk (ofString current)).walk (ofString root)

/-- The place that the path of a map leads to, from the root. -/
def mapPlace (current root mapPath : String) : Location :=
  (rootPlace current root).walk (ofString mapPath)

/-- A walk from the current directory is led to the top at once, since the directory is absolute,
    and no step leads away from there. The other origin, some place not known, is for relative
    paths. -/
theorem origin_rootPlace (current root : String) (hcurrent : current.toList.head? = some '/') :
    (rootPlace current root).origin = .top := by
  have hrooted := rooted_ofString current hcurrent
  exact origin_walk_top _ (origin_walk_of_rooted start _ hrooted) (ofString root)

namespace Store

/-- What opening a store comes to when its length of ids is long enough and the root is a path: a
    store at the place of its map, if this lies at or below the root. The root's text may be spelled
    in many ways, and none of them matters but for the text that the store keeps. -/
theorem openAt_eq (current root text : String) (config : Config) (stream : Nat → String)
    (hcurrent : current.toList.head? = some '/') (hvalid : config.isValid = true)
    (htext : absolute? current root = some text) :
    openAt current root config stream
      = if (mapPlace current root config.mapPath).Below (rootPlace current root) then
          .ok { root := text, path := (mapPlace current root config.mapPath).toPath,
                naming := ⟨config.collisionPolicy, config.generator stream⟩ }
        else .error (.pathTraversal config.mapPath) := by
  -- The text of the root leads where the root leads from the current directory.
  have hwalk : start.walk (ofString text) = rootPlace current root :=
    walk_absolute? current root text hcurrent htext
  have hroot : Rooted (ofString text) :=
    rooted_ofString text (absolute?_slash current root text hcurrent htext)
  have horigin := origin_rootPlace current root hcurrent
  have hleading := toPath_prefix_iff (rootPlace current root)
    (mapPlace current root config.mapPath)
  -- Confinement is a comparison of two spellings, each of which spells where a walk ends.
  have hconfine : confine? (ofString text) (ofString config.mapPath)
      = if (rootPlace current root).toPath <+: (mapPlace current root config.mapPath).toPath then
          some (mapPlace current root config.mapPath).toPath
        else none := by
    rw [confine?_eq (ofString text) (ofString config.mapPath) (Or.inl hroot) (rooted_or_ofChars _),
      hwalk, mapPlace]
  rw [openAt, hvalid]
  simp only [Bool.not_true, Bool.false_eq_true, if_false, htext, hconfine]
  by_cases hbelow : (mapPlace current root config.mapPath).Below (rootPlace current root)
  · rw [if_pos hbelow, if_pos (hleading.mpr (Or.inl hbelow))]
  · -- A root at the top has no spelling that something outside of it could begin with.
    have hout : ¬ (rootPlace current root).toPath
        <+: (mapPlace current root config.mapPath).toPath := by
      intro h
      rcases hleading.mp h with h | ⟨levels, heq, -⟩
      · exact hbelow h
      · rw [heq] at horigin
        cases horigin
    rw [if_neg hbelow, if_neg hout]

/-- A store is opened with a root that is a path. -/
theorem absolute?_of_openAt (current root : String) (config : Config) (stream : Nat → String)
    (s : Store) (h : openAt current root config stream = .ok s) :
    absolute? current root = some s.root := by
  rw [openAt] at h
  split at h
  · cases h
  · split at h
    · cases h
    · rename_i text htext
      split at h
      · cases h
      · rw [htext, ← Except.ok.inj h]

/-- The map of an opened store lies at or below its root, and its path spells the place. Otherwise
    the store would not have been opened, and it was. -/
theorem mapPlace_below_of_openAt (current root : String) (config : Config) (stream : Nat → String)
    (s : Store) (hcurrent : current.toList.head? = some '/')
    (h : openAt current root config stream = .ok s) :
    (mapPlace current root config.mapPath).Below (rootPlace current root) ∧
      s.path = (mapPlace current root config.mapPath).toPath := by
  rw [openAt_eq current root s.root config stream hcurrent
    (isValid_of_openAt current root config stream s h)
    (absolute?_of_openAt current root config stream s h)] at h
  split at h
  · rename_i hbelow
    exact ⟨hbelow, by rw [← Except.ok.inj h]⟩
  · cases h

/-- A flush of a confined store fails, if it does, when the file is written. The other way to fail
    would be that the path is refused, which the confinement excludes. -/
theorem flush_error_of_confined (s : Store) (hs : s.Confined) (fs : FileSystem) (e : StoreError)
    (h : (s.flush fs).1 = some e) : ∃ cause, e = .writeFailure s.path.toString cause := by
  rw [flush, writeOut_of_confined s hs] at h
  cases hreplace : fs.replace s.file s.snapshot.bytes with
  | mk failure gs =>
      rw [hreplace] at h
      cases failure with
      | none => cases h
      | some cause => exact ⟨cause, (Option.some.inj h).symm⟩

end Store

/-- The path of an opened store is the root and names, so it is absolute and has no `.` or `..` in
    it. It lies at or below the root: it spells the place that the path of the map leads to from the
    place of the root, which the normalised root spells. Whatever is done with the store later,
    resolving the path against the root gives the path again, so a flush can only fail when it
    writes; it writes to the place of this path, and loading depends on nothing but what is found
    there. Any other path of the map that leads to the same place makes the same store. -/
theorem path_stays_resolved (current root : String) (config : Config) (stream : Nat → String)
    (opened : Store) (hcurrent : current.toList.head? = some '/')
    (hopen : Store.openAt current root config stream = .ok opened) :
    (∃ names : List String, opened.path = .root :: names.map .name) ∧
    (∃ names : List String,
      opened.path = (ofString opened.root).normalize ++ names.map .name) ∧
    (ofString opened.root).normalize = (rootPlace current root).toPath ∧
    opened.path = (mapPlace current root config.mapPath).toPath ∧
    (∀ files s fs, Store.Run (opened, files) (s, fs) →
      Path.confine? (ofString s.root) s.path = some opened.path ∧
      (∀ e, (s.flush fs).1 = some e → ∃ cause, e = .writeFailure opened.path.toString cause) ∧
      (∀ flushed fs', s.flush fs = (none, flushed, fs') →
        ∃ time, fs'.find opened.path.place = .ok (.file time s.memory.map.fileBytes)) ∧
      ∀ fs', fs'.find opened.path.place = fs.find opened.path.place → s.load fs' = s.load fs) ∧
    ∀ other, mapPlace current root other = mapPlace current root config.mapPath →
      Store.openAt current root { config with mapPath := other } stream = .ok opened := by
  rcases Store.mapPlace_below_of_openAt current root config stream opened hcurrent hopen with
    ⟨hbelow, hpath⟩
  have htext := Store.absolute?_of_openAt current root config stream opened hopen
  have hvalid := Store.isValid_of_openAt current root config stream opened hopen
  have hrooted : Rooted (ofString opened.root) :=
    rooted_ofString opened.root (absolute?_slash current root opened.root hcurrent htext)
  -- The root is compared in its normal form, which spells its place.
  have hnormal : (ofString opened.root).normalize = (rootPlace current root).toPath := by
    rw [normalize_eq_toPath _ (Or.inl hrooted),
      walk_absolute? current root opened.root hcurrent htext, rootPlace]
  have horigin := origin_rootPlace current root hcurrent
  refine ⟨⟨(mapPlace current root config.mapPath).names, ?_⟩, ?_, hnormal, hpath,
    fun files s fs hrun => ?_, fun other hother => ?_⟩
  · rw [hpath, toPath, hbelow.1, horigin]
    rfl
  -- To be below is to have the same origin and more names.
  · rcases hbelow with ⟨hsame, names, hnames⟩
    refine ⟨names, ?_⟩
    rw [hpath, hnormal, toPath, toPath, hsame, ← hnames, List.map_append, List.append_assoc]
  -- Root and path of a store never change, so what held at the opening holds now.
  · have hhome := Store.sameHome_run _ _ hrun
    have hconfined : s.Confined := Store.confined_of_sameHome opened s hhome
      (Store.confined_of_openAt current root config stream opened hcurrent hopen)
    have hsame : s.path = opened.path := hhome.path
    have hfile : s.file = opened.path.place := by rw [Store.file, hsame]
    refine ⟨?_, fun e he => ?_, fun flushed fs' hflush => ?_, fun fs' hfind => ?_⟩
    · rw [← hsame]
      exact hconfined
    · rw [← hsame]
      exact Store.flush_error_of_confined s hconfined fs e he
    · rw [← hfile]
      exact Store.find_of_flush s flushed hconfined fs fs' hflush
    · rw [← hfile] at hfind
      exact Store.load_congr s fs' fs hfind
  · -- What is opened depends on the place only, not on how the path of the map is spelled.
    have heq := Store.openAt_eq current root opened.root { config with mapPath := other } stream
      hcurrent hvalid htext
    rw [← hopen, heq, Store.openAt_eq current root opened.root config stream hcurrent hvalid htext,
      hother, if_pos hbelow, if_pos hbelow]
    rfl

/-- A root with detours that is seen from another directory, and two spellings of one place. -/
theorem path_stays_resolved_detours :
    ∃ opened, Store.openAt "/w/p" "../q//./x/.." { mapPath := "out/./a.json" }
        (fun _ => "abcdefgh") = .ok opened ∧
      opened.path = [.root, .name "w", .name "q", .name "out", .name "a.json"] ∧
      Store.openAt "/w/p" "../q//./x/.." { mapPath := "/w/q/y/../out//a.json" }
        (fun _ => "abcdefgh") = .ok opened := by
  have hopen : ∃ opened, Store.openAt "/w/p" "../q//./x/.." { mapPath := "out/./a.json" }
      (fun _ => "abcdefgh") = .ok opened := ⟨_, rfl⟩
  rcases hopen with ⟨opened, hopen⟩
  rcases path_stays_resolved "/w/p" "../q//./x/.." { mapPath := "out/./a.json" }
    (fun _ => "abcdefgh") opened (by decide) hopen with ⟨-, -, -, hpath, -, hother⟩
  refine ⟨opened, hopen, ?_, hother "/w/q/y/../out//a.json" (by decide +kernel)⟩
  rw [hpath]
  decide +kernel

end ClassVeil
