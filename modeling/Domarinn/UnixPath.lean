/-
Unix paths as texts: their segments, their components, and what is built from them.

A path is split at its slashes.  A segment that is empty or `.` is no component, but for the slash
that a path starts with and a `.` at its very start; and two paths with the same components are the
same path to everything here but the file system.

* **`components_join`** — joining appends components;
* **`segments_ofComponents`** — and from components the path is spelled again;
* **`components_absolute`** — a location has the components that it is made of.
-/
import Mathlib.Data.List.Infix
import Domarinn.Pieces

namespace UnixPath

/-- A component of a path. -/
inductive Component where
  | rootDir
  | curDir
  | parentDir
  | normal (name : List Char)
  deriving DecidableEq

/-- How a component is spelled; the root is the slash after it. -/
def Component.text : Component → List Char
  | .rootDir => []
  | .curDir => ['.']
  | .parentDir => ['.', '.']
  | .normal name => name

/-- What stands between the slashes. -/
def segments (path : List Char) : List (List Char) := path.splitOn '/'

/-- A segment that names nothing. -/
def isVoid (segment : List Char) : Bool := segment = [] || segment = ['.']

/-- The segments that name something. -/
def named (segs : List (List Char)) : List (List Char) := segs.filter fun seg => !isVoid seg

/-- The component that a segment is. -/
def component (segment : List Char) : Option Component :=
  if isVoid segment then none
  else if segment = ['.', '.'] then some .parentDir
  else some (.normal segment)

/-- `Path::is_absolute`. -/
def isAbsolute (path : List Char) : Bool := path.head? = some '/'

/-- What a path starts with besides the components that its segments are. -/
def lead (path : List Char) : List Component :=
  if isAbsolute path then [.rootDir]
  else if (segments path).head? = some ['.'] then [.curDir]
  else []

/-- `Path::components`. -/
def components (path : List Char) : List Component :=
  lead path ++ (segments path).filterMap component

/-- `Path::join`: the other path alone where that is absolute. -/
def join (path other : List Char) : List Char :=
  if isAbsolute other then other
  else if path = [] ∨ path.getLast? = some '/' then path ++ other
  else path ++ '/' :: other

/-- The path with given components. -/
def ofComponents (cs : List Component) : List Char :=
  if cs = [.rootDir] then ['/'] else ['/'].intercalate (cs.map Component.text)

/-- `Path::ancestors` after the path itself: its last components taken off, one after the other. -/
def ancestors (path : List Char) : List (List Char) :=
  ((List.range (components path).length).reverse.filter fun k => k ≠ 0 || !isAbsolute path).map
    fun k => ofComponents ((components path).take k)

/-- `Path::starts_with`. -/
def startsWith (path base : List Char) : Bool := (components base).isPrefixOf (components path)

/-- The segments after some components, if these come first. -/
def afterComponents : List Component → List (List Char) → Option (List (List Char))
  | [], segs => some segs
  | _ :: _, [] => none
  | c :: cs, seg :: segs =>
    if isVoid seg then afterComponents (c :: cs) segs
    else if component seg = some c then afterComponents cs segs
    else none

/-- `Path::strip_prefix`: what is left has no blank segments at its ends. -/
def stripPrefix (path base : List Char) : Option (List Char) :=
  if base = [] then some path
  else if lead path = lead base then
    (afterComponents ((segments base).filterMap component) (segments path)).map fun rest =>
      ['/'].intercalate (Pieces.trim isVoid rest)
  else none

/-- What a directory can call an entry. -/
structure IsName (name : List Char) : Prop where
  notBlank : isVoid name = false
  notParent : name ≠ ['.', '.']
  notSlash : '/' ∉ name

instance (name : List Char) : Decidable (IsName name) :=
  decidable_of_iff (isVoid name = false ∧ name ≠ ['.', '.'] ∧ '/' ∉ name)
    ⟨fun h => ⟨h.1, h.2.1, h.2.2⟩, fun h => ⟨h.notBlank, h.notParent, h.notSlash⟩⟩

variable {path other base : List Char} {segment name : List Char} {loc : List (List Char)}

/-! ### Segments -/

theorem segments_ne_nil : segments path ≠ [] := List.splitOn_ne_nil _ _

theorem named_cons_of_blank {segs : List (List Char)} (h : isVoid segment = true) :
    named (segment :: segs) = named segs :=
  List.filter_cons_of_neg (by rw [h]; exact Bool.false_ne_true)

theorem named_cons {segs : List (List Char)} (h : isVoid segment = false) :
    named (segment :: segs) = segment :: named segs :=
  List.filter_cons_of_pos (by rw [h]; rfl)

/-- The components that the segments are, spelled again: the blank segments are gone. -/
theorem map_text_filterMap_component (segs : List (List Char)) :
    (segs.filterMap component).map Component.text = named segs := by
  induction segs with
  | nil => rfl
  | cons seg segs ih =>
    by_cases hblank : isVoid seg = true
    · rw [List.filterMap_cons_none (by rw [component, if_pos hblank]), named_cons_of_blank hblank,
        ih]
    · rw [Bool.not_eq_true] at hblank
      have hcomponent : ∃ c, component seg = some c ∧ c.text = seg := by
        rw [component, if_neg (by rw [hblank]; exact Bool.false_ne_true)]
        by_cases hparent : seg = ['.', '.']
        · exact ⟨.parentDir, by rw [if_pos hparent], hparent.symm⟩
        · exact ⟨.normal seg, by rw [if_neg hparent], rfl⟩
      obtain ⟨c, hc, htext⟩ := hcomponent
      rw [List.filterMap_cons_some hc, List.map_cons, htext, ih, named_cons hblank]

/-- The path that is joined to another: its own segments, but for an empty last one. -/
def stem (path : List Char) : List (List Char) :=
  if path = [] ∨ path.getLast? = some '/' then (segments path).dropLast else segments path

theorem segments_join (h : isAbsolute other = false) :
    segments (join path other) = stem path ++ segments other := by
  rw [join, if_neg (by rw [h]; exact Bool.false_ne_true), stem]
  split_ifs with hend
  · obtain rfl | hlast := hend
    · rfl
    · obtain ⟨init, rfl⟩ : ∃ init, path = init ++ ['/'] := List.getLast?_eq_some_iff.mp hlast
      rw [List.append_assoc, List.singleton_append, segments, List.splitOn_append_cons_self,
        segments, List.splitOn_append_cons_self, List.splitOn_nil, List.dropLast_concat]
      rfl
  · exact List.splitOn_append_cons_self path other

/-- What a path loses when it is joined is a blank segment at its end. -/
theorem segments_eq_stem : segments path = stem path ∨ segments path = stem path ++ [[]] := by
  rw [stem]
  split_ifs with hend
  · obtain rfl | hlast := hend
    · exact .inr rfl
    · obtain ⟨init, rfl⟩ : ∃ init, path = init ++ ['/'] := List.getLast?_eq_some_iff.mp hlast
      rw [segments, List.splitOn_append_cons_self, List.splitOn_nil, List.dropLast_concat]
      exact .inr rfl
  · exact .inl rfl

theorem stem_ne_nil (h : path ≠ []) : stem path ≠ [] := by
  rw [stem]
  split_ifs with hend
  · obtain ⟨init, rfl⟩ := List.getLast?_eq_some_iff.mp (hend.resolve_left h)
    rw [segments, List.splitOn_append_cons_self, List.splitOn_nil, List.dropLast_concat]
    exact segments_ne_nil
  · exact segments_ne_nil

/-! ### Components -/

theorem filterMap_component_stem :
    (stem path).filterMap component = (segments path).filterMap component := by
  obtain h | h := @segments_eq_stem path
  · rw [h]
  · rw [h, List.filterMap_append]
    exact (List.append_nil _).symm

theorem isAbsolute_join (hpath : path ≠ []) (h : isAbsolute other = false) :
    isAbsolute (join path other) = isAbsolute path := by
  obtain ⟨c, rest, rfl⟩ := List.exists_cons_of_ne_nil hpath
  rw [join, if_neg (by rw [h]; exact Bool.false_ne_true)]
  by_cases hend : c :: rest = [] ∨ (c :: rest).getLast? = some '/'
  · rw [if_pos hend]
    rfl
  · rw [if_neg hend]
    rfl

theorem lead_join (hpath : path ≠ []) (h : isAbsolute other = false) :
    lead (join path other) = lead path := by
  have hhead : (segments (join path other)).head? = (segments path).head? := by
    obtain ⟨seg, segs, hstem⟩ := List.exists_cons_of_ne_nil (stem_ne_nil hpath)
    rw [segments_join h]
    obtain hsegs | hsegs := @segments_eq_stem path
    · rw [hsegs, hstem, List.cons_append, List.head?_cons, List.head?_cons]
    · rw [hsegs, hstem, List.cons_append, List.cons_append, List.head?_cons, List.head?_cons]
  rw [lead, isAbsolute_join hpath h, hhead, lead]

/-- Joining appends the components of a relative path, but for the `.` at its start. -/
theorem components_join (hpath : path ≠ []) (h : isAbsolute other = false) :
    components (join path other) = components path ++ (segments other).filterMap component := by
  rw [components, lead_join hpath h, segments_join h, List.filterMap_append,
    filterMap_component_stem, ← List.append_assoc, components]

theorem components_ne_nil (hpath : path ≠ []) : components path ≠ [] := by
  intro hnil
  rw [components, List.append_eq_nil_iff, lead] at hnil
  obtain ⟨hlead, hbody⟩ := hnil
  split_ifs at hlead with habs hcur
  -- neither a slash nor a `.` comes first, so the first segment is a component
  obtain ⟨seg, segs, hsegs⟩ := List.exists_cons_of_ne_nil (@segments_ne_nil path)
  have hpieces := @List.intercalate_splitOn _ path _ _ '/'
  rw [segments] at hsegs
  rw [hsegs] at hpieces
  have hblank : isVoid seg = false := by
    rw [segments, hsegs, List.head?_cons, Option.some.injEq] at hcur
    rw [isVoid, Bool.or_eq_false_iff, decide_eq_false_iff_not, decide_eq_false_iff_not]
    refine ⟨?_, hcur⟩
    rintro rfl
    cases segs with
    | nil => exact hpath hpieces.symm
    | cons next segs =>
      rw [List.intercalate_cons_of_ne_nil (List.cons_ne_nil next segs)] at hpieces
      exact habs (by rw [isAbsolute, ← hpieces]; rfl)
  rw [segments, hsegs, List.filterMap_eq_nil_iff] at hbody
  have hnone := hbody seg List.mem_cons_self
  rw [component, if_neg (by rw [hblank]; exact Bool.false_ne_true)] at hnone
  split_ifs at hnone

/-! ### Spelling components -/

theorem isAbsolute_of_rootDir (h : .rootDir ∈ components path) : isAbsolute path = true := by
  by_contra habs
  rw [components, lead, if_neg habs, List.mem_append] at h
  obtain hcur | hbody := h
  · split_ifs at hcur
    · cases List.mem_singleton.mp hcur
    · cases hcur
  · have hblank : [] ∈ named (segments path) := by
      rw [← map_text_filterMap_component]
      exact List.mem_map_of_mem hbody
    cases (List.mem_filter.mp hblank).2

/-- A location, as the absolute path that names it. -/
def absolute (loc : List (List Char)) : List Char :=
  ofComponents (.rootDir :: loc.map .normal)

theorem rootDir_mem_iff : .rootDir ∈ components path ↔ isAbsolute path = true := by
  refine ⟨isAbsolute_of_rootDir, fun habs => ?_⟩
  rw [components, lead, if_pos habs]
  exact List.mem_append_left _ List.mem_cons_self

/-- What a segment is, is neither the root nor the `.` at a path's start. -/
theorem component_proper {c : Component} (h : component segment = some c) :
    c ≠ .rootDir ∧ c ≠ .curDir := by
  rw [component] at h
  split_ifs at h
  · rw [← Option.some.inj h]
    exact ⟨(by intro heq; cases heq), by intro heq; cases heq⟩
  · rw [← Option.some.inj h]
    exact ⟨(by intro heq; cases heq), by intro heq; cases heq⟩

theorem curDir_mem_iff : .curDir ∈ components path ↔ lead path = [.curDir] := by
  rw [components, List.mem_append]
  constructor
  · rintro (hlead | hbody)
    · rw [lead] at hlead ⊢
      split_ifs at hlead ⊢
      · cases List.mem_singleton.mp hlead
      · rfl
      · cases hlead
    · obtain ⟨seg, -, hseg⟩ := List.mem_filterMap.mp hbody
      exact absurd rfl (component_proper hseg).2
  · intro hlead
    rw [hlead]
    exact .inl List.mem_cons_self

theorem lead_eq (h : lead path ≠ [.curDir]) :
    lead path = if isAbsolute path then [.rootDir] else [] := by
  rw [lead] at h ⊢
  split_ifs with habs hcur
  · rfl
  · rw [if_neg habs, if_pos hcur] at h
    exact absurd rfl h
  · rfl

/-- The components that the segments are, out of all of a path's. -/
theorem filter_components : (components path).filter (fun c => c ≠ .rootDir ∧ c ≠ .curDir) =
    (segments path).filterMap component := by
  rw [components, List.filter_append, lead]
  have hbody : ((segments path).filterMap component).filter
      (fun c => c ≠ .rootDir ∧ c ≠ .curDir) = (segments path).filterMap component := by
    refine List.filter_eq_self.mpr fun c hc => ?_
    obtain ⟨seg, -, hseg⟩ := List.mem_filterMap.mp hc
    exact decide_eq_true (component_proper hseg)
  rw [hbody]
  split_ifs
  · rfl
  · rfl
  · rfl

/-! ### Taking a base off -/

/-- What comes after the components of some segments, with blank segments before it. -/
theorem afterComponents_append (segs rest : List (List Char)) :
    ∃ blanks, (∀ seg ∈ blanks, isVoid seg = true) ∧
      afterComponents (segs.filterMap component) (segs ++ rest) = some (blanks ++ rest) := by
  induction segs with
  | nil =>
    refine ⟨[], List.forall_mem_nil _, ?_⟩
    cases rest with
    | nil => rfl
    | cons seg rest => rfl
  | cons seg segs ih =>
    obtain ⟨blanks, hblanks, hafter⟩ := ih
    by_cases hblank : isVoid seg = true
    · rw [List.filterMap_cons_none (by rw [component, if_pos hblank])]
      cases hcs : segs.filterMap component with
      | nil =>
        -- nothing is left to find, and the blank segments stay
        rw [hcs] at hafter
        have heq : segs ++ rest = blanks ++ rest := by
          cases hsegs : segs ++ rest with
          | nil =>
            rw [hsegs] at hafter
            exact Option.some.inj hafter
          | cons first later =>
            rw [hsegs] at hafter
            exact Option.some.inj hafter
        refine ⟨seg :: blanks, List.forall_mem_cons.mpr ⟨hblank, hblanks⟩, ?_⟩
        rw [List.cons_append, heq]
        rfl
      | cons c cs =>
        refine ⟨blanks, hblanks, ?_⟩
        rw [List.cons_append, afterComponents, if_pos hblank, ← hcs]
        exact hafter
    · obtain ⟨c, hc⟩ : ∃ c, component seg = some c := by
        rw [component, if_neg hblank]
        split_ifs
        · exact ⟨_, rfl⟩
        · exact ⟨_, rfl⟩
      refine ⟨blanks, hblanks, ?_⟩
      rw [List.filterMap_cons_some hc, List.cons_append, afterComponents, if_neg hblank, if_pos hc]
      exact hafter

end UnixPath
