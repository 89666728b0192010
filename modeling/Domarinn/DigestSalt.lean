/-
What the salt `$digest:` tells apart.

The salt hashes each matched file's path below the suite's directory and its content, a zero byte
after each.  A content may itself have zero bytes, and then files can be hashed as others are.  The
path is cut off the directory as that was typed; with a `./` in front of more, which the glob crate
leaves away, it is not, and the directory is hashed too.

* **`hashedBytes_eq`** — what is hashed, from the files that the pattern matches;
* **`digest_identifies_iff`** — when two hashed texts are equal just where the matched files are.

What the glob crate matches below a directory is a parameter, and so is how it spells the directory.
-/
import Domarinn.Sandbox

open UnixPath

namespace Sandbox

/-! ### The directory -/

/-- `Path::parent`. -/
def parent (path : List Char) : Option (List Char) :=
  match (components path).getLast? with
  | none => none
  | some .rootDir => none
  | some _ => some (ofComponents (components path).dropLast)

/-- `suite_base_dir`. -/
def suiteBaseDir (suiteFile : List Char) : List Char :=
  match parent suiteFile with
  | none => ['.']
  | some dir => if dir = [] then ['.'] else dir

/-! ### The matched files -/

/-- Text that a pattern matches as it stands. -/
def Literal (text : List Char) : Prop := ∀ c ∈ text, c ∉ ['*', '?', '[', ']']

instance : DecidablePred Literal := List.decidableBAll fun c => c ∉ ['*', '?', '[', ']']

/-- A path below a directory, with no blank segment at its ends. -/
structure IsBelow (rel : List Char) : Prop where
  first : ∀ seg ∈ (segments rel).head?, isVoid seg = false
  last : ∀ seg ∈ (segments rel).getLast?, isVoid seg = false

/-- What the glob crate makes of a pattern in a directory.  `inside` is what the pattern matches
below a location, and `shown` is the directory as it is spelled in the matches. -/
structure GlobsIn (glob : FileTree → List Char → Option (List (List Char)))
    (inside : FileTree → List (List Char) → List Char → List (List Char)) (fs : FileTree)
    (baseDir : List Char) (loc : List (List Char)) (pattern shown : List Char) : Prop where
  located : fs.resolve baseDir = some loc
  isDir : fs.node loc = some .dir
  matched : Literal baseDir → ∀ paths, glob fs (join baseDir pattern) = some paths →
    paths = (inside fs loc pattern).map (join shown)
  shown_components : components shown = (components baseDir).filter (· ≠ .curDir)
  below : ∀ rel ∈ inside fs loc pattern, IsBelow rel

/-- The content of the file that a path leads to. -/
def contentAt (fs : FileTree) (path : List Char) : List UInt8 :=
  ((fs.resolve path).bind fs.content).getD []

/-- The files among some paths below the suite's directory, sorted. -/
def filesBelow (fs : FileTree) (baseDir : List Char) (rels : List (List Char)) :
    List (List Char) :=
  (rels.filter fun rel => fs.isFile (join baseDir rel)).insertionSort
    fun p q => pathKey p ≤ pathKey q

/-- The matched files: where each is below the suite's directory, and its content. -/
def matchedEntries (fs : FileTree) (baseDir : List Char) (rels : List (List Char)) :
    List (List Char × List UInt8) :=
  (filesBelow fs baseDir rels).map fun rel => (rel, contentAt fs (join baseDir rel))

/-- What is hashed in front of a path below the directory: the directory, if it is spelled with a
`.` at its start. -/
def stray (baseDir shown : List Char) : List Char :=
  if lead baseDir = [.curDir] then shown else []

/-- A file as it is hashed. -/
def entryBytes (entry : List Char × List UInt8) : List UInt8 :=
  pathBytes entry.1 ++ 0 :: entry.2 ++ [0]

/-- What stands between the zero bytes of what is hashed. -/
def entryPieces (entry : List Char × List UInt8) : List (List UInt8) :=
  pathBytes entry.1 :: entry.2.splitOn 0

/-- The matched files with their paths as they are hashed. -/
def hashedEntries (fs : FileTree) (baseDir shown : List Char) (rels : List (List Char)) :
    List (List Char × List UInt8) :=
  (matchedEntries fs baseDir rels).map fun entry => (join (stray baseDir shown) entry.1, entry.2)

variable {fs : FileTree} {baseDir path rel pattern shown : List Char} {loc : List (List Char)}
  {rels : List (List Char)} {glob : FileTree → List Char → Option (List (List Char))}
  {inside : FileTree → List (List Char) → List Char → List (List Char)}

/-! ### Paths below the directory -/

theorem IsBelow.first_segment (h : IsBelow rel) :
    ∃ seg segs, segments rel = seg :: segs ∧ isVoid seg = false := by
  obtain ⟨seg, segs, hsegs⟩ := List.exists_cons_of_ne_nil (@segments_ne_nil rel)
  exact ⟨seg, segs, hsegs, h.first seg (by rw [hsegs]; rfl)⟩

theorem IsBelow.ne_nil (h : IsBelow rel) : rel ≠ [] := by
  rintro rfl
  obtain ⟨seg, segs, hsegs, hblank⟩ := h.first_segment
  cases hsegs
  cases hblank

theorem IsBelow.relative (h : IsBelow rel) : isAbsolute rel = false := by
  obtain ⟨seg, segs, hsegs, hblank⟩ := h.first_segment
  by_contra habs
  rw [Bool.not_eq_false, isAbsolute, decide_eq_true_iff, List.head?_eq_some_iff] at habs
  obtain ⟨rest, rfl⟩ := habs
  rw [segments, ← List.nil_append ('/' :: rest), List.splitOn_append_cons_self] at hsegs
  cases hsegs
  cases hblank

theorem IsBelow.lead_eq_nil (h : IsBelow rel) : lead rel = [] := by
  obtain ⟨seg, segs, hsegs, hblank⟩ := h.first_segment
  rw [lead, h.relative, if_neg Bool.false_ne_true, hsegs]
  refine if_neg fun heq => ?_
  rw [List.head?_cons, Option.some.injEq] at heq
  rw [heq] at hblank
  cases hblank

theorem IsBelow.trim (h : IsBelow rel) : Pieces.trim isVoid (segments rel) = segments rel :=
  Pieces.trim_eq_self h.first h.last

theorem join_nil (h : IsBelow rel) : join [] rel = rel := by
  rw [join, if_neg (by rw [h.relative]; exact Bool.false_ne_true), if_pos (.inl rfl),
    List.nil_append]

/-- The directory in front does not change how paths are compared. -/
theorem pathKey_join_le {rel' : List Char} (hrel : IsBelow rel) (hrel' : IsBelow rel') :
    pathKey rel ≤ pathKey rel' ↔ pathKey (join shown rel) ≤ pathKey (join shown rel') := by
  by_cases hshown : shown = []
  · rw [hshown, join_nil hrel, join_nil hrel']
  · have hkey : ∀ {r}, IsBelow r → pathKey (join shown r) = pathKey shown ++ pathKey r := by
      intro r hr
      have hcs : components r = (segments r).filterMap component := by
        rw [components, hr.lead_eq_nil, List.nil_append]
      rw [pathKey, components_join hshown hr.relative, List.map_append, ← hcs, pathKey, pathKey]
    have hmono : StrictMono (pathKey shown ++ ·) := fun _ _ h => List.append_left_lt h
    rw [hkey hrel, hkey hrel']
    exact hmono.le_iff_le.symm

section Shown

variable (hloc : GlobsIn glob inside fs baseDir loc pattern shown)
include hloc

theorem GlobsIn.body : (segments shown).filterMap component =
    (segments baseDir).filterMap component := by
  rw [← filter_components, ← filter_components, hloc.shown_components, List.filter_filter]
  refine List.filter_congr fun c _ => ?_
  by_cases hcur : c = .curDir
  · simp [hcur]
  · simp [hcur]

theorem GlobsIn.isAbsolute_shown : isAbsolute shown = isAbsolute baseDir := by
  rw [Bool.eq_iff_iff, ← rootDir_mem_iff, ← rootDir_mem_iff, hloc.shown_components, List.mem_filter]
  exact and_iff_left rfl

theorem GlobsIn.lead_shown : lead shown = if isAbsolute baseDir then [.rootDir] else [] := by
  rw [← hloc.isAbsolute_shown]
  refine lead_eq fun hlead => ?_
  have hmem := curDir_mem_iff.mpr hlead
  rw [hloc.shown_components] at hmem
  exact of_decide_eq_true (List.mem_filter.mp hmem).2 rfl

/-- The matches lead where the paths below the directory lead. -/
theorem GlobsIn.resolve_shown (hrel : IsBelow rel) :
    fs.resolve (join shown rel) = fs.resolve (join baseDir rel) := by
  obtain ⟨hne, left, hwalk⟩ := FileTree.resolve_eq_some.mp hloc.located
  have hnamed : named (segments shown) = named (segments baseDir) := by
    rw [← map_text_filterMap_component, hloc.body, map_text_filterMap_component]
  have hstart : FileTree.start fs.cwd shown = FileTree.start fs.cwd baseDir := by
    rw [FileTree.start, hloc.isAbsolute_shown, FileTree.start]
  have hdown := FileTree.walk_named hwalk
  rw [← hnamed, ← hstart] at hdown
  rw [FileTree.resolve_join hne hwalk hrel.relative]
  by_cases hshown : shown = []
  · -- the directory is the one that relative paths start from
    subst hshown
    have hroot : fs.walk fs.maxLinks fs.cwd [] = some (loc, left) := hdown
    rw [FileTree.walk_nil, Option.some.injEq, Prod.mk.injEq] at hroot
    obtain ⟨rfl, rfl⟩ := hroot
    rw [join_nil hrel, FileTree.resolve, if_neg hrel.ne_nil, FileTree.start, hrel.relative]
    rfl
  · exact FileTree.resolve_join hshown (FileTree.walk_of_named hdown hloc.isDir) hrel.relative

/-- What is left of a match when the directory is taken off. -/
theorem GlobsIn.stripPrefix_shown (hrel : IsBelow rel) :
    (stripPrefix (join shown rel) baseDir).getD (join shown rel) =
      join (stray baseDir shown) rel := by
  obtain ⟨hne, -⟩ := FileTree.resolve_eq_some.mp hloc.located
  have hlead : lead (join shown rel) = if isAbsolute baseDir then [.rootDir] else [] := by
    by_cases hshown : shown = []
    · have habs := hloc.isAbsolute_shown
      rw [hshown] at habs
      rw [hshown, join_nil hrel, hrel.lead_eq_nil, ← habs]
      rfl
    · rw [lead_join hshown hrel.relative, hloc.lead_shown]
  rw [stripPrefix, if_neg hne, stray]
  by_cases hcur : lead baseDir = [.curDir]
  · have hnot : lead (join shown rel) ≠ lead baseDir := by
      rw [hlead, hcur]
      split_ifs
      · intro heq
        cases heq
      · intro heq
        cases heq
    rw [if_neg hnot, if_pos hcur]
    rfl
  · have hshown : shown ≠ [] := by
      rintro rfl
      have hnil : (components baseDir).filter (· ≠ .curDir) = [] := hloc.shown_components.symm
      refine components_ne_nil hne (List.eq_nil_iff_forall_not_mem.mpr fun c hc => ?_)
      have hc' : c = .curDir := by
        by_contra hother
        exact List.not_mem_nil (hnil ▸ List.mem_filter.mpr ⟨hc, decide_eq_true hother⟩)
      exact hcur (curDir_mem_iff.mp (hc' ▸ hc))
    obtain ⟨blanks, hblanks, hafter⟩ := afterComponents_append (stem shown) (segments rel)
    rw [filterMap_component_stem, hloc.body] at hafter
    obtain ⟨seg, segs, hsegs, hseg⟩ := hrel.first_segment
    have htrim : Pieces.trim isVoid (blanks ++ segments rel) = segments rel := by
      rw [hsegs, Pieces.trim_eq_cons hblanks hseg, ← hsegs]
      have := hrel.trim
      rw [hsegs, Pieces.trim_cons_of_neg hseg, ← hsegs] at this
      exact this
    rw [if_pos (by rw [hlead, lead_eq hcur]), segments_join hrel.relative, hafter, Option.map_some,
      htrim, Option.getD_some, segments, List.intercalate_splitOn, if_neg hcur, join_nil hrel]

theorem GlobsIn.isFile_shown (hrel : IsBelow rel) :
    fs.isFile (join shown rel) = fs.isFile (join baseDir rel) := by
  rw [FileTree.isFile, hloc.resolve_shown hrel, FileTree.isFile]

/-- The matches that are files, sorted. -/
theorem GlobsIn.files_shown (hrels : ∀ rel ∈ rels, IsBelow rel) :
    (((rels.map (join shown)).filter fs.isFile).insertionSort fun p q => pathKey p ≤ pathKey q) =
      (filesBelow fs baseDir rels).map (join shown) := by
  have hfilter : (rels.map (join shown)).filter fs.isFile =
      (rels.filter fun rel => fs.isFile (join baseDir rel)).map (join shown) := by
    rw [List.filter_map]
    exact congrArg (List.map (join shown)) (List.filter_congr fun rel hrel =>
      hloc.isFile_shown (hrels rel hrel))
  rw [hfilter, filesBelow]
  refine (List.map_insertionSort _ _ _ _ fun p hp q hq => ?_).symm
  exact pathKey_join_le (hrels p (List.mem_of_mem_filter hp)) (hrels q (List.mem_of_mem_filter hq))

end Shown

/-! ### What reading returns -/

section Returns

variable {α β : Type}

/-- Reading comes to a value. -/
def Returns (m : Reading α) (a : α) : Prop := ∃ log log', m.run.run log = (.ok a, log')

theorem returns_pure {a b : α} (h : Returns (pure a : Reading α) b) : a = b := by
  obtain ⟨log, log', hrun⟩ := h
  exact Except.ok.inj (Prod.mk.inj hrun).1

theorem not_returns_throw {e : ResolveError} {a : α} : ¬ Returns (throw e : Reading α) a := by
  rintro ⟨log, log', hrun⟩
  cases (Prod.mk.inj hrun).1

theorem returns_bind {m : Reading α} {f : α → Reading β} {b : β} (h : Returns (m >>= f) b) :
    ∃ a, Returns m a ∧ Returns (f a) b := by
  obtain ⟨log, log', hrun⟩ := h
  change StateT.run (ExceptT.run (m >>= f)) log = _ at hrun
  rw [ExceptT.run_bind, StateT.run_bind] at hrun
  cases hm : m.run.run log with
  | mk result log₁ =>
    change StateT.run (ExceptT.run m) log = _ at hm
    rw [hm] at hrun
    cases result with
    | error e => cases (Prod.mk.inj hrun).1
    | ok a => exact ⟨a, ⟨log, log₁, hm⟩, log₁, log', hrun⟩

theorem returns_pureRead {e : Except ResolveError α} {a : α} (h : Returns (pureRead e) a) :
    e = .ok a := by
  cases e with
  | error err => exact absurd h not_returns_throw
  | ok b => rw [returns_pure h]

theorem returns_mapM {f : α → Reading β} {as : List α} {bs : List β}
    (h : Returns (as.mapM f) bs) : List.Forall₂ (fun a b => Returns (f a) b) as bs := by
  induction as generalizing bs with
  | nil =>
    rw [← returns_pure h]
    exact .nil
  | cons a as ih =>
    rw [List.mapM_cons] at h
    obtain ⟨b, hb, h⟩ := returns_bind h
    obtain ⟨rest, hrest, h⟩ := returns_bind h
    rw [← returns_pure h]
    exact .cons hb (ih hrest)

theorem returns_readFile {bytes : List UInt8} (h : Returns (readFile fs path) bytes) :
    contentAt fs path = bytes := by
  rw [readFile] at h
  rw [contentAt]
  cases hpath : fs.resolve path with
  | none =>
    rw [hpath] at h
    exact absurd h not_returns_throw
  | some loc =>
    cases hcontent : fs.content loc with
    | none =>
      rw [hpath, Option.bind_some, hcontent] at h
      exact absurd h not_returns_throw
    | some found =>
      rw [hpath, Option.bind_some, hcontent] at h
      obtain ⟨u, -, h⟩ := returns_bind h
      rw [← returns_pure h, Option.bind_some, hcontent]
      rfl

end Returns

/-! ### What is hashed -/

/-- The files that are hashed are the matches that are files. -/
theorem matchedFiles_eq_ok {g : List Char → Option (List (List Char))} {files : List (List Char)}
    (h : matchedFiles fs g baseDir path = .ok files) : ∃ paths, g path = some paths ∧
      files = (paths.filter fs.isFile).insertionSort fun p q => pathKey p ≤ pathKey q := by
  rw [matchedFiles] at h
  cases hg : g path with
  | none =>
    rw [hg] at h
    cases h
  | some paths =>
    rw [hg] at h
    refine ⟨paths, rfl, ?_⟩
    cases hfiles : (paths.filter fs.isFile).mapM (passed fs baseDir) with
    | error e =>
      simp only [hfiles] at h
      cases h
    | ok unsorted =>
      simp only [hfiles] at h
      have hsame : unsorted.map id = (paths.filter fs.isFile).map id :=
        mapM_ok_map (fun p q hpq => (passed_eq_ok.mp hpq).2) hfiles
      rw [List.map_id, List.map_id] at hsame
      rw [← hsame]
      exact (Except.ok.inj h).symm

theorem eq_map_of_forall₂ {α β : Type} {g : α → β} {as : List α} {bs : List β}
    (h : List.Forall₂ (fun a b => b = g a) as bs) : bs = as.map g := by
  induction h with
  | nil => rfl
  | cons hab _ ih => rw [List.map_cons, hab, ih]

theorem isBelow_of_mem_filesBelow (hrels : ∀ rel ∈ rels, IsBelow rel)
    (h : rel ∈ filesBelow fs baseDir rels) : IsBelow rel :=
  hrels rel (List.mem_of_mem_filter ((List.mem_insertionSort _).mp h))

/-- What is hashed, from the files that the pattern matches. -/
theorem hashedBytes_eq {bytes : List UInt8}
    (hloc : GlobsIn glob inside fs baseDir loc pattern shown) (hliteral : Literal baseDir)
    (h : Returns (hashedBytes fs (glob fs) pattern baseDir) bytes) :
    matchedEntries fs baseDir (inside fs loc pattern) ≠ [] ∧
      bytes = (hashedEntries fs baseDir shown (inside fs loc pattern)).flatMap entryBytes := by
  obtain ⟨_, -, h⟩ := returns_bind h
  obtain ⟨files, hfiles, h⟩ := returns_bind h
  obtain ⟨paths, hpaths, rfl⟩ := matchedFiles_eq_ok (returns_pureRead hfiles)
  rw [hloc.matched hliteral paths hpaths, hloc.files_shown hloc.below] at h
  split_ifs at h with hnil
  · exact absurd h not_returns_throw
  · obtain ⟨parts, hparts, h⟩ := returns_bind h
    refine ⟨fun hentries => hnil ?_, ?_⟩
    · rw [List.map_eq_nil_iff.mp hentries, List.map_nil]
    · have heach : List.Forall₂ (fun rel part => part = entryBytes (join (stray baseDir shown) rel,
          contentAt fs (join baseDir rel))) (filesBelow fs baseDir (inside fs loc pattern)) parts := by
        have hall := List.forall₂_map_left_iff.mp (returns_mapM hparts)
        have hbelow : ∀ rel ∈ filesBelow fs baseDir (inside fs loc pattern), IsBelow rel :=
          fun rel => isBelow_of_mem_filesBelow hloc.below
        refine ((List.forall₂_and_left _ _).mpr ⟨hbelow, hall⟩).imp ?_
        rintro rel part ⟨hrel, hpart⟩
        obtain ⟨bytes, hread, hpart⟩ := returns_bind hpart
        have hbytes := returns_readFile hread
        rw [contentAt, hloc.resolve_shown hrel] at hbytes
        rw [← returns_pure hpart, hloc.stripPrefix_shown hrel, ← hbytes]
        rfl
      rw [← returns_pure h, eq_map_of_forall₂ heach, hashedEntries, matchedEntries, List.map_map,
        List.flatMap_map]
      rfl

/-! ### Zero bytes -/

theorem zero_notMem_utf8EncodeChar {c : Char} (h : c ≠ '\x00') :
    (0 : UInt8) ∉ String.utf8EncodeChar c := by
  have hval : c.val.toNat ≠ 0 := fun hzero => h (Char.ext (UInt32.toNat_inj.mp hzero))
  have hne : ∀ {n : ℕ}, 0 < n → n < 256 → (0 : UInt8) ≠ UInt8.ofNat n := by
    intro n hpos hlt heq
    have := congrArg UInt8.toNat heq
    rw [UInt8.toNat_ofNat_of_lt' hlt] at this
    exact absurd this.symm hpos.ne'
  rw [String.utf8EncodeChar]
  split_ifs
  · exact fun hmem => hne (by omega) (by omega) (List.mem_singleton.mp hmem)
  · simp only [List.mem_cons, List.not_mem_nil, or_false, not_or]
    exact ⟨hne (by omega) (by omega), hne (by omega) (by omega)⟩
  · simp only [List.mem_cons, List.not_mem_nil, or_false, not_or]
    exact ⟨hne (by omega) (by omega), hne (by omega) (by omega), hne (by omega) (by omega)⟩
  · simp only [List.mem_cons, List.not_mem_nil, or_false, not_or]
    exact ⟨hne (by omega) (by omega), hne (by omega) (by omega), hne (by omega) (by omega),
      hne (by omega) (by omega)⟩

theorem zero_notMem_pathBytes (h : '\x00' ∉ path) : (0 : UInt8) ∉ pathBytes path := by
  have hbytes : pathBytes path = path.flatMap String.utf8EncodeChar := by
    rw [pathBytes, utf8, String.toByteArray_ofList]
    exact List.toList_data_toByteArray
  rw [hbytes, List.mem_flatMap]
  rintro ⟨c, hc, hzero⟩
  exact zero_notMem_utf8EncodeChar (fun heq => h (heq ▸ hc)) hzero

theorem suffix_join (path rel : List Char) : rel <:+ join path rel := by
  rw [join]
  split_ifs
  · exact List.suffix_rfl
  · exact List.suffix_append _ _
  · exact (List.suffix_cons '/' rel).trans (List.suffix_append _ _)

/-- No path that is hashed has a zero byte. -/
theorem zero_notMem_hashedEntries (hloc : GlobsIn glob inside fs baseDir loc pattern shown) :
    ∀ entry ∈ hashedEntries fs baseDir shown (inside fs loc pattern), 0 ∉ pathBytes entry.1 := by
  intro entry hentry
  rw [hashedEntries, matchedEntries, List.map_map] at hentry
  obtain ⟨rel, hrel, rfl⟩ := List.mem_map.mp hentry
  have hbelow := isBelow_of_mem_filesBelow hloc.below hrel
  have hfile := (List.mem_filter.mp ((List.mem_insertionSort _).mp hrel)).2
  obtain ⟨at', hat⟩ : ∃ at', fs.resolve (join baseDir rel) = some at' := by
    refine Option.ne_none_iff_exists'.mp fun hnone => ?_
    rw [FileTree.isFile, hnone] at hfile
    cases hfile
  refine zero_notMem_pathBytes ?_
  show '\x00' ∉ join (stray baseDir shown) rel
  rw [stray]
  split_ifs
  · rw [← hloc.resolve_shown hbelow] at hat
    exact FileTree.nul_of_resolve hat
  · rw [join_nil hbelow]
    exact fun hmem => FileTree.nul_of_resolve hat ((suffix_join baseDir rel).subset hmem)

section Pieces

variable {entries entries' : List (List Char × List UInt8)}

theorem splitOn_entries (h : ∀ entry ∈ entries, 0 ∉ pathBytes entry.1) :
    (entries.flatMap entryBytes).splitOn 0 = entries.flatMap entryPieces ++ [[]] := by
  induction entries with
  | nil => rfl
  | cons entry entries ih =>
    obtain ⟨hentry, hentries⟩ := List.forall_mem_cons.mp h
    have hbytes : (entry :: entries).flatMap entryBytes =
        pathBytes entry.1 ++ 0 :: (entry.2 ++ 0 :: entries.flatMap entryBytes) := by
      simp [entryBytes]
    rw [hbytes, List.splitOn_append_cons_self, List.splitOn_append_cons_self, ih hentries,
      List.splitOn_eq_singleton hentry, List.flatMap_cons, entryPieces]
    simp

/-- What is hashed is equal where its pieces are. -/
theorem entries_bytes_iff (h : ∀ entry ∈ entries, 0 ∉ pathBytes entry.1)
    (h' : ∀ entry ∈ entries', 0 ∉ pathBytes entry.1) :
    entries.flatMap entryBytes = entries'.flatMap entryBytes ↔
      entries.flatMap entryPieces = entries'.flatMap entryPieces := by
  constructor
  · intro heq
    have hsplit := congrArg (List.splitOn 0) heq
    rw [splitOn_entries h, splitOn_entries h'] at hsplit
    exact List.append_cancel_right hsplit
  · intro heq
    rw [← @List.intercalate_splitOn _ (entries.flatMap entryBytes) _ _ 0, splitOn_entries h, heq,
      ← splitOn_entries h', List.intercalate_splitOn]

theorem pathBytes_inj {p q : List Char} : pathBytes p = pathBytes q ↔ p = q := by
  rw [pathBytes, pathBytes, utf8_inj]
  refine ⟨fun h => ?_, congrArg String.ofList⟩
  have hlist := congrArg String.toList h
  rwa [String.toList_ofList, String.toList_ofList] at hlist

/-- Without zero bytes the pieces are the paths and contents. -/
theorem entries_of_pieces (h : ∀ entry ∈ entries, 0 ∉ entry.2)
    (h' : ∀ entry ∈ entries', 0 ∉ entry.2)
    (heq : entries.flatMap entryPieces = entries'.flatMap entryPieces) : entries = entries' := by
  induction entries generalizing entries' with
  | nil =>
    cases entries' with
    | nil => rfl
    | cons entry' entries' => cases heq
  | cons entry entries ih =>
    obtain ⟨hentry, hentries⟩ := List.forall_mem_cons.mp h
    cases entries' with
    | nil => cases heq
    | cons entry' entries' =>
      obtain ⟨hentry', hentries'⟩ := List.forall_mem_cons.mp h'
      rw [List.flatMap_cons, List.flatMap_cons, entryPieces, entryPieces,
        List.splitOn_eq_singleton hentry, List.splitOn_eq_singleton hentry'] at heq
      obtain ⟨hpath, hrest⟩ := List.cons_eq_cons.mp heq
      obtain ⟨hcontent, hrest⟩ := List.cons_eq_cons.mp hrest
      rw [ih hentries hentries' hrest, Prod.ext (pathBytes_inj.mp hpath) hcontent]

end Pieces

/-- With the same matched files, the hashed texts are equal where the same directory is left in
front of the paths. -/
theorem same_entries_iff {base₁ base₂ : List Char} {entries : List (List Char × List UInt8)}
    (hbelow : ∀ entry ∈ entries, IsBelow entry.1) (hne : entries ≠ []) :
    (entries.map fun entry => (join base₁ entry.1, entry.2)).flatMap entryPieces =
        (entries.map fun entry => (join base₂ entry.1, entry.2)).flatMap entryPieces ↔
      stem base₁ = stem base₂ := by
  constructor
  · intro heq
    obtain ⟨entry, rest, rfl⟩ := List.exists_cons_of_ne_nil hne
    have hhead := (List.cons_eq_cons.mp heq).1
    have hsegs := congrArg segments (pathBytes_inj.mp hhead)
    have hrel := (hbelow entry List.mem_cons_self).relative
    rw [segments_join hrel, segments_join hrel] at hsegs
    exact List.append_cancel_right hsegs
  · intro hstem
    refine congrArg (List.flatMap entryPieces) (List.map_congr_left fun entry hentry => ?_)
    have hrel := (hbelow entry hentry).relative
    have hjoin : join base₁ entry.1 = join base₂ entry.1 := by
      rw [← @List.intercalate_splitOn _ (join base₁ entry.1) _ _ '/',
        ← @List.intercalate_splitOn _ (join base₂ entry.1) _ _ '/']
      exact congrArg _ ((segments_join hrel).trans (hstem ▸ (segments_join hrel).symm))
    rw [hjoin]

/-- A suite's directory, spelled without metacharacters, in which a pattern's salt hashes. -/
structure SaltedDir (glob : FileTree → List Char → Option (List (List Char)))
    (inside : FileTree → List (List Char) → List Char → List (List Char)) (pattern : List Char) where
  fs : FileTree
  baseDir : List Char
  loc : List (List Char)
  shown : List Char
  bytes : List UInt8
  globs : GlobsIn glob inside fs baseDir loc pattern shown
  literal : Literal baseDir
  hashes : Returns (hashedBytes fs (glob fs) pattern baseDir) bytes

/-- The matched files. -/
def SaltedDir.entries (d : SaltedDir glob inside pattern) : List (List Char × List UInt8) :=
  matchedEntries d.fs d.baseDir (inside d.fs d.loc pattern)

/-- The matched files' paths, as they are hashed, and the pieces of their contents. -/
def SaltedDir.pieces (d : SaltedDir glob inside pattern) : List (List UInt8) :=
  (hashedEntries d.fs d.baseDir d.shown (inside d.fs d.loc pattern)).flatMap entryPieces

/-- What is hashed in front of every path. -/
def SaltedDir.front (d : SaltedDir glob inside pattern) : List (List Char) :=
  stem (stray d.baseDir d.shown)

theorem SaltedDir.bytes_eq_iff (d₁ d₂ : SaltedDir glob inside pattern) :
    d₁.bytes = d₂.bytes ↔ d₁.pieces = d₂.pieces := by
  rw [(hashedBytes_eq d₁.globs d₁.literal d₁.hashes).2,
    (hashedBytes_eq d₂.globs d₂.literal d₂.hashes).2]
  exact entries_bytes_iff (zero_notMem_hashedEntries d₁.globs) (zero_notMem_hashedEntries d₂.globs)

theorem SaltedDir.isBelow (d : SaltedDir glob inside pattern) :
    ∀ entry ∈ d.entries, IsBelow entry.1 := by
  intro entry hentry
  obtain ⟨rel, hrel, rfl⟩ := List.mem_map.mp hentry
  exact isBelow_of_mem_filesBelow d.globs.below hrel

theorem SaltedDir.pieces_eq (d : SaltedDir glob inside pattern) : d.pieces = (d.entries.map
    fun entry => (join (stray d.baseDir d.shown) entry.1, entry.2)).flatMap entryPieces := rfl

theorem SaltedDir.bytes_eq_iff_front {d₁ d₂ : SaltedDir glob inside pattern}
    (h : d₁.entries = d₂.entries) : d₁.bytes = d₂.bytes ↔ d₁.front = d₂.front := by
  rw [bytes_eq_iff, d₁.pieces_eq, d₂.pieces_eq, ← h]
  exact same_entries_iff d₁.isBelow (hashedBytes_eq d₁.globs d₁.literal d₁.hashes).1

/-- With nothing in front, the entries are hashed as they are. -/
theorem SaltedDir.pieces_of_front {d : SaltedDir glob inside pattern}
    (h : stray d.baseDir d.shown = []) : d.pieces = d.entries.flatMap entryPieces := by
  rw [d.pieces_eq, h]
  refine congrArg (List.flatMap entryPieces) ?_
  conv_rhs => rw [← List.map_id d.entries]
  refine List.map_congr_left fun entry hentry => ?_
  rw [join_nil (d.isBelow entry hentry)]
  rfl

/-! ### Directories of few files -/

/-- A directory `s` with given files. -/
def smallTree (files : List (List (List Char) × Node))
    (h : ∀ e ∈ ([['s']], .dir) :: files, ∀ name ∈ e.1.getLast?,
      FileTree.nodeOf (([['s']], .dir) :: files) e.1.dropLast = some .dir ∧ IsName name ∧
        '\x00' ∉ name) : FileTree :=
  .ofEntries (([['s']], .dir) :: files) 40 h

/-- What `*` matches in a directory with no other files than `a` and `b`. -/
def insideSmall (fs : FileTree) (loc : List (List Char)) (pattern : List Char) :
    List (List Char) :=
  if pattern = ['*'] then [['a'], ['b']].filter fun name => fs.node (loc ++ [name]) ≠ none else []

/-- And what it matches in `s`, however that is spelled. -/
def globSmall (fs : FileTree) (pattern : List Char) : Option (List (List Char)) :=
  if pattern = "s/*".toList ∨ pattern = "./s/*".toList then
    some ((insideSmall fs [['s']] ['*']).map (join ['s']))
  else some []

theorem isBelow_small (fs : FileTree) (loc : List (List Char)) (pattern : List Char) :
    ∀ rel ∈ insideSmall fs loc pattern, IsBelow rel := by
  intro rel hrel
  rw [insideSmall] at hrel
  split_ifs at hrel
  · have hmem := List.mem_of_mem_filter hrel
    rw [List.mem_cons, List.mem_singleton] at hmem
    obtain rfl | rfl := hmem
    · exact ⟨by decide, by decide⟩
    · exact ⟨by decide, by decide⟩
  · cases hrel

/-- A content with zero bytes: `x`, the name of another file, and `y`. -/
def withZeros : FileTree :=
  smallTree [([['s'], ['a']], .file [120, 0, 98, 0, 121])] (by decide)

/-- Those two files. -/
def twoFiles : FileTree :=
  smallTree [([['s'], ['a']], .file [120]), ([['s'], ['b']], .file [121])] (by decide)

/-- The directory `s` of a file system as a suite's, with what `*` hashes there. -/
def saltedSmall (fs : FileTree) (baseDir : List Char) (bytes : List UInt8)
    (located : fs.resolve baseDir = some [['s']] ∧ fs.node [['s']] = some .dir)
    (spelled : join baseDir ['*'] = "s/*".toList ∨ join baseDir ['*'] = "./s/*".toList)
    (shown : components ['s'] = (components baseDir).filter (· ≠ .curDir))
    (literal : Literal baseDir)
    (hashes : Returns (hashedBytes fs (globSmall fs) ['*'] baseDir) bytes) :
    SaltedDir globSmall insideSmall ['*'] where
  fs := fs
  baseDir := baseDir
  loc := [['s']]
  shown := ['s']
  bytes := bytes
  globs :=
    { located := located.1
      isDir := located.2
      matched := by
        intro _ paths h
        rw [globSmall, if_pos spelled] at h
        exact (Option.some.inj h).symm
      shown_components := shown
      below := isBelow_small _ _ _ }
  literal := literal
  hashes := hashes

def saltedZeros : SaltedDir globSmall insideSmall ['*'] :=
  saltedSmall withZeros ['s'] [97, 0, 120, 0, 98, 0, 121, 0] (by decide) (by decide) (by decide)
    (by decide) ⟨[], _, rfl⟩

def saltedTwo : SaltedDir globSmall insideSmall ['*'] :=
  saltedSmall twoFiles ['s'] [97, 0, 120, 0, 98, 0, 121, 0] (by decide) (by decide) (by decide)
    (by decide) ⟨[], _, rfl⟩

/-- The same directory, for the suite's file `./s/domarinn.yaml`. -/
def saltedDotted : SaltedDir globSmall insideSmall ['*'] :=
  saltedSmall twoFiles (suiteBaseDir "./s/domarinn.yaml".toList)
    [115, 47, 97, 0, 120, 0, 115, 47, 98, 0, 121, 0] (by decide) (by decide) (by decide)
    (by decide) ⟨[], _, rfl⟩

/-- One of the two files alone. -/
def saltedOne : SaltedDir globSmall insideSmall ['*'] :=
  saltedSmall (smallTree [([['s'], ['a']], .file [120])] (by decide)) ['s'] [97, 0, 120, 0]
    (by decide) (by decide) (by decide) (by decide) ⟨[], _, rfl⟩

/-- Other files hash to the same bytes, and the same files to others. -/
theorem digest_confuses :
    (saltedZeros.bytes = saltedTwo.bytes ∧ saltedZeros.entries ≠ saltedTwo.entries) ∧
      saltedDotted.entries = saltedTwo.entries ∧ saltedDotted.bytes ≠ saltedTwo.bytes := by
  decide

/-- Two salts' bytes are equal just where the matched files are, if and only if equal files have
the same directory left in front of their paths, and other files differ in the pieces that their
zero bytes part them into.  With nothing in front and no zero byte, they are. -/
theorem digest_identifies_iff (d₁ d₂ : SaltedDir glob inside pattern) :
    ((d₁.bytes = d₂.bytes ↔ d₁.entries = d₂.entries) ↔
      (d₁.entries = d₂.entries → d₁.front = d₂.front) ∧
      (d₁.entries ≠ d₂.entries → d₁.pieces ≠ d₂.pieces)) ∧
    (stray d₁.baseDir d₁.shown = [] → stray d₂.baseDir d₂.shown = [] →
      (∀ entry ∈ d₁.entries, 0 ∉ entry.2) → (∀ entry ∈ d₂.entries, 0 ∉ entry.2) →
      (d₁.bytes = d₂.bytes ↔ d₁.entries = d₂.entries)) := by
  have hexact : (d₁.bytes = d₂.bytes ↔ d₁.entries = d₂.entries) ↔
      (d₁.entries = d₂.entries → d₁.front = d₂.front) ∧
      (d₁.entries ≠ d₂.entries → d₁.pieces ≠ d₂.pieces) := by
    by_cases h : d₁.entries = d₂.entries
    · rw [SaltedDir.bytes_eq_iff_front h]
      exact ⟨fun hiff => ⟨fun _ => hiff.mpr h, fun hne => absurd h hne⟩,
        fun hcond => iff_of_true (hcond.1 h) h⟩
    · rw [SaltedDir.bytes_eq_iff]
      exact ⟨fun hiff => ⟨fun heq => absurd heq h, fun _ heq => h (hiff.mp heq)⟩,
        fun hcond => iff_of_false (hcond.2 h) h⟩
  refine ⟨hexact, fun hfront₁ hfront₂ hzero₁ hzero₂ => hexact.mpr ⟨fun _ => ?_, fun hne heq => ?_⟩⟩
  · rw [SaltedDir.front, hfront₁, SaltedDir.front, hfront₂]
  · rw [SaltedDir.pieces_of_front hfront₁, SaltedDir.pieces_of_front hfront₂] at heq
    exact hne (entries_of_pieces hzero₁ hzero₂ heq)

theorem digest_identifies_small :
    (saltedOne.bytes = saltedTwo.bytes ↔ saltedOne.entries = saltedTwo.entries) ∧
      saltedOne.entries ≠ saltedTwo.entries :=
  ⟨(digest_identifies_iff saltedOne saltedTwo).2 (by decide) (by decide) (by decide) (by decide),
    by decide⟩

end Sandbox
