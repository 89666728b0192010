/-
Loading a suite file with the files it extends and imports.

`loadAndCompose` keeps the canonical paths of the files it is in the middle of.  The files may link
to each other in any way; what is said here is about every file system.  The recursion has a depth
as an argument, which is enough as soon as there are more files than it.

* **`badFrom_iff`** — what one file adds: a link to a file that is being loaded, or a cycle, is met
  from it exactly when it is met from one of its links, with the file itself on the stack;
* **`load_detects_cycles`** — with finitely many files that can all be read, loading comes to an
  end, with the cycle error exactly when a cycle can be reached, and else with every document laid
  over what it extends and imports;
* **`Composes.unique`** — that document is the only one.
-/
import Domarinn.DeepMerge
import Domarinn.Interpolate
import Mathlib.Data.Set.Finite.Basic
import Mathlib.Logic.Relation

namespace Loader

open Json Relation

/-! ### Loading -/

/-- The file system, paths as the operating system takes them, and the YAML parser. -/
structure FileSystem where
  canonicalize : String → Option String
  readToString : String → Except String String
  parent : String → Option String
  join : String → String → String
  parseSuiteValue : String → Except String Json

/-- `take_string`: the key is removed whatever its value is. -/
def takeString (value : Json) (key : String) : Option String × Json :=
  match value with
  | .obj map =>
    match swapRemove key map with
    | some (.str s, map) => (some s, .obj map)
    | some (_, map) => (none, .obj map)
    | none => (none, .obj map)
  | value => (none, value)

/-- `take_string_seq`: items that are no strings are dropped. -/
def takeStringSeq (value : Json) (key : String) : List String × Json :=
  match value with
  | .obj map =>
    match swapRemove key map with
    | some (.arr seq, map) => (seq.filterMap asStr?, .obj map)
    | some (_, map) => ([], .obj map)
    | none => ([], .obj map)
  | value => ([], value)

/-- `spec.strip_prefix("file://")`. -/
def stripFile (spec : String) : String :=
  if "file://".toList.isPrefixOf spec.toList then String.ofList (spec.toList.drop 7) else spec

variable (fs : FileSystem)

/-- `resolve_ref`. -/
def resolveRef (spec baseDir : String) : String := fs.join baseDir (stripFile spec)

/-- What loading a file comes to, and the stack it leaves: nothing where the depth was too small. -/
abbrev Loaded (α : Type) := Option (Except LoadError (α × List String))

/-- The loop over the imports, with the document so far. -/
def importAll (load : String → List String → Loaded Json) (baseDir : String) :
    List String → Option Json → List String → Loaded (Option Json)
  | [], acc, stack => some (.ok (acc, stack))
  | spec :: specs, acc, stack =>
    match load (resolveRef fs spec baseDir) stack with
    | none => none
    | some (.error e) => some (.error e)
    | some (.ok (fragment, stack)) =>
      let acc := match acc with
        | some a => deepMerge a fragment
        | none => fragment
      importAll load baseDir specs (some acc) stack

/-- `load_and_compose`, to a depth. -/
def loadAndCompose : ℕ → String → List String → Loaded Json
  | 0, _, _ => none
  | depth + 1, file, stack =>
    let canonical := (fs.canonicalize file).getD file
    if canonical ∈ stack then some (.error (.cycle file))
    else
      let stack := stack ++ [canonical]
      match fs.readToString file with
      | .error source => some (.error (.io file source))
      | .ok text =>
        match fs.parseSuiteValue text with
        | .error e => some (.error (.yaml e))
        | .ok value =>
          let baseDir := (fs.parent file).getD "."
          let (extends?, value) := takeString value "extends"
          let (imports, value) := takeStringSeq value "imports"
          let base : Loaded (Option Json) := match extends? with
            | some spec =>
              match loadAndCompose depth (resolveRef fs spec baseDir) stack with
              | none => none
              | some (.error e) => some (.error e)
              | some (.ok (base, stack)) => some (.ok (some base, stack))
            | none => some (.ok (none, stack))
          match base with
          | none => none
          | some (.error e) => some (.error e)
          | some (.ok (acc, stack)) =>
            match importAll fs (loadAndCompose depth) baseDir imports acc stack with
            | none => none
            | some (.error e) => some (.error e)
            | some (.ok (acc, stack)) =>
              let merged := match acc with
                | some a => deepMerge a value
                | none => value
              some (.ok (merged, stack.dropLast))

/-! ### Files and their links -/

/-- The file that a path leads to, by its canonical path. -/
def fileOf (p : String) : String := (fs.canonicalize p).getD p

/-- The document in a file, if it can be read and parsed. -/
def document (p : String) : Option Json :=
  match fs.readToString p with
  | .error _ => none
  | .ok text => (fs.parseSuiteValue text).toOption

/-- The specs of what a document extends and imports, in the order in which they are loaded. -/
def specs (value : Json) : List String :=
  let (extends?, value) := takeString value "extends"
  extends?.toList ++ (takeStringSeq value "imports").1

/-- A document without its links. -/
def own (value : Json) : Json := (takeStringSeq (takeString value "extends").2 "imports").2

/-- The paths that a file links to. -/
def links (p : String) : List String :=
  match document fs p with
  | some value => (specs value).map fun spec => resolveRef fs spec ((fs.parent p).getD ".")
  | none => []

/-- One file links to another. -/
def LinksTo (p q : String) : Prop := q ∈ links fs p

/-- A cycle can be reached: a file links, over some others, to itself. -/
def ReachesCycle (p : String) : Prop :=
  ∃ a b, ReflTransGen (LinksTo fs) p a ∧ TransGen (LinksTo fs) a b ∧ fileOf fs a = fileOf fs b

/-- Documents laid over each other, from left to right, and one over them all. -/
def layered : List Json → Json → Json
  | [], upper => upper
  | base :: docs, upper => deepMerge (docs.foldl deepMerge base) upper

mutual

/-- What a file composes to: its own document over what its links compose to, in their order. -/
inductive Composes : String → Json → Prop where
  | file {p : String} {value : Json} {docs : List Json} (hdoc : document fs p = some value)
      (hlinks : ComposeAll (links fs p) docs) : Composes p (layered docs (own value))

/-- What files compose to, one by one. -/
inductive ComposeAll : List String → List Json → Prop where
  | nil : ComposeAll [] []
  | cons {p : String} {ps : List String} {doc : Json} {docs : List Json} (hp : Composes p doc)
      (hps : ComposeAll ps docs) : ComposeAll (p :: ps) (doc :: docs)

end

variable {fs}

theorem document_eq_some {p : String} {value : Json} : document fs p = some value ↔
    ∃ text, fs.readToString p = .ok text ∧ fs.parseSuiteValue text = .ok value := by
  rw [document]
  cases fs.readToString p with
  | error source =>
    refine iff_of_false (fun h => by cases h) ?_
    rintro ⟨text, h, -⟩
    cases h
  | ok text =>
    simp only [Except.ok.injEq, exists_eq_left']
    cases fs.parseSuiteValue text with
    | error e => exact iff_of_false (fun h => by cases h) fun h => by cases h
    | ok v => simp [Except.toOption]

mutual

/-- **A file composes to one document.** -/
theorem Composes.unique {p : String} {d d' : Json} : Composes fs p d → Composes fs p d' → d = d'
  | .file hdoc hlinks, .file hdoc' hlinks' => by
    obtain rfl := Option.some_inj.mp (hdoc.symm.trans hdoc')
    rw [hlinks.unique hlinks']

theorem ComposeAll.unique {ps : List String} {ds ds' : List Json} :
    ComposeAll fs ps ds → ComposeAll fs ps ds' → ds = ds'
  | .nil, .nil => rfl
  | .cons hp hps, .cons hp' hps' => by rw [hp.unique hp', hps.unique hps']

end

/-! ### Cycles, file by file -/

/-- From a path one comes to a file that is being loaded, or to a cycle. -/
def BadFrom (fs : FileSystem) (p : String) (stack : List String) : Prop :=
  (∃ q, ReflTransGen (LinksTo fs) p q ∧ fileOf fs q ∈ stack) ∨ ReachesCycle fs p

theorem ReachesCycle.of_link {p c : String} (h : LinksTo fs p c) (hc : ReachesCycle fs c) :
    ReachesCycle fs p := by
  obtain ⟨a, b, hca, hab, heq⟩ := hc
  exact ⟨a, b, .head h hca, hab, heq⟩

/-- **What one file adds**: for a file that is not being loaded, trouble is met from one of its
links, with the file itself being loaded. -/
theorem badFrom_iff {p : String} {stack : List String} (hp : fileOf fs p ∉ stack) :
    BadFrom fs p stack ↔ ∃ c ∈ links fs p, BadFrom fs c (stack ++ [fileOf fs p]) := by
  constructor
  · rintro (⟨q, hpq, hq⟩ | ⟨a, b, hpa, hab, heq⟩)
    · obtain rfl | ⟨c, hc, hcq⟩ := ReflTransGen.cases_head hpq
      · exact absurd hq hp
      · exact ⟨c, hc, .inl ⟨q, hcq, List.mem_append_left _ hq⟩⟩
    · obtain rfl | ⟨c, hc, hca⟩ := ReflTransGen.cases_head hpa
      · -- the cycle comes back to this file
        obtain ⟨c, hc, hcb⟩ := TransGen.head'_iff.mp hab
        refine ⟨c, hc, .inl ⟨b, hcb, List.mem_append_right _ ?_⟩⟩
        rw [heq]
        exact List.mem_singleton_self _
      · exact ⟨c, hc, .inr ⟨a, b, hca, hab, heq⟩⟩
  · rintro ⟨c, hc, ⟨q, hcq, hq⟩ | hcycle⟩
    · rw [List.mem_append, List.mem_singleton] at hq
      obtain hq | hq := hq
      · exact .inl ⟨q, .head hc hcq, hq⟩
      · exact .inr ⟨p, q, .refl, TransGen.head' hc hcq, hq.symm⟩
    · exact .inr (hcycle.of_link hc)

theorem badFrom_of_mem {p : String} {stack : List String} (hp : fileOf fs p ∈ stack) :
    BadFrom fs p stack := .inl ⟨p, .refl, hp⟩

theorem badFrom_nil {p : String} : BadFrom fs p [] ↔ ReachesCycle fs p := by
  refine or_iff_right ?_
  rintro ⟨q, -, hq⟩
  cases hq

/-! ### The extended file is the first of the imports -/

theorem importAll_append {load : String → List String → Loaded Json} {baseDir : String} :
    ∀ (xs ys : List String) (acc : Option Json) (stack : List String),
      importAll fs load baseDir (xs ++ ys) acc stack =
        match importAll fs load baseDir xs acc stack with
        | none => none
        | some (.error e) => some (.error e)
        | some (.ok (acc, stack)) => importAll fs load baseDir ys acc stack
  | [], ys, acc, stack => rfl
  | x :: xs, ys, acc, stack => by
    rw [List.cons_append, importAll, importAll]
    cases load (resolveRef fs x baseDir) stack with
    | none => rfl
    | some result =>
      cases result with
      | error e => rfl
      | ok loaded => exact importAll_append xs ys _ _

/-- One loop over all links of a document. -/
theorem loadAndCompose_succ (depth : ℕ) (file : String) (stack : List String) :
    loadAndCompose fs (depth + 1) file stack =
      if fileOf fs file ∈ stack then some (.error (.cycle file))
      else match fs.readToString file with
        | .error source => some (.error (.io file source))
        | .ok text => match fs.parseSuiteValue text with
          | .error e => some (.error (.yaml e))
          | .ok value =>
            match importAll fs (loadAndCompose fs depth) ((fs.parent file).getD ".") (specs value)
              none (stack ++ [fileOf fs file]) with
            | none => none
            | some (.error e) => some (.error e)
            | some (.ok (acc, stack)) => some (.ok (match acc with
                | some a => deepMerge a (own value)
                | none => own value, stack.dropLast)) := by
  rw [loadAndCompose]
  refine if_congr Iff.rfl rfl ?_
  cases fs.readToString file with
  | error source => rfl
  | ok text =>
    dsimp only
    cases fs.parseSuiteValue text with
    | error e => rfl
    | ok value =>
      dsimp only
      -- loading the extended file is one turn of the loop, with no document so far
      rw [specs, importAll_append]
      cases (takeString value "extends").1 with
      | none => rfl
      | some spec =>
        rw [Option.toList_some, importAll]
        dsimp only
        rw [← fileOf]
        cases loadAndCompose fs depth (resolveRef fs spec ((fs.parent file).getD "."))
          (stack ++ [fileOf fs file]) with
        | none => rfl
        | some result =>
          cases result with
          | error e => rfl
          | ok loaded => rfl

/-! ### A greater depth changes nothing -/

theorem importAll_mono {load load' : String → List String → Loaded Json} {baseDir : String}
    (h : ∀ p stack r, load p stack = some r → load' p stack = some r) :
    ∀ (xs : List String) (acc : Option Json) (stack : List String) {r},
      importAll fs load baseDir xs acc stack = some r →
        importAll fs load' baseDir xs acc stack = some r
  | [], acc, stack, r, hr => hr
  | x :: xs, acc, stack, r, hr => by
    rw [importAll] at hr ⊢
    cases hload : load (resolveRef fs x baseDir) stack with
    | none =>
      rw [hload] at hr
      cases hr
    | some result =>
      rw [hload] at hr
      rw [h _ _ _ hload]
      cases result with
      | error e => exact hr
      | ok loaded => exact importAll_mono h xs _ _ hr

theorem loadAndCompose_mono : ∀ {depth : ℕ} {file : String} {stack : List String} {r},
    loadAndCompose fs depth file stack = some r → loadAndCompose fs (depth + 1) file stack = some r
  | 0, file, stack, r, h => by cases h
  | depth + 1, file, stack, r, h => by
    rw [loadAndCompose_succ] at h ⊢
    -- more fuel matters only below the imports; everything before them is read alike
    by_cases hmem : fileOf fs file ∈ stack
    · rwa [if_pos hmem] at h ⊢
    · rw [if_neg hmem] at h ⊢
      cases hread : fs.readToString file with
      | error source => rwa [hread] at h
      | ok text =>
        rw [hread] at h
        dsimp only at h ⊢
        cases hparse : fs.parseSuiteValue text with
        | error e => rwa [hparse] at h
        | ok value =>
          rw [hparse] at h
          dsimp only at h ⊢
          cases hall : importAll fs (loadAndCompose fs depth) ((fs.parent file).getD ".")
              (specs value) none (stack ++ [fileOf fs file]) with
          | none =>
            rw [hall] at h
            cases h
          | some result =>
            rw [hall] at h
            rw [importAll_mono (fun _ _ _ => loadAndCompose_mono) _ _ _ hall]
            exact h

/-! ### What loading comes to -/

/-- The documents so far as one, if there are any. -/
def soFar : List Json → Option Json
  | [] => none
  | base :: docs => some (docs.foldl deepMerge base)

theorem soFar_concat (docs : List Json) (doc : Json) :
    soFar (docs ++ [doc]) = some (match soFar docs with
      | some a => deepMerge a doc
      | none => doc) := by
  cases docs with
  | nil => rfl
  | cons base docs => rw [List.cons_append, soFar, soFar, List.foldl_append]; rfl

theorem layered_eq (docs : List Json) (upper : Json) : layered docs upper = match soFar docs with
    | some a => deepMerge a upper
    | none => upper := by
  cases docs <;> rfl

/-- An outcome of loading that is as it should be: the stack is as it was, and an error is a cycle
that can be met. -/
def Settled (fs : FileSystem) (p : String) (stack : List String) :
    Except LoadError (Json × List String) → Prop
  | .ok (doc, after) => after = stack ∧ Composes fs p doc ∧ ¬ BadFrom fs p stack
  | .error e => (∃ q, e = .cycle q) ∧ BadFrom fs p stack

/-- The loop, when each of the links is loaded as it should be. -/
theorem importAll_settled {load : String → List String → Loaded Json} {baseDir : String}
    {stack : List String} : ∀ (xs : List String) (docs : List Json),
      (∀ x ∈ xs, ∃ r, load (resolveRef fs x baseDir) stack = some r ∧
        Settled fs (resolveRef fs x baseDir) stack r) →
      (∃ more, importAll fs load baseDir xs (soFar docs) stack =
          some (.ok (soFar (docs ++ more), stack)) ∧
          ComposeAll fs (xs.map fun x => resolveRef fs x baseDir) more ∧
          ∀ x ∈ xs, ¬ BadFrom fs (resolveRef fs x baseDir) stack) ∨
        ∃ q, importAll fs load baseDir xs (soFar docs) stack = some (.error (.cycle q)) ∧
          ∃ x ∈ xs, BadFrom fs (resolveRef fs x baseDir) stack
  | [], docs, _ => .inl ⟨[], by rw [importAll, List.append_nil], .nil, List.forall_mem_nil _⟩
  | x :: xs, docs, h => by
    rw [List.forall_mem_cons] at h
    obtain ⟨⟨r, hload, hsettled⟩, hrest⟩ := h
    cases r with
    | error e =>
      -- the first link that fails ends the loop
      obtain ⟨⟨q, rfl⟩, hbad⟩ := hsettled
      exact .inr ⟨q, by rw [importAll, hload], x, List.mem_cons_self, hbad⟩
    | ok loaded =>
      obtain ⟨doc, after⟩ := loaded
      obtain ⟨rfl, hcomposes, hgood⟩ := hsettled
      have hstep : importAll fs load baseDir (x :: xs) (soFar docs) after =
          importAll fs load baseDir xs (soFar (docs ++ [doc])) after := by
        rw [importAll, hload, soFar_concat]
      rw [hstep]
      obtain ⟨more, hok, hall, hxs⟩ | ⟨q, herror, y, hy, hbad⟩ :=
        importAll_settled xs (docs ++ [doc]) hrest
      · rw [List.append_assoc, List.singleton_append] at hok
        exact .inl ⟨doc :: more, hok, .cons hcomposes hall, List.forall_mem_cons.mpr ⟨hgood, hxs⟩⟩
      · exact .inr ⟨q, herror, y, List.mem_cons_of_mem _ hy, hbad⟩

/-- **What loading comes to**: with a depth for every file that is not on the stack. -/
theorem loadAndCompose_settled {root : String} {files : Finset String}
    (hfiles : ∀ p, ReflTransGen (LinksTo fs) root p → fileOf fs p ∈ files)
    (hread : ∀ p, ReflTransGen (LinksTo fs) root p → (document fs p).isSome = true) :
    ∀ (depth : ℕ) (p : String) (stack : List String), ReflTransGen (LinksTo fs) root p →
      (files.filter (· ∉ stack)).card < depth →
        ∃ r, loadAndCompose fs depth p stack = some r ∧ Settled fs p stack r := by
  intro depth
  induction depth with
  | zero => exact fun p stack _ h => absurd h (Nat.not_lt_zero _)
  | succ depth ih =>
    intro p stack hp hdepth
    rw [loadAndCompose_succ]
    by_cases hmem : fileOf fs p ∈ stack
    · exact ⟨_, if_pos hmem, ⟨p, rfl⟩, badFrom_of_mem hmem⟩
    · rw [if_neg hmem]
      obtain ⟨value, hvalue⟩ := Option.isSome_iff_exists.mp (hread p hp)
      obtain ⟨text, htext, hparse⟩ := document_eq_some.mp hvalue
      have hlinks : links fs p =
          (specs value).map fun spec => resolveRef fs spec ((fs.parent p).getD ".") := by
        rw [links, hvalue]
      -- the file itself is one file less to come
      have hcard : (files.filter (· ∉ stack ++ [fileOf fs p])).card < depth := by
        have hlt : (files.filter (· ∉ stack ++ [fileOf fs p])).card <
            (files.filter (· ∉ stack)).card := by
          refine Finset.card_lt_card ⟨fun f hf => ?_, fun hsub => ?_⟩
          · rw [Finset.mem_filter, List.mem_append, not_or] at hf
            exact Finset.mem_filter.mpr ⟨hf.1, hf.2.1⟩
          · have hself := hsub (Finset.mem_filter.mpr ⟨hfiles p hp, hmem⟩)
            rw [Finset.mem_filter, List.mem_append, not_or] at hself
            exact hself.2.2 (List.mem_singleton_self _)
        omega
      have hlink : ∀ x ∈ specs value,
          LinksTo fs p (resolveRef fs x ((fs.parent p).getD ".")) := by
        intro x hx
        rw [LinksTo, hlinks]
        exact List.mem_map_of_mem hx
      have hload : ∀ x ∈ specs value, ∃ r,
          loadAndCompose fs depth (resolveRef fs x ((fs.parent p).getD "."))
            (stack ++ [fileOf fs p]) = some r ∧
          Settled fs (resolveRef fs x ((fs.parent p).getD ".")) (stack ++ [fileOf fs p]) r :=
        fun x hx => ih _ _ (hp.tail (hlink x hx)) hcard
      have hall := importAll_settled (specs value) [] hload
      have hbad := badFrom_iff hmem
      rw [htext]
      dsimp only
      rw [hparse]
      dsimp only
      obtain ⟨docs, hok, hdocs, hgood⟩ | ⟨q, herror, x, hx, hx'⟩ := hall
      · rw [soFar, List.nil_append] at hok
        rw [hok]
        dsimp only
        rw [List.dropLast_concat, ← layered_eq]
        refine ⟨_, rfl, rfl, .file hvalue (hlinks ▸ hdocs), fun h => ?_⟩
        obtain ⟨c, hc, hcbad⟩ := hbad.mp h
        rw [hlinks, List.mem_map] at hc
        obtain ⟨x, hx, rfl⟩ := hc
        exact hgood x hx hcbad
      · rw [soFar] at herror
        rw [herror]
        refine ⟨_, rfl, ⟨q, rfl⟩, hbad.mpr ⟨_, ?_, hx'⟩⟩
        rw [hlinks]
        exact List.mem_map_of_mem hx

/-- **Loading comes to an end, and tells exactly the cycles.** -/
theorem load_detects_cycles {root : String}
    (hfinite : {f | ∃ p, ReflTransGen (LinksTo fs) root p ∧ fileOf fs p = f}.Finite)
    (hread : ∀ p, ReflTransGen (LinksTo fs) root p → (document fs p).isSome = true) :
    ∃ result, (∃ bound, ∀ depth, bound ≤ depth → loadAndCompose fs depth root [] = some result) ∧
      ((∃ p, result = .error (.cycle p)) ↔ ReachesCycle fs root) ∧
      (¬ ReachesCycle fs root → ∃ doc, result = .ok (doc, []) ∧ Composes fs root doc) := by
  have hfiles : ∀ p, ReflTransGen (LinksTo fs) root p → fileOf fs p ∈ hfinite.toFinset :=
    fun p hp => hfinite.mem_toFinset.mpr ⟨p, hp, rfl⟩
  -- the stack holds no file twice, so the number of files is fuel enough
  obtain ⟨result, hload, hsettled⟩ := loadAndCompose_settled hfiles hread
    (hfinite.toFinset.card + 1) root [] .refl (Nat.lt_succ_of_le (Finset.card_filter_le _ _))
  refine ⟨result, ⟨hfinite.toFinset.card + 1, fun depth hdepth => ?_⟩, ?_⟩
  · induction depth, hdepth using Nat.le_induction with
    | base => exact hload
    | succ depth _ ih => exact loadAndCompose_mono ih
  · cases result with
    | error e =>
      obtain ⟨⟨q, rfl⟩, hbad⟩ := hsettled
      have hcycle := badFrom_nil.mp hbad
      exact ⟨iff_of_true ⟨q, rfl⟩ hcycle, fun h => absurd hcycle h⟩
    | ok loaded =>
      obtain ⟨doc, after⟩ := loaded
      obtain ⟨rfl, hcomposes, hgood⟩ := hsettled
      have hcycle : ¬ ReachesCycle fs root := fun h => hgood (badFrom_nil.mpr h)
      refine ⟨iff_of_false ?_ hcycle, fun _ => ⟨doc, rfl, hcomposes⟩⟩
      rintro ⟨p, hp⟩
      cases hp

/-! ### One file reached along two paths -/

/-- The suite imports two files that both extend a third. -/
def diamondDocument (name : String) : Json :=
  if name = "suite" then .obj [("version", .nat 1), ("imports", .arr [.str "a", .str "b"])]
  else if name = "a" then .obj [("extends", .str "file://c"), ("name", .str "a")]
  else if name = "b" then .obj [("extends", .str "file://c"), ("name", .str "b")]
  else .obj [("name", .str "c")]

/-- Four files in one directory. -/
def diamond : FileSystem where
  canonicalize p := some p
  readToString p := .ok p
  parent _ := some ""
  join _ rel := rel
  parseSuiteValue text := .ok (diamondDocument text)

/-- How far a file is from the end. -/
def diamondRank (p : String) : ℕ := if p = "suite" then 2 else if p = "a" ∨ p = "b" then 1 else 0

theorem diamond_links {p q : String} (h : LinksTo diamond p q) :
    diamondRank q < diamondRank p ∧ q ∈ ["a", "b", "c"] := by
  by_cases hsuite : p = "suite"
  · subst hsuite
    have hlinks : links diamond "suite" = ["a", "b"] := by decide
    rw [LinksTo, hlinks] at h
    revert q
    decide
  · by_cases ha : p = "a"
    · subst ha
      have hlinks : links diamond "a" = ["c"] := by decide
      rw [LinksTo, hlinks] at h
      revert q
      decide
    · by_cases hb : p = "b"
      · subst hb
        have hlinks : links diamond "b" = ["c"] := by decide
        rw [LinksTo, hlinks] at h
        revert q
        decide
      · -- the last file, and every name that is none
        have hlast : diamondDocument p = .obj [("name", .str "c")] := by
          rw [diamondDocument, if_neg hsuite, if_neg ha, if_neg hb]
        have hdoc : document diamond p = some (.obj [("name", .str "c")]) :=
          document_eq_some.mpr ⟨p, rfl, congrArg Except.ok hlast⟩
        have hlinks : links diamond p = [] := by
          rw [links, hdoc]
          rfl
        rw [LinksTo, hlinks] at h
        cases h

/-- The diamond loads. -/
theorem diamond_loads : ∃ result,
    (∃ bound, ∀ depth, bound ≤ depth → loadAndCompose diamond depth "suite" [] = some result) ∧
      ∃ doc, result = .ok (doc, []) ∧ Composes diamond "suite" doc := by
  have hrank {a b : String} (h : TransGen (LinksTo diamond) a b) :
      diamondRank b < diamondRank a := by
    induction h with
    | single h => exact (diamond_links h).1
    | tail _ h ih => exact (diamond_links h).1.trans ih
  have hfinite : {f | ∃ p, ReflTransGen (LinksTo diamond) "suite" p ∧
      fileOf diamond p = f}.Finite := by
    refine (List.finite_toSet ["suite", "a", "b", "c"]).subset ?_
    rintro _ ⟨p, hp, rfl⟩
    obtain rfl | ⟨q, -, hq⟩ := ReflTransGen.cases_tail hp
    · exact List.mem_cons_self
    · exact List.mem_cons_of_mem _ (diamond_links hq).2
  obtain ⟨result, hbound, -, hloads⟩ := load_detects_cycles hfinite fun _ _ => rfl
  refine ⟨result, hbound, hloads ?_⟩
  rintro ⟨a, b, -, hab, heq⟩
  have heq : a = b := heq
  exact absurd (hrank hab) (by rw [heq]; exact lt_irrefl _)

end Loader
