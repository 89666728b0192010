/-
When the cells of a run have keys of their own.

A test id is written by hand, assigned from a stem and an index, spelled by a matrix
combination or rendered from a template.  `validate` refuses repeated provider ids and
repeated prompt ids, but nothing looks at test ids: two files of one name in two
directories number their cases alike.

* **`CaseName.clash_iff`** — when two cases get one id, in terms of where the ids come from;
* **`resolveTests_selection`** — the cases of a run are the declared ones, each with its
  name's text as id;
* **`caseKeys_distinct_iff`** — the keys of a run are pairwise distinct exactly when no two
  cases under one provider clash, and no two cells read alike across a NUL in an id;
* **`same_stem_collides`** — two files of one name give two cells one key.
-/
import Domarinn.Fallible
import Domarinn.RunPlan
import Mathlib.Data.List.Pairwise
import Mathlib.Data.List.ProdSigma

/-! ### Names -/

/-- Where the id of a case comes from. -/
inductive CaseName where
  | given (id : String)
  | numbered (stem : String) (index : ℕ)
  | swept (base : CaseName) (combo : List (String × Val))
  | rendered (id : String)

namespace CaseName

/-- The id. -/
def text : CaseName → String
  | given id => id
  | numbered stem index => s!"{stem}/{index}"
  | swept base combo => defaultMatrixId base.text combo
  | rendered id => id

/-- Two names give one id: two assigned ids do when stem and index agree, others when they
read alike. -/
def Clash : CaseName → CaseName → Prop
  | numbered stem index, numbered stem' index' => stem = stem' ∧ index = index'
  | name, name' => name.text = name'.text

end CaseName

/-- A list is split at the first occurrence of a separator in one way. -/
theorem append_sep_inj {α : Type} {x : α} : ∀ {as as' bs bs' : List α}, x ∉ as → x ∉ as' →
    as ++ x :: bs = as' ++ x :: bs' → as = as' ∧ bs = bs' := by
  intro as
  induction as with
  | nil =>
    rintro (_ | ⟨a', as'⟩) bs bs' - has' h
    · exact ⟨rfl, (List.cons.inj h).2⟩
    · exact absurd (List.mem_cons.mpr (.inl (List.cons.inj h).1)) has'
  | cons a as ih =>
    rintro (_ | ⟨a', as'⟩) bs bs' has has' h
    · exact absurd (List.mem_cons.mpr (.inl (List.cons.inj h).1.symm)) has
    · obtain ⟨rfl, htail⟩ := List.cons.inj h
      obtain ⟨rfl, rfl⟩ := ih (fun hm => has (List.mem_cons_of_mem _ hm))
        (fun hm => has' (List.mem_cons_of_mem _ hm)) htail
      exact ⟨rfl, rfl⟩

/-- A list is split at the last occurrence of a separator in one way. -/
theorem append_last_sep_inj {α : Type} {x : α} {as as' bs bs' : List α} (hbs : x ∉ bs)
    (hbs' : x ∉ bs') (h : as ++ x :: bs = as' ++ x :: bs') : as = as' ∧ bs = bs' := by
  have hrev : bs.reverse ++ x :: as.reverse = bs'.reverse ++ x :: as'.reverse := by
    simpa using congrArg List.reverse h
  obtain ⟨hb, ha⟩ := append_sep_inj (by simpa using hbs) (by simpa using hbs') hrev
  exact ⟨List.reverse_injective ha, List.reverse_injective hb⟩

/-- Assigned ids agree exactly when stem and index do: digits hold no slash. -/
theorem numbered_text_inj {stem other : String} {i j : ℕ} :
    s!"{stem}/{i}" = s!"{other}/{j}" ↔ stem = other ∧ i = j := by
  constructor
  · intro h
    have hslash : ∀ n : ℕ, '/' ∉ Nat.toDigits 10 n := fun n hmem =>
      absurd (Json.isNumChar_of_mem_toDigits hmem) (by decide)
    have hchars : stem.toList ++ '/' :: Nat.toDigits 10 i =
        other.toList ++ '/' :: Nat.toDigits 10 j := by
      have hlist := congrArg String.toList h
      change ((stem ++ "/") ++ String.ofList (Nat.toDigits 10 i)).toList =
        ((other ++ "/") ++ String.ofList (Nat.toDigits 10 j)).toList at hlist
      simpa using hlist
    obtain ⟨hstem, hindex⟩ := append_last_sep_inj (hslash i) (hslash j) hchars
    exact ⟨String.toList_inj.mp hstem, Json.toDigits_injective hindex⟩
  · rintro ⟨rfl, rfl⟩
    rfl

/-- **Names clash exactly when they give one id.** -/
theorem CaseName.clash_iff {name name' : CaseName} :
    name.Clash name' ↔ name.text = name'.text := by
  cases name <;> cases name' <;> try rfl
  exact numbered_text_inj.symm

/-! ### The declared cases -/

/-- A case as it is spelled, with its name. -/
structure DeclaredCase where
  name : CaseName
  case : TestCase

/-- The value of a result that is one. -/
def okOr {ε α : Type} (fallback : α) : Except ε α → α
  | .ok a => a
  | .error _ => fallback

/-- The name of a case before any sweep. -/
def nameOf (stem : String) (index : ℕ) (tc : TestCase) : CaseName :=
  match tc.id with
  | some id => .given id
  | none => .numbered stem index

/-- The cases of one file or generator. -/
def declareCases (stem : String) (cases : List TestCase) : List DeclaredCase :=
  cases.mapIdx fun i tc => ⟨nameOf stem i tc, tc⟩

section
variable (dir : SuiteDir)

/-- The cases of a test file. -/
def declaredInFile (path : String) : List DeclaredCase :=
  declareCases ((fileStem path).getD "tests") (okOr [] (dir.parse path))

/-- The cases of an entry of `tests:`. -/
def declaredInSource (index : ℕ) : TestSource → List DeclaredCase
  | .inline tc => [⟨nameOf "inline" index tc, tc⟩]
  | .generator _ => []
  | .glob spec => match stripFileUrl spec with
    | some rel => (okOr [] (dir.glob rel)).flatMap (declaredInFile dir)
    | none => []

/-- The name of one combination of a case's axes. -/
def comboName (d : DeclaredCase) (combo : List (String × Val)) : CaseName :=
  match d.case.matrixId with
  | some template =>
    .rendered (okOr "" (dir.render template (combo.map fun axis => (axis.1, axis.2.asJson))))
  | none => .swept d.name combo

/-- A case, once for each combination of its axes. -/
def sweepNames (d : DeclaredCase) : List DeclaredCase :=
  if d.case.matrix.isEmpty then [d]
  else (matrixCombos d.case.matrix).map fun combo => ⟨comboName dir d combo, d.case⟩

/-- Every case that the suite, its files and its generators declare. -/
def declaredCases (suite : Suite) : List DeclaredCase :=
  (suite.tests.mapIdx (declaredInSource dir)).flatten.flatMap (sweepNames dir) ++
    (deferredGenerators suite).flatMap fun gen =>
      declareCases (generatorStem gen) (okOr [] (dir.generate gen))

end

/-! ### From declared to resolved -/

/-- What filters and keys read of a case. -/
structure Selection where
  id : Option String
  tags : List String
  onlyProviders : List String
  skipProviders : List String

def TestCase.selection (tc : TestCase) : Selection :=
  ⟨tc.id, tc.tags, tc.onlyProviders, tc.skipProviders⟩

/-- A declared case with its name as id. -/
def DeclaredCase.loaded (d : DeclaredCase) : TestCase := { d.case with id := some d.name.text }

/-- A declared case as a run sees it. -/
def DeclaredCase.resolved (defaults : Option Defaults) (d : DeclaredCase) : TestCase :=
  match defaults with
  | some defaults => mergeDefaults defaults d.loaded
  | none => d.loaded

theorem map_mapIdx {α β γ : Type} (f : ℕ → α → β) (g : β → γ) (xs : List α) :
    (xs.mapIdx f).map g = xs.mapIdx fun i x => g (f i x) := by
  rw [List.mapIdx_eq_zipIdx_map, List.mapIdx_eq_zipIdx_map, List.map_map]
  rfl

/-- The tags after the defaults, and the rest as it is. -/
def mergeSelection (defaults : Option Defaults) (s : Selection) : Selection :=
  match defaults with
  | some d => { s with tags := d.tags.foldl (fun tags tag =>
      if tags.contains tag then tags else tags ++ [tag]) s.tags }
  | none => s

theorem selection_resolved (defaults : Option Defaults) (d : DeclaredCase) :
    (d.resolved defaults).selection = mergeSelection defaults d.loaded.selection := by
  cases defaults <;> rfl

theorem selection_applyDefaults (defaults : Option Defaults) (tests : List TestCase) :
    (applyDefaults defaults tests).map TestCase.selection =
      (tests.map TestCase.selection).map (mergeSelection defaults) := by
  cases defaults with
  | none => simp [applyDefaults, mergeSelection]
  | some d =>
    simp only [applyDefaults, List.map_map]
    exact List.map_congr_left fun tc _ => rfl

section
variable {dir : SuiteDir}

/-- File variables change no id, no tag and no provider list. -/
theorem selection_resolveFileVars {tc tc' : TestCase} (h : resolveFileVars dir tc = .ok tc') :
    tc'.selection = tc.selection := by
  obtain ⟨vars, -, hret⟩ := bind_ok h
  cases hret
  rfl

theorem ensureId_eq_loaded (stem : String) (i : ℕ) (tc : TestCase) :
    ensureId s!"{stem}/{i}" tc = (⟨nameOf stem i tc, tc⟩ : DeclaredCase).loaded := by
  rcases tc with ⟨_ | id, tags, vars, matrix, matrixId, only, skip⟩ <;> rfl

theorem numberCases_eq (stem : String) (cases : List TestCase) :
    numberCases stem cases = (declareCases stem cases).map DeclaredCase.loaded := by
  rw [numberCases, declareCases, map_mapIdx]
  congr with i tc
  exact ensureId_eq_loaded stem i tc

theorem loadTestFile_eq {path : String} {cases : List TestCase}
    (h : loadTestFile dir path = .ok cases) :
    cases.map id = (declaredInFile dir path).map DeclaredCase.loaded := by
  obtain ⟨parsed, hparse, hret⟩ := bind_ok h
  cases hret
  rw [List.map_id, numberCases_eq, declaredInFile, hparse, okOr]

theorem loadSource_eq {index : ℕ} {source : TestSource} {cases : List TestCase}
    (h : loadSource dir index source = .ok cases) :
    cases.map id = (declaredInSource dir index source).map DeclaredCase.loaded := by
  rw [List.map_id]
  cases source with
  | inline tc =>
    cases h
    rw [declaredInSource, List.map_singleton, ← ensureId_eq_loaded]
    rfl
  | generator gen =>
    -- a generator runs once the suite is loaded
    cases h
    rfl
  | glob spec =>
    simp only [loadSource, loadGlob] at h
    cases hspec : stripFileUrl spec with
    | none =>
      rw [hspec] at h
      cases h
    | some rel =>
      rw [hspec] at h
      obtain ⟨files, hfiles, h⟩ := bind_ok h
      obtain ⟨loaded, hloaded, hret⟩ := bind_ok h
      cases hret
      have hflat := mapM_ok_flatten (fun _ _ => loadTestFile_eq) hloaded
      rw [List.map_id] at hflat
      simp only [declaredInSource, hspec, hfiles, okOr, hflat, List.map_flatMap]

/-- One combination has its name's text as id, and keeps the rest. -/
theorem comboCase_selection {d : DeclaredCase} {combo : List (String × Val)} {tc : TestCase}
    (h : comboCase dir d.loaded combo = .ok tc) :
    tc.selection = (⟨comboName dir d combo, d.case⟩ : DeclaredCase).loaded.selection := by
  obtain ⟨id, hid, hret⟩ := bind_ok h
  cases hret
  have htext : id = (comboName dir d combo).text := by
    unfold comboId at hid
    unfold comboName
    cases hm : d.case.matrixId with
    | none =>
      rw [show d.loaded.matrixId = none from hm] at hid
      exact (Except.ok.inj hid).symm
    | some template =>
      rw [show d.loaded.matrixId = some template from hm] at hid
      simp only [renderMatrixId] at hid
      split at hid
      · next text hrender =>
        obtain rfl := Except.ok.inj hid
        simp only [hrender, okOr, CaseName.text]
      · cases hid
  rw [htext]
  rfl

/-- A sweep spells the names of its combinations. -/
theorem expandMatrix_selection {d : DeclaredCase} {tests : List TestCase}
    (h : expandMatrix dir d.loaded = .ok tests) :
    tests.map TestCase.selection =
      (sweepNames dir d).map fun e => e.loaded.selection := by
  unfold expandMatrix at h
  unfold sweepNames
  by_cases hm : d.case.matrix.isEmpty
  · rw [if_pos (show d.loaded.matrix.isEmpty = true from hm)] at h
    cases h
    rw [if_pos hm]
    rfl
  · rw [if_neg (show ¬ d.loaded.matrix.isEmpty = true from hm)] at h
    rw [if_neg hm, List.map_map]
    split at h
    · cases h
    · exact mapM_ok_map (fun _ _ => comboCase_selection) h

/-- The cases that are not generated. -/
theorem expandTests_selection {suite : Suite} {tests : List TestCase}
    (h : expandTests dir suite = .ok tests) :
    tests.map TestCase.selection =
      ((suite.tests.mapIdx (declaredInSource dir)).flatten.flatMap (sweepNames dir)).map
        fun d => (d.resolved suite.defaults).selection := by
  obtain ⟨loaded, hloaded, h⟩ := bind_ok h
  obtain ⟨swept, hswept, hfiles⟩ := bind_ok h
  have hload : loaded.flatten =
      (suite.tests.mapIdx (declaredInSource dir)).flatten.map DeclaredCase.loaded := by
    have hflat := mapM_ok_flatten (fun _ _ => loadSource_eq) hloaded
    rw [List.map_id] at hflat
    rw [hflat, List.flatMap, map_mapIdx, List.map_flatten, map_mapIdx]
  have hsweep : swept.flatten.map TestCase.selection =
      ((suite.tests.mapIdx (declaredInSource dir)).flatten.flatMap (sweepNames dir)).map
        fun d => d.loaded.selection := by
    rw [hload, List.mapM_map] at hswept
    rw [mapM_ok_flatten (fun _ _ => expandMatrix_selection) hswept, List.map_flatMap]
  rw [mapM_ok_map (fun _ _ => selection_resolveFileVars) hfiles, selection_applyDefaults, hsweep,
    List.map_map]
  exact List.map_congr_left fun d _ => (selection_resolved _ d).symm

/-- The generated cases. -/
theorem resolveGenerators_selection {suite : Suite} {tests : List TestCase}
    (h : resolveGenerators dir suite = .ok tests) :
    tests.map TestCase.selection =
      ((deferredGenerators suite).flatMap fun gen =>
        declareCases (generatorStem gen) (okOr [] (dir.generate gen))).map
          fun d => (d.resolved suite.defaults).selection := by
  obtain ⟨generated, hgenerated, hfiles⟩ := bind_ok h
  have hgen : generated.flatten.map id = (deferredGenerators suite).flatMap fun gen =>
      (declareCases (generatorStem gen) (okOr [] (dir.generate gen))).map DeclaredCase.loaded := by
    refine mapM_ok_flatten (fun gen cases hcases => ?_) hgenerated
    obtain ⟨emitted, hemitted, hret⟩ := bind_ok hcases
    cases hret
    rw [List.map_id, numberCases_eq, hemitted, okOr]
  rw [List.map_id] at hgen
  rw [mapM_ok_map (fun _ _ => selection_resolveFileVars) hfiles, selection_applyDefaults, hgen,
    ← List.map_flatMap, List.map_map, List.map_map]
  exact List.map_congr_left fun d _ => (selection_resolved _ d).symm

/-- **The cases of a run are the declared ones**, each with its name's text as id. -/
theorem resolveTests_selection {suite : Suite} {tests : List TestCase}
    (h : resolveTests dir suite = .ok tests) :
    tests.map TestCase.selection =
      (declaredCases dir suite).map fun d => (d.resolved suite.defaults).selection := by
  obtain ⟨expanded, hexpanded, h⟩ := bind_ok h
  obtain ⟨generated, hgenerated, hret⟩ := bind_ok h
  cases hret
  rw [List.map_append, expandTests_selection hexpanded, resolveGenerators_selection hgenerated,
    ← List.map_append, declaredCases]

end

/-! ### The keys of a run -/

section
variable (dir : SuiteDir) (suite : Suite) (opts : RunOptions)

/-- The names of the cases that a provider runs. -/
def admittedNames (p : ProviderConfig) : List CaseName :=
  ((declaredCases dir suite).filter fun d =>
    opts.filter.admits p.id (d.resolved suite.defaults)).map DeclaredCase.name

/-- The id of a prompt slot as it is hashed. -/
def slotText (q : Option Prompt) : String := (q.map Prompt.id).getD ""

/-- No two cases that run under one provider clash. -/
def NamesApart : Prop :=
  ∀ p ∈ selectedProviders suite opts, includedSlots suite opts ≠ [] →
    (admittedNames dir suite opts p).Pairwise fun name name' => ¬ name.Clash name'

/-- No two cells of different providers or prompts read alike across a NUL. -/
def NulApart : Prop :=
  ∀ p ∈ selectedProviders suite opts, ∀ q ∈ includedSlots suite opts,
    ∀ p' ∈ selectedProviders suite opts, ∀ q' ∈ includedSlots suite opts, (p, q) ≠ (p', q') →
      ∀ name ∈ admittedNames dir suite opts p, ∀ name' ∈ admittedNames dir suite opts p',
        joinIds p.id (slotText q) name.text ≠ joinIds p'.id (slotText q') name'.text

end

/-- The keys of the repeats of one cell. -/
def runKeys (n : ℕ) (pq : ProviderConfig × Option Prompt) (testId : String) : List (List UInt8) :=
  (List.range n).map fun i => CellKey.caseKey ⟨pq.1.id, pq.2.map Prompt.id, testId, i⟩

section
variable {n : ℕ} {pq pq' : ProviderConfig × Option Prompt} {t t' : String}

theorem mem_runKeys {k : List UInt8} :
    k ∈ runKeys n pq t ↔
      ∃ i < n, CellKey.caseKey ⟨pq.1.id, pq.2.map Prompt.id, t, i⟩ = k := by
  simp [runKeys]

theorem runKeys_nodup (hn : n ≤ 2 ^ 32) : (runKeys n pq t).Nodup := by
  refine (List.nodup_map_iff_inj_on List.nodup_range).mpr fun i hi j hj heq => ?_
  rw [List.mem_range] at hi hj
  exact ((caseKey_inj (by simp; omega) (by simp; omega)).mp heq).2

/-- The repeats of two cells share no key exactly when their ids are hashed differently. -/
theorem disjoint_runKeys (hpos : 0 < n) (hn : n ≤ 2 ^ 32) :
    List.Disjoint (runKeys n pq t) (runKeys n pq' t') ↔
      joinIds pq.1.id (slotText pq.2) t ≠ joinIds pq'.1.id (slotText pq'.2) t' := by
  constructor
  · intro hdisjoint heq
    have hmem : ∀ {pq : ProviderConfig × Option Prompt} {t : String},
        CellKey.caseKey ⟨pq.1.id, pq.2.map Prompt.id, t, 0⟩ ∈ runKeys n pq t :=
      mem_runKeys.mpr ⟨0, hpos, rfl⟩
    have hkey : CellKey.caseKey ⟨pq.1.id, pq.2.map Prompt.id, t, 0⟩ =
        CellKey.caseKey ⟨pq'.1.id, pq'.2.map Prompt.id, t', 0⟩ :=
      (caseKey_inj (by simp) (by simp)).mpr ⟨heq, rfl⟩
    exact hdisjoint hmem (hkey ▸ hmem)
  · intro hne k hk hk'
    obtain ⟨i, hi, rfl⟩ := mem_runKeys.mp hk
    obtain ⟨j, hj, heq⟩ := mem_runKeys.mp hk'
    exact hne ((caseKey_inj (by simp; omega) (by simp; omega)).mp heq).1.symm

theorem joinIds_test_inj {provider prompt : String} :
    joinIds provider prompt t = joinIds provider prompt t' ↔ t = t' := by
  simp [joinIds, utf8_inj]

/-- Under one provider and prompt, keys are distinct exactly when the test ids are. -/
theorem testKeys_nodup_iff (hpos : 0 < n) (hn : n ≤ 2 ^ 32) {ids : List String} :
    (ids.flatMap (runKeys n pq)).Nodup ↔ ids.Nodup := by
  rw [List.nodup_flatMap]
  constructor
  · rintro ⟨-, hpairs⟩
    exact hpairs.imp fun hdisjoint heq =>
      (disjoint_runKeys hpos hn).mp hdisjoint (joinIds_test_inj.mpr heq)
  · intro hids
    refine ⟨fun t _ => runKeys_nodup hn, hids.imp fun hne => ?_⟩
    exact (disjoint_runKeys hpos hn).mpr fun heq => hne (joinIds_test_inj.mp heq)

/-- The keys of all providers and prompts. -/
theorem keys_nodup_iff (hpos : 0 < n) (hn : n ≤ 2 ^ 32)
    {slots : List (ProviderConfig × Option Prompt)} (hslots : slots.Nodup)
    (ids : ProviderConfig → List String) :
    (slots.flatMap fun pq => (ids pq.1).flatMap (runKeys n pq)).Nodup ↔
      (∀ pq ∈ slots, (ids pq.1).Nodup) ∧
        ∀ pq ∈ slots, ∀ pq' ∈ slots, pq ≠ pq' → ∀ t ∈ ids pq.1, ∀ t' ∈ ids pq'.1,
          joinIds pq.1.id (slotText pq.2) t ≠ joinIds pq'.1.id (slotText pq'.2) t' := by
  have hdisjoint : ∀ pq pq' : ProviderConfig × Option Prompt,
      List.Disjoint ((ids pq.1).flatMap (runKeys n pq)) ((ids pq'.1).flatMap (runKeys n pq')) ↔
        ∀ t ∈ ids pq.1, ∀ t' ∈ ids pq'.1,
          joinIds pq.1.id (slotText pq.2) t ≠ joinIds pq'.1.id (slotText pq'.2) t' := by
    intro pq pq'
    constructor
    · intro hkeys t ht t' ht'
      refine (disjoint_runKeys hpos hn).mp fun k hk hk' => ?_
      exact hkeys (List.mem_flatMap.mpr ⟨t, ht, hk⟩) (List.mem_flatMap.mpr ⟨t', ht', hk'⟩)
    · intro hne k hk hk'
      obtain ⟨t, ht, hkt⟩ := List.mem_flatMap.mp hk
      obtain ⟨t', ht', hkt'⟩ := List.mem_flatMap.mp hk'
      exact (disjoint_runKeys hpos hn).mpr (hne t ht t' ht') hkt hkt'
  -- distinct within each slot, and between any two of them
  rw [List.nodup_flatMap]
  refine and_congr (forall₂_congr fun pq _ => testKeys_nodup_iff hpos hn) ?_
  constructor
  · intro hpairs pq hpq pq' hpq' hne
    have : Std.Symm (Function.onFun List.Disjoint fun pq => (ids pq.1).flatMap (runKeys n pq)) :=
      ⟨fun _ _ h _ hk hk' => h hk' hk⟩
    exact (hdisjoint pq pq').mp (hpairs.forall hpq hpq' hne)
  · intro hne
    exact hslots.pairwise_of_forall_ne fun pq hpq pq' hpq' hpp =>
      (hdisjoint pq pq').mpr (hne pq hpq pq' hpq' hpp)

end

section
variable {dir : SuiteDir} {suite : Suite} {opts : RunOptions}

/-- The ids of the resolved cases that a provider runs are its names' texts. -/
theorem admitted_ids {tests : List TestCase} (h : resolveTests dir suite = .ok tests)
    (p : ProviderConfig) :
    (tests.filter (opts.filter.admits p.id)).map (fun tc => tc.id.getD "") =
      (admittedNames dir suite opts p).map CaseName.text := by
  -- the filter and the id read only the selection
  let ofSelection (s : Selection) : TestCase :=
    { TestCase.default with
      id := s.id
      tags := s.tags
      onlyProviders := s.onlyProviders
      skipProviders := s.skipProviders }
  have hselect : ∀ {α : Type} (f : α → TestCase) (xs : List α),
      (xs.filter fun x => opts.filter.admits p.id (f x)).map (fun x => (f x).id.getD "") =
        ((xs.map fun x => (f x).selection).filter fun s =>
          opts.filter.admits p.id (ofSelection s)).map fun s => s.id.getD "" := by
    intro α f xs
    rw [List.filter_map, List.map_map]
    rfl
  have htests := hselect id tests
  rw [show (tests.map fun tc => (id tc).selection) = _ from resolveTests_selection h,
    ← hselect (DeclaredCase.resolved suite.defaults)] at htests
  refine htests.trans ?_
  rw [admittedNames, List.map_map]
  refine List.map_congr_left fun d _ => ?_
  cases hd : suite.defaults <;> rfl

/-- The keys of the cells, slot by slot. -/
theorem cellKeys_eq {tests : List TestCase} (h : resolveTests dir suite = .ok tests) :
    (buildCells suite opts tests).map (fun cell => cell.key.caseKey) =
      (selectedProviders suite opts ×ˢ includedSlots suite opts).flatMap fun pq =>
        ((admittedNames dir suite opts pq.1).map CaseName.text).flatMap
          (runKeys (repeats opts) pq) := by
  have hcase : ∀ p q, ((tests.filter (opts.filter.admits p.id)).flatMap
      (repeatCells p q (repeats opts))).map (fun cell => cell.key.caseKey) =
        ((admittedNames dir suite opts p).map CaseName.text).flatMap
          (runKeys (repeats opts) (p, q)) := by
    intro p q
    rw [← admitted_ids h, List.map_flatMap, List.flatMap_map]
    refine List.flatMap_congr fun tc _ => ?_
    rw [repeatCells, List.map_map]
    rfl
  rw [buildCells, List.map_flatMap]
  simp only [List.map_flatMap (l := includedSlots suite opts), hcase]
  simp only [SProd.sprod, List.product, List.flatMap_assoc, List.flatMap_map]

theorem selected_sublist (suite : Suite) (opts : RunOptions) :
    (selectedProviders suite opts).Sublist suite.providers :=
  List.filter_sublist.trans List.filter_sublist

/-- The slots of a suite with distinct ids are distinct. -/
theorem slots_nodup (hproviders : (suite.providers.map ProviderConfig.id).Nodup)
    (hprompts : (suite.prompts.map Prompt.id).Nodup) :
    (selectedProviders suite opts ×ˢ includedSlots suite opts).Nodup := by
  refine List.Nodup.product ?_ (List.Nodup.filter _ ?_)
  · exact (selected_sublist suite opts).nodup hproviders.of_map
  · unfold promptSlots
    split_ifs
    · exact List.nodup_singleton none
    · exact hprompts.of_map.map fun _ _ => Option.some.inj

/-- **The keys of a run are pairwise distinct exactly when no two cases under one provider
clash**, and no two cells read alike across a NUL. -/
theorem caseKeys_distinct_iff (dir : SuiteDir) (suite : Suite) (opts : RunOptions)
    (hvalid : hasErrors (validate suite) = false) {cells : List Cell}
    (hplan : planCells dir suite opts = .ok cells) :
    (cells.map fun cell => cell.key.caseKey).Nodup ↔
      NamesApart dir suite opts ∧ NulApart dir suite opts := by
  obtain ⟨tests, htests, rfl⟩ := planCells_ok hplan
  obtain ⟨hproviders, hprompts⟩ := validate_ids hvalid
  have hpos : 0 < repeats opts := lt_of_lt_of_le Nat.one_pos (Nat.le_max_right _ _)
  have hle : repeats opts ≤ 2 ^ 32 := max_le opts.repeatCount.isLt.le (by norm_num)
  rw [cellKeys_eq htests, keys_nodup_iff hpos hle (slots_nodup hproviders hprompts)
    fun p => (admittedNames dir suite opts p).map CaseName.text]
  have hclash : ∀ p, ((admittedNames dir suite opts p).map CaseName.text).Nodup ↔
      (admittedNames dir suite opts p).Pairwise fun name name' => ¬ name.Clash name' := by
    intro p
    rw [List.Nodup, List.pairwise_map]
    exact ⟨fun h => h.imp fun hne hclash => hne (CaseName.clash_iff.mp hclash),
      fun h => h.imp fun hne htext => hne (CaseName.clash_iff.mpr htext)⟩
  refine and_congr ?_ ?_
  · constructor
    · intro h p hp hne
      obtain ⟨q, hq⟩ := List.exists_mem_of_ne_nil _ hne
      exact (hclash p).mp (h (p, q) (List.mem_product.mpr ⟨hp, hq⟩))
    · rintro h ⟨p, q⟩ hpq
      obtain ⟨hp, hq⟩ := List.mem_product.mp hpq
      exact (hclash p).mpr (h p hp (List.ne_nil_of_mem hq))
  · constructor
    · intro h p hp q hq p' hp' q' hq' hne name hname name' hname'
      exact h (p, q) (List.mem_product.mpr ⟨hp, hq⟩) (p', q')
        (List.mem_product.mpr ⟨hp', hq'⟩) hne _ (List.mem_map_of_mem hname) _
        (List.mem_map_of_mem hname')
    · rintro h ⟨p, q⟩ hpq ⟨p', q'⟩ hpq' hne t ht t' ht'
      obtain ⟨hp, hq⟩ := List.mem_product.mp hpq
      obtain ⟨hp', hq'⟩ := List.mem_product.mp hpq'
      obtain ⟨name, hname, rfl⟩ := List.mem_map.mp ht
      obtain ⟨name', hname', rfl⟩ := List.mem_map.mp ht'
      exact h p hp q hq p' hp' q' hq' hne name hname name' hname'

end

/-- Without a NUL in provider and prompt ids, no two cells read alike across one. -/
theorem nulApart_of_nulFree {dir : SuiteDir} {suite : Suite} {opts : RunOptions}
    (hvalid : hasErrors (validate suite) = false)
    (hproviders : ∀ p ∈ suite.providers, (0 : UInt8) ∉ utf8 p.id)
    (hprompts : ∀ p ∈ suite.prompts, (0 : UInt8) ∉ utf8 p.id) : NulApart dir suite opts := by
  intro p hp q hq p' hp' q' hq' hne name _ name' _ heq
  obtain ⟨hpids, hqids⟩ := validate_ids hvalid
  have hsub := (selected_sublist suite opts).subset
  have hslot : ∀ q ∈ includedSlots suite opts,
      (suite.prompts = [] ∧ q = none) ∨ ∃ p ∈ suite.prompts, q = some p := by
    intro q hq
    have hmem := (List.mem_filter.mp hq).1
    unfold promptSlots at hmem
    split_ifs at hmem with hempty
    · exact .inl ⟨List.isEmpty_iff.mp hempty, by simpa using hmem⟩
    · obtain ⟨p, hp, rfl⟩ := List.mem_map.mp hmem
      exact .inr ⟨p, hp, rfl⟩
  have hfree : ∀ q ∈ includedSlots suite opts, (0 : UInt8) ∉ utf8 (slotText q) := by
    intro q hq
    rcases hslot q hq with ⟨-, rfl⟩ | ⟨p, hp, rfl⟩
    · decide
    · exact hprompts p hp
  simp only [joinIds, List.append_assoc, List.cons_append] at heq
  obtain ⟨hpid, hrest⟩ :=
    append_sep_inj (hproviders p (hsub hp)) (hproviders p' (hsub hp')) heq
  obtain ⟨hqid, -⟩ := append_sep_inj (hfree q hq) (hfree q' hq') hrest
  have hpp : p = p' :=
    List.inj_on_of_nodup_map hpids (hsub hp) (hsub hp') (utf8_inj.mp hpid)
  refine hne (Prod.ext hpp ?_)
  rcases hslot q hq with ⟨hnone, rfl⟩ | ⟨r, hr, rfl⟩
  · rcases hslot q' hq' with ⟨-, rfl⟩ | ⟨r', hr', -⟩
    · rfl
    · rw [hnone] at hr'
      cases hr'
  · rcases hslot q' hq' with ⟨hnone, -⟩ | ⟨r', hr', rfl⟩
    · rw [hnone] at hr
      cases hr
    · exact congrArg some (List.inj_on_of_nodup_map hqids hr hr' (utf8_inj.mp hqid))

/-! ### Two files of one name -/

/-- A directory with a test file of the same name in two folders, one unnamed case each. -/
def twoFolders : SuiteDir where
  glob spec := .ok [spec]
  parse _ := .ok [.default]
  fixture := .ok
  generate _ := .ok []
  render template _ := .ok template

/-- A suite with one provider and no prompts. -/
def suiteOf (tests : List TestSource) : Suite := ⟨1, [⟨"api", false, .http⟩], [], tests, none⟩

/-- A run of everything, once. -/
def runAll : RunOptions := ⟨.all, 1, false⟩

/-- Two globs, each of one file. -/
def twoGlobs (first second : String) : Suite := suiteOf [.glob first, .glob second]

/-- The cells of two unnamed cases. -/
def twoCells (suite : Suite) (first second : String) : List Cell :=
  buildCells suite runAll [ensureId first .default, ensureId second .default]

/-- **Two files of one name collide**: each numbers its case `cases/0`, and the two cells
have one key. -/
theorem same_stem_collides :
    ¬ ∀ (dir : SuiteDir) (suite : Suite) (opts : RunOptions) (cells : List Cell),
      hasErrors (validate suite) = false → planCells dir suite opts = .ok cells →
        (cells.map fun cell => cell.key.caseKey).Nodup := by
  intro h
  have hnodup := h twoFolders (twoGlobs "file://a/cases.yaml" "file://b/cases.yaml") runAll
    (twoCells (twoGlobs "file://a/cases.yaml" "file://b/cases.yaml") "cases/0" "cases/0") rfl rfl
  exact absurd hnodup (by decide)

/-- Files of different names do not. -/
theorem other_stem_apart :
    ((twoCells (twoGlobs "file://a/cases.yaml" "file://b/more.yaml") "cases/0" "more/0").map
      fun cell => cell.key.caseKey).Nodup := by
  refine (caseKeys_distinct_iff twoFolders (twoGlobs "file://a/cases.yaml" "file://b/more.yaml")
    runAll rfl rfl).mpr ⟨?_, ?_⟩
  · intro p hp _
    obtain rfl : p = ⟨"api", false, .http⟩ := by
      simpa [twoGlobs, suiteOf] using (selected_sublist _ _).subset hp
    change [CaseName.numbered "cases" 0, CaseName.numbered "more" 0].Pairwise _
    simp [CaseName.Clash]
  · refine nulApart_of_nulFree rfl (fun p hp => ?_) (by simp [twoGlobs, suiteOf])
    obtain rfl : p = ⟨"api", false, .http⟩ := by simpa [twoGlobs, suiteOf] using hp
    decide
