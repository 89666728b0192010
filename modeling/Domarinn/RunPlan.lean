/-
The cells of a run, and the keys that identify them.

A run has one cell for each provider, prompt, test and repeat that its filters admit.  The
key of a cell is a hash of `provider NUL prompt NUL test NUL repeat`; keys are represented
by the bytes that are hashed.

* **`planCells`** — from the suite and the options of the run to its cells;
* **`caseKey_inj`** — two cells have one key exactly when they agree on the repeat and on
  the text of provider, prompt and test that is hashed.
-/
import Domarinn.Resolve

/-! ### Filters -/

/-- What a run includes; `idGlobs` is the compiled set of `--filter` patterns. -/
structure RunFilter where
  tags : List String
  idGlobs : Option (String → Bool)
  providers : List String
  prompts : List String

namespace RunFilter

/-- A filter that excludes nothing. -/
def all : RunFilter := ⟨[], none, [], []⟩

/-- `matches_test`. -/
def matchesTest (filter : RunFilter) (tc : TestCase) : Bool :=
  let tagOk := filter.tags.isEmpty || filter.tags.any fun t => tc.tags.contains t
  let idOk := match filter.idGlobs with
    | none => true
    | some globs => (tc.id.map globs).getD false
  tagOk && idOk

/-- `test_allows_provider`: the test's own `only_providers` and `skip_providers`. -/
def testAllowsProvider (providerId : String) (tc : TestCase) : Bool :=
  (tc.onlyProviders.isEmpty || tc.onlyProviders.contains providerId) &&
    !tc.skipProviders.contains providerId

/-- `provider_included`. -/
def providerIncluded (filter : RunFilter) (providerId : String) (tc : TestCase) : Bool :=
  (filter.providers.isEmpty || filter.providers.contains providerId) &&
    testAllowsProvider providerId tc

/-- `prompt_included`. -/
def promptIncluded (filter : RunFilter) (promptId : String) : Bool :=
  filter.prompts.isEmpty || filter.prompts.contains promptId

/-- Whether a provider runs a test. -/
def admits (filter : RunFilter) (providerId : String) (tc : TestCase) : Bool :=
  filter.matchesTest tc && filter.providerIncluded providerId tc

/-- Whether a prompt slot runs; the slot of a suite without prompts always does. -/
def slotIncluded (filter : RunFilter) : Option Prompt → Bool
  | some p => filter.promptIncluded p.id
  | none => true

end RunFilter

/-! ### Cells and their keys -/

/-- One cell of the matrix. -/
structure Cell where
  provider : ProviderConfig
  prompt : Option Prompt
  test : TestCase
  repeatIdx : ℕ

/-- The identity of a cell. -/
structure CellKey where
  providerId : String
  promptId : Option String
  testId : String
  repeatIdx : ℕ
deriving DecidableEq

/-- The key of a cell, as `run_cell` builds it. -/
def Cell.key (cell : Cell) : CellKey :=
  ⟨cell.provider.id, cell.prompt.map Prompt.id, cell.test.id.getD "", cell.repeatIdx⟩

/-- The bytes of a string. -/
def utf8 (s : String) : List UInt8 := s.toByteArray.data.toList

/-- `u32::to_le_bytes`. -/
def leBytes (n : ℕ) : List UInt8 :=
  [UInt8.ofNat n, UInt8.ofNat (n / 256), UInt8.ofNat (n / 65536), UInt8.ofNat (n / 16777216)]

/-- Provider, prompt and test as they are hashed. -/
def joinIds (provider prompt test : String) : List UInt8 :=
  utf8 provider ++ 0 :: utf8 prompt ++ 0 :: utf8 test

/-- The bytes that `case_key` hashes. -/
def CellKey.caseKey (key : CellKey) : List UInt8 :=
  joinIds key.providerId (key.promptId.getD "") key.testId ++ 0 :: leBytes key.repeatIdx

theorem utf8_inj {s t : String} : utf8 s = utf8 t ↔ s = t := by
  constructor
  · intro h
    exact String.toByteArray_inj.mp (ByteArray.ext (Array.toList_inj.mp h))
  · rintro rfl
    rfl

theorem leBytes_inj {n m : ℕ} (hn : n < 2 ^ 32) (hm : m < 2 ^ 32) :
    leBytes n = leBytes m ↔ n = m := by
  constructor
  · intro h
    simp only [leBytes, List.cons.injEq, and_true, ← UInt8.toNat_inj, UInt8.toNat_ofNat'] at h
    omega
  · rintro rfl
    rfl

theorem leBytes_length (n : ℕ) : (leBytes n).length = 4 := rfl

/-- **Keys agree exactly when the repeats do and the hashed ids do.** -/
theorem caseKey_inj {k l : CellKey} (hk : k.repeatIdx < 2 ^ 32) (hl : l.repeatIdx < 2 ^ 32) :
    k.caseKey = l.caseKey ↔
      joinIds k.providerId (k.promptId.getD "") k.testId =
          joinIds l.providerId (l.promptId.getD "") l.testId ∧ k.repeatIdx = l.repeatIdx := by
  rw [CellKey.caseKey, CellKey.caseKey]
  constructor
  · intro h
    obtain ⟨hids, hrep⟩ := List.append_inj' h (by simp [leBytes_length])
    exact ⟨hids, (leBytes_inj hk hl).mp (List.cons.inj hrep).2⟩
  · rintro ⟨hids, hrep⟩
    rw [hids, hrep]

/-! ### Planning a run -/

/-- The options that decide the cells; `repeatCount` is a `u32`. -/
structure RunOptions where
  filter : RunFilter
  repeatCount : Fin (2 ^ 32)
  allowEmpty : Bool

/-- Why a run has nothing to do. -/
inductive EmptyRun where
  | noProvidersSelected (requested available : List String)
  | fallbackOnlyExcluded (requested fallbackOnly available : List String)
  | embeddingsSelected (requested embeddings available : List String)
  | noTests
  | noCells

/-- Why a run did not start. -/
inductive RunError where
  | resolve (e : ResolveError)
  | nothingToRun (reason : EmptyRun)

/-- `check_provider_filter`: a `--provider` that can form no cells is refused. -/
def checkProviderFilter (providers : List ProviderConfig) (requested : List String) :
    Option EmptyRun :=
  let available := (providers.filter ProviderConfig.formsCells).map ProviderConfig.id
  let unknown := requested.filter fun r => !providers.any fun p => p.id == r
  let fallbackOnly := requested.filter fun r => providers.any fun p => p.id == r && p.fallbackOnly
  let embeddings := requested.filter fun r => providers.any fun p => p.id == r && p.isEmbeddings
  if requested.isEmpty then none
  else if !unknown.isEmpty then some (.noProvidersSelected unknown available)
  else if !fallbackOnly.isEmpty then
    some (.fallbackOnlyExcluded requested fallbackOnly available)
  else if !embeddings.isEmpty then some (.embeddingsSelected requested embeddings available)
  else none

/-- The first provider whose id came before. -/
def duplicateProvider : List String → List ProviderConfig → Option ProviderConfig
  | _, [] => none
  | seen, p :: rest => if seen.contains p.id then some p else duplicateProvider (p.id :: seen) rest

/-- The providers that expand into cells. -/
def selectedProviders (suite : Suite) (opts : RunOptions) : List ProviderConfig :=
  (suite.providers.filter ProviderConfig.formsCells).filter fun p =>
    opts.filter.providers.isEmpty || opts.filter.providers.contains p.id

/-- Each prompt, or a single empty slot when there are none. -/
def promptSlots (suite : Suite) : List (Option Prompt) :=
  if suite.prompts.isEmpty then [none] else suite.prompts.map some

/-- The prompt slots that run. -/
def includedSlots (suite : Suite) (opts : RunOptions) : List (Option Prompt) :=
  (promptSlots suite).filter opts.filter.slotIncluded

/-- How often a cell is repeated. -/
def repeats (opts : RunOptions) : ℕ := max opts.repeatCount 1

/-- The cells of a provider, a prompt slot and a test. -/
def repeatCells (provider : ProviderConfig) (prompt : Option Prompt) (count : ℕ)
    (test : TestCase) : List Cell :=
  (List.range count).map fun i => ⟨provider, prompt, test, i⟩

/-- The cells of a run, in the order of its nested loops. -/
def buildCells (suite : Suite) (opts : RunOptions) (tests : List TestCase) : List Cell :=
  (selectedProviders suite opts).flatMap fun provider =>
    (includedSlots suite opts).flatMap fun prompt =>
      (tests.filter (opts.filter.admits provider.id)).flatMap
        (repeatCells provider prompt (repeats opts))

/-- The plan of a run. -/
def planCells (dir : SuiteDir) (suite : Suite) (opts : RunOptions) : Except RunError (List Cell) :=
  match duplicateProvider [] suite.providers with
  | some dup => .error (.resolve (.parse "providers"
      s!"duplicate provider id '{dup.id}'; ids must be unique"))
  | none => match checkProviderFilter suite.providers opts.filter.providers with
    | some reason => .error (.nothingToRun reason)
    | none => match resolveTests dir suite with
      | .error e => .error (.resolve e)
      | .ok tests =>
        if tests.isEmpty && !opts.allowEmpty then .error (.nothingToRun .noTests)
        else
          let cells := buildCells suite opts tests
          if cells.isEmpty && !opts.allowEmpty then .error (.nothingToRun .noCells)
          else .ok cells

/-- What a plan is made of. -/
theorem planCells_ok {dir : SuiteDir} {suite : Suite} {opts : RunOptions} {cells : List Cell}
    (h : planCells dir suite opts = .ok cells) :
    ∃ tests, resolveTests dir suite = .ok tests ∧ cells = buildCells suite opts tests := by
  unfold planCells at h
  split at h
  · cases h
  split at h
  · cases h
  split at h
  · cases h
  · next tests hresolve =>
    dsimp only at h
    split_ifs at h
    exact ⟨tests, hresolve, (Except.ok.inj h).symm⟩
