/-
Comparing two runs: their cases joined by key, what became of each verdict, and what moved
with it.

Each side is loaded by two queries, the totals with the condition that the caller may see the
run and the cases by the run's id; everything after that is a function of what was loaded.
The bounds of a pass rate's interval are floating-point functions of its two counts, and are
left out.
-/
import Domarinn.CaseChange
import Domarinn.RunReads
import Domarinn.Stats

open Sql

/-! ### Loading -/

structure CmpCase where
  name : Option String
  status : CaseStatus
  outputHash : Option String
  score : Option ℚ
  asserts : List CaseAssertLean
  promptDigest : Option Digest
  providerDigest : Option Digest
  assertDigest : Option Digest

/-- The digests of a run's components, in the order of `COMPONENTS`. -/
structure Components where
  prompts : Option String
  providers : Option String
  tests : Option String
  asserts : Option String
  grader : Option String

structure RunAgg where
  promptTokens : ℤ
  completionTokens : ℤ
  costMicrousd : Option ℤ
  durationMs : ℤ
  caseCount : ℤ
  passCount : ℤ
  configDigest : Option String
  components : Components

/-- One row of the cases, by its key. -/
def CaseRow.toCmpCase (decode : Decoders) (c : CaseRow) : Except String (String × CmpCase) :=
  (CaseStatus.fromStr c.status).map fun status => (c.caseKey,
    { name := c.name
      status := status
      outputHash := c.outputHash
      score := c.score
      asserts := parseStoredAsserts decode c.asserts
      promptDigest := c.promptDigest.map Digest.mk
      providerDigest := c.providerDigest.map Digest.mk
      assertDigest := c.assertDigest.map Digest.mk })

/-- A map by key, which keeps the last value of a key. -/
def keepLastCase (cases : List (String × CmpCase)) (c : String × CmpCase) : List (String × CmpCase) :=
  cases.filter (fun x => x.1 ≠ c.1) ++ [c]

/-- `load_compare_cases`. -/
def loadCompareCases (decode : Decoders) (t : RunTables) (runId : String) :
    Except String (List (String × CmpCase)) :=
  ((casesOf t runId).mapM (CaseRow.toCmpCase decode)).map fun rows =>
    orderBy (fun a b => a.1 ≤ b.1) (rows.foldl keepLastCase [])

def RunRow.toAgg (r : RunRow) : RunAgg where
  promptTokens := r.promptTokens
  completionTokens := r.completionTokens
  costMicrousd := r.costMicrousd
  durationMs := r.durationMs
  caseCount := r.caseCount
  passCount := r.passCount
  configDigest := r.configDigest
  components :=
    { prompts := r.promptsDigest
      providers := r.providersDigest
      tests := r.testsDigest
      asserts := r.assertsDigest
      grader := r.graderDigest }

/-- `load_run_agg`. -/
def loadRunAgg (policy : PolicyTables) (vis : RunVisibility) (t : RunTables) (runId : String) :
    Option RunAgg :=
  (findVisibleRun policy vis t runId).map RunRow.toAgg

/-! ### The comparison -/

inductive CompareDelta where
  | newlyFailing
  | newlyPassing
  | stillFailing
  | stillPassing
  | unchanged
  | added
  | removed
deriving DecidableEq

structure AssertFlip where
  kind : AssertName
  basePassed : Bool
  headPassed : Bool
  baseScore : ℚ
  headScore : ℚ

structure CompareCaseRow where
  caseKey : String
  name : Option String
  baseStatus : Option CaseStatus
  headStatus : Option CaseStatus
  delta : CompareDelta
  outputChanged : Bool
  baseScore : Option ℚ
  headScore : Option ℚ
  scoreDelta : Option ℚ
  assertFlips : List AssertFlip
  change : CaseChange

structure CompareSummary where
  newlyFailing : ℕ
  newlyPassing : ℕ
  stillFailing : ℕ
  outputChanged : ℕ
  added : ℕ
  removed : ℕ

structure RunTotals where
  promptTokens : ℤ
  completionTokens : ℤ
  costUsd : Option ℚ
  durationMs : ℤ
  caseCount : ℤ
  passCount : ℤ

structure ComponentDrift where
  component : String
  base : Option String
  head : Option String
  changed : Option Bool

structure CompareResponse where
  base : String
  head : String
  summary : CompareSummary
  cases : List CompareCaseRow
  mcnemar : McNemar
  basePassRate : PassRate
  headPassRate : PassRate
  baseTotals : RunTotals
  headTotals : RunTotals
  baseDigest : Option String
  headDigest : Option String
  changed : Option Bool
  components : List ComponentDrift

def CaseStatus.isFailing (s : CaseStatus) : Bool := s = fail || s = error

/-- An expected failure that passes is the model passing. -/
def CaseStatus.isPassing (s : CaseStatus) : Bool := s = pass || s = xpass

/-- `classify`, of a key that one side has at least. -/
def classify (b h : Option CmpCase) : CompareDelta :=
  match b, h with
  | some b, some h =>
    if b.status.isPassing && h.status.isFailing then .newlyFailing
    else if b.status.isFailing && h.status.isPassing then .newlyPassing
    else if b.status.isFailing && h.status.isFailing then .stillFailing
    else if b.status.isPassing && h.status.isPassing then .stillPassing
    else .unchanged
  | none, _ => .added
  | some _, none => .removed

def mkFlip (b h : CaseAssertLean) : AssertFlip where
  kind := b.kind
  basePassed := b.passed
  headPassed := h.passed
  baseScore := b.score
  headScore := h.score

/-- `compute_assert_flips`: by position where the kinds agree, else by the kinds that each side
has once. -/
def computeAssertFlips (base head : List CaseAssertLean) : List AssertFlip :=
  if base.map CaseAssertLean.kind = head.map CaseAssertLean.kind then
    (base.zip head).filterMap fun pair =>
      if pair.1.passed ≠ pair.2.passed then some (mkFlip pair.1 pair.2) else none
  else
    base.filterMap fun b =>
      let once (side : List CaseAssertLean) := (side.filter fun a => a.kind = b.kind).length = 1
      if once base ∧ once head then
        (head.find? fun a => a.kind = b.kind).bind fun h =>
          if b.passed ≠ h.passed then some (mkFlip b h) else none
      else none

/-- The row of one key. -/
def compareRow (baseGrader headGrader : Option Digest) (key : String) (b h : Option CmpCase) :
    CompareCaseRow :=
  let outputChanged := match b, h with
    | some b, some h => decide (b.outputHash ≠ h.outputHash)
    | _, _ => false
  let baseScore := b.bind CmpCase.score
  let headScore := h.bind CmpCase.score
  { caseKey := key
    name := (h.bind CmpCase.name) <|> (b.bind CmpCase.name)
    baseStatus := b.map CmpCase.status
    headStatus := h.map CmpCase.status
    delta := classify b h
    outputChanged := outputChanged
    baseScore := baseScore
    headScore := headScore
    scoreDelta := match baseScore, headScore with
      | some bs, some hs => some (hs - bs)
      | _, _ => none
    assertFlips := match b, h with
      | some b, some h => computeAssertFlips b.asserts h.asserts
      | _, _ => []
    change := match b, h with
      | some b, some h => classifyChange
          { basePrompt := b.promptDigest
            headPrompt := h.promptDigest
            baseProvider := b.providerDigest
            headProvider := h.providerDigest
            baseAsserts := b.assertDigest
            headAsserts := h.assertDigest
            baseGrader := baseGrader
            headGrader := headGrader
            outputChanged := outputChanged
            verdictChanged := decide (b.status ≠ h.status) }
      -- nothing to compare on one side alone
      | _, _ => .unknown }

/-- The counts of the rows. -/
def summarizeRows (rows : List CompareCaseRow) : CompareSummary :=
  let count (delta : CompareDelta) := (rows.filter fun r => r.delta = delta).length
  { newlyFailing := count .newlyFailing
    newlyPassing := count .newlyPassing
    stillFailing := count .stillFailing
    outputChanged := (rows.filter CompareCaseRow.outputChanged).length
    added := count .added
    removed := count .removed }

def toRunTotals (agg : RunAgg) : RunTotals where
  promptTokens := agg.promptTokens
  completionTokens := agg.completionTokens
  costUsd := fromMicrousd agg.costMicrousd
  durationMs := agg.durationMs
  caseCount := agg.caseCount
  passCount := agg.passCount

/-- Whether two stored digests differ, where both are known. -/
def digestChanged (base head : Option String) : Option Bool :=
  moved (base.map Digest.mk) (head.map Digest.mk)

def componentDrift (component : String) (base head : Option String) : ComponentDrift where
  component := component
  base := emptyToNone base
  head := emptyToNone head
  changed := digestChanged (emptyToNone base) (emptyToNone head)

/-- The comparison of two sides that were loaded. -/
def compareSides (base head : String) (baseAgg headAgg : RunAgg)
    (baseCases headCases : List (String × CmpCase)) : CompareResponse :=
  let keys := orderBy (· ≤ ·) (baseCases.map Prod.fst ++
    (headCases.map Prod.fst).filter fun k => (baseCases.lookup k).isNone)
  let rows := keys.map fun key => compareRow ((emptyToNone baseAgg.components.grader).map Digest.mk)
    ((emptyToNone headAgg.components.grader).map Digest.mk) key (baseCases.lookup key)
    (headCases.lookup key)
  let summary := summarizeRows rows
  let baseDigest := emptyToNone baseAgg.configDigest
  let headDigest := emptyToNone headAgg.configDigest
  { base := base
    head := head
    summary := summary
    cases := rows
    mcnemar := mcnemar summary.newlyFailing summary.newlyPassing
    basePassRate := wilson (max baseAgg.passCount 0).toNat (max baseAgg.caseCount 0).toNat
    headPassRate := wilson (max headAgg.passCount 0).toNat (max headAgg.caseCount 0).toNat
    baseTotals := toRunTotals baseAgg
    headTotals := toRunTotals headAgg
    baseDigest := baseDigest
    headDigest := headDigest
    changed := digestChanged baseDigest headDigest
    components :=
      let b := baseAgg.components
      let h := headAgg.components
      [componentDrift "prompts" b.prompts h.prompts,
        componentDrift "providers" b.providers h.providers,
        componentDrift "tests" b.tests h.tests,
        componentDrift "asserts" b.asserts h.asserts,
        componentDrift "grader" b.grader h.grader] }

/-- `compare_runs`: nothing where the caller may not see one of the two. -/
def compareRuns (decode : Decoders) (policy : PolicyTables) (vis : RunVisibility) (t : RunTables)
    (base head : String) : Except String (Option CompareResponse) :=
  match loadRunAgg policy vis t base, loadRunAgg policy vis t head with
  | some baseAgg, some headAgg => do
    let baseCases ← loadCompareCases decode t base
    let headCases ← loadCompareCases decode t head
    return some (compareSides base head baseAgg headAgg baseCases headCases)
  | _, _ => .ok none
