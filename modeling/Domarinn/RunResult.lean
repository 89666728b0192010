/-
The result document of a run: what the engine, the command line and the server exchange.

The fields are those that the summary, the composite baseline and the diff of two runs read or
pass on.  The `ci`, `origin` and `digests` blocks are carried as documents, and times in
milliseconds.
-/
import Domarinn.RunnerAsserts

/-- `RESULT_SCHEMA_VERSION`. -/
def resultSchemaVersion : ℕ := 4

/-- The result of one matrix cell. -/
structure CaseResult where
  caseKey : String
  name : Option String
  status : CaseStatus
  output : Option Output
  asserts : List AssertResult
  usage : Option TokenUsage
  costUsd : Option ℚ
  cached : Bool
  attempts : ℕ
  emptyReason : Option EmptyReason
  answeredByProviderId : Option String

/-- The tallies of a run. -/
structure RunSummary where
  total : ℕ
  passed : ℕ := 0
  failed : ℕ := 0
  errored : ℕ := 0
  skipped : ℕ := 0
  promptTokens : ℕ := 0
  completionTokens : ℕ := 0
  costUsd : Option ℚ := none
  cacheHits : ℕ := 0
  cacheMisses : ℕ := 0
  retriedCases : ℕ := 0
  cacheReadTokens : ℕ := 0
  cacheWriteTokens : ℕ := 0
  cacheSavingsUsd : Option ℚ := none
  graderCostUsd : Option ℚ := none
  /-- By reason, in the order of the reasons. -/
  emptyCounts : List (String × ℕ) := []
  fallbackCases : ℕ := 0
  xfailed : ℕ := 0
  xpassed : ℕ := 0

structure GitMeta where
  branch : Option String
  commit : Option String
  dirty : Bool
deriving DecidableEq

/-- Set on a baseline that was merged from the runs of a branch. -/
structure CompositeBaseline where
  branch : String
  contributingRunIds : List String
  truncated : Option Bool
deriving DecidableEq

/-- The filters that a run was narrowed with. -/
structure FilterSpec where
  tags : List String := []
  filters : List String := []
  providers : List String := []
  prompts : List String := []
deriving DecidableEq

/-- The versioned result document. -/
structure RunResult where
  schemaVersion : ℕ
  runId : String
  project : Option String
  suite : Option String
  startedAt : ℤ
  finishedAt : ℤ
  configDigest : String
  configSnapshot : Json
  git : Option GitMeta
  ci : Option Json
  origin : Option Json
  digests : Option Json
  shareUrl : Option String
  composite : Option CompositeBaseline
  filters : FilterSpec
  cases : List CaseResult
  summary : RunSummary
