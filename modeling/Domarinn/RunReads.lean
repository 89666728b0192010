/-
Reading runs and their cases: the run list, one run, its documents, and its cases.

Every query is over the rows of a table and carries the condition that the caller may see the
run; a table without the columns of a run asks for it by the run's id.  Times stay in
milliseconds, where a response prints them as text, and amounts are exact.
-/
import Domarinn.Asserts
import Domarinn.Cursors
import Domarinn.Query
import Domarinn.RunSets

open Sql

/-! ### Stored values -/

/-- One assertion as the `asserts` column keeps it. -/
structure CaseAssertLean where
  label : AssertName
  kind : AssertName
  passed : Bool
  score : ℚ

/-- How stored text and stored documents are read: `serde_json`, and its compressed form. -/
structure Decoders where
  asserts : String → Option (List CaseAssertLean)
  document : List UInt8 → Except String Json

def parseStoredAsserts (decode : Decoders) (raw : Option String) : List CaseAssertLean :=
  (raw.bind decode.asserts).getD []

def fromMicrousd (micro : Option ℤ) : Option ℚ := micro.map fun m => m / 1000000

def emptyToNone (value : Option String) : Option String := value.filter (· ≠ "")

/-- `clean_cache_count`: a negative count is a sentinel. -/
def cleanCacheCount (v : Option ℤ) : Option ℤ := v.filter (0 ≤ ·)

def reportableEmptyCount (v : Option ℤ) : Option ℕ := (v.filter (0 < ·)).map Int.toNat

/-- A cached flag, where only 1 and 0 are claims. -/
def cachedFlag (v : Option ℤ) : Option Bool :=
  if v = some 1 then some true else if v = some 0 then some false else none

/-! ### The run list -/

inductive RunStatusFilter where
  | pass
  | fail
  | error
deriving DecidableEq

inductive CachedFilter where
  | exclude
  | only
  | all
deriving DecidableEq

inductive OriginFilter where
  | ci
  | «local»
deriving DecidableEq

structure RunListFilter where
  visibility : RunVisibility
  project : Option String
  suite : Option String
  tag : Option String
  branch : Option String
  sinceMs : Option I64
  untilMs : Option I64
  status : Option RunStatusFilter
  cached : Option CachedFilter
  origin : Option OriginFilter
  actor : Option String
  limit : ℤ
  cursor : Option (I64 × String)

structure RunListItem where
  id : String
  project : Option String
  suite : Option String
  createdAt : I64
  gitBranch : Option String
  gitCommit : Option String
  gitDirty : Option Bool
  caseCount : ℤ
  passCount : ℤ
  failCount : ℤ
  errorCount : ℤ
  xfailCount : ℤ
  xpassCount : ℤ
  passRate : ℚ
  promptTokens : ℤ
  completionTokens : ℤ
  costUsd : Option ℚ
  durationMs : ℤ
  cacheHits : Option ℤ
  cacheMisses : Option ℤ
  emptyCount : Option ℕ
  actor : Option String
  host : Option String
  uploadedBy : Option String
  ciProvider : Option String
  ciRunUrl : Option String
  note : Option String
  domarinnVersion : Option String
  tags : List String

structure RunListPage where
  runs : List RunListItem
  nextCursor : Option String
  cachedHidden : Option ℕ

/-- A run's pass rate; a run without cases has 0. -/
def RunRow.passRate (r : RunRow) : ℚ := if 0 < r.caseCount then r.passCount / r.caseCount else 0

/-- `to_dto`. -/
def RunRow.toDto (r : RunRow) (tags : List String) : RunListItem where
  id := r.id
  project := r.project
  suite := r.suite
  createdAt := r.createdAt
  gitBranch := r.gitBranch
  gitCommit := r.gitCommit
  gitDirty := r.gitDirty.map (· ≠ 0)
  caseCount := r.caseCount
  passCount := r.passCount
  failCount := r.failCount
  errorCount := r.errorCount
  xfailCount := r.xfailCount.getD 0
  xpassCount := r.xpassCount.getD 0
  passRate := r.passRate
  promptTokens := r.promptTokens
  completionTokens := r.completionTokens
  costUsd := fromMicrousd r.costMicrousd
  durationMs := r.durationMs
  cacheHits := cleanCacheCount r.cacheHits
  cacheMisses := cleanCacheCount r.cacheMisses
  emptyCount := reportableEmptyCount r.emptyCount
  actor := r.actor
  host := r.host
  uploadedBy := r.uploadedBy
  ciProvider := r.ciProvider
  ciRunUrl := r.ciRunUrl
  note := r.description
  domarinnVersion := r.domarinnVersion
  tags := tags

/-- `cache_misses = 0 AND cache_hits > 0`, unknown where a count is missing. -/
def RunRow.fullyCached (r : RunRow) : Truth :=
  (eq r.cacheMisses (some 0)).and (lt (some 0) r.cacheHits)

/-- `ORDER BY created_at DESC, id DESC`. -/
def newestFirst (a b : RunRow) : Prop :=
  b.createdAt < a.createdAt ∨ (b.createdAt = a.createdAt ∧ b.id ≤ a.id)

instance : DecidableRel newestFirst := fun _ _ => inferInstanceAs (Decidable (_ ∨ _))

/-- `created_at < ? OR (created_at = ? AND id < ?)`. -/
def afterCursor (cursor : I64 × String) (r : RunRow) : Truth :=
  (lt (some r.createdAt) (some cursor.1)).or
    ((eq (some r.createdAt) (some cursor.1)).and (lt (some r.id) (some cursor.2)))

/-- The clauses of the filter itself: all but the cached filter and the cursor. -/
def RunListFilter.clauses (f : RunListFilter) (policy : PolicyTables) (t : RunTables) :
    List (RunRow → Truth) :=
  List.flatten
    [clauseFor f.project fun project r => eq r.project (some project),
      clauseFor f.suite fun suite r => eq r.suite (some suite),
      clauseFor f.branch fun branch r => eq r.gitBranch (some branch),
      clauseFor f.sinceMs fun since r => le (some since) (some r.createdAt),
      clauseFor f.untilMs fun until_ r => le (some r.createdAt) (some until_),
      clauseFor f.tag fun tag r => inRows (some r.id)
        ((select t.runTags fun x => eq (some x.tag) (some tag)).map fun x => some x.runId),
      clauseFor f.origin fun origin r => match origin with
        | .ci => (isNull r.ciProvider).not
        | .local => isNull r.ciProvider,
      clauseFor f.actor fun actor r => (eq r.actor (some actor)).or (eq r.uploadedBy (some actor)),
      clauseFor f.status fun status r => match status with
        | .fail => (lt (some 0) (some r.failCount)).or (lt (some 0) (some (r.xpassCount.getD 0)))
        | .error => lt (some 0) (some r.errorCount)
        | .pass => ((eq (some r.failCount) (some 0)).and (eq (some r.errorCount) (some 0))).and
            (eq (some (r.xpassCount.getD 0)) (some 0)),
      [visibleRun policy f.visibility]]

/-- The clause of the cached filter; a row that cannot be classified is never hidden. -/
def cachedClause : CachedFilter → List (RunRow → Truth)
  | .exclude => [fun r => r.fullyCached.isNotTrue]
  | .only => [RunRow.fullyCached]
  | .all => []

/-- `load_run_tags`. -/
def loadRunTags (t : RunTables) (runId : String) : List String :=
  orderBy (· ≤ ·) ((select t.runTags fun x => eq (some x.runId) (some runId)).map RunTagRow.tag)

/-- How many runs `cached=exclude` hides, on the first page. -/
def RunListFilter.cachedHidden (f : RunListFilter) (policy : PolicyTables) (t : RunTables) :
    Option ℕ :=
  if f.cached = some .exclude ∧ f.cursor = none then
    some (select t.runs (allOf (RunRow.fullyCached :: f.clauses policy t))).length
  else none

/-- The rows of the page, with one more to tell whether there is a next page. -/
def RunListFilter.rows (f : RunListFilter) (policy : PolicyTables) (t : RunTables) : List RunRow :=
  Sql.limit (f.limit + 1) (orderBy newestFirst (select t.runs (allOf
    (f.clauses policy t ++ f.cached.toList.flatMap cachedClause ++
      clauseFor f.cursor afterCursor))))

/-- `RunListFilter::query`. -/
def RunListFilter.query (f : RunListFilter) (policy : PolicyTables) (t : RunTables) : RunListPage :=
  let collected := f.rows policy t
  let full := f.limit < collected.length
  let page := if full then collected.dropLast else collected
  { runs := page.map fun r => r.toDto (loadRunTags t r.id)
    -- the anchor is the last row that stays, or the row taken off where none does
    nextCursor := if full then
        (page.getLast? <|> collected.getLast?).map fun anchor =>
          encodeCursor anchor.createdAt.1 anchor.id
      else none
    cachedHidden := f.cachedHidden policy t }

/-! ### One run -/

/-- `EXISTS (SELECT 1 FROM runs vr WHERE vr.id = ? AND …)`. -/
def visibleRunPredicate (policy : PolicyTables) (vis : RunVisibility) (t : RunTables)
    (runId : String) : Truth :=
  existsRow t.runs fun vr => (eq (some vr.id) (some runId)).and (visibleRun policy vis vr)

/-- The row of a run that the caller may see. -/
def findVisibleRun (policy : PolicyTables) (vis : RunVisibility) (t : RunTables) (runId : String) :
    Option RunRow :=
  (select t.runs fun r => (eq (some r.id) (some runId)).and (visibleRun policy vis r)).head?

/-- The cases of a run. -/
def casesOf (t : RunTables) (runId : String) : List CaseRow :=
  select t.cases fun c => eq (some c.runId) (some runId)

structure RunDetailResponse where
  id : String
  project : Option String
  suite : Option String
  createdAt : I64
  uploadedAt : I64
  schemaVersion : ℤ
  gitBranch : Option String
  gitCommit : Option String
  gitDirty : Option Bool
  ciProvider : Option String
  ciRunUrl : Option String
  caseCount : ℤ
  passCount : ℤ
  failCount : ℤ
  errorCount : ℤ
  xfailCount : ℤ
  xpassCount : ℤ
  promptTokens : ℤ
  completionTokens : ℤ
  costUsd : Option ℚ
  durationMs : ℤ
  contentHash : String
  uploadedBy : Option String
  configDigest : Option String
  cacheHits : Option ℤ
  cacheMisses : Option ℤ
  cacheReadTokens : Option ℤ
  cacheWriteTokens : Option ℤ
  cacheSavingsUsd : Option ℚ
  graderCostUsd : Option ℚ
  actor : Option String
  host : Option String
  note : Option String
  domarinnVersion : Option String
  tags : List String
  assertLabels : List String
  emptyCounts : Option (List (String × ℕ))

/-- `empty_counts_by_reason`, as a map by reason. -/
def emptyCountsByReason (cases : List CaseRow) : Option (List (String × ℕ)) :=
  let reasons := (cases.filterMap fun c => c.emptyReason).filter (· ≠ "")
  let counts := orderBy (fun a b => a.1 ≤ b.1)
    ((groupBy id reasons).map fun group => (group.1, group.2.length))
  if counts.isEmpty then none else some counts

/-- `distinct_assert_labels`. -/
def distinctAssertLabels (decode : Decoders) (cases : List CaseRow) : List String :=
  orderBy (· ≤ ·) (distinct (cases.flatMap fun c =>
    (parseStoredAsserts decode c.asserts).map fun a => a.label.asStr))

/-- The response for a run, with what is loaded beside its row. -/
def RunRow.toDetail (r : RunRow) (tags assertLabels : List String)
    (emptyCounts : Option (List (String × ℕ))) : RunDetailResponse where
  id := r.id
  project := r.project
  suite := r.suite
  createdAt := r.createdAt
  uploadedAt := r.uploadedAt
  schemaVersion := r.schemaVersion
  gitBranch := r.gitBranch
  gitCommit := r.gitCommit
  gitDirty := r.gitDirty.map (· ≠ 0)
  ciProvider := r.ciProvider
  ciRunUrl := r.ciRunUrl
  caseCount := r.caseCount
  passCount := r.passCount
  failCount := r.failCount
  errorCount := r.errorCount
  xfailCount := r.xfailCount.getD 0
  xpassCount := r.xpassCount.getD 0
  promptTokens := r.promptTokens
  completionTokens := r.completionTokens
  costUsd := fromMicrousd r.costMicrousd
  durationMs := r.durationMs
  contentHash := r.contentHash
  uploadedBy := r.uploadedBy
  configDigest := emptyToNone r.configDigest
  cacheHits := cleanCacheCount r.cacheHits
  cacheMisses := cleanCacheCount r.cacheMisses
  cacheReadTokens := r.cacheReadTokens
  cacheWriteTokens := r.cacheWriteTokens
  cacheSavingsUsd := fromMicrousd r.cacheSavingsMicrousd
  graderCostUsd := fromMicrousd r.graderCostMicrousd
  actor := r.actor
  host := r.host
  note := r.description
  domarinnVersion := r.domarinnVersion
  tags := tags
  assertLabels := assertLabels
  emptyCounts := emptyCounts

/-- `get_run_detail`. -/
def getRunDetail (decode : Decoders) (policy : PolicyTables) (vis : RunVisibility) (t : RunTables)
    (id : String) : Option RunDetailResponse :=
  (findVisibleRun policy vis t id).map fun r =>
    r.toDetail (loadRunTags t id) (distinctAssertLabels decode (casesOf t id))
      (emptyCountsByReason (casesOf t id))

/-- `run_exists`. -/
def runExists (policy : PolicyTables) (vis : RunVisibility) (t : RunTables) (id : String) : Bool :=
  (findVisibleRun policy vis t id).isSome

/-- `load_run_blob`. -/
def loadRunBlob (policy : PolicyTables) (vis : RunVisibility) (t : RunTables) (id : String) :
    Option (List UInt8) :=
  ((select t.blobs fun b => (eq (some b.runId) (some id)).and
    (visibleRunPredicate policy vis t id)).head?).map BlobRow.body

/-- `export_run_blob`. -/
def exportRunBlob (decode : Decoders) (policy : PolicyTables) (vis : RunVisibility) (t : RunTables)
    (id : String) : Except String (Option Json) :=
  match loadRunBlob policy vis t id with
  | none => .ok none
  | some blob => (decode.document blob).map some

structure RunConfigResponse where
  runId : String
  configDigest : Option String
  config : Json

/-- `run_config_blob`. -/
def runConfigBlob (decode : Decoders) (policy : PolicyTables) (vis : RunVisibility) (t : RunTables)
    (id : String) : Except String (Option RunConfigResponse) :=
  (exportRunBlob decode policy vis t id).map fun document => document.map fun value =>
    { runId := id
      configDigest := emptyToNone ((getMember value "config_digest").bind Json.asStr?)
      config := (getMember value "config_snapshot").getD .null }

/-! ### Cases -/

structure CaseListFilter where
  runId : String
  visibility : RunVisibility
  status : Option CaseStatus
  tag : Option String
  q : Option String
  provider : Option String
  prompt : Option String
  test : Option String
  stopReason : Option String
  errorClass : Option String
  emptyReason : Option String
  cached : Option Bool
  limit : ℤ
  cursor : Option ℤ

structure CaseListItem where
  caseKey : String
  idx : ℤ
  name : Option String
  status : CaseStatus
  outputPreview : Option String
  asserts : List CaseAssertLean
  promptTokens : Option ℤ
  completionTokens : Option ℤ
  costUsd : Option ℚ
  latencyMs : Option ℤ
  providerId : Option String
  promptId : Option String
  testId : Option String
  repeat_ : Option ℤ
  score : Option ℚ
  stopReason : Option String
  cached : Option Bool
  error : Option String
  errorClass : Option String
  emptyReason : Option String
  answeredByProviderId : Option String

structure CaseListResponse where
  cases : List CaseListItem
  nextCursor : Option String

/-- `CaseStatus::as_str`. -/
def CaseStatus.asStr : CaseStatus → String
  | pass => "pass"
  | fail => "fail"
  | error => "error"
  | skip => "skip"
  | xfail => "xfail"
  | xpass => "xpass"

/-- `UNCLASSIFIED_ERROR`. -/
def unclassifiedError : String := "unknown"

def CaseListFilter.clauses (f : CaseListFilter) (policy : PolicyTables) (t : RunTables) :
    List (CaseRow → Truth) :=
  List.flatten
    [[fun c => eq (some c.runId) (some f.runId),
        fun _ => visibleRunPredicate policy f.visibility t f.runId],
      clauseFor f.status fun status c => eq (some c.status) (some status.asStr),
      clauseFor f.tag fun tag c => inRows (some c.caseKey)
        ((select t.caseTags fun x => (eq (some x.runId) (some f.runId)).and
          (eq (some x.tag) (some tag))).map fun x => some x.caseKey),
      clauseFor f.q fun q c =>
        (like c.outputText ("%" ++ q ++ "%")).or (like c.name ("%" ++ q ++ "%")),
      clauseFor f.provider fun provider c => eq c.providerId (some provider),
      clauseFor f.prompt fun prompt c => eq c.promptId (some prompt),
      clauseFor f.test fun test c => eq c.testId (some test),
      clauseFor f.stopReason fun reason c => eq c.stopReason (some reason),
      clauseFor f.errorClass fun errorClass c =>
        -- an error from before classes existed has none
        if errorClass = unclassifiedError then (eq (some c.status) (some "error")).and
          ((isNull c.errorClass).or (eq c.errorClass (some "")))
        else eq c.errorClass (some errorClass),
      clauseFor f.emptyReason fun reason c =>
        (eq c.emptyReason (some reason)).and (eq c.emptyReason (some "")).not,
      clauseFor f.cached fun hit c =>
        if hit then eq c.cached (some 1) else (eq (some (c.cached.getD 0)) (some 1)).not,
      clauseFor f.cursor fun cursor c => lt (some cursor) (some c.idx)]

/-- One row of the list; a status that is none of the six is an error. -/
def CaseRow.toListItem (decode : Decoders) (c : CaseRow) : Except String CaseListItem :=
  match CaseStatus.fromStr c.status with
  | .error e => .error ("column 3: " ++ e)
  | .ok status => .ok
      { caseKey := c.caseKey
        idx := c.idx
        name := c.name
        status := status
        outputPreview := c.outputPreview
        asserts := parseStoredAsserts decode c.asserts
        promptTokens := c.promptTokens
        completionTokens := c.completionTokens
        costUsd := fromMicrousd c.costMicrousd
        latencyMs := c.latencyMs
        providerId := emptyToNone c.providerId
        promptId := emptyToNone c.promptId
        testId := emptyToNone c.testId
        repeat_ := c.repeatIdx
        score := c.score
        stopReason := emptyToNone c.stopReason
        cached := cachedFlag c.cached
        error := emptyToNone c.error
        errorClass := c.errorClass
        emptyReason := emptyToNone c.emptyReason
        answeredByProviderId := emptyToNone c.answeredByProviderId }

def CaseListFilter.rows (f : CaseListFilter) (policy : PolicyTables) (t : RunTables) :
    List CaseRow :=
  Sql.limit (f.limit + 1) (orderBy (fun a b => a.idx ≤ b.idx) (select t.cases
    (allOf (f.clauses policy t))))

/-- `CaseListFilter::query`. -/
def CaseListFilter.query (decode : Decoders) (f : CaseListFilter) (policy : PolicyTables)
    (t : RunTables) : Except String CaseListResponse := do
  let collected ← (f.rows policy t).mapM (CaseRow.toListItem decode)
  let full := f.limit < collected.length
  let page := if full then collected.dropLast else collected
  return { cases := page
           nextCursor := if full then page.getLast?.map fun c => toString c.idx else none }

/-- `get_case_detail`. -/
def getCaseDetail (decode : Decoders) (policy : PolicyTables) (vis : RunVisibility) (t : RunTables)
    (runId caseKey : String) : Except String (Option Json) :=
  match (select t.cases fun c => ((eq (some c.runId) (some runId)).and
      (eq (some c.caseKey) (some caseKey))).and (visibleRunPredicate policy vis t runId)).head? with
  | none => .ok none
  | some c => (decode.document c.detail).map some
