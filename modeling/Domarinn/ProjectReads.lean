/-
Reading across runs: pins, projects and suites, the run sets, one case over time, the runs of
a branch, and the runs behind a cache entry.

Everything counted, grouped or joined here is counted, grouped or joined over the rows that
the caller may see.
-/
import Domarinn.RunReads

open Sql

/-! ### Pins -/

inductive BaselinePin where
  | run (id : String)
  | branch (name : String)
deriving DecidableEq

/-- `b.run_id IS NULL OR …`, where the run of the pin is left-joined: a pin without a run, as
every branch pin is, passes. -/
def pinVisible (policy : PolicyTables) (vis : RunVisibility) (t : RunTables) (b : BaselineRow) :
    Truth :=
  (isNull b.runId).or (match t.runs.find? fun r => b.runId = some r.id with
    | some run => visibleRun policy vis run
    | none => visibilityPredicate policy vis none none)

/-- `read_baseline_row`: the pin of a suite, unless it is of a run the caller may not see. -/
def readBaselineRow (policy : PolicyTables) (vis : RunVisibility) (t : RunTables)
    (project suite : String) : Option BaselineRow :=
  (select t.baselines fun b =>
    ((eq (some b.project) (some project)).and (eq (some b.suite) (some suite))).and
      (pinVisible policy vis t b)).head?

/-- `pin_of`. -/
def pinOf (runId branch : Option String) : Option BaselinePin :=
  match runId, branch with
  | some id, _ => some (.run id)
  | none, some branch => some (.branch branch)
  | none, none => none

def readBaselinePin (policy : PolicyTables) (vis : RunVisibility) (t : RunTables)
    (project suite : String) : Option BaselinePin :=
  (readBaselineRow policy vis t project suite).bind fun b => pinOf b.runId b.branch

/-- `baseline_meta`. -/
def baselineMeta (policy : PolicyTables) (vis : RunVisibility) (t : RunTables)
    (project suite : String) : Option (BaselinePin × ℤ) :=
  (readBaselineRow policy vis t project suite).bind fun b =>
    (pinOf b.runId b.branch).map fun pin => (pin, b.setAt)

/-- `split_pin`. -/
def splitPin : Option BaselinePin → Option String × Option String
  | some (.run id) => (some id, none)
  | some (.branch branch) => (none, some branch)
  | none => (none, none)

/-! ### Projects and suites -/

structure ProjectListItem where
  project : String
  runCount : ℕ
  suiteCount : ℕ
  lastRunAt : ℤ

structure SuitePoint where
  runId : String
  createdAt : I64
  total : ℤ
  passed : ℤ
  passRate : ℚ

structure SuiteSummary where
  suite : String
  runCount : ℕ
  lastRunAt : Option I64
  baselineRunId : Option String
  baselineBranch : Option String
  series : List SuitePoint

structure SuitesResponse where
  project : String
  suites : List SuiteSummary

/-- The rows with a value in a column, by that value. -/
def groupByColumn (column : RunRow → Option String) (rows : List RunRow) :
    List (String × List RunRow) :=
  groupBy Prod.fst (rows.filterMap fun r => (column r).map (·, r)) |>.map fun group =>
    (group.1, group.2.map Prod.snd)

/-- The largest value of a column that has one in every row. -/
def lastRunAt (rows : List RunRow) : Option I64 := maxOf (rows.map RunRow.createdAt)

/-- `list_projects`. -/
def listProjects (policy : PolicyTables) (vis : RunVisibility) (t : RunTables) :
    List ProjectListItem :=
  let visible := select t.runs fun r => (isNull r.project).not.and (visibleRun policy vis r)
  orderBy (fun a b => b.lastRunAt ≤ a.lastRunAt) ((groupByColumn RunRow.project visible).map
    fun group =>
      { project := group.1
        runCount := group.2.length
        suiteCount := countDistinct RunRow.suite group.2
        -- a group has a row, and so a newest one
        lastRunAt := (lastRunAt group.2).elim 0 Subtype.val })

/-- The newest runs of a suite, at most 20. -/
def suiteSeries (policy : PolicyTables) (vis : RunVisibility) (t : RunTables)
    (project suite : String) : List SuitePoint :=
  (limit 20 (orderBy (fun a b => b.createdAt ≤ a.createdAt) (select t.runs fun r =>
    ((eq r.project (some project)).and (eq r.suite (some suite))).and
      (visibleRun policy vis r)))).map fun r =>
    { runId := r.id
      createdAt := r.createdAt
      total := r.caseCount
      passed := r.passCount
      passRate := r.passRate }

/-- `list_suites`. -/
def listSuites (policy : PolicyTables) (vis : RunVisibility) (t : RunTables) (project : String) :
    SuitesResponse :=
  let suiteNames := distinct ((select t.runs fun r =>
    ((eq r.project (some project)).and (isNull r.suite).not).and
      (visibleRun policy vis r)).filterMap RunRow.suite)
  { project := project
    suites := suiteNames.map fun suite =>
      let series := suiteSeries policy vis t project suite
      let pin := splitPin (readBaselinePin policy vis t project suite)
      { suite := suite
        runCount := series.length
        lastRunAt := series.head?.map SuitePoint.createdAt
        baselineRunId := pin.1
        baselineBranch := pin.2
        series := series } }

/-! ### Run sets -/

/-- `Aggregates`. -/
structure Aggregates where
  runCount : ℕ
  lastRunAt : Option I64
  passCount : ℤ
  failCount : ℤ
  errorCount : ℤ
  caseCount : ℤ
  emptyCount : ℤ

/-- `AGGREGATES`, over the rows of a group. -/
def aggregates (rows : List RunRow) : Aggregates where
  runCount := rows.length
  lastRunAt := lastRunAt rows
  passCount := (rows.map RunRow.passCount).sum
  failCount := (rows.map RunRow.failCount).sum
  errorCount := (rows.map RunRow.errorCount).sum
  caseCount := (rows.map RunRow.caseCount).sum
  emptyCount := (rows.map fun r => max (r.emptyCount.getD 0) 0).sum

/-- `SPARKLINE_RUNS`. -/
def sparklineRuns : ℕ := 20

/-- `PROJECT_SPARK_CAP`. -/
def projectSparkCap : ℕ := 20

structure ProjectSetView where
  project : String
  suiteCount : ℕ
  totals : Aggregates
  recentPassRates : List ℚ
  restricted : Bool
  myLevel : Option GrantLevel

structure SuiteSetView where
  suite : String
  totals : Aggregates
  latestPassRate : Option ℚ
  sparkline : List ℚ
  baselineRunId : Option String
  baselineBranch : Option String
  restricted : Bool
  myLevel : Option GrantLevel

structure ProjectSetDetailResponse where
  project : String
  restricted : Bool
  myLevel : Option GrantLevel
  suites : List SuiteSetView

/-- `my_level`. -/
def myLevel (policy : PolicyTables) (vis : RunVisibility) (project : String)
    (suite : Option String) : Option GrantLevel :=
  match vis with
  | .user userId => coveringLevel policy (some project) suite userId
  | _ => none

/-- `latest_pass_rates`, for one project: the newest run of each suite, by suite. -/
def latestPassRates (policy : PolicyTables) (vis : RunVisibility) (t : RunTables)
    (project : String) : List ℚ :=
  let visible := select t.runs fun r =>
    ((isNull r.project).not.and (isNull r.suite).not).and (visibleRun policy vis r)
  let suites := orderBy (fun a b => a.1 ≤ b.1)
    (groupByColumn RunRow.suite (visible.filter fun r => r.project = some project))
  suites.filterMap fun group => (orderBy newestFirst group.2).head?.map RunRow.passRate

/-- `list_run_sets`. -/
def listRunSets (policy : PolicyTables) (vis : RunVisibility) (t : RunTables) :
    List ProjectSetView :=
  let visible := select t.runs fun r => (isNull r.project).not.and (visibleRun policy vis r)
  (orderBy (fun a b => a.1 ≤ b.1) (groupByColumn RunRow.project visible)).map fun group =>
    { project := group.1
      suiteCount := countDistinct RunRow.suite group.2
      totals := aggregates group.2
      recentPassRates := (latestPassRates policy vis t group.1).take projectSparkCap
      restricted := restricted policy (some group.1) none
      myLevel := myLevel policy vis group.1 none }

/-- The runs of a project, or of one of its suites, that the caller may see. -/
def visibleRunsOf (policy : PolicyTables) (vis : RunVisibility) (t : RunTables) (project : String)
    (suite : Option String) : List RunRow :=
  select t.runs fun r => ((eq r.project (some project)).and
    ((eq r.suite suite).or (isNull suite))).and (visibleRun policy vis r)

/-- `project_has_visible_runs`. -/
def projectHasVisibleRuns (policy : PolicyTables) (vis : RunVisibility) (t : RunTables)
    (project : String) (suite : Option String) : Bool :=
  (visibleRunsOf policy vis t project suite).head?.isSome

/-- `sparklines`, for one suite: its newest pass rates, the oldest of them first. -/
def sparkline (policy : PolicyTables) (vis : RunVisibility) (t : RunTables)
    (project suite : String) : List ℚ :=
  (((orderBy newestFirst (visibleRunsOf policy vis t project (some suite))).take
    sparklineRuns).reverse).map RunRow.passRate

/-- One suite, over the rows of its runs. -/
def suiteSetView (policy : PolicyTables) (vis : RunVisibility) (t : RunTables)
    (project suite : String) (rows : List RunRow) : SuiteSetView :=
  let rates := sparkline policy vis t project suite
  let pin := splitPin (readBaselinePin policy vis t project suite)
  { suite := suite
    totals := aggregates rows
    latestPassRate := rates.getLast?
    sparkline := rates
    baselineRunId := pin.1
    baselineBranch := pin.2
    restricted := restricted policy (some project) (some suite)
    myLevel := myLevel policy vis project (some suite) }

/-- `run_set_project`. -/
def runSetProject (policy : PolicyTables) (vis : RunVisibility) (t : RunTables) (project : String) :
    Option ProjectSetDetailResponse :=
  if projectHasVisibleRuns policy vis t project none then some
    { project := project
      restricted := restricted policy (some project) none
      myLevel := myLevel policy vis project none
      suites := (orderBy (fun a b => a.1 ≤ b.1) (groupByColumn RunRow.suite
        (visibleRunsOf policy vis t project none))).map fun group =>
          suiteSetView policy vis t project group.1 group.2 }
  else none

/-- `run_set_suite`. -/
def runSetSuite (policy : PolicyTables) (vis : RunVisibility) (t : RunTables)
    (project suite : String) : Option (String × SuiteSetView) :=
  if projectHasVisibleRuns policy vis t project (some suite) then
    some (project, suiteSetView policy vis t project suite
      (visibleRunsOf policy vis t project (some suite)))
  else none

/-! ### One case over time -/

structure CaseHistoryPoint where
  runId : String
  createdAt : I64
  status : CaseStatus
  score : Option ℚ
  outputHash : Option String
  outputChanged : Option Bool
  cached : Option Bool
  promptTokens : Option ℤ
  completionTokens : Option ℤ
  costUsd : Option ℚ
  latencyMs : Option ℤ
  gitCommit : Option String
  configDigest : Option String

structure CaseHistoryResponse where
  project : String
  suite : String
  caseKey : String
  baselineRunId : Option String
  baselineBranch : Option String
  points : List CaseHistoryPoint

/-- The cases with their runs, where the caller may see the run. -/
def visibleCases (policy : PolicyTables) (vis : RunVisibility) (t : RunTables)
    (condition : CaseRow → RunRow → Truth) : List (CaseRow × RunRow) :=
  join t.cases t.runs fun c r =>
    ((eq (some r.id) (some c.runId)).and (condition c r)).and (visibleRun policy vis r)

/-- A point, before it is compared with the one before it. -/
def historyPoint (c : CaseRow) (r : RunRow) : Except String CaseHistoryPoint :=
  (CaseStatus.fromStr c.status).map fun status =>
    { runId := r.id
      createdAt := r.createdAt
      status := status
      score := c.score
      outputHash := c.outputHash
      outputChanged := none
      cached := cachedFlag c.cached
      promptTokens := c.promptTokens
      completionTokens := c.completionTokens
      costUsd := fromMicrousd c.costMicrousd
      latencyMs := c.latencyMs
      gitCommit := emptyToNone r.gitCommit
      configDigest := emptyToNone r.configDigest }

/-- Each point against the next older one; unknown where a hash is missing. -/
def withChanges : List CaseHistoryPoint → List CaseHistoryPoint
  | [] => []
  | [point] => [{ point with outputChanged := none }]
  | point :: older :: rest =>
    let changed := match point.outputHash, older.outputHash with
      | some current, some previous => some (decide (current ≠ previous))
      | _, _ => none
    { point with outputChanged := changed } :: withChanges (older :: rest)

/-- `case_history`. -/
def caseHistory (policy : PolicyTables) (vis : RunVisibility) (t : RunTables)
    (project suite caseKey : String) (max : ℤ) : Except String (Option CaseHistoryResponse) :=
  let rows := Sql.limit max (orderBy (fun a b => newestFirst a.2 b.2)
    (visibleCases policy vis t fun c r => ((eq (some c.caseKey) (some caseKey)).and
      (eq r.project (some project))).and (eq r.suite (some suite))))
  let pin := splitPin (readBaselinePin policy vis t project suite)
  (rows.mapM fun row => historyPoint row.1 row.2).map fun points =>
    if points.isEmpty then none else some
      { project := project
        suite := suite
        caseKey := caseKey
        baselineRunId := pin.1
        baselineBranch := pin.2
        points := withChanges points }

/-! ### The runs behind a cache entry -/

structure CacheEntryRunRef where
  runId : String
  project : Option String
  suite : Option String
  createdAt : I64
  caseKey : String
  name : Option String
  status : String
  cached : Bool

structure CacheEntryRunsResponse where
  cases : List CacheEntryRunRef
  nextCursor : Option String

/-- `entry_runs`. -/
def entryRuns (policy : PolicyTables) (vis : RunVisibility) (t : RunTables) (key : String)
    (max : ℤ) (cursor : Option (I64 × String)) : CacheEntryRunsResponse :=
  let rows := Sql.limit (max + 1) (orderBy (fun a b => newestFirst a.2 b.2)
    (visibleCases policy vis t fun c r => (eq c.cacheKey (some key)).and
      (allOf (clauseFor cursor afterCursor) r)))
  let page := if max < rows.length then rows.take max.toNat else rows
  { cases := page.map fun row =>
      { runId := row.2.id
        project := row.2.project
        suite := row.2.suite
        createdAt := row.2.createdAt
        caseKey := row.1.caseKey
        name := row.1.name
        status := row.1.status
        cached := decide (row.1.cached.getD 0 ≠ (0 : ℤ)) }
    nextCursor := if max < rows.length then
        page.getLast?.map fun row => encodeCursor row.2.createdAt.1 row.2.id
      else none }

/-! ### The runs of a branch -/

/-- `BRANCH_LOOKBACK`. -/
def branchLookback : ℤ := 20

/-- The stored documents of a branch, newest first: what `branch_runs_newest_first` decodes. -/
def branchBlobs (policy : PolicyTables) (vis : RunVisibility) (t : RunTables)
    (project suite branch : String) (exclude : Option String) : List (List UInt8) :=
  (Sql.limit branchLookback (orderBy (fun a b => newestFirst a.1 b.1) (join
    (select t.runs fun r => ((((eq r.project (some project)).and (eq r.suite (some suite))).and
      (eq r.gitBranch (some branch))).and (visibleRun policy vis r)).and
        (allOf (clauseFor exclude fun id r => (eq (some r.id) (some id)).not) r))
    t.blobs fun r b => eq (some b.runId) (some r.id)))).map fun row => row.2.body
