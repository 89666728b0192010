/-
The matrix of a run: one row a test, one column a provider and prompt, and in each cell the
repeats of that test there.

One scan of the run's cases, in order, fills the columns, the rows and the costs as it first
meets them; only the rows are paged.
-/
import Domarinn.Entries
import Domarinn.EntryIndex
import Domarinn.RunReads

open Sql

/-! ### The scan -/

structure MatrixFilter where
  runId : String
  visibility : RunVisibility
  limit : ℤ
  cursor : Option ℤ

structure RawCase where
  testId : String
  providerId : String
  promptId : Option String
  name : Option String
  status : CaseStatus
  score : Option ℚ
  outputHash : Option String
  latencyMs : Option ℤ
  costMicrousd : Option ℤ
  caseKey : String
  repeatIdx : ℤ
  idx : ℤ
  answeredBy : Option String

structure CellAcc where
  total : ℕ
  passed : ℕ
  failed : ℕ
  errored : ℕ
  skipped : ℕ
  xfailed : ℕ
  xpassed : ℕ
  scoreSum : ℚ
  scoreCount : ℕ
  outputHashes : List String
  latencySum : ℤ
  latencyCount : ℕ
  costMicroSum : ℤ
  costAny : Bool
  fallbackAnswered : ℕ
  caseKeys : List (ℤ × ℤ × String)

def CellAcc.empty : CellAcc := ⟨0, 0, 0, 0, 0, 0, 0, 0, 0, [], 0, 0, 0, false, 0, []⟩

structure ProviderCostAcc where
  providerId : String
  cases : ℕ
  costMicroSum : ℤ
  costAny : Bool

structure MatrixColumn where
  providerId : String
  promptId : Option String
deriving DecidableEq

/-- A row, with its cells by column. -/
structure RowAcc where
  testId : String
  firstSeenIdx : ℤ
  name : Option String
  cells : List (MatrixColumn × CellAcc)

/-- What the scan has met so far, each in the order it was first seen. -/
structure MatrixScan where
  columns : List MatrixColumn
  rows : List RowAcc
  costs : List ProviderCostAcc

/-- One row of the query. -/
def CaseRow.toRawCase (c : CaseRow) : Except String RawCase :=
  (CaseStatus.fromStr c.status).map fun status =>
    { testId := (emptyToNone c.testId).getD ""
      providerId := c.providerId.getD ""
      promptId := emptyToNone c.promptId
      name := c.name
      status := status
      score := c.score
      outputHash := c.outputHash
      latencyMs := c.latencyMs
      costMicrousd := c.costMicrousd
      caseKey := c.caseKey
      repeatIdx := c.repeatIdx.getD 0
      idx := c.idx
      answeredBy := emptyToNone c.answeredByProviderId }

/-- `+=` on a sum of 64 bits, for a value that is there. -/
def addKnown (sum : ℤ) (value : Option ℤ) : ℤ := value.elim sum (wrappingAdd sum)

/-- One more case of a cell. -/
def CellAcc.add (raw : RawCase) (cell : CellAcc) : CellAcc :=
  let one (status : CaseStatus) : ℕ := if raw.status = status then 1 else 0
  { total := cell.total + 1
    passed := cell.passed + one .pass
    failed := cell.failed + one .fail
    errored := cell.errored + one .error
    skipped := cell.skipped + one .skip
    xfailed := cell.xfailed + one .xfail
    xpassed := cell.xpassed + one .xpass
    scoreSum := cell.scoreSum + raw.score.getD 0
    scoreCount := cell.scoreCount + (if raw.score.isSome then 1 else 0)
    outputHashes := match raw.outputHash with
      | some hash => if hash ∈ cell.outputHashes then cell.outputHashes
        else cell.outputHashes ++ [hash]
      | none => cell.outputHashes
    latencySum := addKnown cell.latencySum raw.latencyMs
    latencyCount := cell.latencyCount + (if raw.latencyMs.isSome then 1 else 0)
    costMicroSum := addKnown cell.costMicroSum raw.costMicrousd
    costAny := cell.costAny || raw.costMicrousd.isSome
    -- a skipped case was answered, but nothing of it was graded
    fallbackAnswered := cell.fallbackAnswered +
      (if raw.answeredBy.isSome && raw.status ≠ .skip then 1 else 0)
    caseKeys := cell.caseKeys ++ [(raw.repeatIdx, raw.idx, raw.caseKey)] }

def ProviderCostAcc.add (raw : RawCase) (acc : ProviderCostAcc) : ProviderCostAcc :=
  { acc with
    cases := acc.cases + 1
    costMicroSum := addKnown acc.costMicroSum raw.costMicrousd
    costAny := acc.costAny || raw.costMicrousd.isSome }

/-- One case: who answered is billed, and the cell of its test and column counts it. -/
def MatrixScan.step (scan : MatrixScan) (raw : RawCase) : MatrixScan :=
  -- a row without a test has no place in the matrix
  if raw.testId = "" then scan
  else
    let answerer := raw.answeredBy.getD raw.providerId
    let column : MatrixColumn := ⟨raw.providerId, raw.promptId⟩
    { columns := if column ∈ scan.columns then scan.columns else scan.columns ++ [column]
      rows := updateEntry RowAcc.testId raw.testId ⟨raw.testId, raw.idx, none, []⟩
        (fun row => { row with
          name := row.name <|> raw.name
          cells := updateEntry Prod.fst column (column, CellAcc.empty)
            (fun cell => (cell.1, cell.2.add raw)) row.cells }) scan.rows
      costs := updateEntry ProviderCostAcc.providerId answerer ⟨answerer, 0, 0, false⟩
        (ProviderCostAcc.add raw) scan.costs }

def scanCases (cases : List RawCase) : MatrixScan := cases.foldl MatrixScan.step ⟨[], [], []⟩

/-! ### The response -/

structure MatrixCell where
  total : ℕ
  passed : ℕ
  failed : ℕ
  errored : ℕ
  skipped : ℕ
  xfailed : ℕ
  xpassed : ℕ
  scoreMean : Option ℚ
  passFraction : ℚ
  distinctOutputs : ℕ
  latencyMsMean : Option ℚ
  costUsd : Option ℚ
  fallbackAnswered : ℕ
  caseKeys : List String

structure MatrixRow where
  testId : String
  name : Option String
  cells : List (Option MatrixCell)

structure ProviderCost where
  providerId : String
  cases : ℕ
  costUsd : Option ℚ

structure MatrixResponse where
  runId : String
  columns : List MatrixColumn
  rows : List MatrixRow
  providerCosts : List ProviderCost
  nextCursor : Option String

/-- `finalize_cell`. -/
def CellAcc.finalize (acc : CellAcc) : MatrixCell where
  total := acc.total
  passed := acc.passed
  failed := acc.failed
  errored := acc.errored
  skipped := acc.skipped
  xfailed := acc.xfailed
  xpassed := acc.xpassed
  scoreMean := if 0 < acc.scoreCount then some (acc.scoreSum / acc.scoreCount) else none
  passFraction := acc.passed / acc.total
  distinctOutputs := acc.outputHashes.length
  latencyMsMean := if 0 < acc.latencyCount then some (acc.latencySum / acc.latencyCount) else none
  costUsd := if acc.costAny then fromMicrousd (some acc.costMicroSum) else none
  fallbackAnswered := acc.fallbackAnswered
  caseKeys := (orderBy (fun a b => a.1 < b.1 ∨ (a.1 = b.1 ∧ a.2.1 ≤ b.2.1)) acc.caseKeys).map
    fun key => key.2.2

/-- `finalize_row`: a cell for every column of the run, empty where the test never ran. -/
def RowAcc.finalize (columns : List MatrixColumn) (row : RowAcc) : MatrixRow where
  testId := row.testId
  name := row.name
  cells := columns.map fun column => (row.cells.lookup column).map CellAcc.finalize

/-- The cases of a run with a provider, if the caller may see the run. -/
def matrixRows (policy : PolicyTables) (f : MatrixFilter) (t : RunTables) : List CaseRow :=
  orderBy (fun a b => a.idx ≤ b.idx) (select t.cases fun c =>
    (((eq (some c.runId) (some f.runId)).and (isNull c.providerId).not).and
      (eq c.providerId (some "")).not).and (visibleRunPredicate policy f.visibility t f.runId))

/-- A page of the scanned rows; a page that is full says where the next one starts. -/
def matrixPage (f : MatrixFilter) (scan : MatrixScan) : MatrixResponse :=
  let afterCursor := scan.rows.filter fun row => f.cursor.all fun c => c < row.firstSeenIdx
  let page := afterCursor.take f.limit.toNat
  { runId := f.runId
    columns := scan.columns
    rows := page.map (RowAcc.finalize scan.columns)
    providerCosts := scan.costs.map fun acc =>
      { providerId := acc.providerId
        cases := acc.cases
        costUsd := if acc.costAny then fromMicrousd (some acc.costMicroSum) else none }
    nextCursor := if page.length < afterCursor.length then
        page.getLast?.map fun row => toString row.firstSeenIdx
      else none }

/-- `MatrixFilter::query`. -/
def MatrixFilter.query (f : MatrixFilter) (policy : PolicyTables) (t : RunTables) :
    Except String MatrixResponse :=
  ((matrixRows policy f t).mapM CaseRow.toRawCase).map fun cases => matrixPage f (scanCases cases)
