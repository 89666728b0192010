/-
The eight tools an agent may call, each as it assembles, cuts and renders what the storage
answers.

What the storage answers is any document that serde writes; only a response struct is known not
to have a field of the name that the budget pass adds.  `Call.payload` is what a tool has
assembled when it comes to the pass; `Call.run` is the whole tool.
-/
import Domarinn.McpText
import Domarinn.RunMatrix

open Json Sql

namespace Mcp

/-! ### Results -/

structure ToolResult where
  structured : Json
  text : List Char
  isError : Bool

/-- `ToolResult::ok`. -/
def ToolResult.ok (structured : Json) (text : List Char) : ToolResult := ⟨structured, text, false⟩

/-- `ToolResult::error`. -/
def ToolResult.error (message : String) : ToolResult :=
  ⟨obj [("error", str message)], message.toList, true⟩

/-- `internal`. -/
def internal (what : String) : String := "internal error while " ++ what

/-- An answer of the storage, or the message that stands for its error. -/
def orInternal {α : Type} (what : String) : Except String α → Except String α
  | .ok a => .ok a
  | .error _ => .error (internal what)

/-- `clamp_limit`. -/
def clampLimit (requested : Option ℤ) (default max : ℤ) : ℤ :=
  min (Max.max 1 (requested.getD default)) max

/-- `structured_with_budget`. -/
def structuredWithBudget (structured : Json) : Budget × Json :=
  (Budget.new maxString).apply structured

/-- `finish`. -/
def finish (budget : Budget) (structured : Json) (text : List Char) : ToolResult :=
  let structured := budget.annotate structured
  if fits structured then .ok structured text
  else .error
    "result exceeded the response budget. Narrow the filters or lower `limit` and retry."

/-- An integer as a document. -/
def jsonInt : ℤ → Json
  | .ofNat n => num (.posInt n)
  | .negSucc n => num (.negInt n)

/-! ### What the tools ask for -/

/-- A response struct as serde writes it. -/
structure Response where
  fields : List (String × Json)
  plain : "_truncated" ∉ names fields

/-- `RunListResponse`. -/
structure RunListResponse where
  runs : List Json
  nextCursor : Option String
  cachedHidden : Option I64

/-- What a tool reads of the server's state. -/
structure AppState where
  listRuns : RunListFilter → Except String RunListResponse
  listProjects : RunVisibility → Except String Response
  listSuites : String → RunVisibility → Except String Response
  getRun : String → RunVisibility → Except String (Option Json)
  runMatrix : MatrixFilter → Except String Json
  getRunConfig : String → RunVisibility → Except String (Option Json)
  runExists : String → RunVisibility → Except String Bool
  listCases : CaseListFilter → Except String Response
  getCase : String → String → RunVisibility → Except String (Option Json)
  caseHistory : String → String → String → ℤ → RunVisibility → Except String (Option Response)
  compareRuns : String → String → RunVisibility → Except String (Option Response)
  search : String → ℤ → RunVisibility → Option CachedFilter → Except String Response
  metaView : Except String Json
  cacheStats : Except String Json

/-- What the tools take from the libraries: RFC 3339 timestamps, and the characters that `{:?}`
writes as they are. -/
structure Platform where
  fromRfc3339 : String → Option I64
  printable : Char → Bool

/-! ### `find_runs` and `get_run` -/

inductive GroupBy where
  | project
  | suite

structure FindRunsArgs where
  project : Option String
  suite : Option String
  tag : Option String
  branch : Option String
  actor : Option String
  since : Option String
  «until» : Option String
  status : Option RunStatusFilter
  cached : Option CachedFilter
  origin : Option OriginFilter
  limit : Option ℤ
  cursor : Option String
  groupBy : Option GroupBy

inductive RunInclude where
  | matrix
  | config
deriving DecidableEq

structure GetRunArgs where
  runId : String
  «include» : Option (List RunInclude)
  matrixLimit : Option ℤ
  matrixCursor : Option ℤ

/-- `parse_time`, which takes epoch milliseconds or RFC 3339. -/
def parseTime (platform : Platform) (raw : Option String) (field : String) :
    Except String (Option I64) :=
  match raw with
  | none => .ok none
  | some raw => match (parseI64 raw).or (platform.fromRfc3339 raw) with
    | some ms => .ok (some ms)
    | none => .error (field ++ " '" ++ raw ++ "' is not a timestamp; use RFC3339 " ++
        "(2026-07-28T00:00:00Z) or epoch milliseconds")

/-- The filter that the arguments of `find_runs` stand for. -/
def listingFilter (platform : Platform) (vis : RunVisibility) (args : FindRunsArgs) :
    Except String RunListFilter := do
  let sinceMs ← parseTime platform args.since "since"
  let untilMs ← parseTime platform args.«until» "until"
  let cursor ← match args.cursor.map decodeCursor with
    | some none =>
      throw "cursor is malformed; pass next_cursor from a previous call"
    | some (some c) => pure (some c)
    | none => pure none
  return {
    visibility := vis
    project := args.project
    suite := args.suite
    tag := args.tag
    branch := args.branch
    sinceMs := sinceMs
    untilMs := untilMs
    status := args.status
    cached := args.cached
    origin := args.origin
    actor := args.actor
    limit := clampLimit args.limit 10 50
    cursor := cursor }

def RunListResponse.toJson (page : RunListResponse) : Json :=
  obj [("runs", arr page.runs), ("next_cursor", (page.nextCursor.map str).getD null),
    ("cached_hidden", (page.cachedHidden.map fun n => jsonInt n.1).getD null)]

/-- The list of runs. -/
def listingPayload (platform : Platform) (s : AppState) (vis : RunVisibility)
    (args : FindRunsArgs) : Except String Json := do
  let filter ← listingFilter platform vis args
  let page ← orInternal "listing runs" (s.listRuns filter)
  return page.toJson

def projectsPayload (s : AppState) (vis : RunVisibility) : Except String Json := do
  let projects ← orInternal "listing projects" (s.listProjects vis)
  return obj projects.fields

def suitesPayload (s : AppState) (vis : RunVisibility) (project : String) :
    Except String Json := do
  let suites ← orInternal "listing suites" (s.listSuites project vis)
  return obj suites.fields

/-- `list_projects`. -/
def listProjects (s : AppState) (vis : RunVisibility) : ToolResult :=
  match projectsPayload s vis with
  | .ok structured => .ok structured (projectsTable (index structured "projects"))
  | .error message => .error message

/-- `list_suites`. -/
def listSuites (s : AppState) (vis : RunVisibility) (project : String) : ToolResult :=
  match suitesPayload s vis project with
  | .ok structured => .ok structured (suitesTable project (index structured "suites"))
  | .error message => .error message

def suiteNeedsProject : String :=
  "group_by=suite requires a project argument. Call group_by=project first to " ++
    "see which projects exist."

/-- `find_runs`, whose text is rendered before the pass. -/
def findRuns (platform : Platform) (s : AppState) (vis : RunVisibility) (args : FindRunsArgs) :
    ToolResult :=
  match args.groupBy with
  | some .project => listProjects s vis
  | some .suite => match args.project with
    | some project => listSuites s vis project
    | none => .error suiteNeedsProject
  | none => match listingPayload platform s vis args with
    | .error message => .error message
    | .ok structured =>
      let text := runsTable (index structured "runs")
      let (budget, structured) := structuredWithBudget structured
      finish budget structured text

/-- One run, with the sections that were asked for. -/
def runPayload (s : AppState) (vis : RunVisibility) (args : GetRunArgs) :
    Except String Json := do
  match ← orInternal "loading run" (s.getRun args.runId vis) with
  | none => throw ("no run '" ++ args.runId ++ "'. Use find_runs to list run ids.")
  | some detail =>
    let sections := args.include.getD []
    let matrix ←
      if .matrix ∈ sections then
        (orInternal "loading matrix" (s.runMatrix
          { runId := args.runId
            visibility := vis
            limit := clampLimit args.matrixLimit 25 100
            cursor := args.matrixCursor })).map fun matrix => [("matrix", matrix)]
      else pure []
    let config ←
      if .config ∈ sections then
        (orInternal "loading run config" (s.getRunConfig args.runId vis)).map
          fun config => [("config", config.getD null)]
      else pure []
    return obj (("run", detail) :: matrix ++ config)

/-- `get_run`, whose text is rendered before the pass. -/
def getRun (s : AppState) (vis : RunVisibility) (args : GetRunArgs) : ToolResult :=
  match runPayload s vis args with
  | .error message => .error message
  | .ok structured =>
    let text := runSummary structured
    let (budget, structured) := structuredWithBudget structured
    finish budget structured text

/-! ### `list_cases`, `get_case` and `case_history` -/

structure ListCasesArgs where
  runId : String
  status : Option CaseStatus
  tag : Option String
  q : Option String
  provider : Option String
  prompt : Option String
  test : Option String
  stopReason : Option String
  errorClass : Option String
  emptyReason : Option String
  cached : Option Bool
  limit : Option ℤ
  cursor : Option ℤ

structure GetCaseArgs where
  runId : String
  caseKey : String
  fields : Option (List String)
  maxChars : Option ℤ

structure CaseHistoryArgs where
  project : String
  suite : String
  caseKey : String
  limit : Option ℤ

/-- The page of cases. -/
def casesPage (s : AppState) (vis : RunVisibility) (args : ListCasesArgs) :
    Except String Response := do
  match ← orInternal "checking run" (s.runExists args.runId vis) with
  | false => throw ("no run '" ++ args.runId ++ "'. Use find_runs to list run ids.")
  | true =>
    orInternal "listing cases" (s.listCases
      { runId := args.runId
        visibility := vis
        status := args.status
        tag := args.tag
        q := args.q
        provider := args.provider
        prompt := args.prompt
        test := args.test
        stopReason := args.stopReason
        errorClass := args.errorClass
        emptyReason := args.emptyReason
        cached := args.cached
        limit := clampLimit args.limit 20 100
        cursor := args.cursor })

/-- One row of `clamp_previews`, which drops what `truncate` says about the cut. -/
def clampPreview : Json → Json
  | .obj row => match member? "output_preview" row with
    | some (.str preview) =>
      obj (insertMember "output_preview" (str (truncate preview previewString).1) row)
    | _ => obj row
  | row => row

/-- `clamp_previews`. -/
def clampPreviews (fields : List (String × Json)) : List (String × Json) :=
  match member? "cases" fields with
  | some (.arr rows) => insertMember "cases" (arr (rows.map clampPreview)) fields
  | _ => fields

def casesPayload (page : Response) : Json :=
  obj (insertMember "_warning" (str untrustedWarning) (clampPreviews page.fields))

/-- `list_cases`. -/
def listCases (s : AppState) (vis : RunVisibility) (args : ListCasesArgs) : ToolResult :=
  match casesPage s vis args with
  | .error message => .error message
  | .ok page =>
    let (budget, structured) := structuredWithBudget (casesPayload page)
    let text := casesTable (index structured "cases") args.runId
    finish budget structured text

/-- `OPTIONAL_FIELDS`. -/
def optionalFields : List String := ["raw", "request", "prompt", "tool_calls", "error_details"]

/-- `Map::remove`, which fills the gap with the last member. -/
def swapRemove (k : String) (ms : List (String × Json)) : Option (List (String × Json)) :=
  match ms.findIdx? fun m => m.1 = k, ms.getLast? with
  | some i, some last => some ((ms.set i last).dropLast)
  | _, _ => none

/-- `project_fields`: a heavy field that was not asked for is replaced by a hint. -/
def projectFields (requested : List String) : Json → Json
  | .obj members => obj (optionalFields.foldl (fun members field =>
      if field ∈ requested then members
      else match swapRemove field members with
        | some rest => insertMember (field ++ "_omitted")
            (str ("present; request with fields:[\"" ++ field ++ "\"]")) rest
        | none => members) members)
  | case => case

def casePayload (s : AppState) (vis : RunVisibility) (args : GetCaseArgs) :
    Except String Json := do
  let requested := args.fields.getD []
  match requested.find? fun f => f ∉ optionalFields with
  | some unknown => throw ("unknown field '" ++ unknown ++
      "'. `fields` accepts: " ++ ", ".intercalate optionalFields)
  | none =>
    match ← orInternal "loading case" (s.getCase args.runId args.caseKey vis) with
    | none => throw ("no case '" ++ args.caseKey ++ "' in run '" ++ args.runId ++
        "'. Use list_cases to enumerate valid case keys.")
    | some detail =>
      return obj [("case", projectFields requested detail), ("_warning", str untrustedWarning)]

/-- The limit that `get_case` was asked for. -/
def GetCaseArgs.limit (args : GetCaseArgs) : ℕ :=
  match args.maxChars with
  | some n => (min (max 1 n) maxStringCeiling).toNat
  | none => maxString

/-- `get_case`. -/
def getCase (s : AppState) (vis : RunVisibility) (args : GetCaseArgs) : ToolResult :=
  match casePayload s vis args with
  | .error message => .error message
  | .ok structured =>
    let (budget, structured) := (Budget.new args.limit).apply structured
    let text := caseDetail (index structured "case") args.caseKey
    finish budget structured text

def historyPayload (s : AppState) (vis : RunVisibility) (args : CaseHistoryArgs) :
    Except String Response := do
  match ← orInternal "loading case history" (s.caseHistory args.project args.suite args.caseKey
      (clampLimit args.limit 20 50) vis) with
  | none => throw ("no case '" ++ args.caseKey ++ "' in " ++ args.project ++ "/" ++
      args.suite ++ ". The project, suite, or case key may be wrong — " ++
      "find_runs with group_by=suite lists valid suites.")
  | some history => return history

/-- `case_history`. -/
def caseHistory (s : AppState) (vis : RunVisibility) (args : CaseHistoryArgs) : ToolResult :=
  match historyPayload s vis args with
  | .error message => .error message
  | .ok history =>
    let (budget, structured) := structuredWithBudget (obj history.fields)
    let points := ((getMember structured "points").or (getMember structured "history")).getD null
    let text := historyTable points args.caseKey
    finish budget structured text

/-! ### `compare_runs` and `search` -/

/-- `DEFAULT_DELTAS`. -/
def defaultDeltas : List String := ["newly_failing", "newly_passing", "added", "removed"]

/-- `ALL_DELTAS`. -/
def allDeltas : List String :=
  ["newly_failing", "newly_passing", "still_failing", "still_passing", "unchanged", "added",
    "removed"]

structure CompareRunsArgs where
  baseRunId : String
  headRunId : String
  delta : Option (List String)
  limit : Option ℤ

structure SearchArgs where
  q : String
  limit : Option ℤ
  cached : Option CachedFilter

/-- `filter_case_rows`: what is left, and how many rows are not. -/
def filterCaseRows (wanted : List String) (limit : ℤ) (fields : List (String × Json)) :
    List (String × Json) × ℕ :=
  match member? "cases" fields with
  | some (.arr rows) =>
    let matching := rows.filter fun row => match (getMember row "delta").bind asStr? with
      | some d => d ∈ wanted
      | none => false
    let kept := matching.take limit.toNat
    (insertMember "cases" (arr kept) fields,
      rows.length - matching.length + (matching.length - kept.length))
  | _ => (fields, 0)

def wantedDeltas (args : CompareRunsArgs) : Except String (List String) :=
  match args.delta with
  | none => .ok defaultDeltas
  | some deltas => match deltas.find? fun d => d ∉ allDeltas with
    | some bad => .error
        ("unknown delta '" ++ bad ++ "'. Valid values: " ++ ", ".intercalate allDeltas)
    | none => .ok deltas

def comparePayload (s : AppState) (vis : RunVisibility) (args : CompareRunsArgs) :
    Except String Json := do
  let wanted ← wantedDeltas args
  match ← orInternal "comparing runs" (s.compareRuns args.baseRunId args.headRunId vis) with
  | none => throw ("cannot compare '" ++ args.baseRunId ++ "' with '" ++
      args.headRunId ++
      "': at least one run does not exist. Use find_runs to list run ids.")
  | some compare =>
    let (fields, dropped) := filterCaseRows wanted (clampLimit args.limit 50 50) compare.fields
    let filtered := obj [("delta", arr (wanted.map str)), ("rows_omitted", nat dropped),
      ("hint", str "Widen with the `delta` argument or raise `limit`.")]
    return obj (insertMember "_warning" (str untrustedWarning)
      (insertMember "_filtered" filtered fields))

/-- `compare_runs`. -/
def compareRuns (s : AppState) (vis : RunVisibility) (args : CompareRunsArgs) : ToolResult :=
  match comparePayload s vis args with
  | .error message => .error message
  | .ok structured =>
    let (budget, structured) := structuredWithBudget structured
    let text := compareTable args.baseRunId args.headRunId (index structured "cases")
      (index structured "summary")
    finish budget structured text

def searchPayload (platform : Platform) (s : AppState) (vis : RunVisibility) (args : SearchArgs) :
    Except String Json := do
  if isBlank args.q then throw "q must not be empty"
  match s.search args.q (clampLimit args.limit 10 25) vis args.cached with
  | .ok results => return obj (insertMember "_warning" (str untrustedWarning) results.fields)
  | .error _ => throw ("search failed for query \"" ++
      String.ofList (args.q.toList.flatMap (debugChar platform.printable)) ++
      "\". FTS5 syntax applies — try plain words, or quote a phrase.")

/-- `search`. -/
def search (platform : Platform) (s : AppState) (vis : RunVisibility) (args : SearchArgs) :
    ToolResult :=
  match searchPayload platform s vis args with
  | .error message => .error message
  | .ok structured =>
    let (budget, structured) := structuredWithBudget structured
    let text := searchText platform.printable structured args.q
    finish budget structured text

/-! ### `get_server_info` -/

inductive ServerInclude where
  | cache
deriving DecidableEq

structure GetServerInfoArgs where
  «include» : Option (List ServerInclude)

def serverPayload (s : AppState) (args : GetServerInfoArgs) : Except String Json := do
  let server ← orInternal "reading server metadata" s.metaView
  let cache ←
    if .cache ∈ args.include.getD [] then
      (orInternal "reading cache stats" s.cacheStats).map fun stats => [("cache", stats)]
    else pure []
  return obj (("server", server) :: cache)

/-- `get_server_info`. -/
def getServerInfo (s : AppState) (args : GetServerInfoArgs) : ToolResult :=
  match serverPayload s args with
  | .error message => .error message
  | .ok structured =>
    let (budget, structured) := structuredWithBudget structured
    let text := jsonBlock structured
    finish budget structured text

/-! ### Calls -/

/-- A `tools/call` whose arguments fit the tool's schema. -/
inductive Call where
  | findRuns (args : FindRunsArgs)
  | getRun (args : GetRunArgs)
  | listCases (args : ListCasesArgs)
  | getCase (args : GetCaseArgs)
  | caseHistory (args : CaseHistoryArgs)
  | compareRuns (args : CompareRunsArgs)
  | search (args : SearchArgs)
  | getServerInfo (args : GetServerInfoArgs)

/-- `call`. -/
def Call.run (platform : Platform) (s : AppState) (vis : RunVisibility) : Call → ToolResult
  | .findRuns args => Mcp.findRuns platform s vis args
  | .getRun args => Mcp.getRun s vis args
  | .listCases args => Mcp.listCases s vis args
  | .getCase args => Mcp.getCase s vis args
  | .caseHistory args => Mcp.caseHistory s vis args
  | .compareRuns args => Mcp.compareRuns s vis args
  | .search args => Mcp.search platform s vis args
  | .getServerInfo args => Mcp.getServerInfo s args

/-- What a call has assembled when it comes to the pass. -/
def Call.payload (platform : Platform) (s : AppState) (vis : RunVisibility) :
    Call → Except String Json
  | .findRuns args => match args.groupBy with
    | some .project => projectsPayload s vis
    | some .suite => match args.project with
      | some project => suitesPayload s vis project
      | none => .error suiteNeedsProject
    | none => listingPayload platform s vis args
  | .getRun args => runPayload s vis args
  | .listCases args => (casesPage s vis args).map casesPayload
  | .getCase args => casePayload s vis args
  | .caseHistory args => (historyPayload s vis args).map fun history => obj history.fields
  | .compareRuns args => comparePayload s vis args
  | .search args => searchPayload platform s vis args
  | .getServerInfo args => serverPayload s args

/-- The `CallToolResult` that a tool's result is wrapped in. -/
def ToolResult.toJson (r : ToolResult) : Json :=
  obj [("content", arr [obj [("type", str "text"), ("text", str (String.ofList r.text))]]),
    ("structuredContent", r.structured), ("isError", bool r.isError)]

/-- `call_tool`: one more look at the size of what goes out. -/
def callTool (platform : Platform) (s : AppState) (vis : RunVisibility) (c : Call) : ToolResult :=
  let result := c.run platform s vis
  if fits result.toJson then result
  else .error "result exceeded the response budget. Narrow the filters or lower `limit`."

end Mcp
