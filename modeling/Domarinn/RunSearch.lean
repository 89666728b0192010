/-
Full-text search over runs and cases.

The search tables index every run; a hit is joined back to its run, and there it is decided
whether the caller may see it.  How relevant a hit is may depend on all the rows indexed, and
so the engine that ranks them is given the whole table.
-/
import Domarinn.RunReads

open Sql

/-- A full-text engine, over rows of one table, for a query's tokens. -/
structure FtsEngine (ρ : Type) where
  isMatch : List String → ρ → Bool
  snippet : List String → ρ → String
  /-- The smaller, the more relevant. -/
  rank : List String → List ρ → ρ → ℚ

/-- `search_query`: the words that have a letter or a digit, without quotes. -/
def searchQuery (isAlphanumeric : Char → Bool) (input : String) : Option (List String) :=
  let words := (input.toList.splitOnP isWhitespace).filter (· ≠ [])
  let tokens := (words.map fun word => word.filter (· ≠ '"')).filter fun word =>
    word.any isAlphanumeric
  if tokens.isEmpty then none else some (tokens.map String.ofList)

structure RunSearchHit where
  id : String
  project : Option String
  suite : Option String
  createdAt : I64
  snippet : String
  cached : Option Bool

structure CaseSearchHit where
  runId : String
  caseKey : String
  name : Option String
  status : CaseStatus
  project : Option String
  suite : Option String
  snippet : String
  cached : Option Bool

structure SearchResponse where
  runs : List RunSearchHit
  cases : List CaseSearchHit

/-- `RUN_CACHED_CASE`: nothing is claimed of a run whose counts are missing. -/
def RunRow.cachedCase (r : RunRow) : Option Bool :=
  match r.cacheHits, r.cacheMisses with
  | some hits, some misses =>
    if hits < 0 ∨ misses < 0 then none else some (decide (misses = 0 ∧ 0 < hits))
  | _, _ => none

/-- The conditions of a hit on its run. -/
def hitClauses (policy : PolicyTables) (vis : RunVisibility) (cached : Option CachedFilter)
    (r : RunRow) : Truth :=
  (visibleRun policy vis r).and (allOf (cached.toList.flatMap cachedClause) r)

/-- The indexed runs that match, with their rows. -/
def runMatches (engine : FtsEngine RunFtsRow) (policy : PolicyTables) (vis : RunVisibility)
    (t : RunTables) (query : List String) (cached : Option CachedFilter) :
    List (RunFtsRow × RunRow) :=
  join t.runsFts t.runs fun x r => (eq (some r.id) (some x.runId)).and
    ((Truth.ofBool (engine.isMatch query x)).and (hitClauses policy vis cached r))

/-- `run_hits`. -/
def runHits (engine : FtsEngine RunFtsRow) (policy : PolicyTables) (vis : RunVisibility)
    (t : RunTables) (query : List String) (max : ℤ) (cached : Option CachedFilter) :
    List RunSearchHit :=
  let rank := engine.rank query t.runsFts
  (limit max (orderBy (fun a b => rank a.1 ≤ rank b.1)
    (runMatches engine policy vis t query cached))).map fun row =>
      { id := row.1.runId
        project := row.2.project
        suite := row.2.suite
        createdAt := row.2.createdAt
        snippet := engine.snippet query row.1
        cached := row.2.cachedCase }

/-- The indexed cases that match, with their rows and their runs' rows. -/
def caseMatches (engine : FtsEngine CaseFtsRow) (policy : PolicyTables) (vis : RunVisibility)
    (t : RunTables) (query : List String) (cached : Option CachedFilter) :
    List (CaseFtsRow × CaseRow × RunRow) :=
  join t.casesFts (join t.cases t.runs fun c r =>
      (eq (some r.id) (some c.runId)).and (hitClauses policy vis cached r))
    fun x row => ((eq (some row.1.runId) (some x.runId)).and
      (eq (some row.1.caseKey) (some x.caseKey))).and (Truth.ofBool (engine.isMatch query x))

/-- `case_hits`. -/
def caseHits (engine : FtsEngine CaseFtsRow) (policy : PolicyTables) (vis : RunVisibility)
    (t : RunTables) (query : List String) (max : ℤ) (cached : Option CachedFilter) :
    List CaseSearchHit :=
  let rank := engine.rank query t.casesFts
  (limit max (orderBy (fun a b => rank a.1 ≤ rank b.1)
    (caseMatches engine policy vis t query cached))).map fun row =>
      { runId := row.1.runId
        caseKey := row.1.caseKey
        name := row.2.1.name
        status := match CaseStatus.fromStr row.2.1.status with
          | .ok status => status
          | .error _ => .error
        project := row.2.2.project
        suite := row.2.2.suite
        snippet := engine.snippet query row.1
        cached := cachedFlag row.2.1.cached }

/-- The two engines, and what counts as a letter or a digit. -/
structure SearchEngines where
  isAlphanumeric : Char → Bool
  runs : FtsEngine RunFtsRow
  cases : FtsEngine CaseFtsRow

/-- `search`. -/
def search (engines : SearchEngines) (policy : PolicyTables) (vis : RunVisibility) (t : RunTables)
    (query : String) (max : ℤ) (cached : Option CachedFilter) : SearchResponse :=
  match searchQuery engines.isAlphanumeric query with
  | none => ⟨[], []⟩
  | some tokens => ⟨runHits engines.runs policy vis t tokens max cached,
      caseHits engines.cases policy vis t tokens max cached⟩
