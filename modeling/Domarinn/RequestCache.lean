/-
One cached JSON exchange, for every request a grader makes.

`cachedExchange` is `cached_exchange`: it caches the payload of a request and derives the
value again on every read, so a hit and a live answer go through one parser.  An entry
serves by the verdict an old version stored, or by a payload that still parses; any other
entry is a miss.  The grader is asked in one place, `askLive`, which may ask again after an
unusable answer.

* **`askLive_run`** — asking live asks the grader and nothing else, and a value comes from
  a payload that parses;
* **`runs_fileExchange`** — filing writes one entry where the cache is written to, and nothing
  where it is not.
-/
import Domarinn.RunnerCache

open Program

/-- The cache, as one run's grader sees it. -/
structure RequestCache where
  mode : CacheMode
  repeatIdx : ℕ
deriving DecidableEq

/-- The two halves of a frozen verdict key, for a call type with history. -/
structure LegacyVerdict where
  fingerprint : Json
  graded : Json
deriving DecidableEq

/-- One exchange, as its caller describes it. -/
structure Exchange where
  canonical : Json
  kind : EntryKind
  caseSalt : Option String
  providerSalt : Option String
  legacy : Option LegacyVerdict
  legacyCanonical : List Json
deriving DecidableEq

/-- What a fresh payload is recorded as, beyond the payload itself. -/
structure EntryMeta where
  output : Output
  usage : Option TokenUsage
  costUsd : Option ℚ
  model : Option String
deriving DecidableEq

/-- What an exchange served: an adopted verdict, or a parsed payload. -/
inductive Served (T : Type) where
  | verdict (graded : Graded)
  | parsed (value : T) (cached : Bool) (storedCostUsd : Option ℚ)

/-- How many times a judge may be asked again. -/
def maxReasks : ℕ := 2

/-! ### Reading entries -/

/-- The adopted verdict of an entry that has one. -/
def gradedOf (entry : CacheEntry) (verdict : GradedVerdict) : Graded :=
  { verdict, usage := entry.usage, costUsd := entry.costUsd, model := entry.model, cached := true }

section
variable {T : Type} (parse : Json → Except GraderError T)

/-- `serve`: the read contract.  `none` is a miss. -/
def serve (entry : CacheEntry) : Option (Served T) :=
  match entry.verdict with
  | some verdict => some (.verdict (gradedOf entry verdict))
  | none => match entry.raw with
    | none => none
    | some payload => match parse payload with
      | .ok value => some (.parsed value true entry.costUsd)
      | .error _ => none

/-- `fresh_entry`: an entry for a payload this run paid for. -/
def freshEntry (canonical : Json) (kind : EntryKind) (payload : Json) (info : EntryMeta) :
    CacheEntry :=
  { kind := some kind, providerFingerprint := none
    request := some (requestToPersist canonical)
    output := info.output, usage := info.usage, costUsd := info.costUsd, model := info.model
    raw := some payload
    stopReason := none, attempts := none, providerLatencyMs := none, reasoning := none
    emptyReason := none, programDigest := none, address := none, verdict := none
    toolCalls := [] }

/-! ### Asking live -/

/-- A payload with the value it parses to. -/
def usable (answer : Except GraderError Json) : Except GraderError (Json × T) :=
  match answer with
  | .error e => .error e
  | .ok payload => match parse payload with
    | .error e => .error e
    | .ok value => .ok (payload, value)

/-- `ask_live`: ask and parse, again while the failure is one a second sample could fix.
The number is how many more times the caller may ask. -/
def askLive (canonical : Json) : ℕ → Run (Except GraderError (Json × T))
  | 0 => do
    let answer ← Run.askGrader canonical
    return usable parse answer
  | reasks + 1 => do
    let answer ← Run.askGrader canonical
    match usable parse answer with
    | .ok x => return .ok x
    | .error e => if e.isRetryable then askLive canonical reasks else return .error e

/-! ### The exchange -/

variable (info : T → EntryMeta) (strictMiss : CacheKey → GraderError) (reasks : ℕ)

/-- The key of an exchange. -/
def exchangeKey (cache : RequestCache) (exchange : Exchange) : CacheKey :=
  requestCacheKey exchange.canonical cache.repeatIdx exchange.providerSalt exchange.caseSalt

/-- `adopt_legacy_canonical`: an entry under an earlier canonical request. -/
def adoptExchange (cache : RequestCache) (exchange : Exchange) :
    Run (Option (CacheKey × CacheEntry)) :=
  probeWithinBudget false
    (exchange.legacyCanonical.map fun canonical =>
      requestCacheKey canonical cache.repeatIdx exchange.providerSalt exchange.caseSalt)
    true

/-- `adopt_legacy`: a verdict under the frozen verdict key. -/
def adoptVerdict (cache : RequestCache) (exchange : Exchange) :
    Run (Option (CacheEntry × GradedVerdict)) :=
  match exchange.legacy with
  | none => .ret none
  | some legacy => do
    if ← Run.shouldProbe then
      match ← Run.get (legacyGraderVerdictKey legacy.fingerprint legacy.graded cache.repeatIdx) with
      | .ok (some entry) =>
        match entry.verdict with
        | some verdict => do
          Run.recordAdoption
          return some (entry, verdict)
        | none => return none
      | _ => return none
    else return none

/-- Write an entry when the mode writes; a failed write is not fatal. -/
def fileExchange (cache : RequestCache) (key : CacheKey) (entry : CacheEntry) : Run Unit :=
  if cache.mode = .readWrite then do
    let _ ← Run.put key entry
    return ()
  else .ret ()

/-- The live exchange, and what is kept of it. -/
def exchangeLive (cache : RequestCache) (exchange : Exchange) :
    Run (Except GraderError (Served T)) := do
  match ← askLive parse exchange.canonical reasks with
  | .ok (payload, value) => do
    fileExchange cache (exchangeKey cache exchange)
      (freshEntry exchange.canonical exchange.kind payload (info value))
    return .ok (.parsed value false none)
  | .error e => return .error e

/-- After nothing usable was found under a request key: an old verdict, the refusal of the
strict mode, or a live exchange. -/
def exchangeUnserved (cache : RequestCache) (exchange : Exchange) :
    Run (Except GraderError (Served T)) := do
  match ← adoptVerdict cache exchange with
  | some (entry, verdict) => do
    fileExchange cache (exchangeKey cache exchange)
      { entry with
        request := some (requestToPersist exchange.canonical), kind := some exchange.kind }
    return .ok (.verdict (gradedOf entry verdict))
  | none =>
    if cache.mode = .readOnlyStrict then return .error (strictMiss (exchangeKey cache exchange))
    else exchangeLive parse info reasks cache exchange

/-- After a miss on the current key: an entry under an earlier request, if it serves. -/
def exchangeOnMiss (cache : RequestCache) (exchange : Exchange) :
    Run (Except GraderError (Served T)) := do
  match ← adoptExchange cache exchange with
  | some (_, entry) =>
    match serve parse entry with
    | some served => do
      fileExchange cache (exchangeKey cache exchange)
        { entry with request := some (requestToPersist exchange.canonical) }
      return .ok served
    | none => exchangeUnserved parse info strictMiss reasks cache exchange
  | none => exchangeUnserved parse info strictMiss reasks cache exchange

/-- What the read of the current key serves, if anything. -/
def servedBy (answer : Except String (Option CacheEntry)) : Option (Served T) :=
  match answer with
  | .ok (some entry) => serve parse entry
  | _ => none

/-- `cached_exchange`. -/
def cachedExchange (cache : Option RequestCache) (exchange : Exchange) :
    Run (Except GraderError (Served T)) :=
  match cache with
  | none => do
    match ← askLive parse exchange.canonical reasks with
    | .ok (_, value) => return .ok (.parsed value false none)
    | .error e => return .error e
  | some cache => do
    let answer ← Run.get (exchangeKey cache exchange)
    match servedBy parse answer with
    | some served => return .ok served
    | none => exchangeOnMiss parse info strictMiss reasks cache exchange

end

/-! ### What an exchange does -/

section
variable {T : Type} {parse : Json → Except GraderError T} {info : T → EntryMeta}
  {strictMiss : CacheKey → GraderError} {reasks : ℕ} {cache : RequestCache} {exchange : Exchange}
  {tr : List RunEvent} {res : Except GraderError (Served T)}

/-- Asking live asks the grader and nothing else, at least once, and a value comes from a
payload that parses. -/
structure AskRun (canonical : Json) (parse : Json → Except GraderError T) (tr : List RunEvent)
    (result : Except GraderError (Json × T)) : Prop where
  only : ∀ e ∈ tr, e.1 = .askGrader canonical
  live : tr ≠ []
  answered : ∀ payload value, result = .ok (payload, value) → parse payload = .ok value ∧
    (⟨.askGrader canonical, .ok payload⟩ : RunEvent) ∈ tr

theorem usable_ok {answer : Except GraderError Json} {payload : Json} {value : T}
    (h : usable parse answer = .ok (payload, value)) :
    answer = .ok payload ∧ parse payload = .ok value := by
  rcases answer with e | p
  · cases h
  · cases hp : parse p with
    | error e =>
      simp [usable, hp] at h
    | ok v =>
      simp only [usable, hp, Except.ok.injEq, Prod.mk.injEq] at h
      obtain ⟨rfl, rfl⟩ := h
      exact ⟨rfl, hp⟩

/-- By induction on the times the caller may still ask. -/
theorem askLive_run (parse : Json → Except GraderError T) (canonical : Json) :
    ∀ reasks, Holds (askLive parse canonical reasks) (AskRun canonical parse) := by
  have hlast : ∀ (answer : Except GraderError Json) (result : Except GraderError (Json × T)),
      (∀ x, result = .ok x → usable parse answer = .ok x) →
        AskRun canonical parse [⟨.askGrader canonical, answer⟩] result := by
    intro answer result hok
    refine ⟨by simp, by simp, fun payload value hr => ?_⟩
    obtain ⟨rfl, hp⟩ := usable_ok (hok _ hr)
    exact ⟨hp, by simp⟩
  intro reasks
  induction reasks with
  | zero =>
    unfold askLive
    exact holds_call_bind fun answer => holds_ret (hlast answer _ fun x hx => hx)
  | succ reasks ih =>
    unfold askLive
    refine holds_call_bind fun answer => ?_
    cases hu : usable parse answer with
    | ok x => exact holds_ret (hlast answer _ fun y hy => by rw [hu, hy])
    | error e =>
      dsimp only
      split_ifs
      · refine ih.mono fun t result h => ⟨?_, by simp, fun payload value hr => ?_⟩
        · intro e' he'
          rcases List.mem_cons.mp he' with rfl | he'
          · rfl
          · exact h.only e' he'
        · obtain ⟨hp, hmem⟩ := h.answered payload value hr
          exact ⟨hp, List.mem_cons_of_mem _ hmem⟩
      · exact holds_ret (hlast answer _ fun y hy => by cases hy)

theorem AskRun.quiet {canonical : Json} {result : Except GraderError (Json × T)}
    (h : AskRun canonical parse tr result) :
    ∀ e ∈ tr, e.1.isGet = false ∧ e.1.isPut = false := by
  intro e he
  rw [h.only e he]
  exact ⟨rfl, rfl⟩

theorem runs_fileExchange {key : CacheKey} {entry : CacheEntry} :
    Runs (fileExchange cache key entry) tr () ↔
      if cache.mode = .readWrite then ∃ r, tr = [⟨.put key entry, r⟩] else tr = [] := by
  unfold fileExchange
  split_ifs
  · constructor
    · intro h
      obtain ⟨r, t, rfl, hret⟩ := runs_call_bind.mp h
      exact ⟨r, by rw [(runs_ret.mp hret).1]⟩
    · rintro ⟨r, rfl⟩
      exact .ask r (.ret ())
  · simp

end
