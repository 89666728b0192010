/-
What each cache mode promises, over whole sequences of calls.

A run makes provider calls (`runCell`'s wiring of `callWithCache`) and grader exchanges
(`gradedVerdict`'s wiring of `cachedExchange`).  `ModeSafe` is the promise for one call:

* in the strict mode nothing live is asked and nothing is written;
* with the cache disabled nothing is read or written;
* in the read-write mode the current key is read first and an entry that serves is
  returned at once; a write is the last thing a call does, under its own key, of an entry
  that some `Ok` answer before it gave, and only when the call returns `Ok`.

The promise is kept by every call with one exception, `uncacheable_goes_live`: a provider
call without a key is asked live in the strict mode too.  **`modeSafe_iff`** says that this
is the only one, for every sequence of calls and every behaviour of the world.
-/
import Domarinn.RequestCache

open Program

/-! ### The promise -/

/-- Every write in the trace is its last event, under `key`, of an entry that an event
before it gave. -/
def WritesLast (key : Option CacheKey) (origin : RunEvent → CacheEntry → Prop)
    (tr : List RunEvent) : Prop :=
  ∀ k entry r, (⟨.put k entry, r⟩ : RunEvent) ∈ tr → key = some k ∧
    ∃ before, tr = before ++ [⟨.put k entry, r⟩] ∧ (∀ e ∈ before, e.1.isPut = false) ∧
      ∃ e ∈ before, origin e entry

/-- What a mode promises of one call with this key; `serves` is what a stored entry is
returned as. -/
structure ModeSafe {ε R : Type} (mode : CacheMode) (key : Option CacheKey)
    (serves : CacheEntry → Option R) (origin : RunEvent → CacheEntry → Prop)
    (tr : List RunEvent) (res : Except ε R) : Prop where
  strict : mode = .readOnlyStrict → ∀ e ∈ tr, e.1.isLive = false ∧ e.1.isPut = false
  disabled : mode = .disabled → ∀ e ∈ tr, e.1.isGet = false ∧ e.1.isPut = false
  writes : WritesLast key origin tr
  stores : (∃ e ∈ tr, e.1.isPut = true) → ∃ r, res = .ok r
  reads : mode = .readWrite → ∀ k, key = some k → ∃ answer rest, tr = ⟨.get k, answer⟩ :: rest ∧
    ∀ entry r, answer = .ok (some entry) → serves entry = some r → res = .ok r ∧ rest = []

/-- What follows the read of the current key keeps. -/
structure AfterRead {ε R : Type} (mode : CacheMode) (key : CacheKey)
    (origin : RunEvent → CacheEntry → Prop) (tr : List RunEvent) (res : Except ε R) : Prop where
  strict : mode = .readOnlyStrict → ∀ e ∈ tr, e.1.isLive = false ∧ e.1.isPut = false
  writes : WritesLast (some key) origin tr
  stores : (∃ e ∈ tr, e.1.isPut = true) → ∃ r, res = .ok r

section
variable {ε R : Type} {mode : CacheMode} {key : CacheKey}
  {serves : CacheEntry → Option R} {origin : RunEvent → CacheEntry → Prop}
  {tr : List RunEvent} {res : Except ε R}

theorem writesLast_of_quiet {key : Option CacheKey} (h : ∀ e ∈ tr, e.1.isPut = false) :
    WritesLast key origin tr := by
  intro k entry r hput
  exact absurd (h _ hput) (by simp [RunCmd.isPut])

/-- A trace without a write keeps everything that concerns writes. -/
theorem AfterRead.of_quiet (hput : ∀ e ∈ tr, e.1.isPut = false)
    (hstrict : mode = .readOnlyStrict → ∀ e ∈ tr, e.1.isLive = false) :
    AfterRead mode key origin tr res := by
  refine ⟨fun hm e he => ⟨hstrict hm e he, hput e he⟩, writesLast_of_quiet hput, ?_⟩
  rintro ⟨e, he, hp⟩
  rw [hput e he] at hp
  cases hp

/-- A write at the end of a trace, by a call that returns `Ok`. -/
theorem AfterRead.of_put {quiet : List RunEvent} {entry : CacheEntry} {answer : R}
    {r : RunRes (.put key entry)} (hmode : mode ≠ .readOnlyStrict)
    (hput : ∀ e ∈ quiet, e.1.isPut = false) (horigin : ∃ e ∈ quiet, origin e entry) :
    AfterRead mode key origin (quiet ++ [⟨.put key entry, r⟩]) (.ok answer : Except ε R) := by
  refine ⟨fun hm => absurd hm hmode, fun k e' r' hmem => ?_, fun _ => ⟨answer, rfl⟩⟩
  rcases List.mem_append.mp hmem with hmem | hmem
  · exact absurd (hput _ hmem) (by simp [RunCmd.isPut])
  · rw [List.mem_singleton] at hmem
    cases hmem
    exact ⟨rfl, quiet, rfl, hput, horigin⟩

/-- Probing before the rest changes nothing of the promise. -/
theorem AfterRead.prepend {t : List RunEvent}
    (ht : ∀ e ∈ t, e.1.isPut = false ∧ e.1.isLive = false)
    (h : AfterRead mode key origin tr res) : AfterRead mode key origin (t ++ tr) res := by
  refine ⟨fun hm e he => ?_, fun k entry r hput => ?_, ?_⟩
  · rcases List.mem_append.mp he with he | he
    · exact (ht e he).symm
    · exact h.strict hm e he
  · rcases List.mem_append.mp hput with hput | hput
    · exact absurd (ht _ hput).1 (by simp [RunCmd.isPut])
    · obtain ⟨hk, before, rfl, hquiet, e, he, horigin⟩ := h.writes k entry r hput
      refine ⟨hk, t ++ before, by simp, fun e' he' => ?_, e, List.mem_append_right _ he, horigin⟩
      rcases List.mem_append.mp he' with he' | he'
      · exact (ht e' he').1
      · exact hquiet e' he'
  · rintro ⟨e, he, hp⟩
    rcases List.mem_append.mp he with he | he
    · rw [(ht e he).1] at hp
      cases hp
    · exact h.stores ⟨e, he, hp⟩

/-- A call that reads its key first keeps the promise of its mode. -/
theorem ModeSafe.of_read {answer : RunRes (.get key)} {rest : List RunEvent}
    (hmode : mode ≠ .disabled) (h : AfterRead mode key origin rest res)
    (hserved : ∀ entry r, answer = .ok (some entry) → serves entry = some r →
      res = .ok r ∧ rest = []) :
    ModeSafe mode (some key) serves origin (⟨.get key, answer⟩ :: rest) res := by
  have hread := h.prepend (t := [⟨.get key, answer⟩]) (by simp [RunCmd.isPut, RunCmd.isLive])
  refine ⟨hread.strict, fun hm => absurd hm hmode, hread.writes, hread.stores, ?_⟩
  rintro - k hk
  cases hk
  exact ⟨answer, rest, rfl, hserved⟩

/-- A call without a key that neither reads nor writes keeps the promise, unless it asks
live in the strict mode. -/
theorem ModeSafe.of_unkeyed (hquiet : ∀ e ∈ tr, e.1.isGet = false ∧ e.1.isPut = false)
    (hstrict : mode = .readOnlyStrict → ∀ e ∈ tr, e.1.isLive = false) :
    ModeSafe mode none serves origin tr res := by
  refine ⟨fun hm e he => ⟨hstrict hm e he, (hquiet e he).2⟩, fun _ => hquiet,
    writesLast_of_quiet fun e he => (hquiet e he).2, ?_, fun _ k hk => by cases hk⟩
  rintro ⟨e, he, hp⟩
  rw [(hquiet e he).2] at hp
  cases hp

end

/-- An entry that is `found` with the request and the kind of today's call. -/
def RefiledFrom (found entry : CacheEntry) : Prop :=
  ∃ request kind, entry = { found with request := request, kind := kind }

/-! ### Provider calls -/

/-- The events a provider call's writes come from: an `Ok` answer of the provider, stored
as it is, or an adopted entry, filed again. -/
def ProviderOrigin (provider : Provider) (req : ProviderRequest) : RunEvent → CacheEntry → Prop
  | ⟨.callProvider id r, (.ok response, _)⟩, entry => id = provider.id ∧ r = req ∧
      ∃ stats canonical, entry = responseToEntry provider response stats canonical
  | ⟨.get _, .ok (some found)⟩, entry => RefiledFrom found entry
  | _, _ => False

section
variable {provider : Provider} {req : ProviderRequest} {cache : CacheCall}
  {retry : RetryPolicy} {limiter : Bool} {tr : List RunEvent}
  {res : Except CallFailure CallOutcome}

/-- A live call outside the strict mode keeps the promise. -/
theorem callLive_afterRead {key : CacheKey} {canonical : Json}
    (hmode : cache.mode ≠ .readOnlyStrict)
    (h : Runs (callLive provider req cache retry limiter (some (key, canonical))) tr res) :
    AfterRead cache.mode key (ProviderOrigin provider req) tr res := by
  obtain ⟨calls, w, result, stats, rfl, hcalls, hw⟩ := callLive_cases h
  have hput : ∀ e ∈ calls, e.1.isPut = false := fun e he => (hcalls.only e he).quiet.2
  cases result with
  | error err =>
    obtain ⟨rfl, rfl⟩ := hw
    rw [List.append_nil]
    exact .of_quiet hput fun hm => absurd hm hmode
  | ok response =>
    obtain ⟨hwrite, outcome, rfl, -⟩ := hw
    have hwrite := runs_writeBack.mp hwrite
    split_ifs at hwrite
    · obtain ⟨r, rfl⟩ := hwrite
      obtain ⟨elapsed, hanswer⟩ := hcalls.answered response rfl
      exact .of_put hmode hput ⟨_, hanswer, rfl, rfl, stats, canonical, rfl⟩
    · rw [hwrite, List.append_nil]
      exact .of_quiet hput fun hm => absurd hm hmode

/-- After a miss on the current key a provider call keeps the promise, in every mode. -/
theorem callOnMiss_afterRead {key : CacheKey} {canonical : Json}
    (h : Runs (callOnMiss provider req cache retry limiter key canonical) tr res) :
    AfterRead cache.mode key (ProviderOrigin provider req) tr res := by
  obtain ⟨probes, rest, found, rfl, hprobes, hrest⟩ := callOnMiss_cases h
  have hquiet : ∀ e ∈ probes, e.1.isPut = false ∧ e.1.isLive = false :=
    fun e he => (hprobes.only e he).quiet
  rcases found with _ | ⟨k, found⟩
  · refine .prepend hquiet ?_
    by_cases hm : cache.mode = .readOnlyStrict
    · rw [if_pos hm] at hrest
      rw [hrest.1]
      exact .of_quiet (by simp) (by simp)
    · rw [if_neg hm] at hrest
      exact callLive_afterRead hm hrest
  · obtain ⟨rfl, kind, hfile⟩ := hrest
    have hfile := runs_refile.mp hfile
    split_ifs at hfile with hgate
    · obtain ⟨r, rfl⟩ := hfile
      exact .of_put (by simp [hgate.1]) (fun e he => (hquiet e he).1)
        ⟨_, (hprobes.hits k found).mpr rfl, _, _, rfl⟩
    · rw [hfile, List.append_nil]
      exact .of_quiet (fun e he => (hquiet e he).1) fun _ e he => (hquiet e he).2

end

/-- A provider call of a run: `latency` says that the case has a latency assertion. -/
structure ProviderCall where
  provider : Provider
  req : ProviderRequest
  repeatIdx : ℕ
  policy : EmptyPolicy
  probeLegacy : Bool
  retry : RetryPolicy
  limiter : Bool
  latency : Bool

namespace ProviderCall

/-- The cache side of the call: a latency assertion must not observe a cached latency. -/
def cacheCall (c : ProviderCall) (mode : CacheMode) : CacheCall :=
  { mode := if c.latency then .disabled else mode
    repeatIdx := c.repeatIdx, policy := c.policy, probeLegacy := c.probeLegacy }

/-- The error a latency-asserted case is refused with in the strict mode. -/
def latencyRefusal (c : ProviderCall) : CallFailure :=
  .beforeAnyAttempt .cacheMiss ("cache-only: test '" ++ c.req.test.id ++
    "' has a latency assert, which always measures a live call; there is nothing honest to replay")

/-- `run_cell`'s wiring of the cache mode. -/
def run (c : ProviderCall) (mode : CacheMode) : Run (Except CallFailure CallOutcome) :=
  if c.latency = true ∧ mode = .readOnlyStrict then .ret (.error c.latencyRefusal)
  else callWithCache c.provider c.req (c.cacheCall mode) c.retry c.limiter

/-- The key of the call, when it has one. -/
def key (c : ProviderCall) (mode : CacheMode) : Option CacheKey :=
  (keyedRequest c.provider c.req (c.cacheCall mode)).map
    (callKey c.provider c.req (c.cacheCall mode))

/-- The promise of the mode, for this call. -/
def Safe (c : ProviderCall) (mode : CacheMode) (tr : List RunEvent)
    (res : Except CallFailure CallOutcome) : Prop :=
  ModeSafe mode (c.key mode)
    (fun entry => (c.key mode).map fun key => hit c.provider entry key)
    (ProviderOrigin c.provider c.req) tr res

/-- The call has a canonical request to key on. -/
def Cacheable (c : ProviderCall) : Prop :=
  c.provider.cacheable = true ∧ (c.provider.canonicalRequest c.req).isSome

instance (c : ProviderCall) : Decidable c.Cacheable := by
  unfold Cacheable
  infer_instance

theorem keyedRequest_strict {c : ProviderCall} (hl : c.latency = false) :
    (keyedRequest c.provider c.req (c.cacheCall .readOnlyStrict)).isSome ↔ c.Cacheable := by
  rw [keyedRequest, cacheCall, hl, Cacheable]
  by_cases hc : c.provider.cacheable <;> simp [hc]

/-- **A provider call keeps the promise of its mode exactly when**, in the strict mode, it
has a key or is refused for its latency assertion. -/
theorem safe_iff {c : ProviderCall} {mode : CacheMode} {tr : List RunEvent}
    {res : Except CallFailure CallOutcome} (h : Runs (c.run mode) tr res) :
    c.Safe mode tr res ↔ (mode = .readOnlyStrict → c.latency = true ∨ c.Cacheable) := by
  unfold run at h
  split_ifs at h with hrefused
  · -- refused before anything is asked
    obtain ⟨rfl, rfl⟩ := runs_ret.mp h
    have hkey : c.key mode = none := by
      simp [key, keyedRequest, cacheCall, hrefused.1]
    rw [Safe, hkey]
    exact iff_of_true (.of_unkeyed (by simp) (by simp)) fun _ => .inl hrefused.1
  · have hcases := callWithCache_cases h
    cases hk : keyedRequest c.provider c.req (c.cacheCall mode) with
    | none =>
      -- no key: the call goes live, which only the strict mode minds
      rw [hk] at hcases
      have hquiet : ∀ e ∈ tr, e.1.isGet = false ∧ e.1.isPut = false := by
        intro e he
        rcases callLive_events hcases e he with he | ⟨_, _, _, _, _, hno, _⟩
        · exact he.quiet
        · cases hno
      have hkey : c.key mode = none := by rw [key, hk]; rfl
      rw [Safe, hkey]
      constructor
      · rintro hsafe rfl
        obtain ⟨calls, w, result, stats, rfl, hcalls, -⟩ := callLive_cases hcases
        obtain ⟨e, he, hlive⟩ := hcalls.live
        rw [(hsafe.strict rfl e (List.mem_append_left _ he)).1] at hlive
        cases hlive
      · intro hok
        refine .of_unkeyed hquiet ?_
        rintro rfl
        have hl : c.latency = false := by simpa using hrefused
        rcases hok rfl with hlat | hc
        · rw [hl] at hlat
          cases hlat
        · rw [← keyedRequest_strict hl, hk] at hc
          cases hc
    | some canonical =>
      rw [hk] at hcases
      obtain ⟨answer, rest, rfl, hrest⟩ := hcases
      have hmode : (c.cacheCall mode).mode ≠ .disabled := by
        intro hd
        simp [keyedRequest, hd] at hk
      have hl : c.latency = false := by
        by_contra hl
        simp [cacheCall, hl] at hmode
      have hm : (c.cacheCall mode).mode = mode := by simp [cacheCall, hl]
      have hkey : c.key mode = some (callKey c.provider c.req (c.cacheCall mode) canonical) := by
        rw [key, hk]; rfl
      rw [hm] at hmode
      rw [Safe, hkey]
      refine iff_of_true ?_ ?_
      · rcases answer with e | _ | entry
        · obtain ⟨rfl, rfl⟩ := hrest
          exact .of_read hmode (.of_quiet (by simp) (by simp)) fun entry r hans => by cases hans
        · have hafter := callOnMiss_afterRead hrest
          rw [hm] at hafter
          exact .of_read hmode hafter fun entry r hans => by cases hans
        · obtain ⟨rfl, rfl⟩ := hrest
          refine .of_read hmode (.of_quiet (by simp) (by simp)) fun entry' r hans hserve => ?_
          cases hans
          cases hserve
          exact ⟨rfl, rfl⟩
      · rintro rfl
        right
        rw [← keyedRequest_strict hl, hk]
        rfl

end ProviderCall

/-! ### Grader exchanges -/

/-- The events a grader exchange's writes come from: an `Ok` answer that parses, recorded
with its payload, or an adopted entry, filed again. -/
def ExchangeOrigin {T : Type} (parse : Json → Except GraderError T) (info : T → EntryMeta)
    (exchange : Exchange) : RunEvent → CacheEntry → Prop
  | ⟨.askGrader canonical, .ok payload⟩, entry => canonical = exchange.canonical ∧
      ∃ value, parse payload = .ok value ∧
        entry = freshEntry exchange.canonical exchange.kind payload (info value)
  | ⟨.get _, .ok (some found)⟩, entry => RefiledFrom found entry
  | _, _ => False

section
variable {T : Type} {parse : Json → Except GraderError T} {info : T → EntryMeta}
  {strictMiss : CacheKey → GraderError} {reasks : ℕ} {cache : RequestCache} {exchange : Exchange}
  {tr : List RunEvent} {res : Except GraderError (Served T)}

/-- A live exchange outside the strict mode keeps the promise. -/
theorem exchangeLive_afterRead (hmode : cache.mode ≠ .readOnlyStrict)
    (h : Runs (exchangeLive parse info reasks cache exchange) tr res) :
    AfterRead cache.mode (exchangeKey cache exchange) (ExchangeOrigin parse info exchange) tr
      res := by
  obtain ⟨asks, result, w, rfl, hasks, hw⟩ := runs_bind.mp h
  have hrun := askLive_run _ _ _ _ _ hasks
  have hput : ∀ e ∈ asks, e.1.isPut = false := fun e he => (hrun.quiet e he).2
  rcases result with e | ⟨payload, value⟩
  · obtain ⟨rfl, rfl⟩ := runs_ret.mp hw
    rw [List.append_nil]
    exact .of_quiet hput fun hm => absurd hm hmode
  · obtain ⟨w₁, _, w₂, rfl, hfile, hret⟩ := runs_bind.mp hw
    obtain ⟨rfl, rfl⟩ := runs_ret.mp hret
    rw [List.append_nil]
    have hfile := runs_fileExchange.mp hfile
    split_ifs at hfile
    · obtain ⟨r, rfl⟩ := hfile
      obtain ⟨hparse, hmem⟩ := hrun.answered payload value rfl
      exact .of_put hmode hput ⟨_, hmem, rfl, value, hparse, rfl⟩
    · rw [hfile, List.append_nil]
      exact .of_quiet hput fun hm => absurd hm hmode

/-- Looking for an old verdict reads and keeps the budget, and a verdict comes from an
entry it read. -/
theorem adoptVerdict_run :
    Holds (adoptVerdict cache exchange) fun tr found =>
      (∀ e ∈ tr, ProbeEvent e) ∧ ∀ entry verdict, found = some (entry, verdict) →
        ∃ k, (⟨.get k, .ok (some entry)⟩ : RunEvent) ∈ tr := by
  unfold adoptVerdict
  cases exchange.legacy with
  | none => exact holds_ret (by simp)
  | some legacy =>
    refine holds_call_bind fun allowed => ?_
    cases allowed
    · exact holds_ret (by simp [ProbeEvent])
    · refine holds_call_bind fun answer => ?_
      rcases answer with e | _ | entry
      · exact holds_ret (by simp [ProbeEvent])
      · exact holds_ret (by simp [ProbeEvent])
      · cases hv : entry.verdict with
        | none =>
          simp only [hv]
          exact holds_ret (by simp [ProbeEvent])
        | some verdict =>
          simp only [hv]
          refine holds_call_bind fun _ => holds_ret ⟨by simp [ProbeEvent], ?_⟩
          rintro entry' verdict' heq
          cases heq
          exact ⟨_, List.mem_cons_of_mem _ List.mem_cons_self⟩

/-- Filing an adopted entry again keeps the promise. -/
theorem refileExchange_afterRead {probes w : List RunEvent} {found entry : CacheEntry}
    {served : Served T} (hprobes : ∀ e ∈ probes, ProbeEvent e) {k : CacheKey}
    (hfound : (⟨.get k, .ok (some found)⟩ : RunEvent) ∈ probes)
    (hentry : RefiledFrom found entry)
    (h : Runs (fileExchange cache (exchangeKey cache exchange) entry) w ()) :
    AfterRead cache.mode (exchangeKey cache exchange) (ExchangeOrigin parse info exchange)
      (probes ++ w) (.ok served : Except GraderError (Served T)) := by
  have hquiet := fun e he => (hprobes e he).quiet
  have hfile := runs_fileExchange.mp h
  split_ifs at hfile with hmode
  · obtain ⟨r, rfl⟩ := hfile
    exact .of_put (by simp [hmode]) (fun e he => (hquiet e he).1) ⟨_, hfound, hentry⟩
  · rw [hfile, List.append_nil]
    exact .of_quiet (fun e he => (hquiet e he).1) fun _ e he => (hquiet e he).2

/-- When no request key served, an exchange keeps the promise, in every mode. -/
theorem exchangeUnserved_afterRead
    (h : Runs (exchangeUnserved parse info strictMiss reasks cache exchange) tr res) :
    AfterRead cache.mode (exchangeKey cache exchange) (ExchangeOrigin parse info exchange) tr
      res := by
  obtain ⟨probes, found, w, rfl, hprobes, hw⟩ := runs_bind.mp h
  obtain ⟨hevents, hfound⟩ := adoptVerdict_run _ _ hprobes
  rcases found with _ | ⟨entry, verdict⟩
  · refine .prepend (fun e he => (hevents e he).quiet) ?_
    dsimp only at hw
    split_ifs at hw with hm
    · obtain ⟨rfl, rfl⟩ := runs_ret.mp hw
      exact .of_quiet (by simp) (by simp)
    · exact exchangeLive_afterRead hm hw
  · obtain ⟨w₁, _, w₂, rfl, hfile, hret⟩ := runs_bind.mp hw
    obtain ⟨rfl, rfl⟩ := runs_ret.mp hret
    rw [List.append_nil]
    obtain ⟨k, hk⟩ := hfound entry verdict rfl
    exact refileExchange_afterRead hevents hk ⟨_, _, rfl⟩ hfile

/-- After a miss on the current key an exchange keeps the promise, in every mode. -/
theorem exchangeOnMiss_afterRead
    (h : Runs (exchangeOnMiss parse info strictMiss reasks cache exchange) tr res) :
    AfterRead cache.mode (exchangeKey cache exchange) (ExchangeOrigin parse info exchange) tr
      res := by
  obtain ⟨probes, found, w, rfl, hprobes, hw⟩ := runs_bind.mp h
  have hprobed := holds_probeWithinBudget _ _ _ _ _ hprobes
  have hquiet := fun e he => (hprobed.only e he).quiet
  rcases found with _ | ⟨k, entry⟩
  · exact .prepend hquiet (exchangeUnserved_afterRead hw)
  · dsimp only at hw
    cases hs : serve parse entry with
    | none =>
      rw [hs] at hw
      exact .prepend hquiet (exchangeUnserved_afterRead hw)
    | some served =>
      rw [hs] at hw
      obtain ⟨w₁, _, w₂, rfl, hfile, hret⟩ := runs_bind.mp hw
      obtain ⟨rfl, rfl⟩ := runs_ret.mp hret
      rw [List.append_nil]
      exact refileExchange_afterRead hprobed.only ((hprobed.hits k entry).mpr rfl)
        ⟨_, entry.kind, rfl⟩ hfile

end

/-- A grader exchange of a run, with how its payload is read and described. -/
structure GraderExchange where
  T : Type
  parse : Json → Except GraderError T
  info : T → EntryMeta
  strictMiss : CacheKey → GraderError
  reasks : ℕ
  exchange : Exchange
  repeatIdx : ℕ
  graderCache : Bool
  kindName : String

namespace GraderExchange

/-- The cache the grader sees, if any. -/
def cache (x : GraderExchange) (mode : CacheMode) : Option RequestCache :=
  if x.graderCache = true ∧ mode ≠ .disabled then some ⟨mode, x.repeatIdx⟩ else none

/-- The error of a strict run whose grader caching is off. -/
def cacheOffRefusal (x : GraderExchange) : GraderError :=
  .cacheMiss ("cache-only: grader caching is off in this run, so a '" ++ x.kindName ++
    "' assertion has nothing to replay")

/-- `graded_verdict`'s wiring of the cache mode. -/
def run (x : GraderExchange) (mode : CacheMode) : Run (Except GraderError (Served x.T)) :=
  if (x.cache mode).isNone = true ∧ mode = .readOnlyStrict then .ret (.error x.cacheOffRefusal)
  else cachedExchange x.parse x.info x.strictMiss x.reasks (x.cache mode) x.exchange

/-- The promise of the mode, for this exchange. -/
def Safe (x : GraderExchange) (mode : CacheMode) (tr : List RunEvent)
    (res : Except GraderError (Served x.T)) : Prop :=
  ModeSafe mode ((x.cache mode).map fun cache => exchangeKey cache x.exchange)
    (serve x.parse) (ExchangeOrigin x.parse x.info x.exchange) tr res

/-- **A grader exchange keeps the promise of every mode.** -/
theorem safe {x : GraderExchange} {mode : CacheMode} {tr : List RunEvent}
    {res : Except GraderError (Served x.T)} (h : Runs (x.run mode) tr res) :
    x.Safe mode tr res := by
  unfold run at h
  split_ifs at h with hrefused
  · obtain ⟨rfl, rfl⟩ := runs_ret.mp h
    rw [Safe, Option.isNone_iff_eq_none.mp hrefused.1]
    exact .of_unkeyed (by simp) (by simp)
  · cases hc : x.cache mode with
    | none =>
      -- no cache, and not the strict mode: asked live, unrecorded
      have hstrict : mode ≠ .readOnlyStrict := fun hm => hrefused ⟨by simp [hc], hm⟩
      rw [hc] at h
      obtain ⟨asks, result, w, rfl, hasks, hw⟩ := runs_bind.mp h
      have hrun := askLive_run _ _ _ _ _ hasks
      have hw : w = [] := by rcases result with e | x <;> exact (runs_ret.mp hw).1
      rw [Safe, hc, hw, List.append_nil]
      exact .of_unkeyed hrun.quiet fun hm => absurd hm hstrict
    | some cache =>
      have hmode : cache.mode = mode ∧ mode ≠ .disabled := by
        rw [GraderExchange.cache] at hc
        split_ifs at hc with hon
        cases hc
        exact ⟨rfl, hon.2⟩
      rw [hc] at h
      obtain ⟨answer, rest, rfl, hrest⟩ := runs_call_bind.mp h
      rw [Safe, hc]
      cases hs : servedBy x.parse answer with
      | some served =>
        rw [hs] at hrest
        obtain ⟨rfl, rfl⟩ := runs_ret.mp hrest
        refine .of_read hmode.2 (.of_quiet (by simp) (by simp)) fun entry r hans hserve => ?_
        subst hans
        rw [servedBy, hserve] at hs
        cases hs
        exact ⟨rfl, rfl⟩
      | none =>
        rw [hs] at hrest
        have hafter := exchangeOnMiss_afterRead hrest
        rw [hmode.1] at hafter
        refine .of_read hmode.2 hafter fun entry r hans hserve => ?_
        subst hans
        rw [servedBy, hserve] at hs
        cases hs

end GraderExchange

/-! ### Sequences of calls -/

/-- One call of a run that consults the cache. -/
inductive ModeCall where
  | provider (c : ProviderCall)
  | exchange (x : GraderExchange)

namespace ModeCall

/-- The calls of a run, one after the other. -/
def runAll (mode : CacheMode) : List ModeCall → Run Unit
  | [] => .ret ()
  | provider c :: calls => do
    let _ ← c.run mode
    runAll mode calls
  | exchange x :: calls => do
    let _ ← x.run mode
    runAll mode calls

/-- Every call in the trace keeps the promise of the mode. -/
inductive AllSafe (mode : CacheMode) : List ModeCall → List RunEvent → Prop where
  | nil : AllSafe mode [] []
  | provider {c : ProviderCall} {calls : List ModeCall} {t tr : List RunEvent}
      {res : Except CallFailure CallOutcome} (hrun : Runs (c.run mode) t res)
      (hsafe : c.Safe mode t res) (h : AllSafe mode calls tr) :
      AllSafe mode (.provider c :: calls) (t ++ tr)
  | exchange {x : GraderExchange} {calls : List ModeCall} {t tr : List RunEvent}
      {res : Except GraderError (Served x.T)} (hrun : Runs (x.run mode) t res)
      (hsafe : x.Safe mode t res) (h : AllSafe mode calls tr) :
      AllSafe mode (.exchange x :: calls) (t ++ tr)

/-- The provider calls of a safe strict run are refused or keyed.  By induction on the
calls. -/
theorem AllSafe.keyed {mode : CacheMode} {calls : List ModeCall} {tr : List RunEvent}
    (h : AllSafe mode calls tr) (hm : mode = .readOnlyStrict) :
    ∀ c, .provider c ∈ calls → c.latency = true ∨ c.Cacheable := by
  induction h with
  | nil => simp
  | provider hrun hsafe _ ih =>
    intro c hmem
    rcases List.mem_cons.mp hmem with heq | hmem
    · cases heq
      exact (ProviderCall.safe_iff hrun).mp hsafe hm
    · exact ih c hmem
  | exchange _ _ _ ih =>
    intro c hmem
    rcases List.mem_cons.mp hmem with heq | hmem
    · cases heq
    · exact ih c hmem

/-- A run whose provider calls are refused or keyed is safe.  By induction on the calls. -/
theorem allSafe_of_keyed {mode : CacheMode} : ∀ {calls : List ModeCall} {tr : List RunEvent},
    Runs (runAll mode calls) tr () →
    (mode = .readOnlyStrict → ∀ c, .provider c ∈ calls → c.latency = true ∨ c.Cacheable) →
    AllSafe mode calls tr := by
  intro calls
  induction calls with
  | nil =>
    intro tr h _
    obtain ⟨rfl, -⟩ := runs_ret.mp h
    exact .nil
  | cons call calls ih =>
    intro tr h hok
    have hrest := fun hm c (hmem : .provider c ∈ calls) => hok hm c (List.mem_cons_of_mem _ hmem)
    cases call with
    | provider c =>
      obtain ⟨t, res, tr', rfl, hc, htail⟩ := runs_bind.mp h
      exact .provider hc ((ProviderCall.safe_iff hc).mpr fun hm => hok hm c (by simp))
        (ih htail hrest)
    | exchange x =>
      obtain ⟨t, res, tr', rfl, hx, htail⟩ := runs_bind.mp h
      exact .exchange hx (GraderExchange.safe hx) (ih htail hrest)

end ModeCall

open ModeCall in
/-- **The cache modes keep their promise exactly when**, in the strict mode, every provider
call is refused for a latency assertion or has a canonical request to key on.  For every
sequence of calls, every store and every behaviour of providers and graders. -/
theorem modeSafe_iff (mode : CacheMode) (calls : List ModeCall) (tr : List RunEvent)
    (h : Runs (runAll mode calls) tr ()) :
    AllSafe mode calls tr ↔
      (mode = .readOnlyStrict → ∀ c, .provider c ∈ calls → c.latency = true ∨ c.Cacheable) :=
  ⟨AllSafe.keyed, allSafe_of_keyed h⟩

/-! ### A strict run that goes live -/

/-- A call of an `http` provider whose url renders with the real environment only: it has
no canonical request. -/
def templatedCall : ProviderCall :=
  { provider := .withDefaults "http" (.obj [("type", .str "http")])
    req := .default, repeatIdx := 0, policy := .default, probeLegacy := true, retry := .default
    limiter := false, latency := false }

/-- What a strict run of that call does. -/
def offlineTrace : List RunEvent :=
  ((ModeCall.runAll .readOnlyStrict [.provider templatedCall]).exec
    (storeWorld (.ok (.ofText "live")) (.ok .null)) []).1

/-- **A call without a key goes live in the strict mode.** -/
theorem uncacheable_goes_live :
    Runs (ModeCall.runAll .readOnlyStrict [.provider templatedCall]) offlineTrace () ∧
      (∃ e ∈ offlineTrace, e.1.isLive = true) ∧
      ¬ ModeCall.AllSafe .readOnlyStrict [.provider templatedCall] offlineTrace := by
  refine ⟨runs_exec _ _ _, ⟨⟨.callProvider "http" .default, (.ok (.ofText "live"), 0)⟩,
    List.mem_of_getElem? (i := 0) rfl, rfl⟩, fun hsafe => ?_⟩
  have := hsafe.keyed rfl templatedCall (by simp)
  exact absurd this (by decide)

/-- The same call, with a canonical request, is answered from the store. -/
def keyedCall : ProviderCall :=
  { templatedCall with
    provider := { templatedCall.provider with
      canonicalRequest := fun _ => some (.obj [("path", .str "/v1")]) } }

/-- A strict run of a keyed call over an empty store keeps the promise. -/
theorem keyed_stays_offline : ModeCall.AllSafe .readOnlyStrict [.provider keyedCall]
    ((ModeCall.runAll .readOnlyStrict [.provider keyedCall]).exec
      (storeWorld (.ok (.ofText "live")) (.ok .null)) []).1 := by
  refine (modeSafe_iff _ _ _ (runs_exec _ _ _)).mpr fun _ c hc => ?_
  obtain rfl : c = keyedCall := by simpa using hc
  exact .inr (by decide)
