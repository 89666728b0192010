/-
The provider call path: consult the cache, adopt what an older version stored, retry
what is retriable, and write back what is worth keeping.

`callWithCache` is `call_with_cache`, with its two translations between a response and
an entry.  Its steps are named: a hit, a miss (`callOnMiss`, which probes the keys of
earlier versions first) and the live call (`callLive`, the only place a provider is
asked).  The warnings it logs are left out.

* **`effectiveReason_replay`** — a stored response replays with the same effective empty
  reason;
* **`callLive_cases`**, **`callOnMiss_cases`**, **`callWithCache_cases`** — what a run can
  do: the read of the key, the probes, the re-file and the live call, each with what is
  returned.
-/
import Domarinn.Retry

open Program

/-! ### Outcomes -/

/-- A provider call's result, plus how it was obtained. -/
structure CallOutcome where
  response : ProviderResponse
  cached : Bool
  attempts : Option ℕ
  providerLatencyMs : Option ℕ
  cacheKey : Option CacheKey
deriving DecidableEq

/-- A failed provider call. -/
structure CallFailure where
  message : String
  attempts : ℕ
  class_ : ErrorClass
  details : Option Json
  cacheKey : Option CacheKey
deriving DecidableEq

namespace CallFailure

/-- A failure that never reached the provider. -/
def beforeAnyAttempt (class_ : ErrorClass) (message : String) : CallFailure :=
  { message, attempts := 0, class_, details := none, cacheKey := none }

/-- The same, for a failure that knows which key it was looking for. -/
def beforeAnyAttemptFor (class_ : ErrorClass) (message : String) (key : CacheKey) : CallFailure :=
  { beforeAnyAttempt class_ message with cacheKey := some key }

end CallFailure

/-- Everything the cache side of one provider call needs besides the store. -/
structure CacheCall where
  mode : CacheMode
  repeatIdx : ℕ
  policy : EmptyPolicy
  probeLegacy : Bool

/-! ### Entries and responses -/

/-- `recost`: stored token counts at the provider's current rate. -/
def recost (usage : Option TokenUsage) (provider : Provider) : Option ℚ := do
  let rate ← provider.rate
  let cost ← Pricing.costOf (← usage) rate
  return cost.toUsd

/-- `entry_to_response`: replay a stored response, re-priced at the current rate. -/
def entryToResponse (entry : CacheEntry) (provider : Provider) : ProviderResponse :=
  { output := entry.output
    usage := entry.usage
    costUsd := (recost entry.usage provider).or entry.costUsd
    stopReason := entry.stopReason
    raw := entry.raw
    toolCalls := entry.toolCalls
    reasoning := entry.reasoning
    emptyReason := entry.emptyReason
    model := entry.model }

/-- `response_to_entry`: what is stored of a fresh response. -/
def responseToEntry (provider : Provider) (response : ProviderResponse) (stats : RetryStats)
    (canonical : Json) : CacheEntry :=
  { kind := some .provider
    providerFingerprint := none
    request := some (requestToPersist canonical)
    programDigest := provider.programDigest
    address := provider.address
    output := response.output
    usage := response.usage
    costUsd := response.costUsd
    stopReason := response.stopReason
    attempts := some stats.attempts
    providerLatencyMs := some stats.inFlight.asMillis
    reasoning := response.reasoning
    -- the classified reason, not the one the provider happened to set
    emptyReason := classifyEmpty response
    model := response.model
    toolCalls := response.toolCalls
    verdict := none
    raw := jsonToPersist true response.raw }

/-- **A stored response replays with the same effective empty reason.** -/
theorem effectiveReason_replay (policy : EmptyPolicy) (provider : Provider)
    (response : ProviderResponse) (stats : RetryStats) (canonical : Json) :
    policy.effectiveReason
      (entryToResponse (responseToEntry provider response stats canonical) provider) =
        policy.effectiveReason response :=
  EmptyPolicy.effectiveReason_of_classified rfl rfl

/-- `hit`: turn a found entry into an outcome. -/
def hit (provider : Provider) (entry : CacheEntry) (key : CacheKey) : CallOutcome :=
  { response := entryToResponse entry provider
    cached := true
    attempts := entry.attempts
    providerLatencyMs := entry.providerLatencyMs
    cacheKey := some key }

/-! ### Adoption -/

/-- Look the keys up one after the other and adopt the first entry found.  A read error
ends the search or is passed over. -/
def probeKeys (stopOnError : Bool) : List CacheKey → Run (Option (CacheKey × CacheEntry))
  | [] => .ret none
  | key :: keys => do
    match ← Run.get key with
    | .ok (some entry) => do
      Run.recordAdoption
      return some (key, entry)
    | .ok none => probeKeys stopOnError keys
    | .error _ => if stopOnError then return none else probeKeys stopOnError keys

/-- Probe `keys` if there are any, the call may probe, and the run's budget allows it. -/
def probeWithinBudget (stopOnError : Bool) (keys : List CacheKey) (probeLegacy : Bool) :
    Run (Option (CacheKey × CacheEntry)) :=
  if keys.isEmpty || !probeLegacy then .ret none
  else do
    if ← Run.shouldProbe then probeKeys stopOnError keys else return none

/-- `adopt_legacy_canonical`: an entry under an earlier canonical request. -/
def adoptLegacyCanonical (provider : Provider) (req : ProviderRequest) (cache : CacheCall) :
    Run (Option (CacheKey × CacheEntry)) :=
  probeWithinBudget false
    ((provider.legacyCanonicalRequests req).map fun canonical =>
      requestCacheKey canonical cache.repeatIdx provider.cacheSalt req.caseSalt)
    cache.probeLegacy

/-- `adopt_legacy`: an entry under the key shape of the versions through 0.4. -/
def adoptLegacy (provider : Provider) (req : ProviderRequest) (cache : CacheCall) :
    Run (Option (CacheKey × CacheEntry)) :=
  probeWithinBudget true
    (provider.legacyFingerprints.map fun fingerprint =>
      legacyProviderKey fingerprint req cache.repeatIdx)
    cache.probeLegacy

/-- File an adopted entry under today's key, when the mode writes and the policy does not
decline the reason the entry recorded. -/
def refile (cache : CacheCall) (key : CacheKey) (found entry : CacheEntry) : Run Unit :=
  if cache.mode = .readWrite ∧ cache.policy.storedEntryIsDeclined found = false then do
    let _ ← Run.put key entry
    return ()
  else .ret ()

/-! ### The call -/

/-- Write a fresh answer back, when the mode writes and the policy keeps its reason. -/
def writeBack (provider : Provider) (cache : CacheCall) (response : ProviderResponse)
    (stats : RetryStats) : Option (CacheKey × Json) → Run Unit
  | none => .ret ()
  | some (key, canonical) =>
    if cache.mode = .readWrite ∧
        cache.policy.shouldStore (cache.policy.effectiveReason response) then do
      let _ ← Run.put key (responseToEntry provider response stats canonical)
      return ()
    else .ret ()

/-- The failure a provider error is reported as. -/
def callFailureOf (err : ProviderError) (stats : RetryStats) (key : Option CacheKey) :
    CallFailure :=
  { message := match err with
      | .retriable source _ _ _ =>
        "provider error after " ++ stats.attempts.repr ++ " attempt(s): " ++ source
      | .fatal source _ _ => "provider error: " ++ source
    attempts := stats.attempts
    class_ := err.errorClass
    details := err.errorDetails
    cacheKey := key }

/-- The live call, and what is kept of it. -/
def callLive (provider : Provider) (req : ProviderRequest) (cache : CacheCall)
    (retry : RetryPolicy) (limiter : Bool) (keyed : Option (CacheKey × Json)) :
    Run (Except CallFailure CallOutcome) := do
  let (result, stats) ← withRetryLimited retry limiter provider.id req
  match result with
  | .ok response => do
    writeBack provider cache response stats keyed
    return .ok
      { response
        cached := false
        attempts := some stats.attempts
        providerLatencyMs := some stats.inFlight.asMillis
        cacheKey := keyed.map Prod.fst }
  | .error err => return .error (callFailureOf err stats (keyed.map Prod.fst))

/-- The error of a strict-mode miss. -/
def strictMiss (key : CacheKey) : CallFailure :=
  .beforeAnyAttemptFor .cacheMiss ("cache-only: miss for key " ++ key.preimage) key

/-- After a miss on the current key: adopt, refuse, or call. -/
def callOnMiss (provider : Provider) (req : ProviderRequest) (cache : CacheCall)
    (retry : RetryPolicy) (limiter : Bool) (key : CacheKey) (canonical : Json) :
    Run (Except CallFailure CallOutcome) := do
  match ← adoptLegacyCanonical provider req cache with
  | some (_, entry) => do
    refile cache key entry { entry with request := some (requestToPersist canonical) }
    return .ok (hit provider entry key)
  | none =>
    match ← adoptLegacy provider req cache with
    | some (_, entry) => do
      refile cache key entry
        { entry with request := some (requestToPersist canonical), kind := some .provider }
      return .ok (hit provider entry key)
    | none =>
      if cache.mode = .readOnlyStrict then return .error (strictMiss key)
      else callLive provider req cache retry limiter (some (key, canonical))

/-- The canonical request of a call the cache is consulted for. -/
def keyedRequest (provider : Provider) (req : ProviderRequest) (cache : CacheCall) :
    Option Json :=
  if cache.mode ≠ .disabled ∧ provider.cacheable then provider.canonicalRequest req else none

/-- The key of a call with this canonical request. -/
def callKey (provider : Provider) (req : ProviderRequest) (cache : CacheCall)
    (canonical : Json) : CacheKey :=
  requestCacheKey canonical cache.repeatIdx provider.cacheSalt req.caseSalt

/-- `call_with_cache`. -/
def callWithCache (provider : Provider) (req : ProviderRequest) (cache : CacheCall)
    (retry : RetryPolicy) (limiter : Bool) : Run (Except CallFailure CallOutcome) :=
  match keyedRequest provider req cache with
  -- no key: the call goes live and unrecorded, in every mode
  | none => callLive provider req cache retry limiter none
  | some canonical =>
    let key := callKey provider req cache canonical
    do match ← Run.get key with
      | .ok (some entry) => return .ok (hit provider entry key)
      | .ok none => callOnMiss provider req cache retry limiter key canonical
      | .error e => return .error (.beforeAnyAttempt .cacheUnavailable ("cache read error: " ++ e))

/-! ### Probing -/

/-- Probing reads the store and keeps the budget: it does nothing else. -/
def ProbeEvent : RunEvent → Prop
  | ⟨.get _, _⟩ | ⟨.shouldProbe, _⟩ | ⟨.recordAdoption, _⟩ => True
  | _ => False

theorem ProbeEvent.quiet {e : RunEvent} (h : ProbeEvent e) :
    e.1.isPut = false ∧ e.1.isLive = false := by
  obtain ⟨c, r⟩ := e
  cases c <;> first | exact ⟨rfl, rfl⟩ | exact h.elim

/-- What probing leaves: reads, of which the one that found an entry, if any, is the
result. -/
structure Probed (tr : List RunEvent) (found : Option (CacheKey × CacheEntry)) : Prop where
  only : ∀ e ∈ tr, ProbeEvent e
  hits : ∀ k entry, (⟨.get k, .ok (some entry)⟩ : RunEvent) ∈ tr ↔ found = some (k, entry)

theorem Probed.nil : Probed [] none := ⟨by simp, by simp⟩

/-- Probing that found nothing, followed by more probing. -/
theorem Probed.append {t₁ t₂ : List RunEvent} {found : Option (CacheKey × CacheEntry)}
    (h₁ : Probed t₁ none) (h₂ : Probed t₂ found) : Probed (t₁ ++ t₂) found := by
  refine ⟨fun e he => (List.mem_append.mp he).elim (h₁.only e) (h₂.only e), fun k entry => ?_⟩
  rw [List.mem_append, h₁.hits, h₂.hits]
  simp

theorem probed_cons {e : RunEvent} {tr : List RunEvent}
    {found : Option (CacheKey × CacheEntry)} (he : ProbeEvent e)
    (hmiss : ∀ k entry, e ≠ (⟨.get k, .ok (some entry)⟩ : RunEvent)) (h : Probed tr found) :
    Probed (e :: tr) found := by
  refine ⟨fun e' he' => ?_, fun k entry => ?_⟩
  · rcases List.mem_cons.mp he' with rfl | he'
    · exact he
    · exact h.only e' he'
  · rw [List.mem_cons, ← h.hits k entry, or_iff_right fun heq => hmiss k entry heq.symm]

theorem holds_probeKeys (stopOnError : Bool) : ∀ keys : List CacheKey,
    Holds (probeKeys stopOnError keys) Probed := by
  intro keys
  induction keys with
  | nil => exact holds_ret .nil
  | cons key keys ih =>
    refine holds_call_bind fun answer => ?_
    rcases answer with e | _ | entry
    · -- a read error ends the search, or is passed over
      have hcons : ∀ {tr found}, Probed tr found →
          Probed ((⟨.get key, .error e⟩ : RunEvent) :: tr) found :=
        fun h => probed_cons (by trivial) (by simp) h
      cases stopOnError
      · exact ih.mono fun tr found h => hcons h
      · exact holds_ret (hcons .nil)
    · exact ih.mono fun tr found h => probed_cons (by trivial) (by simp) h
    · refine holds_call_bind fun _ => holds_ret ⟨?_, fun k e => ?_⟩
      · simp [ProbeEvent]
      · simp [eq_comm]

theorem holds_probeWithinBudget (stopOnError : Bool) (keys : List CacheKey)
    (probeLegacy : Bool) :
    Holds (probeWithinBudget stopOnError keys probeLegacy) Probed := by
  unfold probeWithinBudget
  split_ifs
  · exact holds_ret .nil
  · refine holds_call_bind fun allowed => ?_
    cases allowed
    · exact holds_ret (probed_cons (by trivial) (by simp) .nil)
    · exact (holds_probeKeys stopOnError keys).mono fun tr found h =>
        probed_cons (by trivial) (by simp) h

/-! ### Writes -/

theorem runs_refile {cache : CacheCall} {key : CacheKey} {found entry : CacheEntry}
    {tr : List RunEvent} :
    Runs (refile cache key found entry) tr () ↔
      if cache.mode = .readWrite ∧ cache.policy.storedEntryIsDeclined found = false then
        ∃ r, tr = [⟨.put key entry, r⟩]
      else tr = [] := by
  unfold refile
  split_ifs
  · constructor
    · intro h
      obtain ⟨r, t, rfl, hret⟩ := runs_call_bind.mp h
      exact ⟨r, by rw [(runs_ret.mp hret).1]⟩
    · rintro ⟨r, rfl⟩
      exact .ask r (.ret ())
  · simp

theorem runs_writeBack {provider : Provider} {cache : CacheCall} {response : ProviderResponse}
    {stats : RetryStats} {key : CacheKey} {canonical : Json} {tr : List RunEvent} :
    Runs (writeBack provider cache response stats (some (key, canonical))) tr () ↔
      if cache.mode = .readWrite ∧
          cache.policy.shouldStore (cache.policy.effectiveReason response) then
        ∃ r, tr = [⟨.put key (responseToEntry provider response stats canonical), r⟩]
      else tr = [] := by
  unfold writeBack
  split_ifs
  · constructor
    · intro h
      obtain ⟨r, t, rfl, hret⟩ := runs_call_bind.mp h
      exact ⟨r, by rw [(runs_ret.mp hret).1]⟩
    · rintro ⟨r, rfl⟩
      exact .ask r (.ret ())
  · simp

/-! ### Runs of a call -/

section
variable {provider : Provider} {req : ProviderRequest} {cache : CacheCall}
  {retry : RetryPolicy} {limiter : Bool} {tr : List RunEvent}
  {res : Except CallFailure CallOutcome}

/-- A live call is a run of the retry loop; an answer may be written back, an error is
reported. -/
theorem callLive_cases {keyed : Option (CacheKey × Json)}
    (h : Runs (callLive provider req cache retry limiter keyed) tr res) :
    ∃ calls w result stats, tr = calls ++ w ∧ RetryRun provider.id req calls result ∧
      match result with
      | .ok response => Runs (writeBack provider cache response stats keyed) w () ∧
          ∃ outcome, res = .ok outcome ∧ outcome.response = response
      | .error err => w = [] ∧ res = .error (callFailureOf err stats (keyed.map Prod.fst)) := by
  obtain ⟨calls, ⟨result, stats⟩, w, rfl, hcalls, hw⟩ := runs_bind.mp h
  refine ⟨calls, w, result, stats, rfl, withRetryLimited_run _ _ _ _ _ _ hcalls, ?_⟩
  cases result with
  | error err => exact runs_ret.mp hw
  | ok response =>
    obtain ⟨w₁, _, w₂, rfl, hwrite, hret⟩ := runs_bind.mp hw
    obtain ⟨rfl, rfl⟩ := runs_ret.mp hret
    exact ⟨by simpa using hwrite, _, rfl, rfl⟩

/-- A live call waits, calls, and writes back at most what the policy keeps. -/
theorem callLive_events {keyed : Option (CacheKey × Json)}
    (h : Runs (callLive provider req cache retry limiter keyed) tr res) :
    ∀ e ∈ tr, RetryEvent provider.id req e ∨ ∃ key canonical response stats r,
      keyed = some (key, canonical) ∧ cache.mode = .readWrite ∧
      cache.policy.shouldStore (cache.policy.effectiveReason response) = true ∧
      e = ⟨.put key (responseToEntry provider response stats canonical), r⟩ := by
  intro e he
  obtain ⟨calls, w, result, stats, rfl, hcalls, hw⟩ := callLive_cases h
  rcases List.mem_append.mp he with he | he
  · exact .inl (hcalls.only e he)
  · right
    cases result with
    | error err =>
      rw [hw.1] at he
      simp at he
    | ok response =>
      rcases keyed with _ | ⟨key, canonical⟩
      · rw [(runs_ret.mp hw.1).1] at he
        simp at he
      · have hwrite := runs_writeBack.mp hw.1
        split_ifs at hwrite with hgate
        · obtain ⟨r, rfl⟩ := hwrite
          exact ⟨key, canonical, response, stats, r, rfl, hgate.1, hgate.2, by simpa using he⟩
        · rw [hwrite] at he
          simp at he

/-- After a miss: probes, then the re-file of what they found, or the refusal of the
strict mode, or a live call. -/
theorem callOnMiss_cases {key : CacheKey} {canonical : Json}
    (h : Runs (callOnMiss provider req cache retry limiter key canonical) tr res) :
    ∃ probes rest found, tr = probes ++ rest ∧ Probed probes found ∧
      match found with
      | some (_, entry) => res = .ok (hit provider entry key) ∧ ∃ kind,
          Runs (refile cache key entry
            { entry with request := some (requestToPersist canonical), kind := kind }) rest ()
      | none =>
        if cache.mode = .readOnlyStrict then rest = [] ∧ res = .error (strictMiss key)
        else Runs (callLive provider req cache retry limiter (some (key, canonical))) rest res := by
  -- earlier canonical requests are probed first, then the key shape before them
  obtain ⟨t₁, found₁, rest₁, rfl, h₁, hrest₁⟩ := runs_bind.mp h
  have hp₁ := holds_probeWithinBudget _ _ _ _ _ h₁
  rcases found₁ with _ | ⟨k₁, e₁⟩
  · obtain ⟨t₂, found₂, rest₂, rfl, h₂, hrest₂⟩ := runs_bind.mp hrest₁
    have hp₂ := holds_probeWithinBudget _ _ _ _ _ h₂
    refine ⟨t₁ ++ t₂, rest₂, found₂, by simp, hp₁.append hp₂, ?_⟩
    rcases found₂ with _ | ⟨k₂, e₂⟩
    · by_cases hm : cache.mode = .readOnlyStrict
      · simp only [hm, if_true] at hrest₂ ⊢
        exact runs_ret.mp hrest₂
      · simp only [hm, if_false] at hrest₂ ⊢
        exact hrest₂
    · obtain ⟨w₁, _, w₂, rfl, hfile, hret⟩ := runs_bind.mp hrest₂
      obtain ⟨rfl, rfl⟩ := runs_ret.mp hret
      exact ⟨rfl, some .provider, by simpa using hfile⟩
  · obtain ⟨w₁, _, w₂, rfl, hfile, hret⟩ := runs_bind.mp hrest₁
    obtain ⟨rfl, rfl⟩ := runs_ret.mp hret
    exact ⟨t₁, w₁, some (k₁, e₁), by simp, hp₁, rfl, e₁.kind, hfile⟩

/-- A call without a key goes live; one with a key reads it first. -/
theorem callWithCache_cases (h : Runs (callWithCache provider req cache retry limiter) tr res) :
    match keyedRequest provider req cache with
    | none => Runs (callLive provider req cache retry limiter none) tr res
    | some canonical =>
      let key := callKey provider req cache canonical
      ∃ answer rest, tr = ⟨.get key, answer⟩ :: rest ∧
        match answer with
        | .ok (some entry) => rest = [] ∧ res = .ok (hit provider entry key)
        | .ok none => Runs (callOnMiss provider req cache retry limiter key canonical) rest res
        | .error e => rest = [] ∧
            res = .error (.beforeAnyAttempt .cacheUnavailable ("cache read error: " ++ e)) := by
  unfold callWithCache at h
  cases hk : keyedRequest provider req cache with
  | none =>
    simp only [hk] at h
    exact h
  | some canonical =>
    simp only [hk] at h
    obtain ⟨answer, rest, rfl, hrest⟩ := runs_call_bind.mp h
    refine ⟨answer, rest, rfl, ?_⟩
    rcases answer with e | _ | entry
    · exact runs_ret.mp hrest
    · exact hrest
    · exact runs_ret.mp hrest

end
