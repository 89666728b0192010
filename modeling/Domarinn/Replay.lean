/-
What a cached answer is replayed as.

`ReplaysAs` is the promise: a replay gives the same answer, and every question the run
asks about an empty answer is answered the same, under every policy.

* **`entryToResponse_replaysAs`** — a response survives the trip through an entry, whoever
  replays it;
* **`callWithCache_write_replays`** — whatever a call writes, fresh or adopted, replays as
  what that call returned;
* **`callWithCache_warm`** — so a later call that finds the entry returns the same answer.
-/
import Domarinn.CacheModes

open Program

/-- `replayed` is the answer `response` again, and is classified as `response` was. -/
structure ReplaysAs (response replayed : ProviderResponse) : Prop where
  output : replayed.output = response.output
  usage : replayed.usage = response.usage
  stopReason : replayed.stopReason = response.stopReason
  model : replayed.model = response.model
  toolCalls : replayed.toolCalls = response.toolCalls
  reasoning : replayed.reasoning = response.reasoning
  empty : classifyEmpty replayed = classifyEmpty response
  effective : ∀ policy : EmptyPolicy,
    policy.effectiveReason replayed = policy.effectiveReason response
  stored : ∀ policy : EmptyPolicy,
    policy.shouldStore (policy.effectiveReason replayed) =
      policy.shouldStore (policy.effectiveReason response)

/-- Two answers with the same content that classify the same replay as each other: the
policies read nothing else. -/
theorem ReplaysAs.of_content {response replayed : ProviderResponse}
    (houtput : replayed.output = response.output) (husage : replayed.usage = response.usage)
    (hstop : replayed.stopReason = response.stopReason) (hmodel : replayed.model = response.model)
    (htools : replayed.toolCalls = response.toolCalls)
    (hreasoning : replayed.reasoning = response.reasoning)
    (hempty : classifyEmpty replayed = classifyEmpty response) :
    ReplaysAs response replayed := by
  have heff : ∀ policy : EmptyPolicy,
      policy.effectiveReason replayed = policy.effectiveReason response := fun policy => by
    rw [EmptyPolicy.effectiveReason, EmptyPolicy.effectiveReason, hempty, houtput]
  exact ⟨houtput, husage, hstop, hmodel, htools, hreasoning, hempty, heff,
    fun policy => by rw [heff policy]⟩

/-- Recording the classified reason is enough to classify the replay: the fallback on the
output is consulted once, when the entry is made. -/
theorem classifyEmpty_replay (provider provider' : Provider) (response : ProviderResponse)
    (stats : RetryStats) (canonical : Json) :
    classifyEmpty (entryToResponse (responseToEntry provider response stats canonical) provider') =
      classifyEmpty response := by
  change (classifyEmpty response).or (classifyBlank response.output) = classifyEmpty response
  unfold classifyEmpty
  cases response.emptyReason <;> simp

/-- **A response replays as itself**, through any entry made of it and for whichever
provider replays it. -/
theorem entryToResponse_replaysAs (provider provider' : Provider) (response : ProviderResponse)
    (stats : RetryStats) (canonical : Json) :
    ReplaysAs response
      (entryToResponse (responseToEntry provider response stats canonical) provider') :=
  .of_content rfl rfl rfl rfl rfl rfl
    (classifyEmpty_replay provider provider' response stats canonical)

/-! ### What a call writes -/

/-- An entry filed again replays as the entry it was found as: only provenance is new. -/
theorem RefiledFrom.replaysAs {found entry : CacheEntry} (h : RefiledFrom found entry)
    (provider provider' : Provider) :
    ReplaysAs (entryToResponse found provider) (entryToResponse entry provider') := by
  obtain ⟨request, kind, rfl⟩ := h
  exact .of_content rfl rfl rfl rfl rfl rfl rfl

/-- An answer the policy stores is not declined when its entry is read back: a refusal
that only a pattern promotes is not recorded in the entry. -/
theorem storedEntryIsDeclined_responseToEntry {policy : EmptyPolicy} {provider : Provider}
    {response : ProviderResponse} {stats : RetryStats} {canonical : Json}
    (h : policy.shouldStore (policy.effectiveReason response) = true) :
    policy.storedEntryIsDeclined (responseToEntry provider response stats canonical) = false := by
  change (!policy.shouldStore (classifyEmpty response)) = false
  rw [Bool.not_eq_false']
  cases hr : classifyEmpty response with
  | none => rfl
  | some reason =>
    rw [EmptyPolicy.effectiveReason, hr] at h
    exact h

section
variable {provider : Provider} {req : ProviderRequest} {cache : CacheCall}
  {retry : RetryPolicy} {limiter : Bool} {tr : List RunEvent}
  {res : Except CallFailure CallOutcome}

/-- The write of a live call is the answer it returns. -/
theorem callLive_write {keyed : Option (CacheKey × Json)}
    (h : Runs (callLive provider req cache retry limiter keyed) tr res)
    {k : CacheKey} {entry : CacheEntry} {r : Except String Unit}
    (hput : (⟨.put k entry, r⟩ : RunEvent) ∈ tr) :
    ∃ outcome stats canonical, res = .ok outcome ∧
      entry = responseToEntry provider outcome.response stats canonical := by
  obtain ⟨calls, w, result, stats, rfl, hcalls, hw⟩ := callLive_cases h
  -- the retry loop itself writes nothing
  have hw' : (⟨.put k entry, r⟩ : RunEvent) ∈ w := by
    refine (List.mem_append.mp hput).resolve_left fun hcall => ?_
    exact absurd (hcalls.only _ hcall) (by simp [RetryEvent])
  cases result with
  | error err =>
    rw [hw.1] at hw'
    simp at hw'
  | ok response =>
    obtain ⟨hwrite, outcome, rfl, rfl⟩ := hw
    rcases keyed with _ | ⟨key, canonical⟩
    · rw [(runs_ret.mp hwrite).1] at hw'
      simp at hw'
    · have hwrite' := runs_writeBack.mp hwrite
      split_ifs at hwrite' with hgate
      · obtain ⟨r', rfl⟩ := hwrite'
        rw [List.mem_singleton] at hw'
        cases hw'
        exact ⟨outcome, stats, canonical, rfl, rfl⟩
      · rw [hwrite'] at hw'
        simp at hw'

/-- **Whatever a call writes replays as what the call returned.** -/
theorem callWithCache_write_replays
    (h : Runs (callWithCache provider req cache retry limiter) tr res)
    {k : CacheKey} {entry : CacheEntry} {r : Except String Unit}
    (hput : (⟨.put k entry, r⟩ : RunEvent) ∈ tr) (provider' : Provider) :
    ∃ outcome, res = .ok outcome ∧
      ReplaysAs outcome.response (entryToResponse entry provider') := by
  have live : ∀ {keyed tr}, Runs (callLive provider req cache retry limiter keyed) tr res →
      (⟨.put k entry, r⟩ : RunEvent) ∈ tr → ∃ outcome, res = .ok outcome ∧
        ReplaysAs outcome.response (entryToResponse entry provider') := by
    intro keyed tr hlive hmem
    obtain ⟨outcome, stats, canonical, hres, rfl⟩ := callLive_write hlive hmem
    exact ⟨outcome, hres, entryToResponse_replaysAs _ _ _ _ _⟩
  have hcases := callWithCache_cases h
  cases hk : keyedRequest provider req cache with
  | none =>
    rw [hk] at hcases
    exact live hcases hput
  | some canonical =>
    rw [hk] at hcases
    obtain ⟨answer, rest, rfl, hrest⟩ := hcases
    have hput' : (⟨.put k entry, r⟩ : RunEvent) ∈ rest := by
      simpa using hput
    -- a hit and a failed read write nothing; a miss writes what it adopts or asks
    rcases answer with e | _ | found
    · rw [hrest.1] at hput'
      simp at hput'
    · obtain ⟨probes, w, found, rfl, hprobed, hfound⟩ := callOnMiss_cases hrest
      have hw : (⟨.put k entry, r⟩ : RunEvent) ∈ w := by
        refine (List.mem_append.mp hput').resolve_left fun hprobe => ?_
        exact (hprobed.only _ hprobe).elim
      rcases found with _ | ⟨k', adopted⟩
      · simp only at hfound
        split_ifs at hfound with hstrict
        · rw [hfound.1] at hw
          simp at hw
        · exact live hfound hw
      · -- an adopted entry is returned as a hit, and filed under today's key
        obtain ⟨rfl, kind, hrefile⟩ := hfound
        have hrefile' := runs_refile.mp hrefile
        split_ifs at hrefile' with hgate
        · obtain ⟨r', rfl⟩ := hrefile'
          rw [List.mem_singleton] at hw
          cases hw
          exact ⟨_, rfl, RefiledFrom.replaysAs ⟨_, kind, rfl⟩ provider provider'⟩
        · rw [hrefile'] at hw
          simp at hw
    · rw [hrest.1] at hput'
      simp at hput'

/-- **A warm call returns what the cold one returned**: when it is answered with the entry
an earlier call wrote, its outcome is that call's, replayed. -/
theorem callWithCache_warm
    (h : Runs (callWithCache provider req cache retry limiter) tr res)
    {k : CacheKey} {entry : CacheEntry} {r : Except String Unit}
    (hput : (⟨.put k entry, r⟩ : RunEvent) ∈ tr)
    {provider' : Provider} {req' : ProviderRequest} {cache' : CacheCall} {retry' : RetryPolicy}
    {limiter' : Bool} {k' : CacheKey} {rest : List RunEvent}
    {res' : Except CallFailure CallOutcome}
    (hwarm : Runs (callWithCache provider' req' cache' retry' limiter')
      (⟨.get k', .ok (some entry)⟩ :: rest) res') :
    ∃ outcome outcome', res = .ok outcome ∧ res' = .ok outcome' ∧ outcome'.cached = true ∧
      rest = [] ∧ ReplaysAs outcome.response outcome'.response := by
  obtain ⟨outcome, rfl, hreplays⟩ := callWithCache_write_replays h hput provider'
  have hcases := callWithCache_cases hwarm
  cases hk : keyedRequest provider' req' cache' with
  | none =>
    -- a call without a key does not read
    rw [hk] at hcases
    rcases callLive_events hcases _ (List.mem_cons_self ..) with he | ⟨_, _, _, _, _, _, _, _, he⟩
    · exact absurd he (by simp [RetryEvent])
    · cases he
  | some canonical =>
    rw [hk] at hcases
    obtain ⟨answer, rest', heq, hrest⟩ := hcases
    cases heq
    obtain ⟨rfl, rfl⟩ := hrest
    exact ⟨outcome, _, rfl, rfl, rfl, rfl, hreplays⟩

end
