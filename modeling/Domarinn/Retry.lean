/-
Retry policy and the shared backoff loop around a provider call.

`withRetryLimited` is the loop of `retry.rs`: wait for the limiter, make the attempt,
and go round again while the error is retriable, the budget lasts and the server does
not ask for more patience than the ceiling allows.

* **`withRetryLimited_run`** — a run of the loop waits and calls the provider at least
  once, does nothing else, and an `Ok` result is the answer of one of its calls.
-/
import Domarinn.EmptyPolicy

open Program

/-- Retry and backoff settings. -/
structure RetryPolicy where
  max : ℕ
  initialMs : ℕ
  maxMs : ℕ
  jitter : Bool
  retryAfterMaxMs : ℕ
deriving DecidableEq

namespace RetryPolicy

/-- The settings of a suite that says nothing. -/
def default : RetryPolicy :=
  { max := 2, initialMs := 500, maxMs := 8000, jitter := false, retryAfterMaxMs := 120000 }

/-- `backoff`: the wait before the next attempt, honouring a server hint. -/
def backoff (policy : RetryPolicy) (attempt : ℕ) (retryAfter : Option Duration) : Duration :=
  match retryAfter with
  | some hint => hint
  | none =>
    let exp := min (policy.initialMs * 2 ^ (min attempt 16 - 1)) (2 ^ 64 - 1)
    Duration.fromMillis (min exp policy.maxMs)

end RetryPolicy

/-- `jittered`: full jitter, seeded from the clock. -/
def jittered (delay : Duration) : Run Duration :=
  let ms := delay.asMillis
  if ms = 0 then .ret delay
  else do
    let nanos ← Run.clockNanos
    return Duration.fromMillis (1 + nanos % ms)

/-- What the loop cost, whether or not it succeeded. -/
structure RetryStats where
  attempts : ℕ
  inFlight : Duration
deriving DecidableEq

/-- The text a `Retry-After` above the ceiling is given up with. -/
def retryAfterMessage (hint ceiling : Duration) (source : String) : String :=
  "server asked to retry after " ++ hint.asSecs.repr ++ "s, above the " ++ ceiling.asSecs.repr ++
    "s ceiling (runner.retries.retry_after_max_ms): " ++ source

/-- Wait before the next attempt: a directive verbatim, our own guess jittered. -/
def waitBeforeRetry (policy : RetryPolicy) (attempts : ℕ) (retryAfter : Option Duration) :
    Run Unit := do
  let delay ← match retryAfter with
    | some hint => pure hint
    | none =>
      let base := policy.backoff attempts none
      if policy.jitter then jittered base else pure base
  Run.sleep delay

/-- Wait for the limiter, when there is one. -/
def acquireSlot (limiter : Bool) : Run Unit :=
  if limiter then Run.acquire else .ret ()

/-- One round of the loop of `with_retry_limited`.  `again` is the next round, absent when
`attempts > policy.max`. -/
def retryRound (policy : RetryPolicy) (limiter : Bool) (provider : String)
    (req : ProviderRequest)
    (again : Option (ℕ → Duration → Run (Except ProviderError ProviderResponse × RetryStats)))
    (attempts : ℕ) (inFlight : Duration) :
    Run (Except ProviderError ProviderResponse × RetryStats) := do
  acquireSlot limiter
  let (outcome, elapsed) ← Run.callProvider provider req
  let stats : RetryStats := ⟨attempts + 1, inFlight + elapsed⟩
  match outcome, again with
  | .ok value, _ => return (.ok value, stats)
  | .error (.retriable source retryAfter class_ details), none =>
    return (.error (.retriable source retryAfter class_ details), stats)
  | .error (.retriable source retryAfter class_ details), some again =>
    let ceiling := Duration.fromMillis policy.retryAfterMaxMs
    match retryAfter.filter (ceiling < ·) with
    | some hint =>
      return (.error (.fatal (retryAfterMessage hint ceiling source) class_ details), stats)
    | none => do
      waitBeforeRetry policy (attempts + 1) retryAfter
      again (attempts + 1) (inFlight + elapsed)
  | .error fatal, _ => return (.error fatal, stats)

/-- The loop of `with_retry_limited`.  The first argument counts the rounds the policy still
allows after this one. -/
def retryLoop (policy : RetryPolicy) (limiter : Bool) (provider : String)
    (req : ProviderRequest) :
    ℕ → ℕ → Duration → Run (Except ProviderError ProviderResponse × RetryStats)
  | 0 => retryRound policy limiter provider req none
  | left + 1 =>
    retryRound policy limiter provider req (some (retryLoop policy limiter provider req left))

/-- `with_retry_limited` around a provider call. -/
def withRetryLimited (policy : RetryPolicy) (limiter : Bool) (provider : String)
    (req : ProviderRequest) : Run (Except ProviderError ProviderResponse × RetryStats) :=
  retryLoop policy limiter provider req policy.max 0 0

/-! ### What the loop does -/

/-- The loop waits and calls the provider: it does nothing else. -/
def RetryEvent (provider : String) (req : ProviderRequest) : RunEvent → Prop
  | ⟨.acquire, _⟩ | ⟨.clockNanos, _⟩ | ⟨.sleep _, _⟩ => True
  | ⟨.callProvider p r, _⟩ => p = provider ∧ r = req
  | _ => False

/-- Retry events neither read nor write the store. -/
theorem RetryEvent.quiet {provider : String} {req : ProviderRequest} {e : RunEvent}
    (h : RetryEvent provider req e) : e.1.isGet = false ∧ e.1.isPut = false := by
  obtain ⟨c, r⟩ := e
  cases c <;> first | exact ⟨rfl, rfl⟩ | exact h.elim

theorem holds_acquireSlot (limiter : Bool) (provider : String) (req : ProviderRequest) :
    Holds (acquireSlot limiter) fun tr _ => ∀ e ∈ tr, RetryEvent provider req e := by
  cases limiter
  · exact holds_ret (by simp)
  · exact holds_ask fun r => holds_ret (by simp [RetryEvent])

theorem holds_waitBeforeRetry (policy : RetryPolicy) (attempts : ℕ)
    (retryAfter : Option Duration) (provider : String) (req : ProviderRequest) :
    Holds (waitBeforeRetry policy attempts retryAfter) fun tr _ =>
      ∀ e ∈ tr, RetryEvent provider req e := by
  have hsleep : ∀ d : Duration,
      Holds (Run.sleep d) fun tr _ => ∀ e ∈ tr, RetryEvent provider req e :=
    fun d => holds_ask fun r => holds_ret (by simp [RetryEvent])
  unfold waitBeforeRetry
  cases retryAfter with
  | some hint => exact hsleep hint
  | none =>
    by_cases hj : policy.jitter
    · simp only [hj, if_true, jittered]
      split_ifs
      · exact hsleep _
      · refine holds_call_bind fun nanos => ?_
        exact (hsleep _).mono fun tr _ h => by simpa [RetryEvent] using h
    · simp only [hj]
      exact hsleep _

/-- What a run of the loop leaves: waiting and calls of one provider, among them the one
whose answer is returned. -/
structure RetryRun (provider : String) (req : ProviderRequest) (tr : List RunEvent)
    (result : Except ProviderError ProviderResponse) : Prop where
  only : ∀ e ∈ tr, RetryEvent provider req e
  live : ∃ e ∈ tr, e.1.isLive = true
  answered : ∀ response, result = .ok response →
    ∃ elapsed, (⟨.callProvider provider req, (.ok response, elapsed)⟩ : RunEvent) ∈ tr

theorem RetryRun.of_call {provider : String} {req : ProviderRequest} {t₁ t₂ : List RunEvent}
    {outcome result : Except ProviderError ProviderResponse} {elapsed : Duration}
    (h₁ : ∀ e ∈ t₁, RetryEvent provider req e) (h₂ : ∀ e ∈ t₂, RetryEvent provider req e)
    (hok : ∀ response, result = .ok response → outcome = .ok response) :
    RetryRun provider req (t₁ ++ ⟨.callProvider provider req, (outcome, elapsed)⟩ :: t₂)
      result := by
  refine ⟨fun e he => ?_, ⟨_, List.mem_append_right _ List.mem_cons_self, rfl⟩,
    fun response hr => ⟨elapsed, ?_⟩⟩
  · rcases List.mem_append.mp he with he | he
    · exact h₁ e he
    · rcases List.mem_cons.mp he with rfl | he
      · exact ⟨rfl, rfl⟩
      · exact h₂ e he
  · rw [hok response hr]
    simp

/-- A round that may not go on is one call. -/
theorem retryRound_last (policy : RetryPolicy) (limiter : Bool) (provider : String)
    (req : ProviderRequest) (attempts : ℕ) (inFlight : Duration) :
    Holds (retryRound policy limiter provider req none attempts inFlight) fun tr res =>
      RetryRun provider req tr res.1 := by
  unfold retryRound
  refine holds_bind (holds_acquireSlot limiter provider req) fun t₁ _ h₁ =>
    holds_call_bind fun answer => ?_
  obtain ⟨outcome, elapsed⟩ := answer
  rcases outcome with (⟨source, retryAfter, class_, details⟩ | fatal) | response <;>
    exact holds_ret (.of_call h₁ (by simp) (by simp))

/-- A round that may go on is one call, or one call, a wait and what the next round does. -/
theorem retryRound_again (policy : RetryPolicy) (limiter : Bool) (provider : String)
    (req : ProviderRequest)
    (again : ℕ → Duration → Run (Except ProviderError ProviderResponse × RetryStats))
    (hagain : ∀ attempts inFlight, Holds (again attempts inFlight) fun tr res =>
      RetryRun provider req tr res.1) (attempts : ℕ) (inFlight : Duration) :
    Holds (retryRound policy limiter provider req (some again) attempts inFlight) fun tr res =>
      RetryRun provider req tr res.1 := by
  unfold retryRound
  refine holds_bind (holds_acquireSlot limiter provider req) fun t₁ _ h₁ =>
    holds_call_bind fun answer => ?_
  obtain ⟨outcome, elapsed⟩ := answer
  rcases outcome with (⟨source, retryAfter, class_, details⟩ | fatal) | response
  · cases hf : retryAfter.filter (Duration.fromMillis policy.retryAfterMaxMs < ·) with
    | some hint =>
      simp only [hf]
      exact holds_ret (.of_call h₁ (by simp) (by simp))
    | none =>
      simp only [hf]
      refine holds_bind (holds_waitBeforeRetry policy _ retryAfter provider req) fun t₂ _ h₂ => ?_
      -- the next round answers; what came before it only waited and called
      refine (hagain (attempts + 1) (inFlight + elapsed)).mono fun t₃ res h₃ => ?_
      refine ⟨fun e he => ?_, ⟨_, List.mem_append_right _ List.mem_cons_self, rfl⟩,
        fun response hr => ?_⟩
      · simp only [List.mem_append, List.mem_cons] at he
        rcases he with he | rfl | he | he
        · exact h₁ e he
        · exact ⟨rfl, rfl⟩
        · exact h₂ e he
        · exact h₃.only e he
      · obtain ⟨t, ht⟩ := h₃.answered response hr
        exact ⟨t, by simp [ht]⟩
  · exact holds_ret (.of_call h₁ (by simp) (by simp))
  · exact holds_ret (.of_call h₁ (by simp) (by simp))

/-- **A run of the retry loop** waits and calls, and an `Ok` result is the answer of one
of its calls.  By induction on the rounds left. -/
theorem retryLoop_run (policy : RetryPolicy) (limiter : Bool) (provider : String)
    (req : ProviderRequest) : ∀ (left attempts : ℕ) (inFlight : Duration),
    Holds (retryLoop policy limiter provider req left attempts inFlight) fun tr res =>
      RetryRun provider req tr res.1 := by
  intro left
  induction left with
  | zero => exact retryRound_last policy limiter provider req
  | succ left ih => exact retryRound_again policy limiter provider req _ ih

theorem withRetryLimited_run (policy : RetryPolicy) (limiter : Bool) (provider : String)
    (req : ProviderRequest) :
    Holds (withRetryLimited policy limiter provider req) fun tr res =>
      RetryRun provider req tr res.1 :=
  retryLoop_run policy limiter provider req policy.max 0 0
