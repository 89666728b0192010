/-
What a run of the retry loop may look like, whatever an attempt returns.

The loop of `Retry.lean` once more, generic in what an attempt returns and with its counter
the `u32` it is: release arithmetic wraps, so the loop takes fuel.

* **`RetryRounds`** — a run, round by round: what each failed attempt answered, how long the
  loop slept after it, and how the last attempt ended it;
* **`withRetryLimited_sound`** — below `u32::MAX` retries every run is of this kind, and
  returns;
* **`interp_loop`**, **`withRetryLimited_rounds`** — and there the loop around a provider
  call is this one;
* **`loop_endless`** — at `u32::MAX` the counter never passes the budget.
-/
import Domarinn.Retry

open Program

namespace RetryLoop

/-- What the loop asks of the world.  An attempt is given its number. -/
inductive RetryCmd where
  | acquire
  | attempt (number : ℕ)
  | clockNanos
  | sleep (delay : Duration)

/-- An attempt answers with its outcome and the time spent inside it. -/
abbrev RetryRes (T : Type) : RetryCmd → Type
  | .acquire => Unit
  | .attempt _ => Except ProviderError T × Duration
  | .clockNanos => ℕ
  | .sleep _ => Unit

abbrev Loop (T α : Type) := Program RetryCmd (RetryRes T) α

namespace Loop

variable {T : Type}

/-- `limiter.acquire()`. -/
def acquire : Loop T Unit := Program.call RetryCmd.acquire

/-- `op(attempts)`, timed. -/
def attempt (number : ℕ) : Loop T (Except ProviderError T × Duration) :=
  Program.call (RetryCmd.attempt number)

/-- The sub-second part of the wall clock. -/
def clockNanos : Loop T ℕ := Program.call RetryCmd.clockNanos

/-- `tokio::time::sleep`. -/
def sleep (delay : Duration) : Loop T Unit := Program.call (RetryCmd.sleep delay)

end Loop

/-- `attempts += 1`, wrapping. -/
def nextAttempt (attempts : ℕ) : ℕ := (attempts + 1) % 2 ^ 32

section
variable {T : Type} (policy : RetryPolicy) (limiter : Bool)

def acquireSlot : Loop T Unit := if limiter then Loop.acquire else .ret ()

/-- `jittered`. -/
def jittered (delay : Duration) : Loop T Duration :=
  let ms := delay.asMillis
  if ms = 0 then .ret delay
  else do
    let nanos ← Loop.clockNanos
    return Duration.fromMillis (1 + nanos % ms)

/-- The wait before the next attempt. -/
def wait (attempts : ℕ) (retryAfter : Option Duration) : Loop T Unit := do
  let delay ← match retryAfter with
    | some hint => pure hint
    | none =>
      let base := policy.backoff attempts none
      if policy.jitter then jittered base else pure base
  Loop.sleep delay

/-- The loop of `with_retry_limited`, for as many rounds as the fuel lasts. -/
def loop : ℕ → ℕ → Duration → Loop T (Option (Except ProviderError T × RetryStats))
  | 0, _, _ => .ret none
  | fuel + 1, attempts, inFlight => do
    let attempts := nextAttempt attempts
    acquireSlot limiter
    let (outcome, elapsed) ← Loop.attempt attempts
    let stats : RetryStats := ⟨attempts, inFlight + elapsed⟩
    match outcome with
    | .ok value => return some (.ok value, stats)
    | .error (.retriable source retryAfter class_ details) =>
      if attempts > policy.max then
        return some (.error (.retriable source retryAfter class_ details), stats)
      else
        let ceiling := Duration.fromMillis policy.retryAfterMaxMs
        match retryAfter.filter (ceiling < ·) with
        | some hint =>
          return some (.error (.fatal (retryAfterMessage hint ceiling source) class_ details),
            stats)
        | none => do
          wait policy attempts retryAfter
          loop fuel attempts (inFlight + elapsed)
    | .error fatal => return some (.error fatal, stats)

/-- `with_retry_limited`. -/
def withRetryLimited (fuel : ℕ) : Loop T (Option (Except ProviderError T × RetryStats)) :=
  loop policy limiter fuel 0 0

end

/-! ### The backoff -/

/-- What the backoff of a policy is, over all attempts. -/
structure BackoffSound (policy : RetryPolicy) : Prop where
  mono : ∀ a b : ℕ, a ≤ b → policy.backoff a none ≤ policy.backoff b none
  capped : ∀ attempt : ℕ, policy.backoff attempt none ≤ Duration.fromMillis policy.maxMs
  /-- the shift is in range, and no bit of `1u64` is lost -/
  inRange : ∀ attempt : ℕ, min attempt 16 - 1 < 64 ∧ 2 ^ (min attempt 16 - 1) < 2 ^ 64

theorem fromMillis_le {a b : ℕ} (h : a ≤ b) : Duration.fromMillis a ≤ Duration.fromMillis b :=
  Nat.mul_le_mul_right _ h

theorem backoffSound (policy : RetryPolicy) : BackoffSound policy where
  mono a b h := by
    have hshift : min a 16 - 1 ≤ min b 16 - 1 := by omega
    refine fromMillis_le (min_le_min ?_ le_rfl)
    exact min_le_min (Nat.mul_le_mul_left _ (Nat.pow_le_pow_right (by decide) hshift)) le_rfl
  capped attempt := fromMillis_le (min_le_right _ _)
  inRange attempt := by
    have hshift : min attempt 16 - 1 ≤ 15 := by omega
    refine ⟨by omega, ?_⟩
    calc 2 ^ (min attempt 16 - 1) ≤ 2 ^ 15 := Nat.pow_le_pow_right (by decide) hshift
      _ < 2 ^ 64 := by decide

/-! ### A run, round by round -/

section
variable {T : Type}

/-- A failed attempt the loop went on after: its answer, and the sleep that followed. -/
structure Waited where
  source : String
  retryAfter : Option Duration
  class_ : ErrorClass
  details : Option Json
  elapsed : Duration
  nanos : Option ℕ
  slept : Duration

/-- The limiter is asked once before an attempt, when there is one. -/
def gate (limiter : Bool) : List (Event (RetryRes T)) :=
  if limiter then [⟨.acquire, ()⟩] else []

/-- One attempt, behind the limiter. -/
def tried (limiter : Bool) (number : ℕ) (outcome : Except ProviderError T) (elapsed : Duration) :
    List (Event (RetryRes T)) :=
  gate limiter ++ [⟨.attempt number, (outcome, elapsed)⟩]

/-- What a round that goes on asks: one attempt, the clock if it jitters, one sleep. -/
def Waited.events (limiter : Bool) (w : Waited) (number : ℕ) : List (Event (RetryRes T)) :=
  tried limiter number (.error (.retriable w.source w.retryAfter w.class_ w.details)) w.elapsed ++
    (w.nanos.toList.map fun nanos => ⟨.clockNanos, nanos⟩) ++ [⟨.sleep w.slept, ()⟩]

/-- The sleep is the server's when it asked for one, and otherwise at most our own. -/
structure Waited.Honours (policy : RetryPolicy) (w : Waited) (number : ℕ) : Prop where
  hint : ∀ hint, w.retryAfter = some hint →
    w.slept = hint ∧ hint ≤ Duration.fromMillis policy.retryAfterMaxMs ∧ w.nanos = none
  own : w.retryAfter = none → w.slept ≤ policy.backoff number none
  exact : w.retryAfter = none → policy.jitter = false → w.slept = policy.backoff number none

/-- How the outcome of an attempt ends the loop. -/
inductive Ends (policy : RetryPolicy) (number : ℕ) :
    Except ProviderError T → Except ProviderError T → Prop where
  | ok (value : T) : Ends policy number (.ok value) (.ok value)
  | fatal (source : String) (class_ : ErrorClass) (details : Option Json) :
      Ends policy number (.error (.fatal source class_ details))
        (.error (.fatal source class_ details))
  /-- the budget is spent: the error is returned as it is -/
  | spent (source : String) (retryAfter : Option Duration) (class_ : ErrorClass)
      (details : Option Json) (h : number = policy.max + 1) :
      Ends policy number (.error (.retriable source retryAfter class_ details))
        (.error (.retriable source retryAfter class_ details))
  /-- the server asks for more patience than the ceiling: no retry comes early -/
  | givenUp (source : String) (hint : Duration) (class_ : ErrorClass) (details : Option Json)
      (h : number ≤ policy.max) (habove : Duration.fromMillis policy.retryAfterMaxMs < hint) :
      Ends policy number (.error (.retriable source (some hint) class_ details))
        (.error (.fatal (retryAfterMessage hint (Duration.fromMillis policy.retryAfterMaxMs)
          source) class_ details))

/-- A run that has made `start` attempts in `inFlight`: some rounds that go on, and one
attempt that ends it. -/
structure RetryRounds (policy : RetryPolicy) (limiter : Bool) (start : ℕ) (inFlight : Duration)
    (waited : List Waited) (outcome : Except ProviderError T) (elapsed : Duration)
    (tr : List (Event (RetryRes T))) (result : Except ProviderError T) (stats : RetryStats) :
    Prop where
  trace : tr = (waited.zipIdx (start + 1)).flatMap (fun (w, number) => w.events limiter number) ++
    tried limiter (start + waited.length + 1) outcome elapsed
  bounded : start + waited.length ≤ policy.max
  honours : ∀ w number, (w, number) ∈ waited.zipIdx (start + 1) → w.Honours policy number
  ends : Ends policy (start + waited.length + 1) outcome result
  stats_eq : stats = ⟨start + waited.length + 1,
    inFlight + (waited.map Waited.elapsed).sum + elapsed⟩

/-- A whole run of the loop. -/
def RetrySound (policy : RetryPolicy) (limiter : Bool) (tr : List (Event (RetryRes T)))
    (result : Except ProviderError T) (stats : RetryStats) : Prop :=
  ∃ waited outcome elapsed,
    RetryRounds policy limiter 0 0 waited outcome elapsed tr result stats

/-- Full jitter only shortens the delay. -/
theorem holds_jittered (delay : Duration) : Holds (jittered delay : Loop T Duration) fun tr d =>
    ∃ nanos : Option ℕ, tr = nanos.toList.map (fun nanos => ⟨.clockNanos, nanos⟩) ∧ d ≤ delay := by
  unfold jittered
  dsimp only
  split_ifs with hzero
  · exact holds_ret ⟨none, rfl, le_rfl⟩
  · refine holds_call_bind fun nanos => holds_ret ⟨some nanos, rfl, ?_⟩
    have hpos : 0 < delay.asMillis := Nat.pos_of_ne_zero hzero
    calc Duration.fromMillis (1 + nanos % delay.asMillis)
        ≤ Duration.fromMillis delay.asMillis := by
          refine fromMillis_le ?_
          have := Nat.mod_lt nanos hpos
          omega
      _ ≤ delay := Nat.div_mul_le_self delay 1000000

/-- The wait sleeps once: for the hint, or for at most our own backoff. -/
theorem holds_wait (policy : RetryPolicy) (number : ℕ) (retryAfter : Option Duration)
    (hceiling : ∀ hint, retryAfter = some hint →
      hint ≤ Duration.fromMillis policy.retryAfterMaxMs) :
    Holds (wait policy number retryAfter : Loop T Unit) fun tr _ =>
      ∃ (nanos : Option ℕ) (slept : Duration),
        tr = nanos.toList.map (fun nanos => ⟨.clockNanos, nanos⟩) ++ [⟨.sleep slept, ()⟩] ∧
        ∀ source class_ details elapsed,
          (Waited.mk source retryAfter class_ details elapsed nanos slept).Honours policy
            number := by
  unfold wait
  cases retryAfter with
  | some hint =>
    refine holds_call_bind fun _ => holds_ret ⟨none, hint, rfl, fun source class_ details elapsed =>
      ⟨fun hint' h => ?_, fun h => absurd h (by simp), fun h => absurd h (by simp)⟩⟩
    cases h
    exact ⟨rfl, hceiling hint rfl, rfl⟩
  | none =>
    dsimp only
    -- jitter is for our own guess only
    split_ifs with hjitter
    · refine holds_bind (holds_jittered (policy.backoff number none)) fun t₁ d h₁ => ?_
      obtain ⟨nanos, rfl, hd⟩ := h₁
      refine holds_call_bind fun _ => holds_ret ⟨nanos, d, by simp, fun _ _ _ _ =>
        ⟨fun _ h => absurd h (by simp), fun _ => hd, fun _ h => absurd hjitter (by simp [h])⟩⟩
    · exact holds_call_bind fun _ => holds_ret ⟨none, policy.backoff number none, rfl,
        fun _ _ _ _ => ⟨fun _ h => absurd h (by simp), fun _ => le_rfl, fun _ _ => rfl⟩⟩

theorem holds_acquireSlot (limiter : Bool) :
    Holds (acquireSlot limiter : Loop T Unit) fun tr _ => tr = gate limiter := by
  cases limiter
  · exact holds_ret rfl
  · exact holds_call_bind fun _ => holds_ret rfl

/-- Below `u32::MAX` retries the counter counts. -/
theorem nextAttempt_of_le {policy : RetryPolicy} (hmax : policy.max < 2 ^ 32 - 1) {start : ℕ}
    (h : start ≤ policy.max) : nextAttempt start = start + 1 :=
  Nat.mod_eq_of_lt (by omega)

/-- One more round before a run that goes on from it. -/
theorem RetryRounds.cons {policy : RetryPolicy} {limiter : Bool} {start : ℕ} {inFlight : Duration}
    {waited : List Waited} {outcome : Except ProviderError T} {elapsed : Duration}
    {tr : List (Event (RetryRes T))} {result : Except ProviderError T} {stats : RetryStats}
    {w : Waited} (hw : w.Honours policy (start + 1))
    (h : RetryRounds policy limiter (start + 1) (inFlight + w.elapsed) waited outcome elapsed tr
      result stats) :
    RetryRounds policy limiter start inFlight (w :: waited) outcome elapsed
      (w.events limiter (start + 1) ++ tr) result stats := by
  have hnumber : start + (w :: waited).length = start + 1 + waited.length := by
    rw [List.length_cons]
    omega
  refine ⟨?_, hnumber ▸ h.bounded, fun w' number hmem => ?_, hnumber ▸ h.ends, ?_⟩
  · rw [h.trace, hnumber, List.zipIdx_cons, List.flatMap_cons, List.append_assoc]
  · rw [List.zipIdx_cons, List.mem_cons] at hmem
    rcases hmem with heq | hmem
    · cases heq
      exact hw
    · exact h.honours w' number hmem
  · rw [h.stats_eq, hnumber, List.map_cons, List.sum_cons, Nat.add_assoc inFlight]

/-- A round that ends the loop. -/
theorem RetryRounds.last {policy : RetryPolicy} (limiter : Bool) {start : ℕ}
    (inFlight : Duration) {outcome : Except ProviderError T} (elapsed : Duration)
    {result : Except ProviderError T} (h : start ≤ policy.max)
    (hends : Ends policy (start + 1) outcome result) :
    RetryRounds policy limiter start inFlight [] outcome elapsed
      (tried limiter (start + 1) outcome elapsed) result ⟨start + 1, inFlight + elapsed⟩ :=
  ⟨rfl, h, fun _ _ hmem => by simp at hmem, hends, rfl⟩

/-- What the loop leaves after `start` attempts, with fuel for so many rounds. -/
def LoopPost (policy : RetryPolicy) (limiter : Bool) (fuel start : ℕ) (inFlight : Duration)
    (tr : List (Event (RetryRes T))) (res : Option (Except ProviderError T × RetryStats)) : Prop :=
  match res with
  | none => start + fuel ≤ policy.max
  | some (result, stats) => ∃ waited outcome elapsed,
    RetryRounds policy limiter start inFlight waited outcome elapsed tr result stats

theorem LoopPost.cons {policy : RetryPolicy} {limiter : Bool} {fuel start : ℕ}
    {inFlight : Duration} {tr : List (Event (RetryRes T))}
    {res : Option (Except ProviderError T × RetryStats)} {w : Waited}
    (hw : w.Honours policy (start + 1))
    (h : LoopPost policy limiter fuel (start + 1) (inFlight + w.elapsed) tr res) :
    LoopPost policy limiter (fuel + 1) start inFlight (w.events limiter (start + 1) ++ tr) res := by
  rcases res with _ | ⟨result, stats⟩
  · rw [LoopPost] at h ⊢
    omega
  · obtain ⟨waited, outcome, elapsed, h⟩ := h
    exact ⟨w :: waited, outcome, elapsed, h.cons hw⟩

/-- **A run of the loop, round by round.**  By induction on the fuel, which outlasts the
budget unless the loop returns before. -/
theorem loop_run {policy : RetryPolicy} (hmax : policy.max < 2 ^ 32 - 1) (limiter : Bool) :
    ∀ (fuel start : ℕ) (inFlight : Duration), start ≤ policy.max →
      Holds (loop policy limiter fuel start inFlight :
          Loop T (Option (Except ProviderError T × RetryStats)))
        (LoopPost policy limiter fuel start inFlight) := by
  intro fuel
  induction fuel with
  | zero =>
    intro start inFlight hstart
    exact holds_ret hstart
  | succ fuel ih =>
    intro start inFlight hstart
    rw [loop, nextAttempt_of_le hmax hstart]
    dsimp only
    refine holds_bind (holds_acquireSlot limiter) fun t₁ _ h₁ => holds_call_bind fun answer => ?_
    subst h₁
    obtain ⟨outcome, elapsed⟩ := answer
    rcases outcome with (⟨source, retryAfter, class_, details⟩ | ⟨source, class_, details⟩) | value
    · dsimp only
      split_ifs with hspent
      · have hlast : start + 1 = policy.max + 1 := by omega
        exact holds_ret ⟨[], _, elapsed, .last limiter inFlight elapsed hstart
          (.spent source retryAfter class_ details hlast)⟩
      · cases hceiling : retryAfter.filter (Duration.fromMillis policy.retryAfterMaxMs < ·) with
        | some hint =>
          obtain ⟨rfl, habove⟩ := Option.filter_eq_some_iff.mp hceiling
          exact holds_ret ⟨[], _, elapsed, .last limiter inFlight elapsed hstart
            (.givenUp source hint class_ details (by omega) (by simpa using habove))⟩
        | none =>
          -- the hint is within the ceiling, and the loop goes on
          have hwithin : ∀ hint, retryAfter = some hint →
              hint ≤ Duration.fromMillis policy.retryAfterMaxMs := by
            rintro hint rfl
            simpa using hceiling
          refine holds_bind (holds_wait policy (start + 1) retryAfter hwithin) fun t₂ _ h₂ => ?_
          obtain ⟨nanos, slept, rfl, hhonours⟩ := h₂
          refine (ih (start + 1) (inFlight + elapsed) (by omega)).mono fun t₃ res h₃ => ?_
          have := LoopPost.cons (hhonours source class_ details elapsed) h₃
          simpa [Waited.events, tried] using this
    · exact holds_ret ⟨[], _, elapsed, .last limiter inFlight elapsed hstart
        (.fatal source class_ details)⟩
    · exact holds_ret ⟨[], _, elapsed, .last limiter inFlight elapsed hstart (.ok value)⟩

/-- With fuel for the budget every run of the loop returns. -/
theorem withRetryLimited_returns {policy : RetryPolicy} (hmax : policy.max < 2 ^ 32 - 1)
    (limiter : Bool) {fuel : ℕ} (hfuel : policy.max < fuel) :
    Holds (withRetryLimited policy limiter fuel :
        Loop T (Option (Except ProviderError T × RetryStats))) fun tr res =>
      ∃ result stats, res = some (result, stats) ∧ RetrySound policy limiter tr result stats := by
  intro tr res hrun
  have hpost := loop_run hmax limiter fuel 0 0 (Nat.zero_le _) tr res hrun
  rcases res with _ | ⟨result, stats⟩
  · rw [LoopPost] at hpost
    omega
  · exact ⟨result, stats, rfl, hpost⟩

/-- **The retry loop is bounded and honours hints**: every run makes at most `max + 1`
attempts, of which only the last may not be retried, and the backoff it sleeps by is
monotone, capped and free of overflow. -/
theorem withRetryLimited_sound (policy : RetryPolicy) (hmax : policy.max < 2 ^ 32 - 1)
    (limiter : Bool) (fuel : ℕ) (hfuel : policy.max < fuel) :
    BackoffSound policy ∧
      Holds (withRetryLimited policy limiter fuel :
          Loop T (Option (Except ProviderError T × RetryStats))) fun tr res =>
        ∃ result stats, res = some (result, stats) ∧ RetrySound policy limiter tr result stats :=
  ⟨backoffSound policy, withRetryLimited_returns hmax limiter hfuel⟩

/-- A server that is busy for seven seconds, and then answers. -/
def busyOnce : Unit → (c : RetryCmd) → RetryRes Unit c × Unit
  | _, .acquire => ((), ())
  | _, .attempt number =>
    if number = 1 then
      ((.error (.retriable "busy" (some 7000000000) .providerRateLimit none), 30), ())
    else ((.ok (), 20), ())
  | _, .clockNanos => (0, ())
  | _, .sleep _ => ((), ())

theorem withRetryLimited_sound_hinted :
    RetrySound RetryPolicy.default true
      [⟨.acquire, ()⟩,
        ⟨.attempt 1, (.error (.retriable "busy" (some 7000000000) .providerRateLimit none), 30)⟩,
        ⟨.sleep 7000000000, ()⟩, ⟨.acquire, ()⟩, ⟨.attempt 2, (.ok (), 20)⟩]
      (.ok ()) ⟨2, 50⟩ := by
  have hrun : Runs (withRetryLimited RetryPolicy.default true 3 :
      Loop Unit (Option (Except ProviderError Unit × RetryStats)))
      [⟨.acquire, ()⟩,
        ⟨.attempt 1, (.error (.retriable "busy" (some 7000000000) .providerRateLimit none), 30)⟩,
        ⟨.sleep 7000000000, ()⟩, ⟨.acquire, ()⟩, ⟨.attempt 2, (.ok (), 20)⟩]
      (some (.ok (), ⟨2, 50⟩)) :=
    runs_exec busyOnce _ ()
  obtain ⟨result, stats, hres, hsound⟩ :=
    (withRetryLimited_sound RetryPolicy.default (by decide) true 3 (by decide)).2 _ _ hrun
  cases hres
  exact hsound

/-- A policy that never retries. -/
def onceOnly : RetryPolicy := { RetryPolicy.default with max := 0 }

/-- **The last attempt keeps its error**: a hint above the ceiling is answered with the
retriable error itself when no retry was left anyway. -/
theorem last_attempt_not_fatal :
    ¬∀ (tr : List (Event (RetryRes Unit))) (result : Except ProviderError Unit)
      (stats : RetryStats), Runs (withRetryLimited onceOnly false 1) tr (some (result, stats)) →
      ∀ number source hint class_ details elapsed,
        (⟨.attempt number, (.error (.retriable source (some hint) class_ details), elapsed)⟩ :
          Event (RetryRes Unit)) ∈ tr →
        Duration.fromMillis onceOnly.retryAfterMaxMs < hint →
        ∃ message, result = .error (.fatal message class_ details) := by
  intro h
  have hrun : Runs (withRetryLimited onceOnly false 1 :
      Loop Unit (Option (Except ProviderError Unit × RetryStats)))
      [⟨.attempt 1, (.error (.retriable "busy" (some 121000000000) .providerRateLimit none), 30)⟩]
      (some (.error (.retriable "busy" (some 121000000000) .providerRateLimit none), ⟨1, 30⟩)) := by
    rw [withRetryLimited, loop]
    exact .ask _ (.ret _)
  obtain ⟨message, hmessage⟩ := h _ _ _ hrun 1 "busy" 121000000000 .providerRateLimit none 30
    List.mem_cons_self (by decide)
  cases hmessage

end

/-- At `u32::MAX` retries no counter is above the budget: against a provider that is always
busy the loop outlasts any fuel. -/
theorem loop_endless {policy : RetryPolicy} (hmax : policy.max = 2 ^ 32 - 1)
    (hjitter : policy.jitter = false) :
    ∀ (fuel attempts : ℕ) (inFlight : Duration), ∃ tr,
      Runs (loop policy false fuel attempts inFlight :
        Loop Unit (Option (Except ProviderError Unit × RetryStats))) tr none := by
  intro fuel
  induction fuel with
  | zero => exact fun _ _ => ⟨[], .ret none⟩
  | succ fuel ih =>
    intro attempts inFlight
    obtain ⟨tr, hrun⟩ := ih (nextAttempt attempts) (inFlight + 30)
    -- no value of the counter is above the largest one
    have hbudget : ¬nextAttempt attempts > policy.max := by
      have := Nat.mod_lt (attempts + 1) (show 0 < 2 ^ 32 by decide)
      rw [nextAttempt, hmax]
      omega
    refine ⟨⟨.attempt (nextAttempt attempts),
      (.error (.retriable "busy" none .providerRateLimit none), 30)⟩ ::
        ⟨.sleep (policy.backoff (nextAttempt attempts) none), ()⟩ :: tr, ?_⟩
    rw [loop]
    refine runs_call_bind.mpr ⟨_, _, rfl, ?_⟩
    dsimp only
    rw [if_neg hbudget, wait]
    simp only [Option.filter_none, hjitter]
    exact runs_call_bind.mpr ⟨(), tr, rfl, hrun⟩

end RetryLoop

/-! ### The loop around a provider call -/

open RetryLoop in
/-- Carry out an attempt by a provider call. -/
def providerCmd (provider : String) (req : ProviderRequest) :
    (c : RetryCmd) → Run (RetryRes ProviderResponse c)
  | .acquire => Run.acquire
  | .attempt _ => Run.callProvider provider req
  | .clockNanos => Run.clockNanos
  | .sleep delay => Run.sleep delay

section
variable (policy : RetryPolicy) (limiter : Bool) (provider : String) (req : ProviderRequest)

theorem interp_acquireSlot : (RetryLoop.acquireSlot limiter).interp (providerCmd provider req) =
    acquireSlot limiter := by
  cases limiter <;> rfl

theorem interp_wait (attempts : ℕ) (retryAfter : Option Duration) :
    (RetryLoop.wait policy attempts retryAfter).interp (providerCmd provider req) =
      waitBeforeRetry policy attempts retryAfter := by
  unfold RetryLoop.wait waitBeforeRetry
  cases retryAfter with
  | some hint => rfl
  | none =>
    dsimp only
    split_ifs with hjitter
    · unfold RetryLoop.jittered jittered
      dsimp only
      split_ifs <;> rfl
    · rfl

/-- **The loop around a provider call is this loop**, each attempt a call: the counter does
not wrap before the budget is spent. -/
theorem interp_loop (hmax : policy.max < 2 ^ 32 - 1) :
    ∀ (left attempts : ℕ) (inFlight : Duration), attempts + left = policy.max →
      (RetryLoop.loop policy limiter (left + 1) attempts inFlight).interp
          (providerCmd provider req) =
        retryLoop policy limiter provider req left attempts inFlight >>=
          fun r => .ret (some r) := by
  intro left
  induction left with
  | zero =>
    intro attempts inFlight hleft
    rw [RetryLoop.loop, retryLoop, retryRound, RetryLoop.nextAttempt_of_le hmax (by omega)]
    dsimp only
    rw [interp_bind, interp_acquireSlot, Program.bind_assoc]
    congr 1
    funext _
    refine congrArg (ask (RunCmd.callProvider provider req)) (funext fun answer => ?_)
    obtain ⟨outcome, elapsed⟩ := answer
    rcases outcome with (⟨source, retryAfter, class_, details⟩ | fatal) | value
    -- `left` is zero exactly when this attempt is one above the budget
    · dsimp only [Program.bind]
      rw [if_pos (by omega)]
      rfl
    · rfl
    · rfl
  | succ left ih =>
    intro attempts inFlight hleft
    rw [RetryLoop.loop, retryLoop, retryRound, RetryLoop.nextAttempt_of_le hmax (by omega)]
    dsimp only
    rw [interp_bind, interp_acquireSlot, Program.bind_assoc]
    congr 1
    funext _
    refine congrArg (ask (RunCmd.callProvider provider req)) (funext fun answer => ?_)
    obtain ⟨outcome, elapsed⟩ := answer
    rcases outcome with (⟨source, retryAfter, class_, details⟩ | fatal) | value
    · dsimp only [Program.bind]
      rw [if_neg (by omega)]
      cases hceiling : retryAfter.filter (Duration.fromMillis policy.retryAfterMaxMs < ·) with
      | some hint => rfl
      | none =>
        dsimp only
        rw [interp_bind, interp_wait]
        refine Eq.trans ?_ (Program.bind_assoc _ _ _).symm
        congr 1
        funext _
        exact ih (attempts + 1) (inFlight + elapsed) (by omega)
    · rfl
    · rfl

/-- A run of the provider loop is a run of the generic one, each attempt expanded. -/
theorem withRetryLimited_rounds (hmax : policy.max < 2 ^ 32 - 1) {tr : List RunEvent}
    {result : Except ProviderError ProviderResponse} {stats : RetryStats}
    (h : Runs (withRetryLimited policy limiter provider req) tr (result, stats)) :
    ∃ rounds, RetryLoop.RetrySound policy limiter rounds result stats ∧
      Expands (providerCmd provider req) rounds tr := by
  have hrun : Runs ((RetryLoop.withRetryLimited policy limiter (policy.max + 1)).interp
      (providerCmd provider req)) tr (some (result, stats)) := by
    rw [RetryLoop.withRetryLimited, interp_loop policy limiter provider req hmax _ _ _
      (Nat.zero_add _)]
    exact runs_bind.mpr ⟨tr, _, [], (List.append_nil tr).symm, h, .ret _⟩
  obtain ⟨rounds, hrounds, hexpands⟩ := runs_interp.mp hrun
  obtain ⟨_, _, hres, hsound⟩ :=
    RetryLoop.withRetryLimited_returns hmax limiter (Nat.lt_succ_self _) _ _ hrounds
  cases hres
  exact ⟨rounds, hsound, hexpands⟩

end
