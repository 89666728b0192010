/-
The counters that throttle password guesses, one row for each throttled key.

An attempt is reserved before the password is checked: `beginLoginAttempt` counts it, or
answers that the key is locked.  A window holds at most `maxFailures` attempts; the attempt
that would be one more trips a lock, and each lock of a chain lasts twice as long as the one
before, up to a cap.

* **`begin_cases`** — everything one attempt can do;
* **`login_throttled`** — what follows for every history of attempts and successful logins.

Times are milliseconds; the calls of a history come at non-decreasing times.
-/
import Mathlib.Algebra.Order.Ring.Int
import Mathlib.Data.Finset.Dedup
import Mathlib.Data.Finset.Order
import Mathlib.Data.List.Induction
import Mathlib.Data.List.Pairwise
import Mathlib.Tactic.Common
import Mathlib.Tactic.Linarith

/-- `ATTEMPT_WINDOW_MS`: fifteen minutes. -/
def attemptWindowMs : ℤ := 15 * 60 * 1000

/-- `LOCKOUT_ESCALATION_MS`: a day. -/
def lockoutEscalationMs : ℤ := 24 * 60 * 60 * 1000

def i64Min : ℤ := -2 ^ 63
def i64Max : ℤ := 2 ^ 63 - 1

/-- `i64::saturating_mul`. -/
def saturatingMul (a b : ℤ) : ℤ := max i64Min (min (a * b) i64Max)

/-- One throttle's limits.  A policy lets a key fail more than once, and locks for a positive
time. -/
structure AttemptPolicy where
  maxFailures : ℕ
  lockBaseMs : ℤ
  lockCapMs : ℤ
  one_lt_maxFailures : 1 < maxFailures
  lockBaseMs_pos : 0 < lockBaseMs
  lockCapMs_pos : 0 < lockCapMs
  lockCapMs_le : lockCapMs ≤ i64Max

namespace AttemptPolicy

/-- `UNTRUSTED`: a browser without a device cookie for the account. -/
def untrusted : AttemptPolicy :=
  ⟨10, 5 * 60 * 1000, 60 * 60 * 1000, by decide, by decide, by decide, by decide⟩

/-- `DEVICE`: a recognised browser. -/
def device : AttemptPolicy :=
  ⟨10, 15 * 60 * 1000, 15 * 60 * 1000, by decide, by decide, by decide, by decide⟩

/-- `PASSWORD_CHANGE`: guesses at the current password. -/
def passwordChange : AttemptPolicy :=
  ⟨5, 15 * 60 * 1000, 15 * 60 * 1000, by decide, by decide, by decide, by decide⟩

end AttemptPolicy

/-! ### Locks -/

/-- `lock_duration_ms`: the duration of a lock, by its position in its chain. -/
def lockDurationMs (lockOrdinal : ℤ) (policy : AttemptPolicy) : ℤ :=
  let shift := (max 0 (min (lockOrdinal - 1) 20)).toNat
  min (saturatingMul policy.lockBaseMs (2 ^ shift)) policy.lockCapMs

/-- The multiplication never overflows into the result. -/
theorem lockDurationMs_eq (n : ℤ) (policy : AttemptPolicy) :
    lockDurationMs n policy =
      min (policy.lockBaseMs * 2 ^ (max 0 (min (n - 1) 20)).toNat) policy.lockCapMs := by
  have hprod : 0 < policy.lockBaseMs * 2 ^ (max 0 (min (n - 1) 20)).toNat :=
    Int.mul_pos policy.lockBaseMs_pos (by positivity)
  have hcap := policy.lockCapMs_le
  have hmin : i64Min ≤ 0 := by decide
  rw [lockDurationMs, saturatingMul, max_eq_right, min_assoc, min_eq_right hcap]
  exact le_min (by omega) (by decide)

theorem lockDurationMs_pos (n : ℤ) (policy : AttemptPolicy) : 0 < lockDurationMs n policy := by
  rw [lockDurationMs_eq]
  exact lt_min (Int.mul_pos policy.lockBaseMs_pos (by positivity)) policy.lockCapMs_pos

theorem lockDurationMs_le_cap (n : ℤ) (policy : AttemptPolicy) :
    lockDurationMs n policy ≤ policy.lockCapMs := min_le_right _ _

theorem lockDurationMs_mono {m n : ℤ} (h : m ≤ n) (policy : AttemptPolicy) :
    lockDurationMs m policy ≤ lockDurationMs n policy := by
  have hshift : (max 0 (min (m - 1) 20)).toNat ≤ (max 0 (min (n - 1) 20)).toNat := by omega
  rw [lockDurationMs_eq, lockDurationMs_eq]
  refine min_le_min_right _ (Int.mul_le_mul_of_nonneg_left ?_ policy.lockBaseMs_pos.le)
  exact pow_le_pow_right₀ (by decide) hshift

/-! ### Attempts -/

/-- A row of `login_attempts`. -/
structure AttemptRow where
  failures : ℕ
  windowStart : ℤ
  lockedUntil : ℤ
  lockouts : ℕ
  lockoutWindowStart : ℤ
deriving DecidableEq

/-- Whether the caller may go on to verify a password. -/
inductive AttemptVerdict where
  | allowed
  | locked (retryAfterMs : ℤ)
deriving DecidableEq

/-- The upsert: a locked key keeps its count, a lapsed window starts again at this attempt. -/
def reserve (row : Option AttemptRow) (now : ℤ) : AttemptRow :=
  match row with
  | none => ⟨1, now, 0, 0, 0⟩
  | some r =>
    { r with
      failures :=
        if r.lockedUntil > now then r.failures
        else if r.windowStart + attemptWindowMs ≤ now then 1
        else r.failures + 1
      windowStart :=
        if r.lockedUntil ≤ now ∧ r.windowStart + attemptWindowMs ≤ now then now
        else r.windowStart }

/-- The position of the next lock: a quiet day starts the chain again. -/
def nextOrdinal (r : AttemptRow) (now : ℤ) : ℕ :=
  if r.lockouts = 0 ∨ r.lockoutWindowStart + lockoutEscalationMs ≤ now then 1
  else r.lockouts + 1

/-- The row once the lock is tripped. -/
def tripped (policy : AttemptPolicy) (r : AttemptRow) (now : ℤ) : AttemptRow :=
  { failures := 0
    windowStart := now
    lockedUntil := now + lockDurationMs (nextOrdinal r now) policy
    lockouts := nextOrdinal r now
    lockoutWindowStart := now }

/-- `begin_login_attempt`. -/
def beginLoginAttempt (policy : AttemptPolicy) (row : Option AttemptRow) (now : ℤ) :
    AttemptRow × AttemptVerdict :=
  let r := reserve row now
  if r.lockedUntil > now then (r, .locked (r.lockedUntil - now))
  else if r.failures ≤ policy.maxFailures then (r, .allowed)
  else
    let r' := tripped policy r now
    (r', .locked (r'.lockedUntil - now))

/-- Everything one attempt can do to a row, and answer. -/
inductive Began (policy : AttemptPolicy) (now : ℤ) :
    Option AttemptRow → AttemptRow → AttemptVerdict → Prop where
  /-- A new row is unlocked from time zero on. -/
  | early (h : now < 0) : Began policy now none ⟨1, now, 0, 0, 0⟩ (.locked (0 - now))
  | first (h : 0 ≤ now) : Began policy now none ⟨1, now, 0, 0, 0⟩ .allowed
  | refused {r : AttemptRow} (hlock : now < r.lockedUntil) :
      Began policy now (some r) r (.locked (r.lockedUntil - now))
  | lapsed {r : AttemptRow} (hlock : r.lockedUntil ≤ now)
      (hwindow : r.windowStart + attemptWindowMs ≤ now) :
      Began policy now (some r) { r with failures := 1, windowStart := now } .allowed
  | counted {r : AttemptRow} (hlock : r.lockedUntil ≤ now)
      (hwindow : now < r.windowStart + attemptWindowMs) (hroom : r.failures < policy.maxFailures) :
      Began policy now (some r) { r with failures := r.failures + 1 } .allowed
  | trips {r : AttemptRow} (hlock : r.lockedUntil ≤ now)
      (hwindow : now < r.windowStart + attemptWindowMs) (hfull : policy.maxFailures ≤ r.failures) :
      Began policy now (some r) (tripped policy r now)
        (.locked (lockDurationMs (nextOrdinal r now) policy))

/-- **Everything one attempt can do.** -/
theorem begin_cases (policy : AttemptPolicy) (row : Option AttemptRow) (now : ℤ) :
    Began policy now row (beginLoginAttempt policy row now).1
      (beginLoginAttempt policy row now).2 := by
  have hone := policy.one_lt_maxFailures
  -- first attempt, then by lock, window and room, in the order of the source's tests
  cases row with
  | none =>
    rw [beginLoginAttempt, reserve]
    dsimp only
    by_cases h : now < 0
    · rw [if_pos h]
      exact .early h
    · rw [if_neg h, if_pos (by omega)]
      exact .first (by omega)
  | some r =>
    by_cases hlock : now < r.lockedUntil
    · have hrow : reserve (some r) now = r := by
        have hnot : ¬r.lockedUntil ≤ now := by omega
        simp [reserve, hlock, hnot]
      rw [beginLoginAttempt, hrow]
      dsimp only
      rw [if_pos hlock]
      exact .refused hlock
    · have hunlocked : r.lockedUntil ≤ now := by omega
      by_cases hwindow : r.windowStart + attemptWindowMs ≤ now
      · have hrow : reserve (some r) now = { r with failures := 1, windowStart := now } := by
          simp [reserve, hlock, hunlocked, hwindow]
        rw [beginLoginAttempt, hrow]
        dsimp only
        rw [if_neg hlock, if_pos (by omega)]
        exact .lapsed hunlocked hwindow
      · have hrow : reserve (some r) now = { r with failures := r.failures + 1 } := by
          simp [reserve, hlock, hwindow]
        rw [beginLoginAttempt, hrow]
        dsimp only
        rw [if_neg hlock]
        by_cases hroom : r.failures + 1 ≤ policy.maxFailures
        · rw [if_pos hroom]
          exact .counted hunlocked (by omega) hroom
        · rw [if_neg hroom]
          have htrip : Began policy now _ _ _ := .trips hunlocked (by omega) (by omega)
          simpa [tripped, nextOrdinal] using htrip

/-! ### Histories -/

/-- A call about one key. -/
inductive AttemptCall where
  | begin (now : ℤ)
  | clear

/-- The times of the attempts. -/
def attemptTimes (calls : List AttemptCall) : List ℤ :=
  calls.filterMap fun call => match call with
    | .begin now => some now
    | .clear => none

/-- The attempts of a history come at non-decreasing times. -/
def InOrder (calls : List AttemptCall) : Prop := (attemptTimes calls).Pairwise (· ≤ ·)

/-- One call, with the row before and after it and its verdict. -/
structure AttemptEntry where
  before : Option AttemptRow
  call : AttemptCall
  after : Option AttemptRow
  verdict : Option AttemptVerdict

/-- `begin_login_attempt`, or `clear_login_attempts`. -/
def attempt (policy : AttemptPolicy) (row : Option AttemptRow) (call : AttemptCall) :
    AttemptEntry :=
  match call with
  | .begin now =>
    let (r, verdict) := beginLoginAttempt policy row now
    ⟨row, call, some r, some verdict⟩
  | .clear => ⟨row, call, none, none⟩

/-- The entries of a sequence of calls. -/
def attemptLog (policy : AttemptPolicy) (row : Option AttemptRow) :
    List AttemptCall → List AttemptEntry
  | [] => []
  | call :: calls =>
    attempt policy row call :: attemptLog policy (attempt policy row call).after calls

/-- The row after a sequence of calls. -/
def attemptRow (policy : AttemptPolicy) (row : Option AttemptRow) (calls : List AttemptCall) :
    Option AttemptRow :=
  calls.foldl (fun row call => (attempt policy row call).after) row

/-- The failures counted on a key. -/
def failuresOf (row : Option AttemptRow) : ℕ := (row.map AttemptRow.failures).getD 0

/-- The time a key is locked until. -/
def lockedUntilOf (row : Option AttemptRow) : ℤ := (row.map AttemptRow.lockedUntil).getD 0

namespace AttemptEntry

/-- The attempt may go on. -/
def isAllowed (e : AttemptEntry) : Bool := e.verdict = some .allowed

/-- The call resets the counter: it does not leave it as it was or count the attempt. -/
def Resets (e : AttemptEntry) : Prop :=
  failuresOf e.after ≠ failuresOf e.before + 1 ∧
    (failuresOf e.after ≠ failuresOf e.before ∨ e.isAllowed = true)

/-- The call is an attempt on an unlocked key that leaves it locked. -/
def TripsAt (e : AttemptEntry) (now : ℤ) : Prop :=
  e.call = .begin now ∧ lockedUntilOf e.before ≤ now ∧ now < lockedUntilOf e.after

/-- The call is an attempt on an unlocked key whose window has lapsed. -/
def LapsesAt (e : AttemptEntry) (now : ℤ) : Prop :=
  e.call = .begin now ∧ lockedUntilOf e.before ≤ now ∧
    ∃ r, e.before = some r ∧ r.windowStart + attemptWindowMs ≤ now

end AttemptEntry

theorem attempt_begin (policy : AttemptPolicy) (row : Option AttemptRow) (now : ℤ) :
    ∃ r verdict, attempt policy row (.begin now) = ⟨row, .begin now, some r, some verdict⟩ ∧
      Began policy now row r verdict :=
  ⟨_, _, rfl, begin_cases policy row now⟩

/-! ### The invariant of a row -/

/-- The counter stays within the budget, and a key that is locked at `t` has at most the
attempt that made its row. -/
def RowInv (policy : AttemptPolicy) (t : ℤ) (row : Option AttemptRow) : Prop :=
  ∀ r, row = some r → r.failures ≤ policy.maxFailures ∧ (t < r.lockedUntil → r.failures ≤ 1)

theorem RowInv.later {policy : AttemptPolicy} {t u : ℤ} {row : Option AttemptRow}
    (h : RowInv policy t row) (htu : t ≤ u) : RowInv policy u row := by
  intro r hr
  exact ⟨(h r hr).1, fun hu => (h r hr).2 (by omega)⟩

theorem Began.rowInv {policy : AttemptPolicy} {now : ℤ} {row : Option AttemptRow} {r : AttemptRow}
    {verdict : AttemptVerdict} (h : Began policy now row r verdict)
    (hrow : RowInv policy now row) : RowInv policy now (some r) := by
  have hone := policy.one_lt_maxFailures
  intro r' hr'
  obtain rfl := Option.some.inj hr'
  cases h with
  | early => exact ⟨by dsimp only; omega, fun _ => le_rfl⟩
  | first => exact ⟨by dsimp only; omega, fun _ => le_rfl⟩
  | refused => exact hrow _ rfl
  | lapsed => exact ⟨by dsimp only; omega, fun _ => le_rfl⟩
  | counted hlock hwindow hroom =>
    refine ⟨hroom, fun hlocked => ?_⟩
    dsimp only at hlocked
    omega
  | trips => exact ⟨Nat.zero_le _, fun _ => Nat.zero_le _⟩

/-- The invariant after a whole history, at any time that is not before it. -/
theorem rowInv_of_history {policy : AttemptPolicy} {calls : List AttemptCall}
    (horder : InOrder calls) {t : ℤ} (ht : ∀ u ∈ attemptTimes calls, u ≤ t) :
    RowInv policy t (attemptRow policy none calls) := by
  induction calls using List.reverseRecOn generalizing t with
  | nil => exact fun r hr => nomatch hr
  | append_singleton calls call ih =>
    have htimes : attemptTimes (calls ++ [call]) = attemptTimes calls ++ attemptTimes [call] :=
      List.filterMap_append
    rw [InOrder, htimes, List.pairwise_append] at horder
    rw [htimes] at ht
    rw [attemptRow, List.foldl_append, List.foldl_cons, List.foldl_nil, ← attemptRow]
    cases call with
    | clear => exact fun r hr => nomatch hr
    | begin now =>
      obtain ⟨r, verdict, hattempt, hbegan⟩ :=
        attempt_begin policy (attemptRow policy none calls) now
      have hprior : ∀ u ∈ attemptTimes calls, u ≤ now := fun u hu =>
        horder.2.2 u hu now (by simp [attemptTimes])
      rw [hattempt]
      exact (hbegan.rowInv (ih horder.1 hprior)).later (ht now (by simp [attemptTimes]))

/-! ### The budget of a window -/

variable {policy : AttemptPolicy}

/-- What a call that does not reset does to the counter. -/
theorem failuresOf_of_not_resets {e : AttemptEntry} (h : ¬e.Resets) :
    failuresOf e.before + (if e.isAllowed then 1 else 0) ≤ failuresOf e.after := by
  rw [AttemptEntry.Resets, not_and_or, not_not, not_or, not_not, Bool.not_eq_true] at h
  rcases h with hcount | ⟨hsame, hrefused⟩
  · rw [hcount]
    split_ifs <;> omega
  · simp [hsame, hrefused]

/-- An allowed attempt is counted. -/
theorem failuresOf_pos_of_allowed {row : Option AttemptRow} {call : AttemptCall}
    (h : (attempt policy row call).isAllowed = true) :
    1 ≤ failuresOf (attempt policy row call).after := by
  cases call with
  | clear => simp [attempt, AttemptEntry.isAllowed] at h
  | begin now =>
    obtain ⟨r, verdict, hattempt, hbegan⟩ := attempt_begin policy row now
    rw [hattempt] at h ⊢
    cases hbegan <;> simp_all [AttemptEntry.isAllowed, failuresOf]

/-- Without a reset the counter grows with every allowed attempt. -/
theorem failuresOf_of_period (row : Option AttemptRow) (calls : List AttemptCall)
    (h : ∀ e ∈ attemptLog policy row calls, ¬e.Resets) :
    failuresOf row + (attemptLog policy row calls).countP AttemptEntry.isAllowed ≤
      failuresOf (attemptRow policy row calls) := by
  induction calls generalizing row with
  | nil => exact le_rfl
  | cons call calls ih =>
    rw [attemptLog, List.forall_mem_cons] at h
    have hfirst := failuresOf_of_not_resets h.1
    have hrest := ih _ h.2
    have hbefore : (attempt policy row call).before = row := by cases call <;> rfl
    rw [hbefore] at hfirst
    rw [attemptLog, List.countP_cons, attemptRow, List.foldl_cons, ← attemptRow]
    omega

/-- What resets the counter. -/
theorem resets_cases {row : Option AttemptRow} {call : AttemptCall}
    (h : (attempt policy row call).Resets) :
    call = .clear ∨ ∃ now, (attempt policy row call).LapsesAt now ∨
      (attempt policy row call).TripsAt now := by
  cases call with
  | clear => exact .inl rfl
  | begin now =>
    obtain ⟨r, verdict, hattempt, hbegan⟩ := attempt_begin policy row now
    rw [hattempt] at h ⊢
    refine .inr ⟨now, ?_⟩
    cases hbegan with
    | early => simp [AttemptEntry.Resets, failuresOf] at h
    | first => simp [AttemptEntry.Resets, failuresOf] at h
    | refused => simp [AttemptEntry.Resets, failuresOf, AttemptEntry.isAllowed] at h
    | lapsed hlock hwindow => exact .inl ⟨rfl, hlock, _, rfl, hwindow⟩
    | counted => simp [AttemptEntry.Resets, failuresOf] at h
    | trips hlock =>
      have hpos := lockDurationMs_pos (nextOrdinal ‹_› now) policy
      refine .inr ⟨rfl, hlock, ?_⟩
      simp only [lockedUntilOf, tripped, Option.map_some, Option.getD_some]
      omega

/-! ### Locks over a history -/

theorem tripsAt_cases {row : Option AttemptRow} {call : AttemptCall} {now : ℤ}
    (h : (attempt policy row call).TripsAt now) :
    call = .begin now ∧ ∃ r, row = some r ∧
      (attempt policy row call).after = some (tripped policy r now) := by
  obtain ⟨hcall, hunlocked, hlocked⟩ := h
  cases call with
  | clear => cases hcall
  | begin now' =>
    obtain ⟨r, verdict, hattempt, hbegan⟩ := attempt_begin policy row now'
    rw [hattempt] at hcall hunlocked hlocked ⊢
    obtain rfl := AttemptCall.begin.inj hcall
    refine ⟨rfl, ?_⟩
    cases hbegan with
    | trips => exact ⟨_, rfl, rfl⟩
    | early | first | refused | lapsed | counted =>
      -- nothing else locks a key that is not locked
      simp only [lockedUntilOf, Option.map_some, Option.map_none, Option.getD_some,
        Option.getD_none] at hunlocked hlocked
      omega

theorem call_mem_of_mem_log {row : Option AttemptRow} {calls : List AttemptCall} {e : AttemptEntry}
    (h : e ∈ attemptLog policy row calls) : e.call ∈ calls := by
  induction calls generalizing row with
  | nil => cases h
  | cons call calls ih =>
    rcases List.mem_cons.mp h with rfl | h
    · cases call <;> exact List.mem_cons_self
    · exact List.mem_cons_of_mem _ (ih h)

/-- Until a lock ends, attempts are refused and leave the row as it is. -/
theorem refused_until {r : AttemptRow} {calls : List AttemptCall} (horder : InOrder calls)
    (hclear : AttemptCall.clear ∉ calls) :
    ∀ e ∈ attemptLog policy (some r) calls, ∀ now, e.call = .begin now → now < r.lockedUntil →
      e.verdict = some (.locked (r.lockedUntil - now)) := by
  induction calls with
  | nil => exact fun e he => nomatch he
  | cons call calls ih =>
    rw [List.mem_cons, not_or] at hclear
    cases call with
    | clear => exact absurd rfl hclear.1
    | begin t =>
      have htimes : attemptTimes (.begin t :: calls) = t :: attemptTimes calls := rfl
      rw [InOrder, htimes, List.pairwise_cons] at horder
      obtain ⟨r', verdict, hattempt, hbegan⟩ := attempt_begin policy (some r) t
      rw [attemptLog, List.forall_mem_cons, hattempt]
      by_cases ht : t < r.lockedUntil
      · -- the attempt is refused: the row of the rest is the same
        have hrefused : r' = r ∧ verdict = .locked (r.lockedUntil - t) := by
          cases hbegan <;> first | exact ⟨rfl, rfl⟩ | omega
        obtain ⟨rfl, rfl⟩ := hrefused
        refine ⟨?_, ih horder.2 hclear.2⟩
        rintro now ⟨⟩ -
        rfl
      · -- the lock has ended: so it has for every later attempt
        refine ⟨fun now hnow hlt => absurd (AttemptCall.begin.inj hnow ▸ hlt) ht, ?_⟩
        have hlater : ∀ e ∈ attemptLog policy (some r') calls, ∀ now, e.call = .begin now →
            now ∈ attemptTimes calls := by
          intro e he now hnow
          have hmem := call_mem_of_mem_log he
          rw [hnow] at hmem
          exact List.mem_filterMap.mpr ⟨_, hmem, rfl⟩
        intro e he now hnow hlt
        have := horder.1 now (hlater e he now hnow)
        omega

/-- Between two locks the position in the chain and the time of the last lock stay. -/
theorem chain_kept {r : AttemptRow} {calls : List AttemptCall} (hclear : AttemptCall.clear ∉ calls)
    (htrips : ∀ e ∈ attemptLog policy (some r) calls, ∀ now, ¬e.TripsAt now) :
    ∃ r', attemptRow policy (some r) calls = some r' ∧ r'.lockouts = r.lockouts ∧
      r'.lockoutWindowStart = r.lockoutWindowStart := by
  induction calls generalizing r with
  | nil => exact ⟨r, rfl, rfl, rfl⟩
  | cons call calls ih =>
    rw [List.mem_cons, not_or] at hclear
    cases call with
    | clear => exact absurd rfl hclear.1
    | begin now =>
      obtain ⟨r', verdict, hattempt, hbegan⟩ := attempt_begin policy (some r) now
      rw [attemptLog, List.forall_mem_cons, hattempt] at htrips
      rw [attemptRow, List.foldl_cons, hattempt, ← attemptRow]
      obtain ⟨r'', hrow, hlockouts, hstart⟩ := ih hclear.2 htrips.2
      refine ⟨r'', hrow, ?_⟩
      rw [hlockouts, hstart]
      cases hbegan with
      | refused | lapsed | counted => exact ⟨rfl, rfl⟩
      | trips hlock =>
        have hpos := lockDurationMs_pos (nextOrdinal r now) policy
        refine absurd ⟨rfl, hlock, ?_⟩ (htrips.1 now)
        simp only [lockedUntilOf, tripped, Option.map_some, Option.getD_some]
        omega

/-- A refused attempt leaves at most one failure, and the lock ends when it says. -/
theorem locked_row {row : Option AttemptRow} {now retryAfter : ℤ} (hrow : RowInv policy now row)
    (h : (attempt policy row (.begin now)).verdict = some (.locked retryAfter)) :
    ∃ r, (attempt policy row (.begin now)).after = some r ∧ r.failures ≤ 1 ∧
      r.lockedUntil = now + retryAfter := by
  obtain ⟨r, verdict, hattempt, hbegan⟩ := attempt_begin policy row now
  rw [hattempt] at h ⊢
  refine ⟨r, rfl, ?_⟩
  obtain rfl := Option.some.inj h
  cases hbegan with
  | early => exact ⟨le_rfl, by dsimp only; omega⟩
  | refused hlock => exact ⟨(hrow _ rfl).2 hlock, by omega⟩
  | trips => exact ⟨Nat.zero_le _, rfl⟩

/-- A key with at most one failure is open again when its lock ends. -/
theorem allowed_at_expiry {r : AttemptRow} (hfailures : r.failures ≤ 1) :
    (attempt policy (some r) (.begin r.lockedUntil)).verdict = some .allowed := by
  have hone := policy.one_lt_maxFailures
  obtain ⟨r', verdict, hattempt, hbegan⟩ := attempt_begin policy (some r) r.lockedUntil
  rw [hattempt]
  cases hbegan with
  | refused hlock => omega
  | lapsed | counted => rfl
  | trips _ _ hfull => omega

theorem refused_before {r : AttemptRow} {t : ℤ} (h : t < r.lockedUntil) :
    (attempt policy (some r) (.begin t)).verdict = some (.locked (r.lockedUntil - t)) := by
  obtain ⟨r', verdict, hattempt, hbegan⟩ := attempt_begin policy (some r) t
  rw [hattempt]
  cases hbegan <;> first | rfl | omega

/-! ### Every history -/

theorem inOrder_left {history rest : List AttemptCall} (h : InOrder (history ++ rest)) :
    InOrder history := by
  rw [InOrder, attemptTimes, List.filterMap_append] at h
  exact (List.pairwise_append.mp h).1

theorem inOrder_right {history rest : List AttemptCall} (h : InOrder (history ++ rest)) :
    InOrder rest := by
  rw [InOrder, attemptTimes, List.filterMap_append] at h
  exact (List.pairwise_append.mp h).2.1

theorem failuresOf_le {calls : List AttemptCall} (horder : InOrder calls) :
    failuresOf (attemptRow policy none calls) ≤ policy.maxFailures := by
  obtain ⟨t, ht⟩ := (attemptTimes calls).toFinset.exists_le
  have hrow : RowInv policy t _ := rowInv_of_history horder
    fun u hu => ht u (List.mem_toFinset.mpr hu)
  cases h : attemptRow policy none calls with
  | none => exact Nat.zero_le _
  | some r => exact (hrow r h).1

theorem attemptRow_append (row : Option AttemptRow) (calls calls' : List AttemptCall) :
    attemptRow policy row (calls ++ calls') =
      attemptRow policy (attemptRow policy row calls) calls' := List.foldl_append

/-- **The budget**: between two resets no more attempts are allowed than the policy has. -/
theorem allowed_le_budget {history : List AttemptCall} {call : AttemptCall}
    {period : List AttemptCall} (horder : InOrder (history ++ call :: period))
    (hperiod : ∀ x ∈ attemptLog policy
      (attempt policy (attemptRow policy none history) call).after period, ¬x.Resets) :
    (attemptLog policy (attemptRow policy none history) (call :: period)).countP
      AttemptEntry.isAllowed ≤ policy.maxFailures := by
  have hgrows := failuresOf_of_period _ period hperiod
  have hbudget : failuresOf (attemptRow policy none _) ≤ policy.maxFailures := failuresOf_le horder
  have hrow : attemptRow policy none (history ++ call :: period) =
      attemptRow policy (attempt policy (attemptRow policy none history) call).after period := by
    rw [attemptRow_append]
    rfl
  rw [hrow] at hbudget
  rw [attemptLog, List.countP_cons]
  split_ifs with hallowed
  · have hcounted := failuresOf_pos_of_allowed hallowed
    omega
  · omega

/-- A window starts at the attempt that starts it. -/
theorem windowStart_cases {row : Option AttemptRow} {call : AttemptCall} {r : AttemptRow}
    (h : (attempt policy row call).after = some r) : call = .begin r.windowStart ∨
      ∃ r', (attempt policy row call).before = some r' ∧ r'.windowStart = r.windowStart := by
  cases call with
  | clear => cases h
  | begin now =>
    obtain ⟨r', verdict, hattempt, hbegan⟩ := attempt_begin policy row now
    rw [hattempt] at h ⊢
    obtain rfl := Option.some.inj h
    cases hbegan with
    | early | first | lapsed | trips => exact .inl rfl
    | refused | counted => exact .inr ⟨_, rfl, rfl⟩

/-- The duration of a lock, by its position in its chain. -/
theorem duration_of_trip {row : Option AttemptRow} {now : ℤ}
    (h : (attempt policy row (.begin now)).TripsAt now) : ∃ r, row = some r ∧
      lockedUntilOf (attempt policy row (.begin now)).after - now =
        lockDurationMs (nextOrdinal r now) policy := by
  obtain ⟨-, r, hrow, hafter⟩ := tripsAt_cases h
  refine ⟨r, hrow, ?_⟩
  simp only [hafter, lockedUntilOf, tripped, Option.map_some, Option.getD_some]
  omega

/-- **Escalation**: a lock within a day of the lock before it is at least as long. -/
theorem duration_escalates {row : Option AttemptRow} {now now' : ℤ} {rest : List AttemptCall}
    (hclear : AttemptCall.clear ∉ rest) (htrip : (attempt policy row (.begin now)).TripsAt now)
    (hbetween : ∀ x ∈ attemptLog policy (attempt policy row (.begin now)).after rest, ∀ t,
      ¬x.TripsAt t)
    (htrip' : (attempt policy (attemptRow policy (attempt policy row (.begin now)).after rest)
      (.begin now')).TripsAt now')
    (hday : now' < now + lockoutEscalationMs) :
    lockedUntilOf (attempt policy row (.begin now)).after - now ≤
      lockedUntilOf (attempt policy (attemptRow policy (attempt policy row (.begin now)).after
        rest) (.begin now')).after - now' := by
  obtain ⟨r', hrow', hduration'⟩ := duration_of_trip htrip'
  obtain ⟨r, hrow, hduration⟩ := duration_of_trip htrip
  obtain ⟨-, r₁, hrow₁, hafter⟩ := tripsAt_cases htrip
  obtain rfl : r₁ = r := Option.some.inj (hrow₁.symm.trans hrow)
  rw [hafter] at hbetween hrow'
  obtain ⟨r₂, hkept, hlockouts, hstart⟩ := chain_kept hclear hbetween
  obtain rfl : r₂ = r' := Option.some.inj (hkept.symm.trans hrow')
  rw [hduration, hduration']
  refine lockDurationMs_mono ?_ policy
  -- the chain goes on: the day since the lock before has not passed
  have hpos : 1 ≤ nextOrdinal r₁ now := by
    rw [nextOrdinal]
    split_ifs <;> omega
  have hnext : nextOrdinal r₂ now' = nextOrdinal r₁ now + 1 := by
    rw [nextOrdinal, hlockouts, hstart, tripped, if_neg]
    dsimp only
    omega
  rw [hnext]
  push_cast
  omega

/-- What holds of a throttle over every history of attempts and clears that comes in order. -/
structure LoginThrottled (policy : AttemptPolicy) : Prop where
  /-- From a call on, up to the next reset, the budget bounds the attempts allowed. -/
  budget : ∀ history call period, InOrder (history ++ call :: period) →
    let e := attempt policy (attemptRow policy none history) call
    (∀ x ∈ attemptLog policy e.after period, ¬x.Resets) →
      (e :: attemptLog policy e.after period).countP AttemptEntry.isAllowed ≤ policy.maxFailures
  resets : ∀ history call,
    let e := attempt policy (attemptRow policy none history) call
    e.Resets → call = .clear ∨ ∃ now, e.LapsesAt now ∨ e.TripsAt now
  /-- A window starts at the attempt that starts it. -/
  windowStart : ∀ history call r,
    let e := attempt policy (attemptRow policy none history) call
    e.after = some r → call = .begin r.windowStart ∨
      ∃ r', e.before = some r' ∧ r'.windowStart = r.windowStart
  locked : ∀ history now rest, InOrder (history ++ .begin now :: rest) →
    AttemptCall.clear ∉ rest →
    let e := attempt policy (attemptRow policy none history) (.begin now)
    e.TripsAt now → ∀ x ∈ attemptLog policy e.after rest, ∀ t, x.call = .begin t →
      t < lockedUntilOf e.after → x.verdict = some (.locked (lockedUntilOf e.after - t))
  duration : ∀ history now,
    let e := attempt policy (attemptRow policy none history) (.begin now)
    e.TripsAt now → 0 < lockedUntilOf e.after - now ∧
      lockedUntilOf e.after - now ≤ policy.lockCapMs
  /-- A lock within a day of the lock before it is at least as long. -/
  escalates : ∀ history now rest now', AttemptCall.clear ∉ rest →
    let e := attempt policy (attemptRow policy none history) (.begin now)
    let e' := attempt policy (attemptRow policy e.after rest) (.begin now')
    e.TripsAt now → (∀ x ∈ attemptLog policy e.after rest, ∀ t, ¬x.TripsAt t) →
      e'.TripsAt now' → now' < now + lockoutEscalationMs →
        lockedUntilOf e.after - now ≤ lockedUntilOf e'.after - now'
  noOverflow : ∀ lockOrdinal, lockDurationMs lockOrdinal policy =
    min (policy.lockBaseMs * 2 ^ (max 0 (min (lockOrdinal - 1) 20)).toNat) policy.lockCapMs
  /-- An attempt made as much later as a refusal says is allowed, and none made before. -/
  retryAfter : ∀ history now retryAfter, InOrder (history ++ [.begin now]) →
    let e := attempt policy (attemptRow policy none history) (.begin now)
    e.verdict = some (.locked retryAfter) →
      (attempt policy e.after (.begin (now + retryAfter))).verdict = some .allowed ∧
      ∀ t, t < now + retryAfter → (attempt policy e.after (.begin t)).verdict =
        some (.locked (now + retryAfter - t))

/-- **Login throttling bounds guesses.** -/
theorem login_throttled (policy : AttemptPolicy) : LoginThrottled policy := by
  refine ⟨fun _ _ _ => allowed_le_budget, fun _ _ => resets_cases, fun _ _ _ => windowStart_cases,
    ?_, ?_, fun _ _ _ _ => duration_escalates, fun n => lockDurationMs_eq n policy, ?_⟩
  · intro history now rest horder hclear e htrips
    obtain ⟨-, r, -, hafter⟩ := tripsAt_cases htrips
    rw [hafter]
    rw [List.append_cons] at horder
    exact refused_until (inOrder_right horder) hclear
  · intro history now e htrips
    obtain ⟨r, -, hduration⟩ := duration_of_trip htrips
    rw [hduration]
    exact ⟨lockDurationMs_pos _ _, lockDurationMs_le_cap _ _⟩
  · intro history now retryAfter horder e hlocked
    have hprior : ∀ u ∈ attemptTimes history, u ≤ now := by
      intro u hu
      rw [InOrder, attemptTimes, List.filterMap_append] at horder
      exact (List.pairwise_append.mp horder).2.2 u hu now (by simp)
    have hrow : RowInv policy now _ := rowInv_of_history (inOrder_left horder) hprior
    obtain ⟨r, hafter, hfailures, huntil⟩ := locked_row hrow hlocked
    rw [hafter, ← huntil]
    exact ⟨allowed_at_expiry hfailures, fun t => refused_before⟩
