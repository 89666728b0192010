/-
Pruning the counters that throttle password guesses.

A row says when its key is locked until, how much of its window is used, and how long its chain
of locks is; each of the three is forgotten in its own time.  A row that says nothing any more
can be deleted, for a key without a row is treated like it.

* **`beginAttempt_remembers`** — an attempt reads and leaves what a row says, and no more;
* **`dead_iff_blank`** — a row is pruned where it says as much as no row;
* **`prune_keeps_verdicts`** — so pruning, whenever it runs, changes no verdict.

Limits and times are arbitrary here.  Sums of times in the program wrap around at 64 bits;
those in the statements are exact.
-/
import Domarinn.LoginAttempts
import Mathlib.Data.List.AList

/-! ### An attempt under any limits -/

/-- The limits of a throttle, with nothing said about them. -/
structure AttemptLimits where
  maxFailures : ℤ
  lockBaseMs : ℤ
  lockCapMs : ℤ

/-- The limits of a policy. -/
def AttemptPolicy.limits (policy : AttemptPolicy) : AttemptLimits :=
  ⟨policy.maxFailures, policy.lockBaseMs, policy.lockCapMs⟩

/-- `lock_duration_ms`. -/
def AttemptLimits.lockDurationMs (limits : AttemptLimits) (lockOrdinal : ℤ) : ℤ :=
  let shift := (max 0 (min (lockOrdinal - 1) 20)).toNat
  min (saturatingMul limits.lockBaseMs (2 ^ shift)) limits.lockCapMs

/-- When the lock of an attempt ends, by its position in the chain. -/
def AttemptLimits.lockUntil (limits : AttemptLimits) (now : ℤ) (ordinal : ℕ) : ℤ :=
  (now + limits.lockDurationMs ordinal).bmod (2 ^ 64)

/-- What is answered while a key is locked. -/
def lockedVerdict (until_ now : ℤ) : AttemptVerdict := .locked ((until_ - now).bmod (2 ^ 64))

/-- The row that a lock leaves. -/
def lockedRow (until_ now : ℤ) (ordinal : ℕ) : AttemptRow where
  failures := 0
  windowStart := now
  lockedUntil := until_
  lockouts := ordinal
  lockoutWindowStart := now

/-- `begin_login_attempt`, on the row of the key. -/
def beginAttempt (limits : AttemptLimits) (row : Option AttemptRow) (now : ℤ) :
    AttemptRow × AttemptVerdict :=
  let r := reserve row now
  if r.lockedUntil > now then (r, lockedVerdict r.lockedUntil now)
  else if r.failures ≤ limits.maxFailures then (r, .allowed)
  else
    let until_ := limits.lockUntil now (nextOrdinal r now)
    (lockedRow until_ now (nextOrdinal r now), lockedVerdict until_ now)

theorem bmod_eq_self {n : ℤ} (hlo : i64Min ≤ n) (hhi : n ≤ i64Max) : n.bmod (2 ^ 64) = n := by
  have hmin : i64Min = -2 ^ 63 := rfl
  have hmax : i64Max = 2 ^ 63 - 1 := rfl
  refine Int.bmod_eq_of_le ?_ ?_
  · rw [hmin] at hlo
    exact le_trans (by decide) hlo
  · rw [hmax] at hhi
    exact lt_of_le_of_lt hhi (by decide)

/-- Where no sum leaves the range of 64 bits, this is the throttle of a policy. -/
theorem beginAttempt_limits (policy : AttemptPolicy) {row : Option AttemptRow} {now : ℤ}
    (hnow : 0 ≤ now) (hfits : now + policy.lockCapMs ≤ i64Max)
    (hrow : ∀ r, row = some r → r.lockedUntil ≤ i64Max) :
    beginAttempt policy.limits row now = beginLoginAttempt policy row now := by
  have hmin : i64Min ≤ 0 := by decide
  have hmax : 0 ≤ i64Max := by decide
  have huntil : (reserve row now).lockedUntil ≤ i64Max := by
    cases row with
    | none => exact hmax
    | some r => exact hrow r rfl
  have hlock : policy.limits.lockUntil now (nextOrdinal (reserve row now) now) =
      now + lockDurationMs (nextOrdinal (reserve row now) now) policy := by
    have hpos := lockDurationMs_pos (nextOrdinal (reserve row now) now) policy
    have hcap := lockDurationMs_le_cap (nextOrdinal (reserve row now) now) policy
    have hsame : policy.limits.lockDurationMs (nextOrdinal (reserve row now) now) =
        lockDurationMs (nextOrdinal (reserve row now) now) policy := rfl
    rw [AttemptLimits.lockUntil, hsame]
    exact bmod_eq_self (by omega) (by omega)
  rw [beginAttempt, beginLoginAttempt, hlock]
  simp only [AttemptPolicy.limits, Nat.cast_le]
  split_ifs with hlocked hroom
  · rw [lockedVerdict, bmod_eq_self (by omega) (by omega)]
  · rfl
  · have hpos := lockDurationMs_pos (nextOrdinal (reserve row now) now) policy
    have hcap := lockDurationMs_le_cap (nextOrdinal (reserve row now) now) policy
    rw [lockedVerdict, bmod_eq_self (by omega) (by omega)]
    rfl

/-! ### The table -/

/-- The rows of `login_attempts`, by key. -/
abbrev AttemptTable := AList fun _ : String => AttemptRow

/-- What happens to the table. -/
inductive ThrottleCall where
  | begin (key : String) (limits : AttemptLimits)
  | clear (key : String)
  | prune

/-- The condition of `prune_login_attempts`: the row is not locked, its window has lapsed, and its
chain is over. -/
def Dead (now : ℤ) (r : AttemptRow) : Prop :=
  r.lockedUntil ≤ now ∧ r.windowStart + attemptWindowMs ≤ now ∧
    (r.lockouts = 0 ∨ r.lockoutWindowStart + lockoutEscalationMs ≤ now)

instance (now : ℤ) : DecidablePred (Dead now) := fun _ => inferInstanceAs (Decidable (_ ∧ _))

/-- `prune_login_attempts`: what is left, and how many rows were deleted. -/
def pruneLoginAttempts (t : AttemptTable) (now : ℤ) : AttemptTable × ℕ :=
  (⟨t.entries.filter fun e => ¬ Dead now e.2, t.nodupKeys.sublist List.filter_sublist⟩,
    (t.entries.filter fun e => Dead now e.2).length)

/-- One call at a time: the table after it, and what is answered to an attempt. -/
def throttleStep (t : AttemptTable) (now : ℤ) : ThrottleCall → AttemptTable × Option AttemptVerdict
  | .begin key limits =>
    let (r, verdict) := beginAttempt limits (t.lookup key) now
    (t.insert key r, some verdict)
  | .clear key => (t.erase key, none)
  | .prune => ((pruneLoginAttempts t now).1, none)

/-- The verdicts of a sequence of calls, each with its time. -/
def verdicts (t : AttemptTable) : List (ℤ × ThrottleCall) → List AttemptVerdict
  | [] => []
  | (now, call) :: calls =>
    (throttleStep t now call).2.toList ++ verdicts (throttleStep t now call).1 calls

/-- The same calls without the prunes. -/
def unpruned (calls : List (ℤ × ThrottleCall)) : List (ℤ × ThrottleCall) :=
  calls.filter fun call => match call.2 with
    | .prune => false
    | _ => true

/-- The calls come at non-decreasing times. -/
def CallsInOrder (calls : List (ℤ × ThrottleCall)) : Prop := (calls.map Prod.fst).Pairwise (· ≤ ·)

/-! ### What a throttle remembers -/

/-- What is known of a key: when its lock ends, its window and the attempts in it, its last lock
and how long the chain is. -/
structure Memory where
  lock : Option ℤ
  window : Option (ℤ × ℕ)
  chain : Option (ℤ × ℕ)
deriving DecidableEq

namespace Memory

/-- Nothing is known. -/
def blank : Memory := ⟨none, none, none⟩

/-- What is still of consequence at a time. -/
def asOf (m : Memory) (now : ℤ) : Memory where
  lock := m.lock.filter fun until_ => now < until_
  window := m.window.filter fun w => now < w.1 + attemptWindowMs
  chain := m.chain.filter fun c => now < c.1 + lockoutEscalationMs

/-- The position of the next lock. -/
def ordinal (m : Memory) : ℕ := m.chain.elim 1 fun c => c.2 + 1

/-- The window that an attempt is counted in, with the attempt. -/
def counted (m : Memory) (now : ℤ) : ℤ × ℕ := m.window.elim (now, 1) fun w => (w.1, w.2 + 1)

/-- An attempt, as far as it concerns what is remembered. -/
def attempt (limits : AttemptLimits) (m : Memory) (now : ℤ) : Memory × AttemptVerdict :=
  match m.lock with
  | some until_ => (m, lockedVerdict until_ now)
  | none =>
    if (m.counted now).2 ≤ limits.maxFailures then
      ({ m with window := some (m.counted now) }, .allowed)
    else
      let until_ := limits.lockUntil now m.ordinal
      (⟨some until_, some (now, 0), some (now, m.ordinal)⟩, lockedVerdict until_ now)

end Memory

/-- All that a row says. -/
def AttemptRow.memory (r : AttemptRow) : Memory where
  lock := some r.lockedUntil
  window := some (r.windowStart, r.failures)
  chain := if r.lockouts = 0 then none else some (r.lockoutWindowStart, r.lockouts)

/-- What is remembered of a key at a time. -/
def remembered (row : Option AttemptRow) (now : ℤ) : Memory :=
  ((row.map AttemptRow.memory).getD .blank).asOf now

/-! ### An attempt reads what is remembered -/

namespace Memory

theorem asOf_asOf {m : Memory} {t now : ℤ} (h : t ≤ now) : (m.asOf t).asOf now = m.asOf now := by
  -- what is of consequence later is so now
  have hlater : ∀ a : ℤ, (decide (t < a) && decide (now < a)) = decide (now < a) := by
    intro a
    rw [← Bool.decide_and]
    exact decide_eq_decide.mpr (and_iff_right_of_imp h.trans_lt)
  simp only [asOf, Option.filter_filter, hlater]

@[simp] theorem blank_asOf {now : ℤ} : blank.asOf now = blank := rfl

end Memory

section
variable {row : Option AttemptRow} {r : AttemptRow} {now : ℤ}

theorem remembered_none : remembered none now = .blank := rfl

theorem remembered_lock_of_locked (h : now < r.lockedUntil) :
    (remembered (some r) now).lock = some r.lockedUntil := by
  simp [remembered, Memory.asOf, AttemptRow.memory, h]

theorem remembered_lock_of_unlocked (h : r.lockedUntil ≤ now) :
    (remembered (some r) now).lock = none := by
  simp [remembered, Memory.asOf, AttemptRow.memory, h]

/-- The position of the next lock is remembered. -/
theorem ordinal_remembered : (remembered (some r) now).ordinal = nextOrdinal r now := by
  rw [nextOrdinal, remembered, Memory.ordinal]
  by_cases hnone : r.lockouts = 0
  · simp [Memory.asOf, AttemptRow.memory, hnone]
  · by_cases hover : r.lockoutWindowStart + lockoutEscalationMs ≤ now
    · simp [Memory.asOf, AttemptRow.memory, Option.filter_some, hnone, hover, not_lt.mpr hover]
    · simp [Memory.asOf, AttemptRow.memory, Option.filter_some, hnone, hover, not_le.mp hover]

/-- An attempt on a locked key leaves its row. -/
theorem reserve_locked (h : now < r.lockedUntil) : reserve (some r) now = r := by
  simp [reserve, h, not_le.mpr h]

/-- Any other is counted in its window, and changes nothing else. -/
theorem reserve_unlocked (h : r.lockedUntil ≤ now) :
    reserve (some r) now =
      { r with
        windowStart := ((remembered (some r) now).counted now).1
        failures := ((remembered (some r) now).counted now).2 } := by
  rw [reserve, Memory.counted, remembered]
  by_cases hover : r.windowStart + attemptWindowMs ≤ now
  · simp [Memory.asOf, AttemptRow.memory, Option.filter_some, h, not_lt.mpr h, hover,
      not_lt.mpr hover]
  · simp [Memory.asOf, AttemptRow.memory, Option.filter_some, not_lt.mpr h, hover, not_le.mp hover]

/-- The window of an attempt is open. -/
theorem counted_open : now < ((remembered row now).counted now).1 + attemptWindowMs := by
  rw [Memory.counted]
  cases hwindow : (remembered row now).window with
  | none => exact lt_add_of_pos_right now (by decide)
  | some w =>
    rw [remembered, Memory.asOf, Option.filter_eq_some_iff] at hwindow
    exact of_decide_eq_true hwindow.2

end

/-- The row of an attempt that was counted, or made. -/
structure Counts (row : Option AttemptRow) (now : ℤ) (r : AttemptRow) : Prop where
  unlocked : r.lockedUntil ≤ now
  window : (r.windowStart, r.failures) = (remembered row now).counted now
  chain : (remembered (some r) now).chain = (remembered row now).chain
  lock : (remembered row now).lock = none

theorem counts_none {now : ℤ} (hnow : 0 ≤ now) : Counts none now (reserve none now) where
  unlocked := hnow
  window := rfl
  chain := rfl
  lock := rfl

theorem counts_some {r : AttemptRow} {now : ℤ} (h : r.lockedUntil ≤ now) :
    Counts (some r) now (reserve (some r) now) := by
  rw [reserve_unlocked h]
  exact ⟨h, rfl, rfl, remembered_lock_of_unlocked h⟩

section
variable {row : Option AttemptRow} {now : ℤ}

theorem Counts.remembered_eq {r : AttemptRow} (h : Counts row now r) :
    remembered (some r) now =
      ⟨none, some ((remembered row now).counted now), (remembered row now).chain⟩ := by
  have hopen : now < r.windowStart + attemptWindowMs := by
    have hcounted := @counted_open row now
    rwa [← h.window] at hcounted
  have hwindow : (remembered (some r) now).window = some ((remembered row now).counted now) := by
    rw [← h.window]
    simp [remembered, Memory.asOf, AttemptRow.memory, hopen]
  rw [← hwindow, ← remembered_lock_of_unlocked h.unlocked, ← h.chain]

theorem ordinal_ne_zero (m : Memory) : m.ordinal ≠ 0 := by
  rw [Memory.ordinal]
  cases m.chain with
  | none => exact Nat.one_ne_zero
  | some c => exact Nat.succ_ne_zero c.2

/-- The row that a lock leaves says when it ends, and that it is the last of the chain. -/
theorem memory_lockedRow {until_ : ℤ} {ordinal : ℕ} (h : ordinal ≠ 0) :
    (lockedRow until_ now ordinal).memory =
      ⟨some until_, some (now, 0), some (now, ordinal)⟩ := by
  rw [AttemptRow.memory, lockedRow]
  exact congrArg (Memory.mk _ _) (if_neg h)

/-- Where an attempt is counted, it is decided by what is remembered, and so is what is left. -/
theorem Counts.attempt {limits : AttemptLimits} (h : Counts row now (reserve row now)) :
    (remembered (some (beginAttempt limits row now).1) now, (beginAttempt limits row now).2) =
      (((remembered row now).attempt limits now).1.asOf now,
        ((remembered row now).attempt limits now).2) := by
  have hkept := h.remembered_eq
  have hfailures : (reserve row now).failures = ((remembered row now).counted now).2 :=
    congrArg Prod.snd h.window
  have hordinal : nextOrdinal (reserve row now) now = (remembered row now).ordinal := by
    rw [← ordinal_remembered, Memory.ordinal, Memory.ordinal, h.chain]
  rw [beginAttempt, if_neg (not_lt.mpr h.unlocked), hfailures, hordinal, Memory.attempt]
  simp only [h.lock]
  split_ifs with hroom
  · -- what is remembered at this time is so already
    have hagain : (remembered (some (reserve row now)) now).asOf now =
        remembered (some (reserve row now)) now := Memory.asOf_asOf le_rfl
    rw [hkept] at hagain
    rw [hkept, hagain]
  · rw [remembered, Option.map_some, Option.getD_some, memory_lockedRow (ordinal_ne_zero _)]

end

/-- **An attempt on a locked key**, or one that is counted. -/
theorem beginAttempt_remembers {now : ℤ} (hnow : 0 ≤ now) (limits : AttemptLimits)
    (row : Option AttemptRow) :
    (remembered (some (beginAttempt limits row now).1) now, (beginAttempt limits row now).2) =
      (((remembered row now).attempt limits now).1.asOf now,
        ((remembered row now).attempt limits now).2) := by
  cases row with
  | none => exact (counts_none hnow).attempt
  | some r =>
    obtain hunlocked | hlocked := le_or_gt r.lockedUntil now
    · exact (counts_some hunlocked).attempt
    · have hlock := remembered_lock_of_locked hlocked
      rw [beginAttempt, reserve_locked hlocked, if_pos hlocked, Memory.attempt]
      simp only [hlock]
      rw [remembered, Memory.asOf_asOf le_rfl]

/-! ### Pruning deletes what says nothing -/

/-- **A row is pruned** where it says as much as no row. -/
theorem dead_iff_blank {r : AttemptRow} {now : ℤ} :
    Dead now r ↔ remembered (some r) now = .blank := by
  have hblank : remembered (some r) now = .blank ↔ (remembered (some r) now).lock = none ∧
      (remembered (some r) now).window = none ∧ (remembered (some r) now).chain = none := by
    rw [Memory.blank, Memory.mk.injEq]
  rw [hblank, Dead]
  refine and_congr ?_ (and_congr ?_ ?_)
  · simp [remembered, Memory.asOf, AttemptRow.memory]
  · simp [remembered, Memory.asOf, AttemptRow.memory]
  · by_cases hnone : r.lockouts = 0
    · simp [remembered, Memory.asOf, AttemptRow.memory, hnone]
    · simp [remembered, Memory.asOf, AttemptRow.memory, hnone]

/-- A prune deletes a row from its key, and leaves the others. -/
theorem lookup_prune {t : AttemptTable} {now : ℤ} {key : String} :
    (pruneLoginAttempts t now).1.lookup key =
      (t.lookup key).filter fun r => ¬ Dead now r := by
  refine Option.ext fun r => ?_
  rw [← Option.mem_def, AList.mem_lookup_iff, Option.filter_eq_some_iff, ← Option.mem_def,
    AList.mem_lookup_iff]
  exact List.mem_filter

/-- What is remembered of a key is not changed by a prune. -/
theorem remembered_prune {t : AttemptTable} {now : ℤ} {key : String} :
    remembered ((pruneLoginAttempts t now).1.lookup key) now = remembered (t.lookup key) now := by
  rw [lookup_prune]
  cases hrow : t.lookup key with
  | none => rfl
  | some r =>
    by_cases hdead : Dead now r
    · rw [Option.filter_some, if_neg (by simpa using hdead), dead_iff_blank.mp hdead]
      rfl
    · rw [Option.filter_some, if_pos (by simpa using hdead)]

/-! ### Two tables side by side -/

/-- A table and the same with some prunes: they are remembered alike, and before time zero,
while the rows are locked by their default, they are the same. -/
structure Alike (now : ℤ) (t u : AttemptTable) : Prop where
  remembered_eq : 0 ≤ now → ∀ key, remembered (t.lookup key) now = remembered (u.lookup key) now
  early : now < 0 → t = u ∧ ∀ key, ∀ r ∈ t.lookup key, r.lockedUntil = 0

namespace Alike
variable {now : ℤ} {t u : AttemptTable}

theorem later (h : Alike now t u) {now' : ℤ} (hle : now ≤ now') : Alike now' t u := by
  refine ⟨fun hnow' key => ?_, fun hnow' => h.early (hle.trans_lt hnow')⟩
  obtain hneg | hnow := lt_or_ge now 0
  · rw [(h.early hneg).1]
  · have heq := congrArg (fun m => m.asOf now') (h.remembered_eq hnow key)
    rwa [remembered, remembered, Memory.asOf_asOf hle, Memory.asOf_asOf hle] at heq

/-- A prune of the second table, which before time zero deletes nothing. -/
theorem prune (h : Alike now t u) : Alike now t (pruneLoginAttempts u now).1 := by
  refine ⟨fun hnow key => ?_, fun hneg => ?_⟩
  · rw [remembered_prune, h.remembered_eq hnow key]
  · obtain ⟨rfl, hzero⟩ := h.early hneg
    refine ⟨?_, hzero⟩
    have hkept : t.entries.filter (fun e => ¬ Dead now e.2) = t.entries := by
      refine List.filter_eq_self.mpr fun e he => decide_eq_true fun hdead => ?_
      have hlock := hzero e.1 e.2 (AList.mem_lookup_iff.mpr he)
      exact absurd (hlock ▸ hdead.1) (not_le.mpr hneg)
    exact AList.ext hkept.symm

theorem clear (h : Alike now t u) (key : String) : Alike now (t.erase key) (u.erase key) := by
  refine ⟨fun hnow key' => ?_, fun hneg => ?_⟩
  · obtain rfl | hne := eq_or_ne key' key
    · rw [AList.lookup_erase, AList.lookup_erase]
    · rw [AList.lookup_erase_ne hne, AList.lookup_erase_ne hne]
      exact h.remembered_eq hnow key'
  · obtain ⟨rfl, hzero⟩ := h.early hneg
    refine ⟨rfl, fun key' r hr => ?_⟩
    obtain rfl | hne := eq_or_ne key' key
    · rw [AList.lookup_erase] at hr
      cases hr
    · rw [AList.lookup_erase_ne hne] at hr
      exact hzero key' r hr

/-- An attempt is decided alike on both, and leaves them alike. -/
theorem begin (h : Alike now t u) (key : String) (limits : AttemptLimits) :
    (throttleStep t now (.begin key limits)).2 = (throttleStep u now (.begin key limits)).2 ∧
      Alike now (throttleStep t now (.begin key limits)).1
        (throttleStep u now (.begin key limits)).1 := by
  obtain hneg | hnow := lt_or_ge now 0
  · -- every attempt is refused
    obtain ⟨rfl, hzero⟩ := h.early hneg
    refine ⟨rfl, fun hnow => absurd hneg (not_lt.mpr hnow), fun _ => ⟨rfl, fun key' r hr => ?_⟩⟩
    obtain rfl | hne := eq_or_ne key' key
    · have hreserved : (reserve (t.lookup key') now).lockedUntil = 0 := by
        cases hrow : t.lookup key' with
        | none => rfl
        | some r => exact hzero key' r hrow
      have hlocked : (reserve (t.lookup key') now).lockedUntil > now := hreserved ▸ hneg
      simp only [throttleStep, AList.lookup_insert, beginAttempt, if_pos hlocked,
        Option.mem_some_iff] at hr
      exact hr ▸ hreserved
    · rw [throttleStep, AList.lookup_insert_ne hne] at hr
      exact hzero key' r hr
  · have hsame := beginAttempt_remembers hnow limits (t.lookup key)
    rw [h.remembered_eq hnow key, ← beginAttempt_remembers hnow limits, Prod.mk.injEq] at hsame
    refine ⟨congrArg some hsame.2, fun _ key' => ?_, fun hneg => absurd hneg (not_lt.mpr hnow)⟩
    obtain rfl | hne := eq_or_ne key' key
    · rw [throttleStep, throttleStep, AList.lookup_insert, AList.lookup_insert]
      exact hsame.1
    · rw [throttleStep, throttleStep, AList.lookup_insert_ne hne, AList.lookup_insert_ne hne]
      exact h.remembered_eq hnow key'

end Alike

/-! ### Whole sequences -/

theorem alike_verdicts {calls : List (ℤ × ThrottleCall)} (horder : CallsInOrder calls) {now : ℤ}
    (hafter : ∀ call ∈ calls, now ≤ call.1) {t u : AttemptTable} (h : Alike now t u) :
    verdicts t (unpruned calls) = verdicts u calls := by
  induction calls generalizing now t u with
  | nil => rfl
  | cons call calls ih =>
    obtain ⟨time, call⟩ := call
    rw [CallsInOrder, List.map_cons, List.pairwise_cons] at horder
    have hrest : ∀ later ∈ calls, time ≤ later.1 := fun later hlater =>
      horder.1 _ (List.mem_map_of_mem hlater)
    have hnow : Alike time t u := h.later (hafter (time, call) List.mem_cons_self)
    cases call with
    | begin key limits =>
      obtain ⟨hverdict, halike⟩ := hnow.begin key limits
      show (throttleStep t time _).2.toList ++ verdicts _ (unpruned calls) = _
      rw [ih horder.2 hrest halike, hverdict]
      rfl
    | clear key => exact ih horder.2 hrest (hnow.clear key)
    | prune => exact ih horder.2 hrest hnow.prune

/-- **Pruning changes no verdict**, whenever it runs. -/
theorem prune_keeps_verdicts (calls : List (ℤ × ThrottleCall)) (horder : CallsInOrder calls) :
    verdicts ∅ calls = verdicts ∅ (unpruned calls) := by
  cases calls with
  | nil => rfl
  | cons call calls =>
    have hempty : Alike call.1 (∅ : AttemptTable) ∅ :=
      ⟨fun _ _ => rfl, fun _ => ⟨rfl, fun _ _ hr => nomatch hr⟩⟩
    refine (alike_verdicts horder (fun later hlater => ?_) hempty).symm
    obtain rfl | hlater := List.mem_cons.mp hlater
    · exact le_rfl
    · exact (List.pairwise_cons.mp horder).1 _ (List.mem_map_of_mem hlater)

/-- One attempt a window: a lock trips, is pruned in vain while its chain lasts, and later not. -/
def throttledDays : List (ℤ × ThrottleCall) :=
  let limits : AttemptLimits := ⟨1, 1000, 4000⟩
  [(0, .begin "k" limits), (1, .begin "k" limits), (2000000, .prune),
    (2000001, .begin "k" limits), (2000002, .begin "k" limits), (100000000, .prune),
    (100000000, .begin "k" limits), (100000001, .begin "k" limits)]

theorem throttledDays_pruned :
    verdicts ∅ throttledDays = verdicts ∅ (unpruned throttledDays) ∧
      verdicts ∅ throttledDays = [.allowed, .locked 1000, .allowed, .locked 2000, .allowed,
        .locked 1000] :=
  ⟨prune_keeps_verdicts throttledDays (by unfold CallsInOrder; decide), by decide⟩
