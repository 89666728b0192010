/-
A bucket of tokens that refills as time passes, and is brought up to date only when it is used.

Each use says what time it is.  Times need not be in order: a time before the last one refills
nothing, and is remembered as the last one all the same.

* **`granted_le_forward`** — what is granted was in the bucket, or came in while the times moved
  forward;
* **`granted_le_span`** — times in order: no more than the capacity, and what comes in from the
  first to the last.
-/
import Mathlib.Algebra.Order.Field.Basic
import Mathlib.Tactic.Linarith
import Mathlib.Tactic.Ring

namespace Refill

variable {K : Type*}

structure Bucket (K : Type*) where
  tokens : K
  last : K

variable [Field K] [LinearOrder K]

section
variable (rate capacity : K)

/-- The tokens at a time. -/
def level (b : Bucket K) (now : K) : K := min (b.tokens + max (now - b.last) 0 * rate) capacity

/-- A token is taken if there is one. -/
def spend (b : Bucket K) (now : K) : Bool × Bucket K :=
  if 1 ≤ level rate capacity b now then (true, ⟨level rate capacity b now - 1, now⟩)
  else (false, ⟨level rate capacity b now, now⟩)

/-- How many of the uses at these times get a token. -/
def granted : Bucket K → List K → ℕ
  | _, [] => 0
  | b, now :: times =>
    (spend rate capacity b now).1.toNat + granted (spend rate capacity b now).2 times

end

/-- How far the times move forward in all. -/
def forward : K → List K → K
  | _, [] => 0
  | last, now :: times => max (now - last) 0 + forward now times

section
variable [IsStrictOrderedRing K] {rate capacity : K} {b : Bucket K} {now : K}

theorem level_le (rate capacity : K) (b : Bucket K) (now : K) :
    level rate capacity b now ≤ capacity := min_le_right _ _

theorem level_nonneg (hrate : 0 ≤ rate) (hcapacity : 0 ≤ capacity) (hb : 0 ≤ b.tokens) :
    0 ≤ level rate capacity b now :=
  le_min (add_nonneg hb (mul_nonneg (le_max_right _ _) hrate)) hcapacity

/-- A full bucket stays full. -/
theorem level_full (hrate : 0 ≤ rate) (hb : capacity ≤ b.tokens) :
    level rate capacity b now = capacity :=
  min_eq_right (hb.trans (le_add_of_nonneg_right (mul_nonneg (le_max_right _ _) hrate)))

/-- A token is granted out of the level, and what is left of it stays. -/
theorem spend_spec (rate capacity : K) (b : Bucket K) (now : K) :
    ((spend rate capacity b now).1.toNat : K) + (spend rate capacity b now).2.tokens =
      level rate capacity b now := by
  rw [spend]
  split_ifs
  · simp
  · simp

@[simp] theorem spend_last : (spend rate capacity b now).2.last = now := by
  rw [spend]
  split_ifs <;> rfl

theorem spend_nonneg (hrate : 0 ≤ rate) (hcapacity : 0 ≤ capacity) (hb : 0 ≤ b.tokens) :
    0 ≤ (spend rate capacity b now).2.tokens := by
  rw [spend]
  split_ifs with hlevel
  · exact sub_nonneg.mpr hlevel
  · exact level_nonneg hrate hcapacity hb

/-- **What is granted** was in the bucket, or came in while the times moved forward. -/
theorem granted_le_forward (hrate : 0 ≤ rate) (hcapacity : 0 ≤ capacity) (times : List K) :
    ∀ b : Bucket K, 0 ≤ b.tokens →
      (granted rate capacity b times : K) ≤ b.tokens + rate * forward b.last times := by
  induction times with
  | nil =>
    intro b hb
    simpa [granted, forward] using hb
  | cons now times ih =>
    intro b hb
    have hrest := ih (spend rate capacity b now).2 (spend_nonneg hrate hcapacity hb)
    have hspend := spend_spec rate capacity b now
    have hlevel : level rate capacity b now ≤ b.tokens + max (now - b.last) 0 * rate :=
      min_le_left _ _
    rw [spend_last] at hrest
    rw [granted, Nat.cast_add, forward]
    linarith

/-- However full the bucket was, its capacity and what came in since bound what is granted. -/
theorem granted_le_capacity (hrate : 0 ≤ rate) (hcapacity : 0 ≤ capacity) (hb : 0 ≤ b.tokens)
    (now : K) (times : List K) : (granted rate capacity b (now :: times) : K) ≤
      capacity + rate * forward now times := by
  have hrest := granted_le_forward hrate hcapacity times (spend rate capacity b now).2
    (spend_nonneg hrate hcapacity hb)
  have hspend := spend_spec rate capacity b now
  have hlevel := level_le rate capacity b now
  rw [spend_last] at hrest
  rw [granted, Nat.cast_add]
  linarith

/-- Times in order move forward from the first to the last. -/
theorem forward_le {hi : K} : ∀ {times : List K} {last : K}, (last :: times).Pairwise (· ≤ ·) →
    (∀ t ∈ last :: times, t ≤ hi) → forward last times ≤ hi - last
  | [], last, _, hhi => by
    rw [forward]
    exact sub_nonneg.mpr (hhi last List.mem_cons_self)
  | now :: times, last, hordered, hhi => by
    obtain ⟨hlast, hordered⟩ := List.pairwise_cons.mp hordered
    have hrest := forward_le hordered fun t ht => hhi t (List.mem_cons_of_mem last ht)
    have hstep := hlast now List.mem_cons_self
    rw [forward, max_eq_left (sub_nonneg.mpr hstep)]
    linarith

/-- **Times in order**: the capacity, and what comes in from the first to the last. -/
theorem granted_le_span (hrate : 0 ≤ rate) (hcapacity : 0 ≤ capacity) (hb : 0 ≤ b.tokens)
    {lo hi : K} (hspan : lo ≤ hi) {times : List K} (hordered : times.Pairwise (· ≤ ·))
    (hbetween : ∀ t ∈ times, lo ≤ t ∧ t ≤ hi) :
    (granted rate capacity b times : K) ≤ capacity + rate * (hi - lo) := by
  cases times with
  | nil =>
    rw [granted, Nat.cast_zero]
    exact add_nonneg hcapacity (mul_nonneg hrate (sub_nonneg.mpr hspan))
  | cons now times =>
    have hgranted := granted_le_capacity hrate hcapacity hb now times
    have hforward : forward now times ≤ hi - now :=
      forward_le hordered fun t ht => (hbetween t ht).2
    have hlo := (hbetween now List.mem_cons_self).1
    calc (granted rate capacity b (now :: times) : K)
        ≤ capacity + rate * forward now times := hgranted
      _ ≤ capacity + rate * (hi - lo) :=
        (add_le_add_iff_left capacity).mpr (mul_le_mul_of_nonneg_left (by linarith) hrate)

/-- A bucket that is waited for has a token. -/
theorem one_le_level (hrate : 0 < rate) (hcapacity : 1 ≤ capacity)
    (hwait : (1 - b.tokens) / rate ≤ now - b.last) (hb : b.tokens ≤ 1) :
    1 ≤ level rate capacity b now := by
  refine le_min ?_ hcapacity
  have hpassed : 0 ≤ now - b.last :=
    (div_nonneg (sub_nonneg.mpr hb) hrate.le).trans hwait
  have hfilled : 1 - b.tokens ≤ (now - b.last) * rate := (div_le_iff₀ hrate).mp hwait
  rw [max_eq_left hpassed]
  linarith

end

end Refill
