/-
Statistics over the counts of runs.

* **`mcnemar_swap`** — exchanging regressions and fixes changes neither the statistic nor the
  verdict.
-/
import Domarinn.Types
import Mathlib.Algebra.Order.Ring.Rat

/-- McNemar's test: the regressions `b`, the fixes `c`, and what they amount to. -/
structure McNemar where
  b : ℕ
  c : ℕ
  statistic : ℚ
  significant : Bool

/-- `mcnemar`, with continuity correction. -/
def mcnemar (b c : ℕ) : McNemar :=
  let excess : ℚ := max (|(b : ℚ) - c| - 1) 0
  let statistic : ℚ := if b + c = 0 then 0 else excess ^ 2 / (b + c)
  { b := b
    c := c
    statistic := statistic
    significant := decide ((3841 : ℚ) / 1000 < statistic) }

theorem mcnemar_swap (b c : ℕ) :
    mcnemar c b = { mcnemar b c with b := c, c := b } := by
  unfold mcnemar
  simp only [abs_sub_comm (c : ℚ) b, add_comm c b, add_comm (c : ℚ) b]

/-- The counts and the rate of a `PassRate`. -/
structure PassRate where
  passed : ℕ
  total : ℕ
  rate : ℚ

/-- `wilson`, up to its interval. -/
def wilson (passed total : ℕ) : PassRate where
  passed := passed
  total := total
  rate := if total = 0 then 0 else passed / total
