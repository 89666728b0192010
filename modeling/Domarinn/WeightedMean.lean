/-
Weighted means of which only a part is known.

Items have a weight and a score; a list of them has the mean of its scores, or a default
where it has no weight.  With `done` known and `rem` the weight that can still come, the
mean cannot leave an interval, whatever comes:

* **`worst_le_mean`**, **`mean_le_best`** — it stays between the mean of scores that are
  all `0` from here and the one of scores that are all `1`;
* **`mean_append_weightless`** — items without weight do not move it.
-/
import Mathlib.Algebra.Order.BigOperators.Group.List
import Mathlib.Algebra.Order.Field.Basic
import Mathlib.Tactic.Linarith
import Mathlib.Tactic.Ring
import Mathlib.Tactic.GCongr

namespace WeightedMean

variable {α K : Type} [Field K] [LinearOrder K] [IsStrictOrderedRing K]

/-- The weight of a list. -/
def total (w : α → K) (xs : List α) : K := (xs.map w).sum

/-- The sum of its weighted scores. -/
def mass (w s : α → K) (xs : List α) : K := (xs.map fun x => s x * w x).sum

/-- The weighted mean, or `d` where nothing has weight. -/
def mean (w s : α → K) (d : K) (xs : List α) : K :=
  if total w xs ≤ 0 then d else mass w s xs / total w xs

/-- The mean if `rem` more weight scores `1`. -/
def best (w s : α → K) (xs : List α) (rem : K) : K := (mass w s xs + rem) / (total w xs + rem)

/-- The mean if `rem` more weight scores `0`. -/
def worst (w s : α → K) (xs : List α) (rem : K) : K := mass w s xs / (total w xs + rem)

variable {w s : α → K} {d rem : K} {xs ys : List α}

omit [LinearOrder K] [IsStrictOrderedRing K] in
@[simp] theorem total_append : total w (xs ++ ys) = total w xs + total w ys := by
  simp [total]

omit [LinearOrder K] [IsStrictOrderedRing K] in
@[simp] theorem mass_append : mass w s (xs ++ ys) = mass w s xs + mass w s ys := by
  simp [mass]

/-- Weights that are not negative, and scores between `0` and `1`. -/
def Bounded (w s : α → K) (xs : List α) : Prop := ∀ x ∈ xs, 0 ≤ w x ∧ 0 ≤ s x ∧ s x ≤ 1

theorem total_nonneg (h : Bounded w s xs) : 0 ≤ total w xs := by
  refine List.sum_nonneg fun v hv => ?_
  obtain ⟨x, hx, rfl⟩ := List.mem_map.mp hv
  exact (h x hx).1

theorem mass_nonneg (h : Bounded w s xs) : 0 ≤ mass w s xs := by
  refine List.sum_nonneg fun v hv => ?_
  obtain ⟨x, hx, rfl⟩ := List.mem_map.mp hv
  exact mul_nonneg (h x hx).2.1 (h x hx).1

theorem mass_le_total (h : Bounded w s xs) : mass w s xs ≤ total w xs := by
  refine List.sum_le_sum fun x hx => ?_
  obtain ⟨hw, -, hs⟩ := h x hx
  exact mul_le_of_le_one_left hw hs

/-- Without weight there is no mass. -/
theorem mass_eq_zero (h : Bounded w s xs) (ht : total w xs = 0) : mass w s xs = 0 :=
  le_antisymm (ht ▸ mass_le_total h) (mass_nonneg h)

/-- Items without weight do not move the mean. -/
theorem mean_append_weightless (h : Bounded w s ys) (ht : total w ys = 0) :
    mean w s d (xs ++ ys) = mean w s d xs := by
  rw [mean, mean, total_append, mass_append, ht, mass_eq_zero h ht, add_zero, add_zero]

/-- **The mean stays below the best one**, when at most `rem` more weight comes. -/
theorem mean_le_best (hx : Bounded w s xs) (hy : Bounded w s ys) (hd : d ≤ 1) (hrem : 0 < rem)
    (hle : total w ys ≤ rem) : mean w s d (xs ++ ys) ≤ best w s xs rem := by
  have hmass := mass_le_total hx
  have htotal := total_nonneg hx
  have hpos : 0 < total w xs + rem := by linarith
  rw [mean, best, total_append, mass_append]
  split_ifs with hzero
  · -- nothing has weight yet, so the best mean is `1`
    have ht : total w xs = 0 := by linarith [total_nonneg hy]
    rw [ht, mass_eq_zero hx ht, zero_add, div_self hrem.ne']
    exact hd
  · have hy' := mass_le_total hy
    rw [not_le] at hzero
    rw [div_le_div_iff₀ hzero hpos]
    -- `(m + b) / (t + b)` grows with `b`, because `m ≤ t`
    calc (mass w s xs + mass w s ys) * (total w xs + rem)
        ≤ (mass w s xs + total w ys) * (total w xs + rem) := by gcongr
      _ = (mass w s xs + rem) * (total w xs + total w ys) -
            (total w xs - mass w s xs) * (rem - total w ys) := by ring
      _ ≤ (mass w s xs + rem) * (total w xs + total w ys) := by
        have := mul_nonneg (sub_nonneg.mpr hmass) (sub_nonneg.mpr hle)
        linarith

/-- **The mean stays above the worst one**, when at most `rem` more weight comes. -/
theorem worst_le_mean (hx : Bounded w s xs) (hy : Bounded w s ys) (hd : 0 ≤ d) (hrem : 0 < rem)
    (hle : total w ys ≤ rem) : worst w s xs rem ≤ mean w s d (xs ++ ys) := by
  have htotal := total_nonneg hx
  have hpos : 0 < total w xs + rem := by linarith
  rw [mean, worst, total_append, mass_append]
  split_ifs with hzero
  · have ht : total w xs = 0 := by linarith [total_nonneg hy]
    rw [mass_eq_zero hx ht, zero_div]
    exact hd
  · rw [not_le] at hzero
    rw [div_le_div_iff₀ hpos hzero]
    calc mass w s xs * (total w xs + total w ys)
        ≤ (mass w s xs + mass w s ys) * (total w xs + rem) := by
          have := mass_nonneg hx
          have := mass_nonneg hy
          gcongr
          linarith

end WeightedMean
