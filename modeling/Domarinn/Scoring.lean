/-
From the outcomes of single asserts to the verdict of a case.

`caseVerdict` compares the weighted mean with the test's threshold, or asks every assert
to pass when there is none.  `remainingCanChangeOutcome` is asked before the graded asserts
run: can they still change that verdict?

* **`verdict_decided`** — when it answers no although some weight remains, the verdict is
  the same whatever the remaining asserts score;
* **`canChange_iff`** — and when some weight remains that is all it says no to: it answers
  yes exactly when one way of scoring the rest passes the case and another fails it;
* **`verdict_weightless`** — when no weight remains a threshold's verdict is fixed, but
  without a threshold the remaining asserts must pass like any other.
-/
import Domarinn.WeightedMean
import Mathlib.Data.Rat.Defs
import Mathlib.Algebra.Order.Ring.Rat

open WeightedMean

/-- A scored assert outcome. -/
structure Scored where
  weight : ℚ
  score : ℚ
  passed : Bool
deriving DecidableEq

/-- The verdict for a whole case. -/
structure CaseVerdict where
  passed : Bool
  score : ℚ
deriving DecidableEq

/-- `weighted_mean`: `1` when there are no asserts. -/
def weightedMean (scored : List Scored) : ℚ :=
  let totalWeight := (scored.map Scored.weight).sum
  if totalWeight ≤ 0 then 1
  else (scored.map fun s => s.score * s.weight).sum / totalWeight

/-- `case_verdict`. -/
def caseVerdict (scored : List Scored) (threshold : Option ℚ) : CaseVerdict :=
  let score := weightedMean scored
  let passed := match threshold with
    | some t => decide (score ≥ t)
    | none => scored.all Scored.passed
  ⟨passed, score⟩

/-- `remaining_can_change_outcome`: could asserts of this weight still change the outcome? -/
def remainingCanChangeOutcome (scoredSoFar : List Scored) (remainingWeight : ℚ)
    (threshold : Option ℚ) : Bool :=
  if remainingWeight ≤ 0 then false
  else match threshold with
    -- all must pass: a failure so far decides the case
    | none => scoredSoFar.all Scored.passed
    | some t =>
      let doneWeight := (scoredSoFar.map Scored.weight).sum
      let doneSum := (scoredSoFar.map fun s => s.score * s.weight).sum
      let totalWeight := doneWeight + remainingWeight
      let best := (doneSum + remainingWeight) / totalWeight
      let worst := doneSum / totalWeight
      decide (best ≥ t) && decide (worst < t)

/-- Weights that are not negative, and scores between `0` and `1`. -/
abbrev InUnit (scored : List Scored) : Prop := Bounded Scored.weight Scored.score scored

/-- The weight of a list of outcomes. -/
abbrev totalWeight (scored : List Scored) : ℚ := total Scored.weight scored

theorem weightedMean_eq (scored : List Scored) :
    weightedMean scored = mean Scored.weight Scored.score 1 scored := rfl

theorem caseVerdict_none (scored : List Scored) :
    (caseVerdict scored none).passed = scored.all Scored.passed := rfl

theorem caseVerdict_some (scored : List Scored) (t : ℚ) :
    (caseVerdict scored (some t)).passed = decide (t ≤ weightedMean scored) := rfl

theorem canChange_none {scored : List Scored} {rem : ℚ} (hrem : 0 < rem) :
    remainingCanChangeOutcome scored rem none = scored.all Scored.passed := by
  rw [remainingCanChangeOutcome, if_neg (not_le.mpr hrem)]

theorem canChange_some {scored : List Scored} {rem t : ℚ} (hrem : 0 < rem) :
    remainingCanChangeOutcome scored rem (some t) = true ↔
      t ≤ best Scored.weight Scored.score scored rem ∧
        worst Scored.weight Scored.score scored rem < t := by
  rw [remainingCanChangeOutcome, if_neg (not_le.mpr hrem)]
  simp only [Bool.and_eq_true, decide_eq_true_eq]
  rfl

/-! ### Some weight remains -/

/-- **A no is final**: with weight left and the answer no, the verdict is the same whatever
the remaining asserts score, and also when none of them is run. -/
theorem verdict_decided {scored : List Scored} {rem : ℚ} {threshold : Option ℚ}
    (hs : InUnit scored) (hrem : 0 < rem)
    (hno : remainingCanChangeOutcome scored rem threshold = false) :
    ∃ verdict, ∀ rest, InUnit rest → totalWeight rest ≤ rem →
      (caseVerdict (scored ++ rest) threshold).passed = verdict := by
  cases threshold with
  | none =>
    rw [canChange_none hrem] at hno
    refine ⟨false, fun rest _ _ => ?_⟩
    rw [caseVerdict_none, List.all_append, hno, Bool.false_and]
  | some t =>
    have hout : ¬(t ≤ best Scored.weight Scored.score scored rem ∧
        worst Scored.weight Scored.score scored rem < t) := by
      rw [← canChange_some hrem, hno]
      exact Bool.false_ne_true
    -- the threshold lies outside the interval the mean can move in
    by_cases hbest : t ≤ best Scored.weight Scored.score scored rem
    · have hworst : t ≤ worst Scored.weight Scored.score scored rem :=
        not_lt.mp fun h => hout ⟨hbest, h⟩
      refine ⟨true, fun rest hr hle => ?_⟩
      rw [caseVerdict_some, weightedMean_eq, decide_eq_true_eq]
      exact hworst.trans (worst_le_mean hs hr zero_le_one hrem hle)
    · refine ⟨false, fun rest hr hle => ?_⟩
      rw [caseVerdict_some, weightedMean_eq, decide_eq_false_iff_not, not_le]
      exact (mean_le_best hs hr le_rfl hrem hle).trans_lt (not_le.mp hbest)

/-- A single outcome that carries all the remaining weight. -/
theorem mean_append_single {scored : List Scored} {rem v : ℚ} (passed : Bool)
    (hs : InUnit scored) (hrem : 0 < rem) :
    weightedMean (scored ++ [⟨rem, v, passed⟩]) =
      (mass Scored.weight Scored.score scored + v * rem) / (totalWeight scored + rem) := by
  have hpos : ¬totalWeight scored + rem ≤ 0 := by linarith [total_nonneg hs]
  rw [weightedMean_eq, mean, total_append, mass_append]
  simp only [total, mass, List.map_cons, List.map_nil, List.sum_cons, List.sum_nil, add_zero]
  exact if_neg hpos

/-- **With weight left, the answer is yes exactly when the rest can decide the case**: some
way of scoring it passes and another fails. -/
theorem canChange_iff {scored : List Scored} {rem : ℚ} {threshold : Option ℚ}
    (hs : InUnit scored) (hrem : 0 < rem) :
    remainingCanChangeOutcome scored rem threshold = true ↔
      ∃ pass fail, InUnit pass ∧ InUnit fail ∧ totalWeight pass ≤ rem ∧ totalWeight fail ≤ rem ∧
        (caseVerdict (scored ++ pass) threshold).passed = true ∧
        (caseVerdict (scored ++ fail) threshold).passed = false := by
  constructor
  · intro hyes
    -- all the remaining weight in one assert, scoring `1` or `0`
    refine ⟨[⟨rem, 1, true⟩], [⟨rem, 0, false⟩], ?_, ?_, ?_, ?_, ?_⟩
    · simpa [Bounded] using hrem.le
    · simpa [Bounded] using hrem.le
    · simp [total]
    · simp [total]
    · cases threshold with
      | none =>
        rw [canChange_none hrem] at hyes
        simp [caseVerdict_none, hyes]
      | some t =>
        obtain ⟨hbest, hworst⟩ := (canChange_some hrem).mp hyes
        rw [caseVerdict_some, caseVerdict_some, mean_append_single true hs hrem,
          mean_append_single false hs hrem, decide_eq_true_eq, decide_eq_false_iff_not, not_le,
          one_mul, zero_mul, add_zero]
        exact ⟨hbest, hworst⟩
  · rintro ⟨pass, fail, hpass, hfail, hple, hfle, hp, hf⟩
    by_contra hno
    rw [Bool.not_eq_true] at hno
    obtain ⟨verdict, hfixed⟩ := verdict_decided hs hrem hno
    rw [hfixed pass hpass hple] at hp
    rw [hfixed fail hfail hfle, hp] at hf
    exact Bool.noConfusion hf

/-! ### No weight remains -/

/-- With no weight left the answer is no, whatever the threshold. -/
theorem canChange_weightless (scored : List Scored) (threshold : Option ℚ) :
    remainingCanChangeOutcome scored 0 threshold = false := by
  unfold remainingCanChangeOutcome
  exact if_pos le_rfl

/-- **Asserts without weight** leave the verdict of a threshold alone; without a threshold
they must pass. -/
theorem verdict_weightless {scored rest : List Scored} (threshold : Option ℚ)
    (hr : InUnit rest) (hw : totalWeight rest = 0) :
    (caseVerdict (scored ++ rest) threshold).passed =
      ((caseVerdict scored threshold).passed &&
        (threshold.isSome || rest.all Scored.passed)) := by
  cases threshold with
  | none => rw [caseVerdict_none, caseVerdict_none, List.all_append, Option.isSome_none,
      Bool.false_or]
  | some t =>
    rw [caseVerdict_some, caseVerdict_some, weightedMean_eq, weightedMean_eq,
      mean_append_weightless hr hw, Option.isSome_some, Bool.true_or, Bool.and_true]
