/-
The outcome of one assertion, negated and guarded.

`negated` flips an outcome, but not one that could not be evaluated.
`denyVacuousNegatedPass` takes back a pass that a negated assertion owes to an empty
output.  `UnitScore` is what the scorer relies on, and both keep it.
-/
import Domarinn.Types
import Mathlib.Algebra.Order.Ring.Rat
import Mathlib.Tactic.Linarith

/-- The outcome of evaluating a single assertion. -/
structure AssertOutcome where
  score : ℚ
  passed : Bool
  reason : String
  details : Option Json
  /-- The assertion is broken, not unsatisfied. -/
  unevaluable : Bool
deriving DecidableEq

namespace AssertOutcome

def pass (reason : String) : AssertOutcome := ⟨1, true, reason, none, false⟩

def fail (reason : String) : AssertOutcome := ⟨0, false, reason, none, false⟩

/-- `AssertOutcome::unevaluable`: a failure that `negated` leaves alone. -/
def broken (reason : String) : AssertOutcome := { fail reason with unevaluable := true }

def withDetails (o : AssertOutcome) (details : Json) : AssertOutcome :=
  { o with details := some details }

/-- `cond`. -/
def cond (passed : Bool) (passReason failReason : String) : AssertOutcome :=
  if passed then pass passReason else fail failReason

/-- `negated`: flip the outcome, unless it could not be evaluated. -/
def negated (o : AssertOutcome) (negate : Bool) : AssertOutcome :=
  if !negate || o.unevaluable then o
  else ⟨1 - o.score, !o.passed, s!"negated: {o.reason}", o.details, false⟩

/-- `deny_vacuous_negated_pass`: refuse a pass earned only because nothing was produced. -/
def denyVacuousNegatedPass (o : AssertOutcome) (negate : Bool)
    (emptyReason : Option EmptyReason) : AssertOutcome :=
  match emptyReason with
  | none => o
  | some reason =>
    if !negate || !o.passed || o.unevaluable then o
    else
      let text := reason.value
      ⟨0, false, s!"output was empty ({text}): a negated assertion cannot pass vacuously — nothing was produced for the forbidden content to be absent from",
        o.details, false⟩

/-! ### Scores -/

/-- The score lies between `0` and `1`. -/
def UnitScore (o : AssertOutcome) : Prop := 0 ≤ o.score ∧ o.score ≤ 1

@[simp] theorem unitScore_pass (reason : String) : (pass reason).UnitScore := by
  simp [UnitScore, pass]

@[simp] theorem unitScore_fail (reason : String) : (fail reason).UnitScore := by
  simp [UnitScore, fail]

@[simp] theorem unitScore_broken (reason : String) : (broken reason).UnitScore := by
  simp [UnitScore, broken, fail]

@[simp] theorem unitScore_cond (passed : Bool) (passReason failReason : String) :
    (cond passed passReason failReason).UnitScore := by
  unfold cond
  split_ifs <;> simp

theorem UnitScore.withDetails {o : AssertOutcome} (h : o.UnitScore) (details : Json) :
    (o.withDetails details).UnitScore := h

theorem UnitScore.negated {o : AssertOutcome} (h : o.UnitScore) (negate : Bool) :
    (o.negated negate).UnitScore := by
  obtain ⟨h0, h1⟩ := h
  unfold AssertOutcome.negated
  split_ifs
  · exact ⟨h0, h1⟩
  · constructor
    · show 0 ≤ 1 - o.score
      linarith
    · show 1 - o.score ≤ 1
      linarith

theorem UnitScore.denyVacuousNegatedPass {o : AssertOutcome} (h : o.UnitScore) (negate : Bool)
    (emptyReason : Option EmptyReason) :
    (o.denyVacuousNegatedPass negate emptyReason).UnitScore := by
  unfold AssertOutcome.denyVacuousNegatedPass
  cases emptyReason with
  | none => exact h
  | some reason =>
    by_cases hout : (!negate || !o.passed || o.unevaluable) = true
    · simpa only [hout, if_true] using h
    · simp [hout, UnitScore]

end AssertOutcome
