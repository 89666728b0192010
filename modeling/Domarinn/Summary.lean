/-
The summary of a run: one pass over its cases that counts verdicts, tokens, money and cache hits.

The counters of a run's cases are bounded by their number.  Money is summed in millionths of a
dollar and saturates; token counts are whatever the providers report, and their four columns are
summed with a plain `u64` addition.  `summarize` answers `none` where such an addition overflows:
there a build with overflow checks panics, and one without them wraps.

* **`bump_comm`** — tallying by key does not depend on the order of the keys;
* **`foldlM_summarizeCase`** — the pass ends exactly when the token columns fit, and then every
  field of its state is a sum over the cases;
* **`summarize_conserves_iff`** — the summary is conserving and independent of the order of the
  cases exactly when the four token columns fit into a `u64`.
-/
import Domarinn.Pricing
import Domarinn.RunResult
import Mathlib.Data.String.Basic
import Mathlib.Algebra.BigOperators.Group.List.Basic
import Mathlib.Algebra.Order.BigOperators.Group.List

/-! ### Tallies by key -/

section
variable {κ : Type*} [LinearOrder κ]

/-- Count one more of a key, in a list that is kept in the order of the keys. -/
def bump (counts : List (κ × ℕ)) (k : κ) : List (κ × ℕ) :=
  match counts with
  | [] => [(k, 1)]
  | (l, n) :: counts =>
    if k < l then (k, 1) :: (l, n) :: counts
    else if k = l then (l, n + 1) :: counts
    else (l, n) :: bump counts k

theorem bump_comm (k l : κ) (counts : List (κ × ℕ)) :
    bump (bump counts k) l = bump (bump counts l) k := by
  induction counts with
  | nil =>
    have h := lt_trichotomy k l
    grind [bump]
  | cons m counts ih =>
    obtain ⟨m, n⟩ := m
    have h := lt_trichotomy k l
    grind [bump]

/-- Each key with how often it occurs, in the order of the keys. -/
def tallyBy (ks : List κ) : List (κ × ℕ) := ks.foldl bump []

theorem tallyBy_perm {ks ls : List κ} (h : ks.Perm ls) : tallyBy ks = tallyBy ls :=
  h.foldl_eq' (fun k _ l _ counts => bump_comm k l counts) []

end

/-! ### The pass over the cases -/

/-- `+=` on a `u64`: there is no answer where it overflows. -/
def addU64 (a b : ℕ) : Option ℕ := if a + b ≤ u64Max then some (a + b) else none

theorem addU64_eq_some {a b c : ℕ} : addU64 a b = some c ↔ a + b ≤ u64Max ∧ c = a + b := by
  rw [addU64]
  split_ifs with h
  · rw [Option.some_inj]
    exact ⟨fun hc => ⟨h, hc.symm⟩, fun hc => hc.2.symm⟩
  · exact iff_of_false nofun fun hc => h hc.1

namespace RunSummary

/-- An xfail and an xpass are counted apart from `failed` and `passed`. -/
def countStatus (s : RunSummary) : CaseStatus → RunSummary
  | .pass => { s with passed := s.passed + 1 }
  | .fail => { s with failed := s.failed + 1 }
  | .error => { s with errored := s.errored + 1 }
  | .skip => { s with skipped := s.skipped + 1 }
  | .xfail => { s with xfailed := s.xfailed + 1 }
  | .xpass => { s with xpassed := s.xpassed + 1 }

/-- Cache reads are prompt tokens too: the providers report them in a field of their own. -/
def addUsage (s : RunSummary) : Option TokenUsage → Option RunSummary
  | none => some s
  | some u => do
    let prompt ← addU64 s.promptTokens (saturatingAdd u.inputTokens (u.cacheReadTokens.getD 0))
    let completion ← addU64 s.completionTokens u.outputTokens
    let cacheRead ← addU64 s.cacheReadTokens (u.cacheReadTokens.getD 0)
    let cacheWrite ← addU64 s.cacheWriteTokens (u.cacheWriteTokens.getD 0)
    some { s with
      promptTokens := prompt
      completionTokens := completion
      cacheReadTokens := cacheRead
      cacheWriteTokens := cacheWrite }

/-- A cached case replays the attempts of the original call: it is not a retry of this run. -/
def countCache (s : RunSummary) (cached : Bool) (attempts : ℕ) : RunSummary :=
  let s := if cached then { s with cacheHits := s.cacheHits + 1 }
    else { s with cacheMisses := s.cacheMisses + 1 }
  if !cached && 1 < attempts then { s with retriedCases := s.retriedCases + 1 } else s

/-- A skipped case graded nothing, whoever answered it. -/
def countFallback (s : RunSummary) (status : CaseStatus) (answeredBy : Option String) :
    RunSummary :=
  if status ≠ .skip ∧ answeredBy.isSome then { s with fallbackCases := s.fallbackCases + 1 } else s

/-- The empty string is no reason. -/
def countEmpty (s : RunSummary) (reason : Option EmptyReason) : RunSummary :=
  match reason.filter fun r => !r.value.isEmpty with
  | some r => { s with emptyCounts := bump s.emptyCounts r.value }
  | none => s

end RunSummary

/-- The state of the pass: the summary, and the money that goes into it at the end. -/
structure Accumulators where
  s : RunSummary
  cost : MicroUsd := 0
  saved : MicroUsd := 0
  graderCost : MicroUsd := 0
  anyCost : Bool := false
  anyGraderCost : Bool := false

namespace Accumulators

/-- A cached case reports what the work cost, which is what the cache saved. -/
def addCost (a : Accumulators) (costUsd : Option ℚ) (cached : Bool) : Accumulators :=
  match costUsd with
  | some cst =>
    let micro := MicroUsd.fromUsd cst
    { a with
      cost := a.cost.saturatingAdd micro
      saved := if cached then a.saved.saturatingAdd micro else a.saved
      anyCost := true }
  | none => a

/-- What the judges cost is kept apart from what the system under test cost. -/
def addGraderCost (a : Accumulators) (assert : AssertResult) : Accumulators :=
  match assert.costUsd with
  | some cst =>
    { a with
      graderCost := a.graderCost.saturatingAdd (MicroUsd.fromUsd cst)
      anyGraderCost := true }
  | none => a

/-- What the pass does with one case. -/
def summarizeCase (a : Accumulators) (c : CaseResult) : Option Accumulators := do
  let s ← (a.s.countStatus c.status).addUsage c.usage
  let a := { a with s := s }.addCost c.costUsd c.cached
  let a := c.asserts.foldl addGraderCost a
  let s := a.s.countCache c.cached c.attempts
  let s := s.countFallback c.status c.answeredByProviderId
  let s := s.countEmpty c.emptyReason
  some { a with s := s }

/-- The amounts are converted to dollars once, at the end. -/
def finish (a : Accumulators) : RunSummary :=
  { a.s with
    costUsd := if a.anyCost then some a.cost.toUsd else none
    cacheSavingsUsd := if a.anyCost ∧ 0 < a.saved.micros then some a.saved.toUsd else none
    graderCostUsd := if a.anyGraderCost then some a.graderCost.toUsd else none }

end Accumulators

/-- `summarize`. -/
def summarize (cases : List CaseResult) : Option RunSummary :=
  (cases.foldlM Accumulators.summarizeCase { s := { total := cases.length } }).map
    Accumulators.finish

/-! ### What one case contributes -/

namespace CaseResult

def promptTokens (c : CaseResult) : ℕ :=
  (c.usage.map fun u => saturatingAdd u.inputTokens (u.cacheReadTokens.getD 0)).getD 0

def completionTokens (c : CaseResult) : ℕ := (c.usage.map TokenUsage.outputTokens).getD 0

def cacheReadTokens (c : CaseResult) : ℕ := (c.usage.bind TokenUsage.cacheReadTokens).getD 0

def cacheWriteTokens (c : CaseResult) : ℕ := (c.usage.bind TokenUsage.cacheWriteTokens).getD 0

/-- What the work cost. -/
def cost (c : CaseResult) : MicroUsd := (c.costUsd.map MicroUsd.fromUsd).getD 0

/-- What the cache saved: the cost of a cached case, and nothing of another. -/
def saved (c : CaseResult) : MicroUsd := if c.cached then c.cost else 0

/-- What its judges cost. -/
def graderCosts (c : CaseResult) : List ℚ := c.asserts.filterMap AssertResult.costUsd

def retried (c : CaseResult) : Bool := !c.cached && 1 < c.attempts

def fellBack (c : CaseResult) : Bool := c.status ≠ .skip ∧ c.answeredByProviderId.isSome

/-- The reason that is tallied. -/
def reason? (c : CaseResult) : Option String :=
  (c.emptyReason.filter fun r => !r.value.isEmpty).map EmptyReason.value

end CaseResult

/-- The four columns of token counts of the cases fit into a `u64`. -/
structure TokensFit (cases : List CaseResult) : Prop where
  prompt : (cases.map CaseResult.promptTokens).sum ≤ u64Max
  completion : (cases.map CaseResult.completionTokens).sum ≤ u64Max
  cacheRead : (cases.map CaseResult.cacheReadTokens).sum ≤ u64Max
  cacheWrite : (cases.map CaseResult.cacheWriteTokens).sum ≤ u64Max

/-- How many cases have this verdict. -/
def countOf (cases : List CaseResult) (status : CaseStatus) : ℕ :=
  cases.countP fun c => c.status = status

/-- The state of the pass, field by field a sum over the cases. -/
def sumsOver (total : ℕ) (cases : List CaseResult) : Accumulators where
  s := {
    total := total
    passed := countOf cases .pass
    failed := countOf cases .fail
    errored := countOf cases .error
    skipped := countOf cases .skip
    xfailed := countOf cases .xfail
    xpassed := countOf cases .xpass
    promptTokens := (cases.map CaseResult.promptTokens).sum
    completionTokens := (cases.map CaseResult.completionTokens).sum
    cacheReadTokens := (cases.map CaseResult.cacheReadTokens).sum
    cacheWriteTokens := (cases.map CaseResult.cacheWriteTokens).sum
    cacheHits := cases.countP fun c => c.cached
    cacheMisses := cases.countP fun c => !c.cached
    retriedCases := cases.countP CaseResult.retried
    fallbackCases := cases.countP CaseResult.fellBack
    emptyCounts := tallyBy (cases.filterMap CaseResult.reason?) }
  cost := (cases.map CaseResult.cost).sum
  saved := (cases.map CaseResult.saved).sum
  graderCost := ((cases.flatMap CaseResult.graderCosts).map MicroUsd.fromUsd).sum
  anyCost := cases.any fun c => c.costUsd.isSome
  anyGraderCost := cases.any fun c => !c.graderCosts.isEmpty

/-! ### One case after another -/

namespace RunSummary

variable (s : RunSummary)

theorem countStatus_eq (status : CaseStatus) : s.countStatus status =
    { s with
      passed := s.passed + (if status = .pass then 1 else 0)
      failed := s.failed + (if status = .fail then 1 else 0)
      errored := s.errored + (if status = .error then 1 else 0)
      skipped := s.skipped + (if status = .skip then 1 else 0)
      xfailed := s.xfailed + (if status = .xfail then 1 else 0)
      xpassed := s.xpassed + (if status = .xpass then 1 else 0) } := by
  cases status <;> rfl

theorem countCache_eq (c : CaseResult) : s.countCache c.cached c.attempts =
    { s with
      cacheHits := s.cacheHits + (if c.cached then 1 else 0)
      cacheMisses := s.cacheMisses + (if !c.cached then 1 else 0)
      retriedCases := s.retriedCases + (if c.retried then 1 else 0) } := by
  simp only [countCache, CaseResult.retried]
  split_ifs <;> simp_all

theorem countFallback_eq (c : CaseResult) : s.countFallback c.status c.answeredByProviderId =
    { s with fallbackCases := s.fallbackCases + (if c.fellBack then 1 else 0) } := by
  simp only [countFallback, CaseResult.fellBack, decide_eq_true_eq]
  split_ifs <;> rfl

theorem countEmpty_eq (c : CaseResult) : s.countEmpty c.emptyReason =
    { s with emptyCounts := c.reason?.toList.foldl bump s.emptyCounts } := by
  rw [countEmpty, CaseResult.reason?]
  cases c.emptyReason.filter fun r => !r.value.isEmpty <;> rfl

/-- Usage is added where the four columns have room for it. -/
theorem addUsage_eq_some (c : CaseResult) {s' : RunSummary} : s.addUsage c.usage = some s' ↔
    (c.usage.isSome → s.promptTokens + c.promptTokens ≤ u64Max ∧
      s.completionTokens + c.completionTokens ≤ u64Max ∧
      s.cacheReadTokens + c.cacheReadTokens ≤ u64Max ∧
      s.cacheWriteTokens + c.cacheWriteTokens ≤ u64Max) ∧
    s' = { s with
      promptTokens := s.promptTokens + c.promptTokens
      completionTokens := s.completionTokens + c.completionTokens
      cacheReadTokens := s.cacheReadTokens + c.cacheReadTokens
      cacheWriteTokens := s.cacheWriteTokens + c.cacheWriteTokens } := by
  simp only [CaseResult.promptTokens, CaseResult.completionTokens, CaseResult.cacheReadTokens,
    CaseResult.cacheWriteTokens]
  cases c.usage with
  | none =>
    simp only [addUsage, Option.some_inj]
    exact ⟨fun h => ⟨nofun, h.symm⟩, fun h => h.2.symm⟩
  | some u =>
    simp only [addUsage, Option.bind_eq_bind, Option.bind_eq_some_iff, addU64_eq_some]
    constructor
    · rintro ⟨_, ⟨hp, rfl⟩, _, ⟨hc, rfl⟩, _, ⟨hr, rfl⟩, _, ⟨hw, rfl⟩, hs⟩
      exact ⟨fun _ => ⟨hp, hc, hr, hw⟩, (Option.some_inj.mp hs).symm⟩
    · rintro ⟨hfit, rfl⟩
      obtain ⟨hp, hc, hr, hw⟩ := hfit rfl
      exact ⟨_, ⟨hp, rfl⟩, _, ⟨hc, rfl⟩, _, ⟨hr, rfl⟩, _, ⟨hw, rfl⟩, rfl⟩

end RunSummary

namespace Accumulators

theorem addCost_eq (a : Accumulators) (c : CaseResult) : a.addCost c.costUsd c.cached =
    { a with
      cost := a.cost + c.cost
      saved := a.saved + c.saved
      anyCost := a.anyCost || c.costUsd.isSome } := by
  unfold addCost CaseResult.saved CaseResult.cost
  cases c.costUsd with
  | none => simp
  | some cst =>
    cases c.cached <;> simp [MicroUsd.saturatingAdd_eq]

theorem foldl_addGraderCost (asserts : List AssertResult) : ∀ a : Accumulators,
    asserts.foldl addGraderCost a =
      { a with
        graderCost := a.graderCost +
          ((asserts.filterMap AssertResult.costUsd).map MicroUsd.fromUsd).sum
        anyGraderCost := a.anyGraderCost ||
          !(asserts.filterMap AssertResult.costUsd).isEmpty } := by
  induction asserts with
  | nil =>
    intro a
    simp
  | cons r asserts ih =>
    intro a
    rw [List.foldl_cons, ih, addGraderCost]
    cases hr : r.costUsd with
    | none => simp [hr]
    | some cst => simp [hr, MicroUsd.saturatingAdd_eq, add_assoc]

end Accumulators

theorem tokensFit_append_singleton {cases : List CaseResult} {c : CaseResult} :
    TokensFit (cases ++ [c]) ↔
      (cases.map CaseResult.promptTokens).sum + c.promptTokens ≤ u64Max ∧
      (cases.map CaseResult.completionTokens).sum + c.completionTokens ≤ u64Max ∧
      (cases.map CaseResult.cacheReadTokens).sum + c.cacheReadTokens ≤ u64Max ∧
      (cases.map CaseResult.cacheWriteTokens).sum + c.cacheWriteTokens ≤ u64Max := by
  have hsum (f : CaseResult → ℕ) : ((cases ++ [c]).map f).sum = (cases.map f).sum + f c := by
    rw [List.map_append, List.sum_append, List.map_singleton, List.sum_singleton]
  constructor
  · rintro ⟨hp, hc, hr, hw⟩
    rw [hsum] at hp hc hr hw
    exact ⟨hp, hc, hr, hw⟩
  · rintro ⟨hp, hc, hr, hw⟩
    rw [← hsum] at hp hc hr hw
    exact ⟨hp, hc, hr, hw⟩

theorem TokensFit.of_append {cases : List CaseResult} {c : CaseResult}
    (h : TokensFit (cases ++ [c])) : TokensFit cases := by
  obtain ⟨hp, hc, hr, hw⟩ := tokensFit_append_singleton.mp h
  exact ⟨by omega, by omega, by omega, by omega⟩

/-- Only a case with usage can make a column overflow. -/
theorem TokensFit.append_iff {cases : List CaseResult} (hfit : TokensFit cases) {c : CaseResult} :
    TokensFit (cases ++ [c]) ↔ (c.usage.isSome →
      (cases.map CaseResult.promptTokens).sum + c.promptTokens ≤ u64Max ∧
      (cases.map CaseResult.completionTokens).sum + c.completionTokens ≤ u64Max ∧
      (cases.map CaseResult.cacheReadTokens).sum + c.cacheReadTokens ≤ u64Max ∧
      (cases.map CaseResult.cacheWriteTokens).sum + c.cacheWriteTokens ≤ u64Max) := by
  rw [tokensFit_append_singleton]
  refine ⟨fun h _ => h, fun h => ?_⟩
  cases hu : c.usage with
  | some u => exact h (by rw [hu]; rfl)
  | none =>
    simp only [CaseResult.promptTokens, CaseResult.completionTokens, CaseResult.cacheReadTokens,
      CaseResult.cacheWriteTokens, hu]
    exact ⟨hfit.prompt, hfit.completion, hfit.cacheRead, hfit.cacheWrite⟩

/-- The sums with one more case. -/
theorem sumsOver_append_singleton (total : ℕ) (cases : List CaseResult) (c : CaseResult) :
    sumsOver total (cases ++ [c]) =
      let a := sumsOver total cases
      { s := { a.s with
          passed := a.s.passed + (if c.status = .pass then 1 else 0)
          failed := a.s.failed + (if c.status = .fail then 1 else 0)
          errored := a.s.errored + (if c.status = .error then 1 else 0)
          skipped := a.s.skipped + (if c.status = .skip then 1 else 0)
          xfailed := a.s.xfailed + (if c.status = .xfail then 1 else 0)
          xpassed := a.s.xpassed + (if c.status = .xpass then 1 else 0)
          promptTokens := a.s.promptTokens + c.promptTokens
          completionTokens := a.s.completionTokens + c.completionTokens
          cacheReadTokens := a.s.cacheReadTokens + c.cacheReadTokens
          cacheWriteTokens := a.s.cacheWriteTokens + c.cacheWriteTokens
          cacheHits := a.s.cacheHits + (if c.cached then 1 else 0)
          cacheMisses := a.s.cacheMisses + (if !c.cached then 1 else 0)
          retriedCases := a.s.retriedCases + (if c.retried then 1 else 0)
          fallbackCases := a.s.fallbackCases + (if c.fellBack then 1 else 0)
          emptyCounts := c.reason?.toList.foldl bump a.s.emptyCounts }
        cost := a.cost + c.cost
        saved := a.saved + c.saved
        graderCost := a.graderCost + (c.graderCosts.map MicroUsd.fromUsd).sum
        anyCost := a.anyCost || c.costUsd.isSome
        anyGraderCost := a.anyGraderCost || !c.graderCosts.isEmpty } := by
  have hreason : [c].filterMap CaseResult.reason? = c.reason?.toList := by
    cases h : c.reason? <;> simp [h]
  -- every field is a count, a sum or a disjunction over the cases
  simp only [sumsOver, countOf, tallyBy, List.countP_append, List.countP_singleton,
    List.map_append, List.map_singleton, List.sum_append, List.sum_singleton, List.any_append,
    List.any_cons, List.any_nil, Bool.or_false, List.flatMap_append, List.flatMap_singleton,
    List.filterMap_append, hreason, List.foldl_append, decide_eq_true_eq]

/-- One step of the pass, on the state of the cases before. -/
theorem summarizeCase_eq_some {total : ℕ} {cases : List CaseResult} (hfit : TokensFit cases)
    (c : CaseResult) {a : Accumulators} :
    (sumsOver total cases).summarizeCase c = some a ↔
      TokensFit (cases ++ [c]) ∧ a = sumsOver total (cases ++ [c]) := by
  rw [hfit.append_iff, sumsOver_append_singleton, Accumulators.summarizeCase]
  simp only [Option.bind_eq_bind, Option.bind_eq_some_iff, RunSummary.addUsage_eq_some,
    RunSummary.countStatus_eq, Accumulators.addCost_eq, Accumulators.foldl_addGraderCost,
    RunSummary.countCache_eq, RunSummary.countFallback_eq, RunSummary.countEmpty_eq,
    CaseResult.graderCosts, Option.some_inj]
  constructor
  · rintro ⟨_, ⟨hcols, rfl⟩, rfl⟩
    exact ⟨hcols, rfl⟩
  · rintro ⟨hcols, rfl⟩
    exact ⟨_, ⟨hcols, rfl⟩, rfl⟩

/-- The pass ends exactly when the token columns fit.  By induction from the back: what a step
sees is the state of the cases before it. -/
theorem foldlM_summarizeCase (total : ℕ) (cases : List CaseResult) {a : Accumulators} :
    cases.foldlM Accumulators.summarizeCase { s := { total := total } } = some a ↔
      TokensFit cases ∧ a = sumsOver total cases := by
  induction cases using List.reverseRecOn generalizing a with
  | nil =>
    have hfit : TokensFit [] := ⟨Nat.zero_le _, Nat.zero_le _, Nat.zero_le _, Nat.zero_le _⟩
    rw [List.foldlM_nil]
    exact ⟨fun h => ⟨hfit, (Option.some_inj.mp h).symm⟩, fun h => congrArg some h.2.symm⟩
  | append_singleton cases c ih =>
    simp only [List.foldlM_append, List.foldlM_cons, List.foldlM_nil, bind_pure,
      Option.bind_eq_bind, Option.bind_eq_some_iff, ih]
    constructor
    · rintro ⟨_, ⟨hfit, rfl⟩, hc⟩
      exact (summarizeCase_eq_some hfit c).mp hc
    · intro h
      have hfit : TokensFit cases := h.1.of_append
      exact ⟨_, ⟨hfit, rfl⟩, (summarizeCase_eq_some hfit c).mpr h⟩

theorem summarize_eq_some {cases : List CaseResult} {s : RunSummary} :
    summarize cases = some s ↔
      TokensFit cases ∧ s = (sumsOver cases.length cases).finish := by
  simp only [summarize, Option.map_eq_some_iff, foldlM_summarizeCase]
  constructor
  · rintro ⟨_, ⟨hfit, rfl⟩, rfl⟩
    exact ⟨hfit, rfl⟩
  · rintro ⟨hfit, rfl⟩
    exact ⟨_, ⟨hfit, rfl⟩, rfl⟩

/-! ### Order and conservation -/

theorem TokensFit.perm {cases cases' : List CaseResult} (h : cases.Perm cases')
    (hfit : TokensFit cases) : TokensFit cases' where
  prompt := (h.map CaseResult.promptTokens).sum_eq ▸ hfit.prompt
  completion := (h.map CaseResult.completionTokens).sum_eq ▸ hfit.completion
  cacheRead := (h.map CaseResult.cacheReadTokens).sum_eq ▸ hfit.cacheRead
  cacheWrite := (h.map CaseResult.cacheWriteTokens).sum_eq ▸ hfit.cacheWrite

theorem sumsOver_perm {cases cases' : List CaseResult} (h : cases.Perm cases') (total : ℕ) :
    sumsOver total cases = sumsOver total cases' := by
  have htokens (f : CaseResult → ℕ) : (cases.map f).sum = (cases'.map f).sum := (h.map f).sum_eq
  have hmoney (f : CaseResult → MicroUsd) : (cases.map f).sum = (cases'.map f).sum :=
    (h.map f).sum_eq
  have hcount (p : CaseResult → Bool) : cases.countP p = cases'.countP p := h.countP_eq p
  have hany (p : CaseResult → Bool) : cases.any p = cases'.any p := h.any_eq
  simp only [sumsOver, countOf, htokens, hmoney, hcount, hany, tallyBy_perm (h.filterMap _),
    ((h.flatMap_right CaseResult.graderCosts).map MicroUsd.fromUsd).sum_eq]

/-- Every case has one of the six verdicts. -/
theorem countOf_sum (cases : List CaseResult) :
    countOf cases .pass + countOf cases .fail + countOf cases .error + countOf cases .skip +
      countOf cases .xfail + countOf cases .xpass = cases.length := by
  induction cases with
  | nil => rfl
  | cons c cases ih =>
    simp only [countOf, List.countP_cons, List.length_cons] at ih ⊢
    cases c.status <;> simp <;> omega

/-- The cache saves no more than the work cost. -/
theorem saved_le_cost (cases : List CaseResult) :
    (cases.map CaseResult.saved).sum.micros ≤ (cases.map CaseResult.cost).sum.micros := by
  have hcase (c : CaseResult) : c.saved.micros ≤ c.cost.micros := by
    rw [CaseResult.saved]
    split_ifs
    · exact le_rfl
    · exact Nat.zero_le _
  have hsum : ((cases.map CaseResult.saved).map MicroUsd.micros).sum ≤
      ((cases.map CaseResult.cost).map MicroUsd.micros).sum := by
    rw [List.map_map, List.map_map]
    exact List.sum_le_sum fun c _ => hcase c
  rw [MicroUsd.micros_sum, MicroUsd.micros_sum]
  omega

/-- What the summary of these cases owes its reader. -/
structure Conserves (cases : List CaseResult) (s : RunSummary) : Prop where
  /-- There is no overflow, in whatever order the cases come. -/
  perm : ∀ cases' : List CaseResult, cases'.Perm cases → summarize cases' = some s
  total : s.total = cases.length
  statuses : s.passed + s.failed + s.errored + s.skipped + s.xfailed + s.xpassed = s.total
  cache : s.cacheHits + s.cacheMisses = s.total
  /-- Money is saved by cached cases alone. -/
  attributable : s.cacheSavingsUsd.getD 0 =
    (((cases.filter fun c => c.cached).map CaseResult.cost).sum).toUsd
  savings : s.cacheSavingsUsd.getD 0 ≤ s.costUsd.getD 0

theorem sum_saved (cases : List CaseResult) : (cases.map CaseResult.saved).sum =
    ((cases.filter fun c => c.cached).map CaseResult.cost).sum := by
  induction cases with
  | nil => rfl
  | cons c cases ih =>
    rw [List.map_cons, List.sum_cons, ih, CaseResult.saved, List.filter_cons]
    split_ifs
    · rw [List.map_cons, List.sum_cons]
    · rw [zero_add]

/-- A run without a priced case has saved nothing. -/
theorem cost_eq_zero {cases : List CaseResult} (h : ¬ cases.any fun c => c.costUsd.isSome) :
    (cases.map CaseResult.cost).sum = 0 := by
  refine List.sum_eq_zero fun m hm => ?_
  obtain ⟨c, hc, rfl⟩ := List.mem_map.mp hm
  have hnone : c.costUsd = none := by
    by_contra hsome
    exact h (List.any_eq_true.mpr ⟨c, hc, Option.isSome_iff_ne_none.mpr hsome⟩)
  rw [CaseResult.cost, hnone]
  rfl

theorem costUsd_finish (cases : List CaseResult) :
    (sumsOver cases.length cases).finish.costUsd.getD 0 =
      (cases.map CaseResult.cost).sum.toUsd := by
  unfold Accumulators.finish
  dsimp only
  split_ifs with hany
  · rfl
  · rw [cost_eq_zero hany]
    exact (MicroUsd.toUsd_zero MicroUsd.micros_zero).symm

theorem cacheSavingsUsd_finish (cases : List CaseResult) :
    (sumsOver cases.length cases).finish.cacheSavingsUsd.getD 0 =
      (cases.map CaseResult.saved).sum.toUsd := by
  unfold Accumulators.finish
  dsimp only
  split_ifs with h
  · rfl
  · have hzero : (cases.map CaseResult.saved).sum.micros = 0 := by
      have hle := saved_le_cost cases
      by_contra hpos
      refine h ⟨?_, Nat.pos_of_ne_zero hpos⟩
      by_contra hany
      rw [cost_eq_zero hany, MicroUsd.micros_zero] at hle
      omega
    exact (MicroUsd.toUsd_zero hzero).symm

/-- **The summary keeps its promises exactly when the token columns fit.**  Money saturates, and
the counters cannot pass the number of the cases; only the four columns of provider-reported token
counts can overflow. -/
theorem summarize_conserves_iff (cases : List CaseResult) :
    (∃ s, Conserves cases s) ↔ TokensFit cases := by
  constructor
  · rintro ⟨s, hs⟩
    exact (summarize_eq_some.mp (hs.perm cases .rfl)).1
  · intro hfit
    refine ⟨(sumsOver cases.length cases).finish, ?_, rfl, ?_, ?_, ?_, ?_⟩
    · intro cases' h
      refine summarize_eq_some.mpr ⟨hfit.perm h.symm, ?_⟩
      rw [sumsOver_perm h, h.length_eq]
    · have hsum := countOf_sum cases
      simp only [Accumulators.finish, sumsOver]
      omega
    · have hsum := cases.length_eq_countP_add_countP fun c : CaseResult => c.cached
      simp only [Accumulators.finish, sumsOver]
      simp only [Bool.not_eq_true, Bool.decide_eq_false] at hsum
      omega
    · rw [cacheSavingsUsd_finish, sum_saved]
    · rw [cacheSavingsUsd_finish, costUsd_finish]
      exact MicroUsd.toUsd_le (saved_le_cost cases)

/-- A case whose provider reported half the range of a `u64` as its answer. -/
def hugeAnswer : CaseResult where
  caseKey := "0"
  name := none
  status := .pass
  output := some (.text "yes")
  asserts := []
  usage := some ⟨10, 2 ^ 63, none, none, none⟩
  costUsd := none
  cached := false
  attempts := 1
  emptyReason := none
  answeredByProviderId := none

/-- Two such answers overflow the column of completion tokens. -/
theorem two_huge_answers_overflow : ¬ ∀ cases : List CaseResult, ∃ s, Conserves cases s := by
  intro h
  obtain ⟨s, hs⟩ := h [hugeAnswer, hugeAnswer]
  have hnone : summarize [hugeAnswer, hugeAnswer] = none := rfl
  rw [hs.perm _ .rfl] at hnone
  cases hnone
