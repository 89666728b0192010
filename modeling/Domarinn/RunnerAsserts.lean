/-
Evaluating the asserts of one case.

`evaluateAsserts` runs the local asserts first, decides whether the deferred (graded) ones
can still change the outcome, and grades or skips them.  The grader is a parameter; it may
answer the same assertion differently at different positions of the list.  The run's abort
flag is passed along: a rejected credential sets it, and nothing is graded after that.

* **`evaluateAsserts_results`** — every assertion gets one result, in the order of the suite;
* **`evaluateAsserts_scored`** — what the case is scored on.
-/
import Domarinn.Asserts
import Domarinn.RequestCache
import Domarinn.Scoring

open Json

/-! ### Verdicts -/

/-- `to_outcome`: apply the threshold of the assertion and shape the reason. -/
def GradedVerdict.toOutcome (verdict : GradedVerdict) (threshold : Option ℚ) : AssertOutcome :=
  match verdict with
  | .rubric score pass reasoning =>
    let passed := match threshold with
      | some t => decide (score ≥ t)
      | none => pass
    ⟨score, passed, reasoning, none, false⟩
  | .similarity cosine =>
    let threshold := threshold.getD (4 / 5)
    let passed := decide (cosine ≥ threshold)
    let (shown, bound) := (fixed 3 cosine, fixed 3 threshold)
    ⟨max 0 (min 1 ((cosine + 1) / 2)), passed,
      if passed then s!"cosine similarity {shown} >= {bound}"
      else s!"cosine similarity {shown} < {bound}", none, false⟩
  | .exec pass score reason details => ⟨score, pass, reason, details, false⟩

/-- A verdict whose score lies between `0` and `1`; that of a cosine always does. -/
def GradedVerdict.UnitScore : GradedVerdict → Prop
  | .rubric score _ _ | .exec _ score _ _ => 0 ≤ score ∧ score ≤ 1
  | .similarity _ => True

theorem GradedVerdict.UnitScore.toOutcome {verdict : GradedVerdict} (h : verdict.UnitScore)
    (threshold : Option ℚ) : (verdict.toOutcome threshold).UnitScore := by
  cases verdict with
  | rubric score pass reasoning => exact h
  | exec pass score reason details => exact h
  | similarity cosine =>
    constructor
    · exact le_max_left _ _
    · exact max_le zero_le_one (min_le_left _ _)

/-! ### Results -/

inductive AssertStatus where
  | pass
  | fail
  | error
  | skipped
deriving DecidableEq

/-- `AssertStatus::from_pass`. -/
def AssertStatus.fromPass (passed : Bool) : AssertStatus := if passed then .pass else .fail

/-- The result of a single assertion. -/
structure AssertResult where
  kind : AssertName
  status : AssertStatus
  score : ℚ
  weight : ℚ
  reason : String
  details : Option Json
  criteria : Option Json
  cached : Bool
  costUsd : Option ℚ
  errorClass : Option ErrorClass

/-- The run's abort flag: the first reason it was given. -/
abbrev AbortFlag : Type := Option String

namespace AbortFlag

/-- `poison`: later reasons are ignored. -/
def poison (flag : AbortFlag) (reason : String) : AbortFlag := flag.or (some reason)

/-- `AbortFlag::reason`. -/
def reason (flag : AbortFlag) : Option String := flag.map fun r => s!"aborted: {r}"

end AbortFlag

/-- Everything a grading call needs beyond the assertion and the output. -/
structure GradeCtx where
  vars : Json
  engine : TemplateEngine
  workingDir : Option String
  providerId : String
  testId : String
  testTags : List String
  toolCalls : List ToolCall
  cache : Option RequestCache

/-- A grader: its answer for the assertion at this position. -/
abbrev AssertGrader : Type := ℕ → Assert → Output → GradeCtx → Except GraderError Graded

/-- The parts of the assert path that are fixed for a case. -/
structure AssertCtx where
  libs : Libraries
  providerId : String
  testId : String
  testTags : List String
  engine : TemplateEngine
  grader : Option AssertGrader
  baseDir : String
  schemas : Json → Except String Validator
  toolCalls : List ToolCall
  emptyReason : Option EmptyReason
  cacheMode : CacheMode
  graderCache : Bool
  repeatIdx : ℕ
  shortCircuit : Bool

/-- `scored_of`. -/
def scoredOf (assert : Assert) (outcome : AssertOutcome) : Scored :=
  ⟨assert.weight, outcome.score, outcome.passed⟩

/-- `assert_threshold`. -/
def assertThreshold (assert : Assert) : Option ℚ :=
  match assert.kind with
  | .llmRubric _ _ threshold _ | .similar _ threshold => threshold
  | _ => none

/-- `assert_criteria`: the authored definition, marked when the assertion is negated. -/
def assertCriteria (libs : Libraries) (assert : Assert) : Option Json := do
  match ← libs.toValue assert.kind with
  | .obj members =>
    return obj (if assert.negate then insertMember "negate" (bool true) members else members)
  | value => return value

namespace AssertCtx

variable (ctx : AssertCtx)

/-- What a local assertion of the case is evaluated in. -/
def evalCtx (vars : Json) (metrics : MetricCtx) : EvalCtx :=
  { libs := ctx.libs, engine := ctx.engine, vars, metrics, schemas := ctx.schemas
    toolCalls := ctx.toolCalls, emptyReason := ctx.emptyReason }

/-- The cache the grader sees, if any. -/
def graderCacheOf : Option RequestCache :=
  if ctx.graderCache ∧ ctx.cacheMode ≠ .disabled then some ⟨ctx.cacheMode, ctx.repeatIdx⟩
  else none

/-- What a grading call of the case is told. -/
def gradeCtx (vars : Json) : GradeCtx :=
  { vars, engine := ctx.engine, workingDir := some ctx.baseDir, providerId := ctx.providerId
    testId := ctx.testId, testTags := ctx.testTags, toolCalls := ctx.toolCalls
    cache := ctx.graderCacheOf }

/-- `graded_verdict`: refuse when an offline run has nothing to replay from, else ask. -/
def gradedVerdict (grader : AssertGrader) (i : ℕ) (assert : Assert) (output : Output)
    (vars : Json) : Except GraderError Graded :=
  if ctx.graderCacheOf.isNone ∧ ctx.cacheMode = .readOnlyStrict then
    let name := assert.kind.name.asStr
    .error (.cacheMiss
      s!"cache-only: grader caching is off in this run, so a '{name}' assertion has nothing to replay")
  else grader i assert output (ctx.gradeCtx vars)

/-- The outcome of a graded assertion. -/
def gradedOutcome (assert : Assert) (output : Output) (graded : Graded) : AssertOutcome :=
  negateAndGuard (graded.verdict.toOutcome (assertThreshold assert)) assert output ctx.toolCalls
    ctx.emptyReason

/-- `assert_result`. -/
def assertResult (assert : Assert) (outcome : AssertOutcome) (status : AssertStatus) :
    AssertResult :=
  { kind := assert.kind.name, status, score := outcome.score, weight := assert.weight
    reason := outcome.reason, details := outcome.details
    criteria := assertCriteria ctx.libs assert, cached := false, costUsd := none
    errorClass := none }

/-- `error_assert`. -/
def errorAssert (assert : Assert) (reason : String) (errorClass : ErrorClass) : AssertResult :=
  { kind := assert.kind.name, status := .error, score := 0, weight := assert.weight, reason
    details := none, criteria := assertCriteria ctx.libs assert, cached := false
    costUsd := none, errorClass := some errorClass }

/-- `skipped_result`. -/
def skippedResult (assert : Assert) : AssertResult :=
  { kind := assert.kind.name, status := .skipped, score := 0, weight := assert.weight
    reason := "skipped: outcome already decided", details := none
    criteria := assertCriteria ctx.libs assert, cached := false, costUsd := none
    errorClass := none }

end AssertCtx

/-! ### The two passes -/

/-- The local variables of `evaluate_asserts`; `deferred` keeps each assertion with its
position. -/
structure AssertPass where
  results : List (Option AssertResult)
  scored : List Scored
  classes : List ErrorClass
  deferred : List (Assert × ℕ)
  aborted : AbortFlag

namespace AssertPass

/-- No slot filled. -/
def start (count : ℕ) (aborted : AbortFlag) : AssertPass :=
  ⟨List.replicate count none, [], [], [], aborted⟩

/-- Fill a slot. -/
def put (p : AssertPass) (i : ℕ) (result : AssertResult) : AssertPass :=
  { p with results := p.results.set i (some result) }

/-- Record an outcome for the scorer. -/
def score (p : AssertPass) (s : Scored) : AssertPass := { p with scored := p.scored ++ [s] }

/-- Record the class of an error. -/
def raise (p : AssertPass) (errorClass : ErrorClass) : AssertPass :=
  { p with classes := p.classes ++ [errorClass] }

/-- Leave an assertion for later. -/
def defer (p : AssertPass) (x : Assert × ℕ) : AssertPass :=
  { p with deferred := p.deferred ++ [x] }

variable (p : AssertPass)

@[simp] theorem scored_start (count : ℕ) (aborted : AbortFlag) :
    (start count aborted).scored = [] := rfl
@[simp] theorem deferred_start (count : ℕ) (aborted : AbortFlag) :
    (start count aborted).deferred = [] := rfl
@[simp] theorem scored_put (i : ℕ) (r : AssertResult) : (p.put i r).scored = p.scored := rfl
@[simp] theorem deferred_put (i : ℕ) (r : AssertResult) : (p.put i r).deferred = p.deferred := rfl
@[simp] theorem aborted_put (i : ℕ) (r : AssertResult) : (p.put i r).aborted = p.aborted := rfl
@[simp] theorem scored_score (s : Scored) : (p.score s).scored = p.scored ++ [s] := rfl
@[simp] theorem deferred_score (s : Scored) : (p.score s).deferred = p.deferred := rfl
@[simp] theorem aborted_score (s : Scored) : (p.score s).aborted = p.aborted := rfl
@[simp] theorem scored_raise (c : ErrorClass) : (p.raise c).scored = p.scored := rfl
@[simp] theorem deferred_raise (c : ErrorClass) : (p.raise c).deferred = p.deferred := rfl
@[simp] theorem aborted_raise (c : ErrorClass) : (p.raise c).aborted = p.aborted := rfl
@[simp] theorem scored_defer (x : Assert × ℕ) : (p.defer x).scored = p.scored := rfl
@[simp] theorem deferred_defer (x : Assert × ℕ) : (p.defer x).deferred = p.deferred ++ [x] := rfl
@[simp] theorem aborted_defer (x : Assert × ℕ) : (p.defer x).aborted = p.aborted := rfl

end AssertPass

section
variable (ctx : AssertCtx) (output : Output) (vars : Json)

/-- One round of the first loop: evaluate a local assertion, leave any other for later. -/
def localStep (metrics : MetricCtx) (p : AssertPass) (x : Assert × ℕ) : AssertPass :=
  let (assert, i) := x
  -- `evaluateLocal` has no outcome exactly when `isLocal` says no
  match evaluateLocal assert output (ctx.evalCtx vars metrics) with
  | none => p.defer x
  | some outcome =>
    let p := p.score (scoredOf assert outcome)
    -- an assertion that could not be evaluated is the suite's fault, not a failed output
    if outcome.unevaluable then
      (p.raise .assertFailed).put i
        { ctx.assertResult assert outcome .error with errorClass := some .assertFailed }
    else p.put i (ctx.assertResult assert outcome (.fromPass outcome.passed))

/-- One round of the second loop: skip or grade a deferred assertion. -/
def deferredStep (matters : Bool) (p : AssertPass) (x : Assert × ℕ) : AssertPass :=
  let (assert, i) := x
  if !matters then p.put i (ctx.skippedResult assert)
  else match p.aborted.reason with
    | some reason => (p.raise .providerAuth).put i (ctx.errorAssert assert reason .providerAuth)
    | none => match ctx.grader with
      | some grader => match ctx.gradedVerdict grader i assert output vars with
        | .ok graded =>
          let outcome := ctx.gradedOutcome assert output graded
          (p.score (scoredOf assert outcome)).put i
            { ctx.assertResult assert outcome (.fromPass outcome.passed) with
              cached := graded.cached, costUsd := graded.costUsd }
        | .error e =>
          -- a rejected credential will reject every remaining call too
          let aborted := match e with
            | .authRejected _ => p.aborted.poison e.display
            | _ => p.aborted
          ({ p with aborted }.raise e.errorClass).put i
            (ctx.errorAssert assert e.display e.errorClass)
      | none =>
        let name := assert.kind.name.asStr
        (p.raise .graderMissing).put i (ctx.errorAssert assert
          s!"no grader available for '{name}' assertions in this run" .graderMissing)

/-- The first loop. -/
def localPass (metrics : MetricCtx) (asserts : List Assert) (aborted : AbortFlag) : AssertPass :=
  asserts.zipIdx.foldl (localStep ctx output vars metrics) (.start asserts.length aborted)

/-- The second loop, from where the first one ended. -/
def gradedPass (matters : Bool) (p : AssertPass) : AssertPass :=
  p.deferred.foldl (deferredStep ctx output vars matters) p

/-- What a case is left with after its asserts. -/
structure Evaluated where
  results : List AssertResult
  scored : List Scored
  classes : List ErrorClass
  aborted : AbortFlag

/-- `evaluate_asserts`: the local asserts, then the deferred ones if they still matter. -/
def evaluateAsserts (asserts : List Assert) (metrics : MetricCtx) (threshold : Option ℚ)
    (aborted : AbortFlag) : Evaluated :=
  let p := localPass ctx output vars metrics asserts aborted
  let remainingWeight := (p.deferred.map fun x => x.1.weight).sum
  let matters := !ctx.shortCircuit || remainingCanChangeOutcome p.scored remainingWeight threshold
  let q := gradedPass ctx output vars matters p
  ⟨q.results.filterMap id, q.scored, q.classes, q.aborted⟩

/-! ### What the passes score -/

/-- What a local assertion scores. -/
def localScored (metrics : MetricCtx) (assert : Assert) : Option Scored :=
  (evaluateLocal assert output (ctx.evalCtx vars metrics)).map (scoredOf assert)

/-- What a deferred assertion scores when it is graded. -/
def gradedScored (aborted : AbortFlag) (x : Assert × ℕ) : Option Scored :=
  match aborted, ctx.grader with
  | none, some grader => match ctx.gradedVerdict grader x.2 x.1 output vars with
    | .ok graded => some (scoredOf x.1 (ctx.gradedOutcome x.1 output graded))
    | .error _ => none
  | _, _ => none

theorem evaluateLocal_eq_none {assert : Assert} {out : Output} {eval : EvalCtx} :
    evaluateLocal assert out eval = none ↔ isLocal assert.kind = false := by
  unfold evaluateLocal
  cases isLocal assert.kind <;> simp

/-- A round of the first loop scores a local assertion and leaves any other for later. -/
theorem localStep_scored (metrics : MetricCtx) (p : AssertPass) (x : Assert × ℕ) :
    (localStep ctx output vars metrics p x).scored =
        p.scored ++ (localScored ctx output vars metrics x.1).toList ∧
      (localStep ctx output vars metrics p x).deferred =
        p.deferred ++ (if isLocal x.1.kind then [] else [x]) ∧
      (localStep ctx output vars metrics p x).aborted = p.aborted := by
  obtain ⟨assert, i⟩ := x
  simp only [localStep, localScored]
  cases hlocal : evaluateLocal assert output (ctx.evalCtx vars metrics) with
  | none =>
    have hkind := evaluateLocal_eq_none.mp hlocal
    simp [hkind]
  | some outcome =>
    have hkind : isLocal assert.kind = true := by
      rw [← Bool.not_eq_false, ← evaluateLocal_eq_none, hlocal]
      exact Option.some_ne_none outcome
    by_cases hbroken : outcome.unevaluable = true <;> simp [hbroken, hkind]

theorem localPass_foldl (metrics : MetricCtx) : ∀ (xs : List (Assert × ℕ)) (p : AssertPass),
    let q := xs.foldl (localStep ctx output vars metrics) p
    q.scored = p.scored ++ xs.filterMap (fun x => localScored ctx output vars metrics x.1) ∧
      q.deferred = p.deferred ++ xs.filter (fun x => !isLocal x.1.kind) ∧
      q.aborted = p.aborted := by
  intro xs
  induction xs with
  | nil => simp
  | cons x xs ih =>
    intro p
    obtain ⟨hscored, hdeferred, haborted⟩ := localStep_scored ctx output vars metrics p x
    obtain ⟨ihs, ihd, iha⟩ := ih (localStep ctx output vars metrics p x)
    rw [List.foldl_cons]
    refine ⟨?_, ?_, iha.trans haborted⟩
    · rw [ihs, hscored, List.append_assoc]
      cases h : localScored ctx output vars metrics x.1 <;> simp [h]
    · rw [ihd, hdeferred, List.append_assoc]
      by_cases h : isLocal x.1.kind = true <;> simp [h]

/-- **The first loop** scores the local assertions in order and leaves the others, each with
its position. -/
theorem localPass_scored (metrics : MetricCtx) (asserts : List Assert) (aborted : AbortFlag) :
    (localPass ctx output vars metrics asserts aborted).scored =
        asserts.filterMap (localScored ctx output vars metrics) ∧
      (localPass ctx output vars metrics asserts aborted).deferred =
        asserts.zipIdx.filter (fun x => !isLocal x.1.kind) ∧
      (localPass ctx output vars metrics asserts aborted).aborted = aborted := by
  obtain ⟨hscored, hdeferred, haborted⟩ := localPass_foldl ctx output vars metrics
    asserts.zipIdx (.start asserts.length aborted)
  rw [AssertPass.scored_start, List.nil_append] at hscored
  rw [AssertPass.deferred_start, List.nil_append] at hdeferred
  refine ⟨?_, hdeferred, haborted⟩
  calc (localPass ctx output vars metrics asserts aborted).scored
      = asserts.zipIdx.filterMap (localScored ctx output vars metrics ∘ Prod.fst) := hscored
    _ = (asserts.zipIdx.map Prod.fst).filterMap (localScored ctx output vars metrics) :=
        List.filterMap_map.symm
    _ = asserts.filterMap (localScored ctx output vars metrics) := by
        rw [List.zipIdx_map_fst]

/-- Skipping scores nothing. -/
theorem gradedPass_skip (p : AssertPass) : (gradedPass ctx output vars false p).scored = p.scored := by
  have hfold : ∀ (xs : List (Assert × ℕ)) (q : AssertPass),
      (xs.foldl (deferredStep ctx output vars false) q).scored = q.scored := by
    intro xs
    induction xs with
    | nil => exact fun _ => rfl
    | cons x xs ih => exact fun q => ih _
  exact hfold p.deferred p

/-- A round of the second loop scores what the grader answers, and no answer but a rejected
credential touches the abort flag. -/
theorem deferredStep_scored (p : AssertPass) (x : Assert × ℕ)
    (hauth : ∀ grader ∈ ctx.grader, ∀ status,
      ctx.gradedVerdict grader x.2 x.1 output vars ≠ .error (.authRejected status)) :
    (deferredStep ctx output vars true p x).scored =
        p.scored ++ (gradedScored ctx output vars p.aborted x).toList ∧
      (deferredStep ctx output vars true p x).aborted = p.aborted := by
  obtain ⟨assert, i⟩ := x
  simp only [deferredStep, gradedScored]
  cases haborted : p.aborted with
  | some reason => simp [AbortFlag.reason, haborted]
  | none =>
    cases hgrader : ctx.grader with
    | none => simp [AbortFlag.reason, haborted]
    | some grader =>
      have hauth := hauth grader hgrader
      cases hverdict : ctx.gradedVerdict grader i assert output vars with
      | ok graded => simp [AbortFlag.reason, haborted, hverdict]
      | error e =>
        cases e with
        | authRejected status => exact absurd hverdict (hauth status)
        | _ => simp [AbortFlag.reason, hverdict]

/-- **The second loop** scores the deferred assertions the grader answers, in order. -/
theorem gradedPass_scored (p : AssertPass)
    (hauth : ∀ x ∈ p.deferred, ∀ grader ∈ ctx.grader, ∀ status,
      ctx.gradedVerdict grader x.2 x.1 output vars ≠ .error (.authRejected status)) :
    (gradedPass ctx output vars true p).scored =
      p.scored ++ p.deferred.filterMap (gradedScored ctx output vars p.aborted) := by
  have hfold : ∀ (xs : List (Assert × ℕ)) (q : AssertPass),
      (∀ x ∈ xs, ∀ grader ∈ ctx.grader, ∀ status,
        ctx.gradedVerdict grader x.2 x.1 output vars ≠ .error (.authRejected status)) →
      (xs.foldl (deferredStep ctx output vars true) q).scored =
        q.scored ++ xs.filterMap (gradedScored ctx output vars q.aborted) := by
    intro xs
    induction xs with
    | nil => simp
    | cons x xs ih =>
      intro q hauth
      rw [List.forall_mem_cons] at hauth
      obtain ⟨hscored, haborted⟩ := deferredStep_scored ctx output vars q x hauth.1
      rw [List.foldl_cons, ih _ hauth.2, hscored, haborted, List.append_assoc]
      cases h : gradedScored ctx output vars q.aborted x <;> simp [h]
  exact hfold p.deferred p hauth

/-- The summed weight of the deferred assertions. -/
def remainingWeight (asserts : List Assert) : ℚ :=
  ((asserts.zipIdx.filter fun x => !isLocal x.1.kind).map fun x => x.1.weight).sum

/-- **What a case is scored on**: the local assertions, and the graded ones if they were asked. -/
theorem evaluateAsserts_scored (asserts : List Assert) (metrics : MetricCtx)
    (threshold : Option ℚ) (aborted : AbortFlag)
    (hauth : ∀ x ∈ asserts.zipIdx.filter (fun x => !isLocal x.1.kind), ∀ grader ∈ ctx.grader,
      ∀ status, ctx.gradedVerdict grader x.2 x.1 output vars ≠ .error (.authRejected status)) :
    (evaluateAsserts ctx output vars asserts metrics threshold aborted).scored =
      asserts.filterMap (localScored ctx output vars metrics) ++
        if !ctx.shortCircuit || remainingCanChangeOutcome
            (asserts.filterMap (localScored ctx output vars metrics)) (remainingWeight asserts)
            threshold then
          (asserts.zipIdx.filter fun x => !isLocal x.1.kind).filterMap
            (gradedScored ctx output vars aborted)
        else [] := by
  obtain ⟨hscored, hdeferred, haborted⟩ := localPass_scored ctx output vars metrics asserts aborted
  have hgraded := gradedPass_scored ctx output vars
    (localPass ctx output vars metrics asserts aborted) (hdeferred ▸ hauth)
  have hskip := gradedPass_skip ctx output vars (localPass ctx output vars metrics asserts aborted)
  rw [hscored, hdeferred, haborted] at hgraded
  rw [hscored] at hskip
  simp only [evaluateAsserts, hscored, hdeferred]
  rw [← remainingWeight]
  cases !ctx.shortCircuit || remainingCanChangeOutcome
    (asserts.filterMap (localScored ctx output vars metrics)) (remainingWeight asserts) threshold
  · simpa using hskip
  · simpa using hgraded

/-! ### One result for each assertion -/

/-- A result that is about this assertion. -/
def ResultOf (r : AssertResult) (assert : Assert) : Prop :=
  r.kind = assert.kind.name ∧ r.weight = assert.weight

/-- The slot of an assertion holds a result about it. -/
def Slot (slots : List (Option AssertResult)) (x : Assert × ℕ) : Prop :=
  ∃ r, slots[x.2]? = some (some r) ∧ ResultOf r x.1

/-- A step that fills the slot of `x`. -/
def FillsSlot (p q : AssertPass) (x : Assert × ℕ) : Prop :=
  ∃ r, ResultOf r x.1 ∧ q.results = p.results.set x.2 (some r)

theorem localStep_results (metrics : MetricCtx) (p : AssertPass) (x : Assert × ℕ) :
    if isLocal x.1.kind then FillsSlot p (localStep ctx output vars metrics p x) x
    else (localStep ctx output vars metrics p x).results = p.results := by
  obtain ⟨assert, i⟩ := x
  simp only [localStep]
  cases hlocal : evaluateLocal assert output (ctx.evalCtx vars metrics) with
  | none =>
    rw [evaluateLocal_eq_none.mp hlocal]
    exact rfl
  | some outcome =>
    have hkind : isLocal assert.kind = true := by
      rw [← Bool.not_eq_false, ← evaluateLocal_eq_none, hlocal]
      exact Option.some_ne_none outcome
    rw [if_pos hkind]
    by_cases hbroken : outcome.unevaluable = true
    · simp only [hbroken, if_true]
      exact ⟨_, ⟨rfl, rfl⟩, rfl⟩
    · simp only [if_neg hbroken]
      exact ⟨_, ⟨rfl, rfl⟩, rfl⟩

theorem deferredStep_results (matters : Bool) (p : AssertPass) (x : Assert × ℕ) :
    FillsSlot p (deferredStep ctx output vars matters p x) x := by
  obtain ⟨assert, i⟩ := x
  simp only [deferredStep]
  cases matters with
  | false => exact ⟨_, ⟨rfl, rfl⟩, rfl⟩
  | true =>
    cases p.aborted.reason with
    | some reason => exact ⟨_, ⟨rfl, rfl⟩, rfl⟩
    | none =>
      cases ctx.grader with
      | none => exact ⟨_, ⟨rfl, rfl⟩, rfl⟩
      | some grader =>
        cases hverdict : ctx.gradedVerdict grader i assert output vars <;>
          simp only [hverdict] <;> exact ⟨_, ⟨rfl, rfl⟩, rfl⟩

/-- Filling a slot keeps the ones that are filled: two entries with one position are one. -/
theorem Slot.fill {asserts : List Assert} {p q : AssertPass} {x y : Assert × ℕ}
    (hx : x ∈ asserts.zipIdx) (hy : y ∈ asserts.zipIdx) (hfill : FillsSlot p q x)
    (hslot : Slot p.results y) : Slot q.results y := by
  obtain ⟨r, hr, hq⟩ := hfill
  obtain ⟨r', hget, hr'⟩ := hslot
  rw [hq]
  by_cases hpos : x.2 = y.2
  · have hx1 := List.mem_zipIdx_iff_getElem?.mp hx
    have hy1 := List.mem_zipIdx_iff_getElem?.mp hy
    have hassert : x.1 = y.1 := by
      rw [hpos, hy1] at hx1
      exact (Option.some.inj hx1).symm
    have hlt : y.2 < p.results.length := (List.getElem?_eq_some_iff.mp hget).1
    exact ⟨r, by rw [hpos, List.getElem?_set_self hlt], hassert ▸ hr⟩
  · exact ⟨r', by rwa [List.getElem?_set_ne hpos], hr'⟩

/-- A loop whose steps fill the slots of some of its entries, and change no other. -/
theorem foldl_slots {asserts : List Assert} {step : AssertPass → Assert × ℕ → AssertPass}
    (fills : Assert × ℕ → Bool)
    (hstep : ∀ p x, if fills x then FillsSlot p (step p x) x
      else (step p x).results = p.results) :
    ∀ (xs : List (Assert × ℕ)) (p : AssertPass), (∀ x ∈ xs, x ∈ asserts.zipIdx) →
      p.results.length = asserts.length →
      (xs.foldl step p).results.length = asserts.length ∧
      ∀ y ∈ asserts.zipIdx, (Slot p.results y ∨ y ∈ xs ∧ fills y = true) →
        Slot (xs.foldl step p).results y := by
  intro xs
  -- along the assertions that the pass visits; a filled slot stays filled
  induction xs with
  | nil =>
    intro p _ hlength
    refine ⟨hlength, fun y _ h => ?_⟩
    rcases h with h | ⟨h, -⟩
    · exact h
    · exact absurd h List.not_mem_nil
  | cons x xs ih =>
    intro p hmem hlength
    rw [List.forall_mem_cons] at hmem
    have hx := hstep p x
    have hlen : (step p x).results.length = asserts.length := by
      split_ifs at hx with hf
      · obtain ⟨r, -, hr⟩ := hx
        rw [hr, List.length_set, hlength]
      · rw [hx, hlength]
    obtain ⟨hlength', hslots⟩ := ih (step p x) hmem.2 hlen
    refine ⟨hlength', fun y hy h => hslots y hy ?_⟩
    rcases h with h | ⟨h, hfy⟩
    · -- the slot was filled before this step
      left
      split_ifs at hx with hf
      · exact h.fill hmem.1 hy hx
      · rwa [hx]
    · rcases List.mem_cons.mp h with rfl | h
      · -- this step fills it
        left
        rw [if_pos hfy] at hx
        obtain ⟨r, hr, hres⟩ := hx
        have hlt : y.2 < p.results.length := by
          rw [hlength]
          exact (List.getElem?_eq_some_iff.mp (List.mem_zipIdx_iff_getElem?.mp hy)).1
        exact ⟨r, by rw [hres, List.getElem?_set_self hlt], hr⟩
      · exact .inr ⟨h, hfy⟩

/-- Filled slots, read in order. -/
theorem filterMap_slots {asserts : List Assert} {slots : List (Option AssertResult)}
    (hlength : slots.length = asserts.length) (hslots : ∀ x ∈ asserts.zipIdx, Slot slots x) :
    List.Forall₂ ResultOf (slots.filterMap id) asserts := by
  induction asserts generalizing slots with
  | nil =>
    rw [List.eq_nil_of_length_eq_zero hlength]
    exact .nil
  | cons assert asserts ih =>
    cases slots with
    | nil => simp at hlength
    | cons slot slots =>
      obtain ⟨r, hslot, hr⟩ := hslots (assert, 0) (by simp [List.zipIdx_cons])
      obtain rfl : slot = some r := by simpa using hslot
      refine .cons hr (ih (by simpa using hlength) fun x hx => ?_)
      obtain ⟨r', hslot', hr'⟩ := hslots (x.1, x.2 + 1) (by
        rw [List.mem_zipIdx_iff_getElem?] at hx ⊢
        simpa using hx)
      exact ⟨r', by simpa using hslot', hr'⟩

/-- **Every assertion gets one result**, about it and in the order of the suite. -/
theorem evaluateAsserts_results (asserts : List Assert) (metrics : MetricCtx)
    (threshold : Option ℚ) (aborted : AbortFlag) :
    List.Forall₂ ResultOf
      (evaluateAsserts ctx output vars asserts metrics threshold aborted).results asserts := by
  obtain ⟨-, hdeferred, -⟩ :=
    localPass_scored ctx output vars metrics asserts aborted
  obtain ⟨hlength, hlocals⟩ := foldl_slots (fun x => isLocal x.1.kind)
    (localStep_results ctx output vars metrics) asserts.zipIdx (.start asserts.length aborted)
    (fun _ h => h) List.length_replicate
  have hmem : ∀ x ∈ (localPass ctx output vars metrics asserts aborted).deferred,
      x ∈ asserts.zipIdx := by
    rw [hdeferred]
    exact fun x hx => List.mem_of_mem_filter hx
  obtain ⟨hlength', hslots⟩ := foldl_slots (fun _ => true) (deferredStep_results ctx output vars _)
    (localPass ctx output vars metrics asserts aborted).deferred _ hmem hlength
  refine filterMap_slots hlength' fun x hx => hslots x hx ?_
  by_cases hlocal : isLocal x.1.kind = true
  · exact .inl (hlocals x hx (.inr ⟨hx, hlocal⟩))
  · refine .inr ⟨?_, rfl⟩
    rw [hdeferred, List.mem_filter]
    exact ⟨hx, by simpa using hlocal⟩

end
