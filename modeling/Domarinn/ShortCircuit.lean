/-
Skipping the grader when the case is decided.

With `short_circuit` on, `evaluateAsserts` leaves the graded assertions out as soon as the
local ones settle the verdict.  `casePasses` is the verdict; the switch should not show in it.

* **`shortCircuit_agrees_iff`** — it does not, except in one situation: no threshold, every
  local assertion passes, no graded one has weight, and one of them fails.  Nothing remains
  to be weighed, so the failing assertion is not asked;
* **`weightless_rubric_skipped`** — a case of that kind: it fails when graded, and passes
  when short-circuited.
-/
import Domarinn.RunnerAsserts

/-- Whether the case passes, with the switch on or off. -/
def casePasses (ctx : AssertCtx) (output : Output) (vars : Json) (asserts : List Assert)
    (metrics : MetricCtx) (threshold : Option ℚ) (aborted : AbortFlag) (shortCircuit : Bool) :
    Bool :=
  (caseVerdict (evaluateAsserts { ctx with shortCircuit } output vars asserts metrics threshold
    aborted).scored threshold).passed

/-- The grader answers every graded assertion, with a score between `0` and `1`. -/
def GraderAnswers (ctx : AssertCtx) (output : Output) (vars : Json) (asserts : List Assert) :
    Prop :=
  ∃ grader, ctx.grader = some grader ∧ ∀ x ∈ asserts.zipIdx, isLocal x.1.kind = false →
    ∃ graded, grader x.2 x.1 output (ctx.gradeCtx vars) = .ok graded ∧ graded.verdict.UnitScore

/-- A failing graded assertion that short-circuiting does not ask, although the case would
fail with it. -/
structure WeightlessFailure (ctx : AssertCtx) (output : Output) (vars : Json)
    (asserts : List Assert) (metrics : MetricCtx) (threshold : Option ℚ) (aborted : AbortFlag) :
    Prop where
  noThreshold : threshold = none
  localsPass : ∀ assert ∈ asserts, ∀ outcome,
    evaluateLocal assert output (ctx.evalCtx vars metrics) = some outcome → outcome.passed = true
  weightless : ∀ assert ∈ asserts, isLocal assert.kind = false → assert.weight = 0
  running : aborted = none
  gradedFails : ∃ x ∈ asserts.zipIdx, isLocal x.1.kind = false ∧ ∃ grader ∈ ctx.grader,
    ∃ graded, ctx.gradedVerdict grader x.2 x.1 output vars = .ok graded ∧
      (ctx.gradedOutcome x.1 output graded).passed = false

section
variable {ctx : AssertCtx} {output : Output} {vars : Json} {asserts : List Assert}
  {metrics : MetricCtx} {threshold : Option ℚ} {aborted : AbortFlag}

/-! ### The outcomes are in the unit interval -/

variable (ctx output vars metrics) in
theorem inUnit_locals (hw : ∀ assert ∈ asserts, 0 ≤ assert.weight) :
    InUnit (asserts.filterMap (localScored ctx output vars metrics)) := by
  intro s hs
  obtain ⟨assert, hmem, hs⟩ := List.mem_filterMap.mp hs
  obtain ⟨outcome, hout, rfl⟩ := Option.map_eq_some_iff.mp hs
  have hlocal : isLocal assert.kind = true := by
    rw [← Bool.not_eq_false, ← evaluateLocal_eq_none, hout]
    exact Option.some_ne_none outcome
  obtain ⟨outcome', hout', hunit⟩ :=
    evaluateLocal_unitScore output (ctx.evalCtx vars metrics) hlocal
  obtain rfl : outcome = outcome' := Option.some.inj (hout.symm.trans hout')
  exact ⟨hw assert hmem, hunit⟩

/-- What a graded assertion scores, by what the grader answers. -/
theorem gradedScored_eq_some {x : Assert × ℕ} {s : Scored} :
    gradedScored ctx output vars aborted x = some s ↔
      aborted = none ∧ ∃ grader ∈ ctx.grader, ∃ graded,
        ctx.gradedVerdict grader x.2 x.1 output vars = .ok graded ∧
        s = scoredOf x.1 (ctx.gradedOutcome x.1 output graded) := by
  unfold gradedScored
  cases aborted with
  | some reason =>
    refine iff_of_false (fun h => by cases h) ?_
    rintro ⟨h, -⟩
    cases h
  | none =>
    cases ctx.grader with
    | none =>
      refine iff_of_false (fun h => by cases h) ?_
      rintro ⟨-, grader, hgrader, -⟩
      cases hgrader
    | some grader =>
      simp only [Option.mem_some_iff, exists_eq_left', true_and]
      cases ctx.gradedVerdict grader x.2 x.1 output vars with
      | ok graded =>
        simp only [Except.ok.injEq, exists_eq_left', Option.some.injEq]
        exact eq_comm
      | error e =>
        refine iff_of_false (fun h => by cases h) ?_
        rintro ⟨graded, hgraded, -⟩
        cases hgraded

/-- An answer that counts is an answer of the grader. -/
theorem gradedVerdict_eq_ok {grader : AssertGrader} {i : ℕ} {assert : Assert} {graded : Graded}
    (h : ctx.gradedVerdict grader i assert output vars = .ok graded) :
    grader i assert output (ctx.gradeCtx vars) = .ok graded := by
  unfold AssertCtx.gradedVerdict at h
  split_ifs at h
  exact h

variable (aborted) in
theorem inUnit_graded (hw : ∀ assert ∈ asserts, 0 ≤ assert.weight)
    (hgrader : GraderAnswers ctx output vars asserts) :
    InUnit ((asserts.zipIdx.filter fun x => !isLocal x.1.kind).filterMap
      (gradedScored ctx output vars aborted)) := by
  intro s hs
  obtain ⟨x, hx, hs⟩ := List.mem_filterMap.mp hs
  obtain ⟨hmem, hlocal⟩ := List.mem_filter.mp hx
  rw [Bool.not_eq_true'] at hlocal
  obtain ⟨-, grader, hg, graded, hverdict, rfl⟩ := gradedScored_eq_some.mp hs
  obtain ⟨grader', hg', hanswers⟩ := hgrader
  obtain rfl : grader = grader' := Option.some.inj (hg.symm.trans hg')
  obtain ⟨graded', hok, hunit⟩ := hanswers x hmem hlocal
  obtain rfl : graded = graded' := Except.ok.inj ((gradedVerdict_eq_ok hverdict).symm.trans hok)
  have hassert : x.1 ∈ asserts := List.fst_mem_of_mem_zipIdx hmem
  exact ⟨hw x.1 hassert, unitScore_negateAndGuard (hunit.toOutcome _) x.1 output ctx.toolCalls
    ctx.emptyReason⟩

/-! ### Weights -/

variable (ctx output vars aborted) in
/-- What is graded weighs no more than what remained. -/
theorem totalWeight_graded_le (hw : ∀ assert ∈ asserts, 0 ≤ assert.weight) :
    totalWeight ((asserts.zipIdx.filter fun x => !isLocal x.1.kind).filterMap
      (gradedScored ctx output vars aborted)) ≤ remainingWeight asserts := by
  have hfold : ∀ xs : List (Assert × ℕ), (∀ x ∈ xs, 0 ≤ x.1.weight) →
      totalWeight (xs.filterMap (gradedScored ctx output vars aborted)) ≤
        (xs.map fun x => x.1.weight).sum := by
    intro xs
    induction xs with
    | nil => simp [WeightedMean.total]
    | cons x xs ih =>
      intro hxs
      rw [List.forall_mem_cons] at hxs
      have htail := ih hxs.2
      cases hs : gradedScored ctx output vars aborted x with
      | none =>
        rw [List.filterMap_cons_none hs, List.map_cons, List.sum_cons]
        exact le_add_of_nonneg_of_le hxs.1 htail
      | some s =>
        obtain ⟨-, grader, -, graded, -, rfl⟩ := gradedScored_eq_some.mp hs
        rw [List.filterMap_cons_some hs, totalWeight, WeightedMean.total, List.map_cons,
          List.sum_cons, List.map_cons, List.sum_cons]
        exact add_le_add le_rfl htail
  refine hfold _ fun x hx => hw x.1 ?_
  exact List.fst_mem_of_mem_zipIdx (List.mem_of_mem_filter hx)

/-- Nothing remains to be weighed when no graded assertion has weight. -/
theorem remainingWeight_eq_zero (hw : ∀ assert ∈ asserts, 0 ≤ assert.weight) :
    remainingWeight asserts = 0 ↔
      ∀ assert ∈ asserts, isLocal assert.kind = false → assert.weight = 0 := by
  have hnonneg : ∀ v ∈ ((asserts.zipIdx.filter fun x => !isLocal x.1.kind).map
      fun x => x.1.weight), 0 ≤ v := by
    intro v hv
    obtain ⟨x, hx, rfl⟩ := List.mem_map.mp hv
    exact hw x.1 (List.fst_mem_of_mem_zipIdx (List.mem_of_mem_filter hx))
  constructor
  · intro hsum assert hassert hlocal
    obtain ⟨i, hi⟩ := List.getElem?_of_mem hassert
    have hmem : (assert, i) ∈ asserts.zipIdx := List.mem_zipIdx_iff_getElem?.mpr hi
    refine List.all_zero_of_le_zero_le_of_sum_eq_zero hnonneg hsum ?_
    exact List.mem_map.mpr ⟨(assert, i), List.mem_filter.mpr ⟨hmem, by simpa using hlocal⟩, rfl⟩
  · intro hzero
    refine List.sum_eq_zero fun v hv => ?_
    obtain ⟨x, hx, rfl⟩ := List.mem_map.mp hv
    obtain ⟨hmem, hlocal⟩ := List.mem_filter.mp hx
    exact hzero x.1 (List.fst_mem_of_mem_zipIdx hmem) (by simpa using hlocal)

/-! ### The verdicts with and without the switch -/

/-- The grader has no credential to lose. -/
theorem GraderAnswers.not_rejected (hgrader : GraderAnswers ctx output vars asserts) :
    ∀ x ∈ asserts.zipIdx.filter (fun x => !isLocal x.1.kind), ∀ grader ∈ ctx.grader, ∀ status,
      ctx.gradedVerdict grader x.2 x.1 output vars ≠ .error (.authRejected status) := by
  intro x hx grader hg status hverdict
  obtain ⟨hmem, hlocal⟩ := List.mem_filter.mp hx
  obtain ⟨grader', hg', hanswers⟩ := hgrader
  obtain rfl : grader = grader' := Option.some.inj (hg.symm.trans hg')
  obtain ⟨graded, hok, -⟩ := hanswers x hmem (by simpa using hlocal)
  unfold AssertCtx.gradedVerdict at hverdict
  split_ifs at hverdict
  · -- refused because an offline run has no cache to replay from
    cases hverdict
  · rw [hok] at hverdict
    cases hverdict

/-- The verdict over the local assertions, and over all of them. -/
theorem casePasses_eq (hgrader : GraderAnswers ctx output vars asserts) (shortCircuit : Bool) :
    casePasses ctx output vars asserts metrics threshold aborted shortCircuit =
      (caseVerdict (asserts.filterMap (localScored ctx output vars metrics) ++
        if !shortCircuit || remainingCanChangeOutcome
            (asserts.filterMap (localScored ctx output vars metrics)) (remainingWeight asserts)
            threshold then
          (asserts.zipIdx.filter fun x => !isLocal x.1.kind).filterMap
            (gradedScored ctx output vars aborted)
        else []) threshold).passed := by
  rw [casePasses, evaluateAsserts_scored]
  · rfl
  · exact hgrader.not_rejected

/-- A failure of the graded assertions, by what they score. -/
theorem graded_all_passed_iff :
    ((asserts.zipIdx.filter fun x => !isLocal x.1.kind).filterMap
      (gradedScored ctx output vars aborted)).all Scored.passed = false ↔
    aborted = none ∧ ∃ x ∈ asserts.zipIdx, isLocal x.1.kind = false ∧ ∃ grader ∈ ctx.grader,
      ∃ graded, ctx.gradedVerdict grader x.2 x.1 output vars = .ok graded ∧
        (ctx.gradedOutcome x.1 output graded).passed = false := by
  rw [List.all_eq_false]
  constructor
  · rintro ⟨s, hs, hfail⟩
    obtain ⟨x, hx, hscored⟩ := List.mem_filterMap.mp hs
    obtain ⟨hmem, hlocal⟩ := List.mem_filter.mp hx
    obtain ⟨hrunning, grader, hg, graded, hverdict, rfl⟩ := gradedScored_eq_some.mp hscored
    exact ⟨hrunning, x, hmem, by simpa using hlocal, grader, hg, graded, hverdict,
      by simpa [scoredOf] using hfail⟩
  · rintro ⟨hrunning, x, hmem, hlocal, grader, hg, graded, hverdict, hfail⟩
    refine ⟨scoredOf x.1 (ctx.gradedOutcome x.1 output graded), ?_, by simpa [scoredOf] using hfail⟩
    refine List.mem_filterMap.mpr ⟨x, List.mem_filter.mpr ⟨hmem, by simpa using hlocal⟩, ?_⟩
    exact gradedScored_eq_some.mpr ⟨hrunning, grader, hg, graded, hverdict, rfl⟩

theorem locals_all_passed_iff :
    (asserts.filterMap (localScored ctx output vars metrics)).all Scored.passed = true ↔
      ∀ assert ∈ asserts, ∀ outcome, evaluateLocal assert output (ctx.evalCtx vars metrics) =
        some outcome → outcome.passed = true := by
  rw [List.all_eq_true]
  constructor
  · intro h assert hassert outcome hout
    refine h (scoredOf assert outcome) (List.mem_filterMap.mpr ⟨assert, hassert, ?_⟩)
    rw [localScored, hout, Option.map_some]
  · intro h s hs
    obtain ⟨assert, hassert, hs⟩ := List.mem_filterMap.mp hs
    obtain ⟨outcome, hout, rfl⟩ := Option.map_eq_some_iff.mp hs
    exact h assert hassert outcome hout

/-- The situation of a weightless failure, by what is scored. -/
theorem weightlessFailure_iff (hw : ∀ assert ∈ asserts, 0 ≤ assert.weight) :
    WeightlessFailure ctx output vars asserts metrics threshold aborted ↔
      threshold = none ∧
      (asserts.filterMap (localScored ctx output vars metrics)).all Scored.passed = true ∧
      remainingWeight asserts = 0 ∧
      ((asserts.zipIdx.filter fun x => !isLocal x.1.kind).filterMap
        (gradedScored ctx output vars aborted)).all Scored.passed = false := by
  rw [graded_all_passed_iff, locals_all_passed_iff, remainingWeight_eq_zero hw]
  constructor
  · rintro ⟨h1, h2, h3, h4, h5⟩
    exact ⟨h1, h2, h3, h4, h5⟩
  · rintro ⟨h1, h2, h3, h4, h5⟩
    exact ⟨h1, h2, h3, h4, h5⟩

/-- **Short-circuiting agrees with full evaluation except over a weightless failure.** -/
theorem shortCircuit_agrees_iff (hw : ∀ assert ∈ asserts, 0 ≤ assert.weight)
    (hgrader : GraderAnswers ctx output vars asserts) :
    casePasses ctx output vars asserts metrics threshold aborted true =
        casePasses ctx output vars asserts metrics threshold aborted false ↔
      ¬WeightlessFailure ctx output vars asserts metrics threshold aborted := by
  have hlocals := inUnit_locals ctx output vars metrics hw
  have hgraded := inUnit_graded aborted hw hgrader
  have hle := totalWeight_graded_le ctx output vars aborted hw
  rw [casePasses_eq hgrader, casePasses_eq hgrader, weightlessFailure_iff hw]
  generalize asserts.filterMap (localScored ctx output vars metrics) = locals at *
  generalize (asserts.zipIdx.filter fun x => !isLocal x.1.kind).filterMap
    (gradedScored ctx output vars aborted) = graded at *
  have htotal := WeightedMean.total_nonneg hgraded
  have hrem : 0 ≤ remainingWeight asserts := htotal.trans hle
  simp only [Bool.not_true, Bool.false_or, Bool.not_false, Bool.true_or, if_true]
  by_cases hzero : remainingWeight asserts = 0
  · -- nothing is left to weigh: the graded assertions are skipped, and do not count
    -- for a threshold
    have hweightless : totalWeight graded = 0 := le_antisymm (hle.trans hzero.le) htotal
    rw [hzero, canChange_weightless, verdict_weightless threshold hgraded hweightless]
    simp only [Bool.false_eq_true, if_false, List.append_nil]
    cases threshold with
    | none =>
      rw [caseVerdict_none]
      cases locals.all Scored.passed <;> cases graded.all Scored.passed <;> simp
    | some t => simp
  · -- some weight is left, so a no is final
    have hpos : 0 < remainingWeight asserts := lt_of_le_of_ne hrem (Ne.symm hzero)
    refine iff_of_true ?_ fun h => hzero h.2.2.1
    cases hcan : remainingCanChangeOutcome locals (remainingWeight asserts) threshold with
    | true => simp
    | false =>
      obtain ⟨verdict, hfixed⟩ := verdict_decided hlocals hpos hcan
      have hempty : InUnit [] := fun _ h => absurd h List.not_mem_nil
      have hskipped := hfixed [] hempty (by simpa [WeightedMean.total] using hrem)
      have hasked := hfixed graded hgraded hle
      simpa using hskipped.trans hasked.symm

end

/-! ### A case with one rubric -/

/-- A case without templates, schemas or tool calls, whose grader answers with `graded`. -/
def rubricCtx (graded : Graded) : AssertCtx :=
  { libs := ⟨fun e => .error e, fun _ => none, id, id, fun _ => none⟩
    providerId := "p", testId := "t", testTags := []
    engine := ⟨fun text _ => .ok text, fun e _ => .error e⟩
    grader := some fun _ _ _ _ => .ok graded
    baseDir := ".", schemas := fun _ => .ok fun _ => [], toolCalls := [], emptyReason := none
    cacheMode := .readWrite, graderCache := true, repeatIdx := 0, shortCircuit := true }

/-- An `llm-rubric` of some weight. -/
def rubric (weight : ℚ) : Assert := ⟨weight, false, .llmRubric "is polite" none none none⟩

/-- A failing verdict of the judge. -/
def impolite : Graded := ⟨.rubric 0 false "it is not", none, none, none, false⟩

/-- **A weightless rubric is not asked**: graded it fails the case, short-circuited the case
passes. -/
theorem weightless_rubric_skipped :
    (∀ assert ∈ [rubric 0], 0 ≤ assert.weight) ∧
    GraderAnswers (rubricCtx impolite) (.text "hello") .null [rubric 0] ∧
    casePasses (rubricCtx impolite) (.text "hello") .null [rubric 0] ⟨1, none, none, none⟩ none
      none true = true ∧
    casePasses (rubricCtx impolite) (.text "hello") .null [rubric 0] ⟨1, none, none, none⟩ none
      none false = false := by
  refine ⟨by decide, ⟨_, rfl, ?_⟩, by decide +kernel, by decide +kernel⟩
  intro x _ _
  exact ⟨impolite, rfl, le_rfl, zero_le_one⟩

/-- With any weight the same rubric is asked. -/
theorem weighted_rubric_asked :
    casePasses (rubricCtx impolite) (.text "hello") .null [rubric 1] ⟨1, none, none, none⟩ none
        none true =
      casePasses (rubricCtx impolite) (.text "hello") .null [rubric 1] ⟨1, none, none, none⟩ none
        none false := by
  refine (shortCircuit_agrees_iff (by decide) ⟨_, rfl, ?_⟩).mpr fun h => ?_
  · intro x _ _
    exact ⟨impolite, rfl, le_rfl, zero_le_one⟩
  · have hzero := h.weightless (rubric 1) List.mem_cons_self rfl
    exact absurd hzero (by decide)
