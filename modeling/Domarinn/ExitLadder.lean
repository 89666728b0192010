/-
The exit code of a run: the end of `run`, from a completed result to the code of the process.

A result is compared with a baseline and shared, and then a ladder reads the faults of its cases,
the counters of its summary and what became of both.

* **`summarized_counts`** — the counters of a summary are counts, whether or not additions of
  tokens are checked;
* **`hasRegression_iff`** — a diff has a regression exactly when a case is newly failing;
* **`exitCode_cases`** — the ladder, rung by rung;
* **`exit_ladder`** — a green exit means graded, compared and shared; and the other codes are what
  the faults ask for.
-/
import Domarinn.RunDiff
import Domarinn.RunDocument

/-! ### The counters of a summary -/

/-- `+=` on a `u64`, in a build that does not check it. -/
def addWrapping (a b : ℕ) : ℕ := (a + b) % 2 ^ 64

/-- The tokens of a case, in such a build. -/
def RunSummary.addUsageWrapping (s : RunSummary) : Option TokenUsage → RunSummary
  | none => s
  | some u =>
    { s with
      promptTokens :=
        addWrapping s.promptTokens (saturatingAdd u.inputTokens (u.cacheReadTokens.getD 0))
      completionTokens := addWrapping s.completionTokens u.outputTokens
      cacheReadTokens := addWrapping s.cacheReadTokens (u.cacheReadTokens.getD 0)
      cacheWriteTokens := addWrapping s.cacheWriteTokens (u.cacheWriteTokens.getD 0) }

/-- What the pass does with one case, in such a build. -/
def Accumulators.summarizeCaseWrapping (a : Accumulators) (c : CaseResult) : Accumulators :=
  let a := { a with s := (a.s.countStatus c.status).addUsageWrapping c.usage }.addCost c.costUsd
    c.cached
  let a := c.asserts.foldl Accumulators.addGraderCost a
  let s := a.s.countCache c.cached c.attempts
  let s := s.countFallback c.status c.answeredByProviderId
  { a with s := s.countEmpty c.emptyReason }

/-- `summarize`, in such a build. -/
def summarizeWrapping (cases : List CaseResult) : RunSummary :=
  (cases.foldl Accumulators.summarizeCaseWrapping { s := { total := cases.length } }).finish

/-- The summary that `summarize` computes from these cases, in a build of either kind. -/
def Summarized (cases : List CaseResult) (s : RunSummary) : Prop :=
  summarize cases = some s ∨ s = summarizeWrapping cases

/-- The counters that the ladder reads are counts. -/
structure GateCounts (cases : List CaseResult) (s : RunSummary) : Prop where
  failed : s.failed = countOf cases .fail
  skipped : s.skipped = countOf cases .skip
  xpassed : s.xpassed = countOf cases .xpass
  fallbackCases : s.fallbackCases = cases.countP CaseResult.fellBack

/-- Tokens are apart from what is counted. -/
theorem addUsageWrapping_counters (s : RunSummary) (u : Option TokenUsage) :
    (s.addUsageWrapping u).total = s.total ∧ (s.addUsageWrapping u).failed = s.failed ∧
      (s.addUsageWrapping u).skipped = s.skipped ∧ (s.addUsageWrapping u).xpassed = s.xpassed ∧
      (s.addUsageWrapping u).fallbackCases = s.fallbackCases := by
  cases u with
  | none => exact ⟨rfl, rfl, rfl, rfl, rfl⟩
  | some u => exact ⟨rfl, rfl, rfl, rfl, rfl⟩

/-- The counters with one more case. -/
theorem summarizeCaseWrapping_counters (a : Accumulators) (c : CaseResult) :
    (a.summarizeCaseWrapping c).s.total = a.s.total ∧
      (a.summarizeCaseWrapping c).s.failed = a.s.failed + (if c.status = .fail then 1 else 0) ∧
      (a.summarizeCaseWrapping c).s.skipped = a.s.skipped + (if c.status = .skip then 1 else 0) ∧
      (a.summarizeCaseWrapping c).s.xpassed = a.s.xpassed + (if c.status = .xpass then 1 else 0) ∧
      (a.summarizeCaseWrapping c).s.fallbackCases =
        a.s.fallbackCases + (if c.fellBack then 1 else 0) := by
  have hs : (a.summarizeCaseWrapping c).s =
      ((((a.s.countStatus c.status).addUsageWrapping c.usage).countCache c.cached
        c.attempts).countFallback c.status c.answeredByProviderId).countEmpty c.emptyReason := by
    simp only [Accumulators.summarizeCaseWrapping, Accumulators.foldl_addGraderCost,
      Accumulators.addCost_eq]
  obtain ⟨htotal, hfailed, hskipped, hxpassed, hfallback⟩ :=
    addUsageWrapping_counters (a.s.countStatus c.status) c.usage
  rw [RunSummary.countStatus_eq] at htotal hfailed hskipped hxpassed hfallback hs
  rw [hs, RunSummary.countEmpty_eq, RunSummary.countFallback_eq, RunSummary.countCache_eq]
  exact ⟨htotal, hfailed, hskipped, hxpassed, congrArg (· + _) hfallback⟩

theorem counts_step {cases : List CaseResult} {a : Accumulators} (c : CaseResult)
    (h : GateCounts cases a.s) : GateCounts (cases ++ [c]) (a.summarizeCaseWrapping c).s := by
  obtain ⟨-, hfailed, hskipped, hxpassed, hfallback⟩ := summarizeCaseWrapping_counters a c
  have hcount : ∀ status, countOf (cases ++ [c]) status =
      countOf cases status + (if c.status = status then 1 else 0) := by
    intro status
    simp only [countOf, List.countP_append, List.countP_singleton, decide_eq_true_eq]
  refine ⟨?_, ?_, ?_, ?_⟩
  · rw [hfailed, h.failed, hcount]
  · rw [hskipped, h.skipped, hcount]
  · rw [hxpassed, h.xpassed, hcount]
  · rw [hfallback, h.fallbackCases, List.countP_append, List.countP_singleton]

/-- **The counters of a summary are counts**, in a build of either kind. -/
theorem summarized_counts {cases : List CaseResult} {s : RunSummary} (h : Summarized cases s) :
    s.total = cases.length ∧ GateCounts cases s := by
  rcases h with h | rfl
  · obtain ⟨-, rfl⟩ := summarize_eq_some.mp h
    exact ⟨rfl, rfl, rfl, rfl, rfl⟩
  · have hfold : ∀ n, (cases.foldl Accumulators.summarizeCaseWrapping
        { s := { total := n } }).s.total = n ∧ GateCounts cases
          (cases.foldl Accumulators.summarizeCaseWrapping { s := { total := n } }).s := by
      intro n
      induction cases using List.reverseRecOn with
      | nil => exact ⟨rfl, rfl, rfl, rfl, rfl⟩
      | append_singleton cases c ih =>
        rw [List.foldl_append, List.foldl_cons, List.foldl_nil]
        exact ⟨(summarizeCaseWrapping_counters _ c).1.trans ih.1, counts_step c ih.2⟩
    obtain ⟨htotal, hfailed, hskipped, hxpassed, hfallback⟩ := hfold cases.length
    exact ⟨htotal, hfailed, hskipped, hxpassed, hfallback⟩

/-! ### The faults of cases -/

/-- `GateFault`: who has to act on an errored case. -/
inductive GateFault where
  | suite
  | harness
deriving DecidableEq

/-- The greater of two faults: a broken harness outranks a bad suite. -/
def GateFault.max : GateFault → GateFault → GateFault
  | .suite, .suite => .suite
  | _, _ => .harness

/-- `gate_fault`: only the classes of the suite are named. -/
def ErrorClass.gateFault (k : ErrorClass) : GateFault :=
  if k ∈ [ErrorClass.graderMissing, ErrorClass.renderFailed, ErrorClass.assertFailed,
    ErrorClass.checkerFailed] then .suite else .harness

/-- The fault of an errored case; one without a class is the harness's. -/
def CaseDocument.fault (c : CaseDocument) : GateFault :=
  (c.errorClass.map ErrorClass.gateFault).getD .harness

/-- `worst_gate_fault`. -/
def worstGateFault (cases : List CaseDocument) : Option GateFault :=
  ((cases.filter fun c => c.status = .error).map CaseDocument.fault).foldl
    (fun worst fault => some ((worst.map (·.max fault)).getD fault)) none

/-- The worst fault of a list, after one that may have been found before. -/
theorem foldl_worst (faults : List GateFault) (worst : Option GateFault) (fault : GateFault) :
    faults.foldl (fun worst fault => some ((worst.map (·.max fault)).getD fault)) worst =
        some fault ↔
      if fault = .harness then some .harness = worst ∨ .harness ∈ faults
      else (some .suite = worst ∨ .suite ∈ faults) ∧ ¬(some .harness = worst ∨ .harness ∈ faults) := by
  induction faults generalizing worst with
  | nil =>
    rcases worst with _ | worst
    · cases fault <;> simp
    · cases worst <;> cases fault <;> simp
  | cons f faults ih =>
    rw [List.foldl_cons, ih]
    rcases worst with _ | worst
    · cases f <;> cases fault <;> simp
    · cases worst <;> cases f <;> cases fault <;> simp [GateFault.max]

theorem mem_faults {cases : List CaseDocument} {fault : GateFault} :
    fault ∈ (cases.filter fun c => c.status = .error).map CaseDocument.fault ↔
      ∃ c ∈ cases, c.status = .error ∧ c.fault = fault := by
  simp only [List.mem_map, List.mem_filter, decide_eq_true_eq, and_assoc]

theorem worstGateFault_harness {cases : List CaseDocument} :
    worstGateFault cases = some .harness ↔
      ∃ c ∈ cases, c.status = .error ∧ c.fault = .harness := by
  rw [worstGateFault, foldl_worst, if_pos rfl, ← mem_faults]
  simp only [reduceCtorEq, false_or]

theorem worstGateFault_suite {cases : List CaseDocument} :
    worstGateFault cases = some .suite ↔
      (∃ c ∈ cases, c.status = .error ∧ c.fault = .suite) ∧
        ¬∃ c ∈ cases, c.status = .error ∧ c.fault = .harness := by
  rw [worstGateFault, foldl_worst, if_neg (by decide), ← mem_faults, ← mem_faults]
  simp only [reduceCtorEq, false_or]

/-! ### The baseline -/

/-- Why a baseline that was asked for could not be produced. -/
inductive BaselineError where
  | absent (message : String)
  | failed (message : String)

/-- Where baselines of a run are looked up. -/
structure BaselineSources where
  /-- The newest runs on a branch, merged. -/
  mergedOnBranch : String → Option RunResult
  latestForSuite : Option String
  /-- A stored run, by its path. -/
  readRun : String → Except String RunResult
  loadRun : String → Except String RunResult
  /-- The server's pinned baseline, or that of a branch. -/
  fromServer : Option String → Except BaselineError RunResult

/-- `strip_prefix`. -/
def stripPrefix? (stem s : String) : Option String :=
  if stem.toList.isPrefixOf s.toList then some (String.ofList (s.toList.drop stem.length)) else none

/-- `effective`: the reference in force, if a comparison is. -/
def Baseline.effective (flag suiteBranch : Option String) (serverConfigured : Bool) : Option String :=
  match flag with
  | some explicit => if explicit = "none" then none else some explicit
  | none => suiteBranch.map fun branch =>
    (if serverConfigured then "server:branch:" else "branch:") ++ branch

/-- `label`. -/
def Baseline.label (run : RunResult) : String :=
  match run.project, run.suite with
  | some p, some s => p ++ "/" ++ s
  | none, some s => s
  | some p, none => p ++ "/(unnamed suite)"
  | none, none => "(unnamed suite)"

/-- `same_suite`. -/
def Baseline.sameSuite (base head : RunResult) : Except BaselineError Unit :=
  if base.project = head.project ∧ base.suite = head.suite then .ok ()
  else .error (.failed ("baseline " ++ base.runId ++ " is " ++ Baseline.label base ++
    ", but this run is " ++ Baseline.label head ++ " — comparing different suites is never meaningful"))

/-- `resolve`. -/
def Baseline.resolve (sources : BaselineSources) (reference : String) (head : RunResult) :
    Except BaselineError RunResult :=
  if reference = "server:baseline" then sources.fromServer none
  else if let some branch := stripPrefix? "server:branch:" reference then
    if branch.isEmpty then .error (.failed "`--against server:branch:` names no branch")
    else sources.fromServer (some branch)
  else if (stripPrefix? "server:" reference).isSome then
    .error (.failed ("unknown server reference '" ++ reference ++
      "'; expected `server:baseline` or `server:branch:<name>`"))
  else if let some branch := stripPrefix? "branch:" reference then
    if branch.isEmpty then .error (.failed "`--against branch:` names no branch")
    else match sources.mergedOnBranch branch with
      | some base => .ok base
      | none => .error (.absent ("no earlier local runs of " ++ Baseline.label head ++ " on branch " ++
        branch ++ " to merge into a baseline"))
  else if reference = "latest" then
    match sources.latestForSuite with
    | some path => (sources.readRun path).mapError .failed
    | none => .error (.absent ("no earlier local run of " ++ Baseline.label head ++ " to compare against"))
  else do
    let base ← (sources.loadRun reference).mapError .failed
    Baseline.sameSuite base head
    return base

/-! ### The ladder -/

/-- The exit codes of the command line. -/
inductive Exit where
  | ok
  | assertFail
  | usage
  | infra
deriving DecidableEq

def Exit.code : Exit → ℕ
  | ok => 0
  | assertFail => 1
  | usage => 2
  | infra => 3

/-- `has_regression`. -/
def RunDiff.hasRegression (d : RunDiff) : Bool := 0 < d.summary.newlyFailing

/-- `graded_nothing`. -/
def gradedNothing (summary : RunSummary) : Bool :=
  0 < summary.total ∧ summary.skipped = summary.total

/-- `answered_entirely_by_fallbacks`. -/
def answeredEntirelyByFallbacks (summary : RunSummary) : Bool :=
  let graded := summary.total - summary.skipped
  0 < graded ∧ summary.fallbackCases = graded

/-- The ladder, after the baseline was compared and the run shared. -/
def exitCode (shareFailed baselineUnresolved regressed : Bool) (result : RunDocument) : Exit :=
  let worstFault := worstGateFault result.documents
  if shareFailed ∨ worstFault = some .harness then .infra
  else if worstFault = some .suite then .usage
  else if baselineUnresolved then .usage
  else if gradedNothing result.summary then .usage
  else if answeredEntirelyByFallbacks result.summary then .usage
  else if 0 < result.summary.failed ∨ 0 < result.summary.xpassed ∨ regressed then .assertFail
  else .ok

/-- The flags that the end of `run` reads. -/
structure RunFlags where
  against : Option String
  share : Bool
  allowShareFailure : Bool

/-- What the end of `run` meets: the suite's own branch, where baselines are, whether every output
was written, and what the upload came to. -/
structure RunSurroundings where
  suiteBranch : Option String
  serverConfigured : Bool
  sources : BaselineSources
  written : Bool
  upload : Except String String

/-- What became of the baseline, if one was requested. -/
def baselineOutcome (flags : RunFlags) (at_ : RunSurroundings) (head : RunResult) :
    Option (Except BaselineError RunResult) :=
  (Baseline.effective flags.against at_.suiteBranch at_.serverConfigured).map fun reference =>
    Baseline.resolve at_.sources reference head

/-- `regressed`: a baseline was resolved, and the run has a regression against it. -/
def regressedAgainst (outcome : Option (Except BaselineError RunResult)) (head : RunResult) :
    Bool :=
  match outcome with
  | some (.ok base) => (diffRuns base head).hasRegression
  | _ => false

/-- `baseline_unresolved`: a baseline was asked for and could not be produced. -/
def baselineUnresolved (outcome : Option (Except BaselineError RunResult)) : Bool :=
  match outcome with
  | some (.error (.failed _)) => true
  | _ => false

/-- `share_failed`: an upload did not happen that must. -/
def shareFailed (flags : RunFlags) (upload : Except String String) : Bool :=
  flags.share && !upload.isOk && !flags.allowShareFailure

/-- The end of `run`, on a completed result. -/
def finishRun (flags : RunFlags) (at_ : RunSurroundings) (result : RunDocument) : Exit :=
  if !at_.written then .infra
  else
    let outcome := baselineOutcome flags at_ result.toRunResult
    exitCode (shareFailed flags at_.upload) (baselineUnresolved outcome)
      (regressedAgainst outcome result.toRunResult) result

/-! ### What a green exit means -/

/-- A case that passed in the base fails in the head. -/
def NewlyFails (base head : RunResult) : Prop :=
  ∃ hc ∈ head.cases, ∃ bc, byKey base.cases hc.caseKey = some bc ∧
    bc.status.passed = true ∧ hc.status.passed = false

/-- **A diff has a regression exactly when a case is newly failing.** -/
theorem hasRegression_iff (base head : RunResult) :
    (diffRuns base head).hasRegression = true ↔ NewlyFails base head := by
  have hnewly : (diffRuns base head).summary.newlyFailing =
      countDelta (head.cases.map (headDelta base.cases) ++
        (removedCases base head).map removedDelta) .newlyFailing := by
    rw [diffRuns_eq]
    rfl
  rw [RunDiff.hasRegression, decide_eq_true_iff, hnewly, countDelta, List.countP_pos_iff]
  simp only [List.mem_append, List.mem_map, decide_eq_true_eq]
  constructor
  · rintro ⟨d, ⟨hc, hmem, rfl⟩ | ⟨bc, -, rfl⟩, hd⟩
    · rw [headDelta] at hd
      dsimp only at hd
      cases hbase : byKey base.cases hc.caseKey with
      | none =>
        rw [hbase] at hd
        cases hd
      | some bc =>
        rw [hbase] at hd
        have hpair : pairDelta bc.status.passed hc.status.passed = pairDelta true false := hd
        obtain ⟨hb, hh⟩ := pairDelta_inj.mp hpair
        exact ⟨hc, hmem, bc, hbase, hb, hh⟩
    · cases hd
  · rintro ⟨hc, hmem, bc, hbase, hb, hh⟩
    refine ⟨headDelta base.cases hc, Or.inl ⟨hc, hmem, rfl⟩, ?_⟩
    rw [headDelta]
    dsimp only
    rw [hbase]
    dsimp only
    rw [hb, hh]
    rfl

/-- The run graded something, and not by fallbacks alone. -/
def GradedSomething (cases : List CaseDocument) : Prop :=
  cases ≠ [] → (∃ c ∈ cases, c.status ≠ .skip) ∧
    ¬∀ c ∈ cases, c.status ≠ .skip → c.answeredByProviderId.isSome = true

/-- A baseline that was requested was resolved and nothing is newly failing, or there is none. -/
def Compared (outcome : Option (Except BaselineError RunResult)) (head : RunResult) : Prop :=
  ∀ o, outcome = some o →
    (∃ base, o = .ok base ∧ ¬NewlyFails base head) ∨ ∃ message, o = .error (.absent message)

/-- A share that was requested, and must not fail, did not. -/
def Shared (flags : RunFlags) (at_ : RunSurroundings) : Prop :=
  flags.share = true → flags.allowShareFailure = false → at_.upload.isOk = true

section
variable (flags : RunFlags) (at_ : RunSurroundings) (result : RunDocument)

/-- Every output was written, no case errored, failed or xpassed, the run graded something, and it
was compared and shared where that was asked for. -/
structure Green : Prop where
  written : at_.written = true
  noError : ∀ c ∈ result.documents, c.status ≠ .error
  noFailure : ∀ c ∈ result.documents, c.status ≠ .fail ∧ c.status ≠ .xpass
  graded : GradedSomething result.documents
  compared : Compared (baselineOutcome flags at_ result.toRunResult) result.toRunResult
  shared : Shared flags at_

/-- An infrastructure fault: an output or a share that failed, or an errored case of the harness. -/
def InfraFault : Prop :=
  at_.written = false ∨ ¬Shared flags at_ ∨
    ∃ c ∈ result.documents, c.status = .error ∧ c.fault = .harness

/-- A fault of the suite or of the baseline, or a run that graded nothing. -/
def UsageFault : Prop :=
  (∃ c ∈ result.documents, c.status = .error ∧ c.fault = .suite) ∨
    (∃ message, baselineOutcome flags at_ result.toRunResult = some (.error (.failed message))) ∨
    ¬GradedSomething result.documents

/-- A case that failed or xpassed, or one that is newly failing. -/
def AssertFault : Prop :=
  (∃ c ∈ result.documents, c.status = .fail ∨ c.status = .xpass) ∨
    ∃ base, baselineOutcome flags at_ result.toRunResult = some (.ok base) ∧
      NewlyFails base result.toRunResult

/-- A run is green exactly when it has no fault. -/
theorem green_iff : Green flags at_ result ↔ ¬InfraFault flags at_ result ∧
    ¬UsageFault flags at_ result ∧ ¬AssertFault flags at_ result := by
  constructor
  · intro h
    refine ⟨?_, ?_, ?_⟩
    · rintro (hwritten | hshared | ⟨c, hc, herror, -⟩)
      · rw [h.written] at hwritten
        cases hwritten
      · exact hshared h.shared
      · exact h.noError c hc herror
    · rintro (⟨c, hc, herror, -⟩ | ⟨message, houtcome⟩ | hgraded)
      · exact h.noError c hc herror
      · rcases h.compared _ houtcome with ⟨base, hok, -⟩ | ⟨message', habsent⟩
        · cases hok
        · cases habsent
      · exact hgraded h.graded
    · rintro (⟨c, hc, hfail | hxpass⟩ | ⟨base, houtcome, hnewly⟩)
      · exact (h.noFailure c hc).1 hfail
      · exact (h.noFailure c hc).2 hxpass
      · rcases h.compared _ houtcome with ⟨base', hok, hnone⟩ | ⟨message, habsent⟩
        · obtain rfl := Except.ok.inj hok
          exact hnone hnewly
        · cases habsent
  · rintro ⟨hinfra, husage, hassert⟩
    simp only [InfraFault, UsageFault, AssertFault, not_or, not_not] at hinfra husage hassert
    refine ⟨?_, fun c hc herror => ?_, fun c hc => ⟨fun h => ?_, fun h => ?_⟩, husage.2.2,
      fun o ho => ?_, hinfra.2.1⟩
    · exact Bool.eq_true_of_not_eq_false hinfra.1
    · cases hfault : c.fault with
      | harness => exact hinfra.2.2 ⟨c, hc, herror, hfault⟩
      | suite => exact husage.1 ⟨c, hc, herror, hfault⟩
    · exact hassert.1 ⟨c, hc, Or.inl h⟩
    · exact hassert.1 ⟨c, hc, Or.inr h⟩
    · rcases o with (message | message) | base
      · exact Or.inr ⟨message, rfl⟩
      · exact absurd ⟨message, ho⟩ husage.2.1
      · exact Or.inl ⟨base, rfl, fun hnewly => hassert.2 ⟨base, ho, hnewly⟩⟩

end

/-! ### The rungs -/

section
variable {cases : List CaseDocument}

theorem countOf_pos {status : CaseStatus} :
    0 < countOf (cases.map CaseDocument.toCaseResult) status ↔ ∃ c ∈ cases, c.status = status := by
  rw [countOf, List.countP_pos_iff]
  simp only [List.mem_map, decide_eq_true_eq, exists_exists_and_eq_and]

/-- The two rungs about grading, from the counts: skipped cases are counted among all of them, and
fallbacks among the others. -/
theorem ungraded_iff {summary : RunSummary} (htotal : summary.total = cases.length)
    (hcounts : GateCounts (cases.map CaseDocument.toCaseResult) summary) :
    gradedNothing summary = true ∨ answeredEntirelyByFallbacks summary = true ↔ ¬GradedSomething cases := by
  have hskipped : summary.skipped = cases.countP fun c => c.status = .skip := by
    rw [hcounts.skipped, countOf, List.countP_map]
    rfl
  have hfellBack : summary.fallbackCases =
      cases.countP fun c => c.status ≠ .skip ∧ c.answeredByProviderId.isSome := by
    rw [hcounts.fallbackCases, List.countP_map]
    rfl
  have hgraded : summary.total - summary.skipped = cases.countP fun c => c.status ≠ .skip := by
    have hsum := List.length_eq_countP_add_countP (fun c : CaseDocument => decide (c.status = .skip))
      (l := cases)
    have hnot : (cases.countP fun c => ¬decide (c.status = .skip) = true) =
        cases.countP fun c => c.status ≠ .skip :=
      List.countP_congr fun c _ => by simp
    rw [hnot] at hsum
    omega
  have hall : summary.fallbackCases = summary.total - summary.skipped ↔
      ∀ c ∈ cases, c.status ≠ .skip → c.answeredByProviderId.isSome = true := by
    have hfilter : (cases.countP fun c => c.status ≠ .skip ∧ c.answeredByProviderId.isSome) =
        (cases.filter fun c => c.status ≠ .skip).countP fun c => c.answeredByProviderId.isSome := by
      rw [List.countP_filter]
      exact List.countP_congr fun c _ => by simp [and_comm]
    rw [hgraded, hfellBack, hfilter, List.countP_eq_length_filter (p := fun c => decide _),
      List.countP_eq_length]
    simp only [List.mem_filter, decide_eq_true_eq, and_imp]
  have hnone : summary.skipped = summary.total ↔ ¬∃ c ∈ cases, c.status ≠ .skip := by
    rw [hskipped, htotal, List.countP_eq_length]
    simp only [decide_eq_true_eq, not_exists, not_and, not_not]
  have hpos : 0 < summary.total - summary.skipped ↔ ∃ c ∈ cases, c.status ≠ .skip := by
    rw [hgraded, List.countP_pos_iff]
    simp only [decide_eq_true_eq]
  have hempty : 0 < summary.total ↔ cases ≠ [] := by
    rw [htotal, List.length_pos_iff]
  rw [gradedNothing, answeredEntirelyByFallbacks]
  simp only [decide_eq_true_eq, hall, hnone, hpos, hempty, GradedSomething, Classical.not_imp,
    not_and, not_not]
  constructor
  · rintro (⟨hne, hskip⟩ | ⟨⟨c, hc, hgr⟩, hfell⟩)
    · exact ⟨hne, fun hex => absurd hex hskip⟩
    · exact ⟨List.ne_nil_of_mem hc, fun _ => hfell⟩
  · rintro ⟨hne, himp⟩
    by_cases hex : ∃ c ∈ cases, c.status ≠ .skip
    · exact Or.inr ⟨hex, himp hex⟩
    · exact Or.inl ⟨hne, hex⟩

end

section
variable (flags : RunFlags) (at_ : RunSurroundings) (result : RunDocument)

theorem shareFailed_iff : shareFailed flags at_.upload = true ↔ ¬Shared flags at_ := by
  rw [shareFailed, Shared, Bool.and_eq_true, Bool.and_eq_true, Bool.not_eq_true',
    Bool.not_eq_true', Classical.not_imp, Classical.not_imp, Bool.not_eq_true, and_assoc,
    and_comm (a := at_.upload.isOk = false)]

theorem regressedAgainst_iff {outcome : Option (Except BaselineError RunResult)}
    {head : RunResult} : regressedAgainst outcome head = true ↔
      ∃ base, outcome = some (.ok base) ∧ NewlyFails base head := by
  rcases outcome with _ | (message | base)
  · simp [regressedAgainst]
  · simp [regressedAgainst]
  · simp [regressedAgainst, hasRegression_iff]

theorem baselineUnresolved_iff {outcome : Option (Except BaselineError RunResult)} :
    baselineUnresolved outcome = true ↔ ∃ message, outcome = some (.error (.failed message)) := by
  rcases outcome with _ | ((message | message) | base) <;> simp [baselineUnresolved]

/-- A rung is stepped on when its condition holds and no other above it does. -/
theorem exitCode_eq (shared unresolved regressed : Bool) :
    exitCode shared unresolved regressed result =
      if shared ∨ worstGateFault result.documents = some .harness then .infra
      else if worstGateFault result.documents = some .suite ∨ unresolved ∨
        gradedNothing result.summary ∨ answeredEntirelyByFallbacks result.summary then .usage
      else if 0 < result.summary.failed ∨ 0 < result.summary.xpassed ∨ regressed then .assertFail
      else .ok := by
  rw [exitCode]
  simp only [ite_or]

/-- **The ladder, rung by rung.** -/
theorem exitCode_cases (hsummary : Summarized result.cases result.summary) :
    (InfraFault flags at_ result → finishRun flags at_ result = .infra) ∧
      (¬InfraFault flags at_ result → UsageFault flags at_ result →
        finishRun flags at_ result = .usage) ∧
      (¬InfraFault flags at_ result → ¬UsageFault flags at_ result → AssertFault flags at_ result →
        finishRun flags at_ result = .assertFail) ∧
      (¬InfraFault flags at_ result → ¬UsageFault flags at_ result →
        ¬AssertFault flags at_ result → finishRun flags at_ result = .ok) := by
  rw [result.cases_eq] at hsummary
  obtain ⟨htotal, hcounts⟩ := summarized_counts hsummary
  rw [List.length_map] at htotal
  cases hwritten : at_.written with
  | false =>
    have hinfra : InfraFault flags at_ result := Or.inl hwritten
    refine ⟨fun _ => ?_, fun h => absurd hinfra h, fun h => absurd hinfra h,
      fun h => absurd hinfra h⟩
    rw [finishRun, hwritten]
    rfl
  | true =>
    set outcome := baselineOutcome flags at_ result.toRunResult with houtcome
    have hinfra : InfraFault flags at_ result ↔ shareFailed flags at_.upload = true ∨
        worstGateFault result.documents = some .harness := by
      rw [shareFailed_iff, worstGateFault_harness, InfraFault, hwritten]
      simp only [Bool.true_eq_false, false_or]
    have husage : ¬InfraFault flags at_ result → (UsageFault flags at_ result ↔
        worstGateFault result.documents = some .suite ∨ baselineUnresolved outcome = true ∨
          gradedNothing result.summary = true ∨
          answeredEntirelyByFallbacks result.summary = true) := by
      intro hno
      rw [ungraded_iff htotal hcounts, baselineUnresolved_iff, worstGateFault_suite, UsageFault]
      rw [hinfra, not_or, worstGateFault_harness] at hno
      simp only [hno.2, not_false_eq_true, and_true, houtcome]
    have hassert : AssertFault flags at_ result ↔ 0 < result.summary.failed ∨
        0 < result.summary.xpassed ∨ regressedAgainst outcome result.toRunResult = true := by
      rw [regressedAgainst_iff, hcounts.failed, hcounts.xpassed, countOf_pos, countOf_pos,
        AssertFault, ← or_assoc]
      simp only [and_or_left, exists_or, houtcome]
    have hfinish : finishRun flags at_ result = exitCode (shareFailed flags at_.upload)
        (baselineUnresolved outcome) (regressedAgainst outcome result.toRunResult) result := by
      rw [finishRun, hwritten]
      rfl
    rw [hfinish, exitCode_eq]
    refine ⟨fun h => ?_, fun h hu => ?_, fun h hu ha => ?_, fun h hu ha => ?_⟩
    · rw [if_pos (hinfra.mp h)]
    · rw [if_neg (fun hl => h (hinfra.mpr hl)), if_pos ((husage h).mp hu)]
    · rw [if_neg (fun hl => h (hinfra.mpr hl)), if_neg (fun hl => hu ((husage h).mpr hl)),
        if_pos (hassert.mp ha)]
    · rw [if_neg (fun hl => h (hinfra.mpr hl)), if_neg (fun hl => hu ((husage h).mpr hl)),
        if_neg (fun hl => ha (hassert.mpr hl))]

/-- **A green exit means graded, compared and shared**; and a run that is not green exits for an
infrastructure fault first, then for a fault of the suite or the baseline or a run that graded
nothing, and then for its assertions. -/
theorem exit_ladder (hsummary : Summarized result.cases result.summary) :
    (finishRun flags at_ result = .ok ↔ Green flags at_ result) ∧
      (finishRun flags at_ result = .infra ↔ InfraFault flags at_ result) ∧
      (finishRun flags at_ result = .usage ↔
        ¬InfraFault flags at_ result ∧ UsageFault flags at_ result) ∧
      (finishRun flags at_ result = .assertFail ↔ ¬Green flags at_ result ∧
        ¬InfraFault flags at_ result ∧ ¬UsageFault flags at_ result) := by
  obtain ⟨hinfra, husage, hassert, hok⟩ := exitCode_cases flags at_ result hsummary
  rw [green_iff]
  by_cases hI : InfraFault flags at_ result
  · rw [hinfra hI]
    simp [hI]
  · by_cases hU : UsageFault flags at_ result
    · rw [husage hI hU]
      simp [hI, hU]
    · by_cases hA : AssertFault flags at_ result
      · rw [hassert hI hU hA]
        simp [hI, hU, hA]
      · rw [hok hI hU hA]
        simp [hI, hU, hA]

end

/-! ### A run that passes -/

/-- One case that passed, and was answered by the provider that it names. -/
def passedDocument : RunDocument where
  schemaVersion := resultSchemaVersion
  runId := "r"
  project := none
  suite := some "qa"
  startedAt := 0
  finishedAt := 0
  configDigest := "d"
  configSnapshot := .null
  git := none
  ci := none
  origin := none
  digests := none
  shareUrl := none
  composite := none
  filters := {}
  cases := [passedCase "a"]
  summary := { total := 1, passed := 1, cacheMisses := 1 }
  documents := [{ taggedCase "a" [] with
    toCaseResult := passedCase "a" }]
  cases_eq := rfl
  length_lt := by decide
  finishedAt_fits := zero_fits
  cacheCounts_fit := by decide

/-- A suite's first run on its branch, which is shared. -/
def firstRun : RunSurroundings where
  suiteBranch := some "main"
  serverConfigured := false
  sources := {
    mergedOnBranch := fun _ => none
    latestForSuite := none
    readRun := fun _ => .error "no such file"
    loadRun := fun _ => .error "no such run"
    fromServer := fun _ => .error (.failed "no server") }
  written := true
  upload := .ok "https://results/r"

/-- It exits green, and has all that this means. -/
theorem first_run_green : finishRun ⟨none, true, false⟩ firstRun passedDocument = .ok ∧
    Green ⟨none, true, false⟩ firstRun passedDocument := by
  have hok : finishRun ⟨none, true, false⟩ firstRun passedDocument = .ok := by decide +kernel
  exact ⟨hok, (exit_ladder _ _ _ (Or.inl (by rfl))).1.mp hok⟩
