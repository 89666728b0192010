/-
Merging the runs of a branch into one baseline document.

The newest run may have been narrowed by filters, so the baseline takes each case from the newest
run that has it, over the newest `branchLookback` runs.

* **`mem_firstOf`** — the first occurrence of every key, and nothing else;
* **`walked_mergeRuns`** — what the walk has after any number of runs;
* **`mergeBranchRuns_composes`** — each key once, with the case of the newest run that has it, and
  the contributors, the horizon and the summary that belong to these cases;
* **`coverage_past_the_horizon`** — there may be no baseline although some run has a case: the runs
  past the horizon are not looked at.
-/
import Domarinn.Summary
import Mathlib.Data.List.Nodup

/-! ### First occurrences -/

section
variable {α κ : Type*} [DecidableEq κ] (key : α → κ)

/-- The items whose key is not among those seen and does not occur earlier in the list. -/
def firstOf (seen : List κ) : List α → List α
  | [] => []
  | x :: xs => if key x ∈ seen then firstOf seen xs else x :: firstOf (key x :: seen) xs

/-- **First occurrences.**  An item is kept exactly when its key is new and the item is the first
one with it. -/
theorem mem_firstOf {x : α} : ∀ {seen : List κ} {xs : List α}, x ∈ firstOf key seen xs ↔
    key x ∉ seen ∧ xs.find? (fun y => key y = key x) = some x
  | seen, [] => by simp [firstOf]
  | seen, y :: ys => by
    rw [firstOf, List.find?_cons]
    by_cases hseen : key y ∈ seen
    · rw [if_pos hseen, mem_firstOf]
      -- a key that was seen is not that of a new item
      refine and_congr_right fun hx => ?_
      have hne : key y ≠ key x := fun h => hx (h ▸ hseen)
      simp [hne]
    · rw [if_neg hseen, List.mem_cons, mem_firstOf, List.mem_cons, not_or]
      by_cases hkey : key y = key x
      · simp only [hkey, decide_true, Option.some_inj]
        rw [hkey] at hseen
        exact ⟨fun h => h.elim (fun h => ⟨hseen, h.symm⟩) fun h => absurd trivial h.1.1,
          fun h => .inl h.2.symm⟩
      · have hne : x ≠ y := fun h => hkey (h ▸ rfl)
        simp only [hkey, decide_false, hne, false_or, Ne.symm hkey, not_false_eq_true, true_and]

theorem nodup_firstOf : ∀ (seen : List κ) (xs : List α), ((firstOf key seen xs).map key).Nodup
  | _, [] => List.nodup_nil
  | seen, y :: ys => by
    rw [firstOf]
    split_ifs with hseen
    · exact nodup_firstOf seen ys
    · rw [List.map_cons, List.nodup_cons]
      refine ⟨fun hmem => ?_, nodup_firstOf _ ys⟩
      obtain ⟨x, hx, hkey⟩ := List.mem_map.mp hmem
      exact ((mem_firstOf key).mp hx).1 (hkey ▸ List.mem_cons_self)

theorem firstOf_congr {seen seen' : List κ} (h : ∀ k, k ∈ seen ↔ k ∈ seen') (xs : List α) :
    firstOf key seen xs = firstOf key seen' xs := by
  induction xs generalizing seen seen' with
  | nil => rfl
  | cons y ys ih =>
    rw [firstOf, firstOf, if_congr (h _) (ih h) (congrArg _ (ih fun k => ?_))]
    rw [List.mem_cons, List.mem_cons, h]

theorem firstOf_append (seen : List κ) (xs ys : List α) :
    firstOf key seen (xs ++ ys) = firstOf key seen xs ++ firstOf key (xs.map key ++ seen) ys := by
  induction xs generalizing seen with
  | nil => rfl
  | cons x xs ih =>
    rw [List.cons_append, firstOf, firstOf]
    split_ifs with hseen
    · rw [ih]
      congr 1
      refine firstOf_congr key (fun k => ?_) ys
      grind
    · rw [ih, List.cons_append]
      congr 2
      refine firstOf_congr key (fun k => ?_) ys
      grind

end

/-! ### The walk -/

/-- `BRANCH_LOOKBACK`. -/
def BranchMerge.branchLookback : ℕ := 20

/-- The runs that are looked at. -/
abbrev lookedAt (runsNewestFirst : List RunResult) : List RunResult :=
  runsNewestFirst.take BranchMerge.branchLookback

/-- The state of the walk from the newest run to the oldest. -/
structure BranchMerge where
  seen : List String := []
  mergedCases : List CaseResult := []
  contributors : List String := []
  skeleton : Option RunResult := none
  lastContributingIndex : Option ℕ := none

namespace BranchMerge

/-- Take a case unless its key was seen; with whether the run contributed. -/
def takeCase (m : BranchMerge × Bool) (case : CaseResult) : BranchMerge × Bool :=
  if case.caseKey ∈ m.1.seen then m
  else ({ m.1 with
    seen := case.caseKey :: m.1.seen
    mergedCases := m.1.mergedCases ++ [case] }, true)

/-- One run of the walk, with its index. -/
def takeRun (m : BranchMerge) (entry : RunResult × ℕ) : BranchMerge :=
  let run := { entry.1 with cases := [] }
  let (m, contributed) := entry.1.cases.foldl takeCase (m, false)
  if contributed then
    { m with
      contributors := m.contributors ++ [run.runId]
      lastContributingIndex := some entry.2
      skeleton := m.skeleton.or (some run) }
  else m

end BranchMerge

/-- The walk over the runs inside the window. -/
def mergeRuns (runsNewestFirst : List RunResult) : BranchMerge :=
  (lookedAt runsNewestFirst).zipIdx.foldl BranchMerge.takeRun {}

/-- The baseline document, on the skeleton of the newest run that contributed. -/
def baselineOf (branch : String) (total : ℕ) (merged : BranchMerge) (newest : RunResult)
    (summary : RunSummary) : RunResult where
  schemaVersion := resultSchemaVersion
  runId := "composite-" ++ branch ++ "-" ++ newest.runId
  project := newest.project
  suite := newest.suite
  startedAt := newest.startedAt
  finishedAt := newest.finishedAt
  configDigest := newest.configDigest
  configSnapshot := newest.configSnapshot
  -- a composite spans commits: it claims none
  git := some { branch := some branch, commit := none, dirty := false }
  ci := none
  digests := newest.digests
  origin := none
  shareUrl := none
  composite := some {
    branch := branch
    contributingRunIds := merged.contributors
    truncated := if merged.lastContributingIndex = some (BranchMerge.branchLookback - 1) ∧
      BranchMerge.branchLookback < total then some true else none }
  filters := {}
  summary := summary
  cases := merged.mergedCases

/-- `merge_branch_runs`.  The outer `none` is an overflow in the summary. -/
def mergeBranchRuns (branch : String) (runsNewestFirst : List RunResult) :
    Option (Option RunResult) :=
  let merged := mergeRuns runsNewestFirst
  match merged.skeleton with
  | none => some none
  | some newest => (summarize merged.mergedCases).map fun summary =>
    some (baselineOf branch runsNewestFirst.length merged newest summary)

/-! ### What the walk finds -/

/-- The keys that occur in these runs. -/
def caseKeysOf (runs : List RunResult) : List String := runs.flatMap fun run =>
  run.cases.map CaseResult.caseKey

/-- The case with this key in the newest run that has it. -/
def newestCase (runs : List RunResult) (key : String) : Option CaseResult :=
  runs.findSome? fun run => run.cases.find? fun c => c.caseKey = key

/-- A run supplies a case: one whose key no newer run has. -/
def Supplies (newer : List RunResult) (run : RunResult) : Prop :=
  ∃ c ∈ run.cases, c.caseKey ∉ caseKeysOf newer

instance (newer : List RunResult) (run : RunResult) : Decidable (Supplies newer run) :=
  inferInstanceAs (Decidable (∃ c ∈ run.cases, c.caseKey ∉ caseKeysOf newer))

/-- The runs that supply a case, newest first, each with its place. -/
def suppliers (runs : List RunResult) : List (RunResult × ℕ) :=
  runs.zipIdx.filter fun entry => Supplies (runs.take entry.2) entry.1

theorem suppliers_append_singleton (runs : List RunResult) (run : RunResult) :
    suppliers (runs ++ [run]) =
      suppliers runs ++ (if Supplies runs run then [(run, runs.length)] else []) := by
  rw [suppliers, List.zipIdx_append, List.filter_append]
  congr 1
  · refine List.filter_congr fun entry hentry => ?_
    -- the runs before an earlier one are the same
    have hlt : entry.2 < runs.length := by
      have h := List.snd_lt_of_mem_zipIdx hentry
      omega
    rw [List.take_append_of_le_length hlt.le]
  · rw [zero_add, List.zipIdx_singleton, List.filter_singleton, List.take_left']
    · simp only [Bool.cond_eq_ite, decide_eq_true_eq]
    · rfl

theorem snd_lt_of_mem_suppliers {runs : List RunResult} {entry : RunResult × ℕ}
    (h : entry ∈ suppliers runs) : entry.2 < runs.length := by
  have hlt := List.snd_lt_of_mem_zipIdx (List.mem_filter.mp h).1
  omega

/-- The walk over these runs has ended in this state. -/
structure Walked (m : BranchMerge) (runs : List RunResult) : Prop where
  seen : ∀ k, k ∈ m.seen ↔ k ∈ caseKeysOf runs
  cases : m.mergedCases = firstOf CaseResult.caseKey [] (runs.flatMap RunResult.cases)
  contributors : m.contributors = (suppliers runs).map fun entry => entry.1.runId
  last : m.lastContributingIndex = (suppliers runs).getLast?.map Prod.snd
  skeleton : m.skeleton = (suppliers runs).head?.map fun entry => { entry.1 with cases := [] }

namespace BranchMerge

/-- The cases of a run: those with a new key are taken, the first of each key. -/
theorem foldl_takeCase (cases : List CaseResult) : ∀ (m : BranchMerge) (contributed : Bool),
    ∃ seen, (∀ k, k ∈ seen ↔ k ∈ m.seen ∨ k ∈ cases.map CaseResult.caseKey) ∧
      cases.foldl takeCase (m, contributed) =
        ({ m with
          seen := seen
          mergedCases := m.mergedCases ++ firstOf CaseResult.caseKey m.seen cases },
          contributed || decide (∃ c ∈ cases, c.caseKey ∉ m.seen)) := by
  induction cases with
  | nil =>
    intro m contributed
    exact ⟨m.seen, by simp, by simp [firstOf]⟩
  | cons c cases ih =>
    intro m contributed
    rw [List.foldl_cons, takeCase, firstOf]
    by_cases hseen : c.caseKey ∈ m.seen
    · -- a newer run had it
      obtain ⟨seen, hmem, hfold⟩ := ih m contributed
      rw [if_pos hseen, if_pos hseen, hfold]
      refine ⟨seen, fun k => ?_, ?_⟩
      · rw [hmem, List.map_cons, List.mem_cons]
        grind
      · simp [hseen]
    · -- the newest so far: the run contributes
      rw [if_neg hseen, if_neg hseen]
      obtain ⟨seen, hmem, hfold⟩ := ih _ true
      rw [hfold]
      refine ⟨seen, fun k => ?_, ?_⟩
      · rw [hmem, List.map_cons, List.mem_cons, List.mem_cons]
        grind
      · simp [hseen]

end BranchMerge

/-- One run of the walk. -/
theorem Walked.takeRun {m : BranchMerge} {runs : List RunResult} (h : Walked m runs)
    (run : RunResult) : Walked (m.takeRun (run, runs.length)) (runs ++ [run]) := by
  obtain ⟨seen, hseen, hfold⟩ := BranchMerge.foldl_takeCase run.cases m false
  have hsupplies : (∃ c ∈ run.cases, c.caseKey ∉ m.seen) ↔ Supplies runs run := by
    rw [Supplies]
    simp only [h.seen]
  have hkeys : ∀ k, k ∈ seen ↔ k ∈ caseKeysOf (runs ++ [run]) := by
    intro k
    rw [hseen, h.seen, caseKeysOf, caseKeysOf, List.flatMap_append, List.mem_append,
      List.flatMap_singleton]
  -- what the walk takes of the run is what the runs before it do not have
  have hcases : m.mergedCases ++ firstOf CaseResult.caseKey m.seen run.cases =
      firstOf CaseResult.caseKey [] ((runs ++ [run]).flatMap RunResult.cases) := by
    rw [List.flatMap_append, List.flatMap_singleton, firstOf_append, h.cases]
    congr 1
    refine firstOf_congr _ (fun k => ?_) _
    rw [h.seen, caseKeysOf, List.append_nil, List.map_flatMap]
  rw [BranchMerge.takeRun, hfold]
  by_cases hrun : Supplies runs run
  · have hnew : decide (∃ c ∈ run.cases, c.caseKey ∉ m.seen) = true :=
      decide_eq_true (hsupplies.mpr hrun)
    simp only [hnew, Bool.or_true, if_true]
    have hsup := suppliers_append_singleton runs run
    rw [if_pos hrun] at hsup
    refine ⟨hkeys, hcases, ?_, ?_, ?_⟩
    · rw [hsup, List.map_append, ← h.contributors]
      rfl
    · rw [hsup, List.getLast?_concat]
      rfl
    · rw [hsup, h.skeleton, List.head?_append]
      cases (suppliers runs).head? <;> rfl
  · have hold : decide (∃ c ∈ run.cases, c.caseKey ∉ m.seen) = false :=
      decide_eq_false fun hc => hrun (hsupplies.mp hc)
    simp only [hold, Bool.or_false, Bool.false_eq_true, if_false]
    have hsup := suppliers_append_singleton runs run
    rw [if_neg hrun, List.append_nil] at hsup
    exact ⟨hkeys, hcases, hsup ▸ h.contributors, hsup ▸ h.last, hsup ▸ h.skeleton⟩

theorem walked_foldl (runs : List RunResult) :
    Walked (runs.zipIdx.foldl BranchMerge.takeRun {}) runs := by
  induction runs using List.reverseRecOn with
  | nil => exact ⟨fun _ => Iff.rfl, rfl, rfl, rfl, rfl⟩
  | append_singleton runs run ih =>
    rw [List.zipIdx_append, List.foldl_append, List.zipIdx_singleton, zero_add]
    exact ih.takeRun run

theorem walked_mergeRuns (runs : List RunResult) :
    Walked (mergeRuns runs) (lookedAt runs) := walked_foldl _

/-! ### The baseline -/

/-- What a baseline of these runs is. -/
structure Composes (runs : List RunResult) (baseline : RunResult) : Prop where
  /-- Each key once. -/
  unique : (baseline.cases.map CaseResult.caseKey).Nodup
  /-- The case of the newest run that has the key. -/
  newest : ∀ c, c ∈ baseline.cases ↔
    newestCase (lookedAt runs) c.caseKey = some c
  covers : ∀ k ∈ caseKeysOf (lookedAt runs), k ∈ baseline.cases.map CaseResult.caseKey
  contributors : baseline.composite.map CompositeBaseline.contributingRunIds =
    some ((suppliers (lookedAt runs)).map fun entry => entry.1.runId)
  /-- The last run that was looked at contributed, and there are older ones. -/
  truncated : (baseline.composite.bind CompositeBaseline.truncated = some true) ↔
    (∃ newer run, lookedAt runs = newer ++ [run] ∧ Supplies newer run) ∧
      runs.drop BranchMerge.branchLookback ≠ []
  summary : summarize baseline.cases = some baseline.summary

theorem find?_flatMap_cases (runs : List RunResult) (key : String) :
    (runs.flatMap RunResult.cases).find? (fun c => c.caseKey = key) = newestCase runs key :=
  List.find?_flatMap

theorem mem_mergedCases {runs : List RunResult} {c : CaseResult} :
    c ∈ (mergeRuns runs).mergedCases ↔
      newestCase (lookedAt runs) c.caseKey = some c := by
  rw [(walked_mergeRuns runs).cases, mem_firstOf, find?_flatMap_cases]
  simp

/-- No run supplies a case where there is none. -/
theorem suppliers_eq_nil {runs : List RunResult} :
    suppliers runs = [] ↔ ∀ run ∈ runs, run.cases = [] := by
  induction runs using List.reverseRecOn with
  | nil => simp [suppliers]
  | append_singleton runs run ih =>
    rw [suppliers_append_singleton, List.append_eq_nil_iff, ih, List.forall_mem_append,
      List.forall_mem_singleton]
    refine and_congr_right fun hempty => ?_
    -- where the newer runs are empty, every case is new
    have hkeys : caseKeysOf runs = [] :=
      List.flatMap_eq_nil_iff.mpr fun run hrun => by rw [hempty run hrun, List.map_nil]
    rw [ite_eq_right_iff, imp_iff_not (List.cons_ne_nil _ _), Supplies, hkeys]
    simp [List.eq_nil_iff_forall_not_mem]

theorem last_supplies {runs : List RunResult} (hlen : 0 < runs.length) :
    (suppliers runs).getLast?.map Prod.snd = some (runs.length - 1) ↔
      ∃ newer run, runs = newer ++ [run] ∧ Supplies newer run := by
  obtain ⟨newer, run, rfl⟩ := List.eq_nil_or_concat' runs |>.resolve_left
    (List.ne_nil_of_length_pos hlen)
  rw [suppliers_append_singleton, List.length_append, List.length_singleton, Nat.add_sub_cancel]
  by_cases hrun : Supplies newer run
  · rw [if_pos hrun, List.getLast?_concat]
    exact iff_of_true rfl ⟨newer, run, rfl, hrun⟩
  · rw [if_neg hrun, List.append_nil]
    refine iff_of_false (fun h => ?_) ?_
    · obtain ⟨entry, hentry, hlast⟩ := Option.map_eq_some_iff.mp h
      have hlt := snd_lt_of_mem_suppliers (List.mem_of_getLast? hentry)
      omega
    · rintro ⟨newer', run', heq, hrun'⟩
      obtain ⟨rfl, rfl⟩ := List.append_singleton_inj.mp heq
      exact hrun hrun'

theorem mergeBranchRuns_eq_none_iff (branch : String) (runs : List RunResult) :
    mergeBranchRuns branch runs = some none ↔
      ∀ run ∈ lookedAt runs, run.cases = [] := by
  have hwalk := walked_mergeRuns runs
  rw [← suppliers_eq_nil, ← List.head?_eq_none_iff, ← Option.map_eq_none_iff, ← hwalk.skeleton,
    mergeBranchRuns]
  cases hskeleton : (mergeRuns runs).skeleton with
  | none => exact iff_of_true rfl rfl
  | some newest =>
    refine iff_of_false (fun h => ?_) nofun
    obtain ⟨summary, -, heq⟩ := Option.map_eq_some_iff.mp h
    cases heq

theorem mergeBranchRuns_eq_some {branch : String} {runs : List RunResult} {baseline : RunResult}
    (h : mergeBranchRuns branch runs = some (some baseline)) : ∃ newest summary,
      summarize (mergeRuns runs).mergedCases = some summary ∧
      baseline = baselineOf branch runs.length (mergeRuns runs) newest summary := by
  rw [mergeBranchRuns] at h
  split at h
  · cases h
  · obtain ⟨summary, hsummary, heq⟩ := Option.map_eq_some_iff.mp h
    exact ⟨_, summary, hsummary, (Option.some_inj.mp heq).symm⟩

/-- A key that occurs is that of a case that was taken. -/
theorem mem_keys_mergedCases {runs : List RunResult} {k : String}
    (h : k ∈ caseKeysOf (lookedAt runs)) :
    k ∈ (mergeRuns runs).mergedCases.map CaseResult.caseKey := by
  have hkeys : caseKeysOf (lookedAt runs) =
      ((lookedAt runs).flatMap RunResult.cases).map CaseResult.caseKey := by
    rw [caseKeysOf, List.map_flatMap]
  rw [hkeys] at h
  obtain ⟨c, hc, rfl⟩ := List.mem_map.mp h
  have hsome : (newestCase (lookedAt runs) c.caseKey).isSome := by
    rw [← find?_flatMap_cases, List.find?_isSome]
    exact ⟨c, hc, decide_eq_true rfl⟩
  obtain ⟨d, hd⟩ := Option.isSome_iff_exists.mp hsome
  have hkey : d.caseKey = c.caseKey := by
    rw [← find?_flatMap_cases] at hd
    have h := List.find?_some hd
    exact of_decide_eq_true h
  exact List.mem_map.mpr ⟨d, mem_mergedCases.mpr (hkey ▸ hd), hkey⟩

/-- The horizon cut coverage off. -/
theorem truncated_iff {runs : List RunResult} :
    ((mergeRuns runs).lastContributingIndex = some (BranchMerge.branchLookback - 1) ∧
      BranchMerge.branchLookback < runs.length) ↔
    (∃ newer run, lookedAt runs = newer ++ [run] ∧ Supplies newer run) ∧
      runs.drop BranchMerge.branchLookback ≠ [] := by
  have holder : runs.drop BranchMerge.branchLookback ≠ [] ↔
      BranchMerge.branchLookback < runs.length := by
    rw [ne_eq, List.drop_eq_nil_iff, not_le]
  rw [holder, and_congr_left_iff]
  intro hlt
  have hlen : (lookedAt runs).length = BranchMerge.branchLookback :=
    List.length_take_of_le hlt.le
  have hpos : 0 < (lookedAt runs).length := by
    rw [hlen]
    exact Nat.succ_pos 19
  rw [(walked_mergeRuns runs).last, ← last_supplies hpos, hlen]

/-- **A baseline takes each case from the newest run that has it.**  There is none exactly when no
run inside the window has a case; and there is one unless the summary of its cases overflows. -/
theorem mergeBranchRuns_composes (branch : String) (runs : List RunResult) :
    (mergeBranchRuns branch runs = some none ↔
      ∀ run ∈ lookedAt runs, run.cases = []) ∧
    (∀ baseline, mergeBranchRuns branch runs = some (some baseline) → Composes runs baseline) ∧
    (mergeBranchRuns branch runs = none → summarize (mergeRuns runs).mergedCases = none) := by
  have hwalk := walked_mergeRuns runs
  refine ⟨mergeBranchRuns_eq_none_iff branch runs, fun baseline h => ?_, fun h => ?_⟩
  · obtain ⟨newest, summary, hsummary, rfl⟩ := mergeBranchRuns_eq_some h
    refine ⟨?_, fun c => mem_mergedCases, fun k hk => mem_keys_mergedCases hk, ?_, ?_, hsummary⟩
    · rw [baselineOf, hwalk.cases]
      exact nodup_firstOf _ _ _
    · rw [← hwalk.contributors]
      rfl
    · rw [← truncated_iff]
      change (if _ then some true else none) = some true ↔ _
      split_ifs with htrunc
      · exact iff_of_true rfl htrunc
      · exact iff_of_false nofun htrunc
  · rw [mergeBranchRuns] at h
    split at h
    · cases h
    · exact Option.map_eq_none_iff.mp h

/-! ### Past the horizon -/

/-- A run of a branch with these cases. -/
def branchRun (runId : String) (cases : List CaseResult) : RunResult where
  schemaVersion := resultSchemaVersion
  runId := runId
  project := none
  suite := some "qa"
  startedAt := 0
  finishedAt := 0
  configDigest := "d"
  configSnapshot := .null
  git := some ⟨some "main", none, false⟩
  ci := none
  origin := none
  digests := none
  shareUrl := none
  composite := none
  filters := {}
  cases := cases
  summary := { total := cases.length }

/-- A case that passed. -/
def passedCase (key : String) : CaseResult where
  caseKey := key
  name := none
  status := .pass
  output := some (.text "yes")
  asserts := []
  usage := none
  costUsd := none
  cached := false
  attempts := 1
  emptyReason := none
  answeredByProviderId := none

/-- Twenty runs whose filters matched nothing, and the run before them. -/
def quietBranch : List RunResult :=
  List.replicate 20 (branchRun "new" []) ++ [branchRun "old" [passedCase "0"]]

/-- The quiet runs hide the case of the one before. -/
theorem coverage_past_the_horizon : ¬ ∀ branch runs,
    mergeBranchRuns branch runs = some none ↔ ∀ run ∈ runs, RunResult.cases run = [] := by
  intro h
  have hquiet : lookedAt quietBranch = List.replicate 20 (branchRun "new" []) := rfl
  have hnone : mergeBranchRuns "main" quietBranch = some none := by
    rw [mergeBranchRuns_eq_none_iff, hquiet]
    intro run hrun
    rw [List.eq_of_mem_replicate hrun]
    rfl
  have hempty := (h "main" quietBranch).mp hnone (branchRun "old" [passedCase "0"])
    (List.mem_append_right _ List.mem_cons_self)
  cases hempty
