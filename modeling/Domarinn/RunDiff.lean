/-
The diff of two runs: how each case changed, and whether the change is significant.

* **`countP_joins_comm`** — the joined pairs of two lists with unique keys are the same number,
  counted from either side;
* **`diffRuns_eq`** — the loops leave one delta a case of the head and a case only of the base, and
  the tally of them;
* **`diffRuns_partition`** — every key is in one delta, the categories partition the deltas, and
  exchanging the runs exchanges the categories;
* **`uniqueKeys_baseline`** — a baseline that was merged from the runs of a branch has unique keys.
-/
import Domarinn.Composite
import Domarinn.Stats
import Mathlib.Algebra.BigOperators.Group.List.Basic
import Mathlib.Data.List.Nodup

/-! ### The diff -/

/-- How a single case changed between two runs. -/
inductive Delta where
  | newlyFailing
  | newlyPassing
  | stillFailing
  | unchanged
  | added
  | removed
deriving DecidableEq

/-- A per-case delta record. -/
structure CaseDelta where
  caseKey : String
  name : Option String
  baseStatus : Option CaseStatus
  headStatus : Option CaseStatus
  delta : Delta
  outputChanged : Bool
deriving DecidableEq

structure DiffSummary where
  newlyFailing : ℕ := 0
  newlyPassing : ℕ := 0
  stillFailing : ℕ := 0
  unchanged : ℕ := 0
  outputChanged : ℕ := 0
  added : ℕ := 0
  removed : ℕ := 0
deriving DecidableEq

/-- The result of McNemar's test as it is written. -/
structure McNemarView where
  regressions : ℕ
  fixes : ℕ
  statistic : ℚ
  significant : Bool

def McNemar.view (m : McNemar) : McNemarView := ⟨m.b, m.c, m.statistic, m.significant⟩

structure RunDiff where
  cases : List CaseDelta
  summary : DiffSummary
  mcnemar : McNemarView

/-- `passed`: the diff measures the model, so an xpass counts and an xfail does not. -/
def CaseStatus.passed (status : CaseStatus) : Bool := status = pass || status = xpass

/-- `output_text`. -/
def CaseResult.outputText (c : CaseResult) : String := (c.output.map Output.asText).getD ""

/-- The map of the cases by their key: the last case of a key. -/
def byKey (cases : List CaseResult) (key : String) : Option CaseResult :=
  cases.reverse.find? fun c => c.caseKey = key

/-- `tally`. -/
def DiffSummary.tally (s : DiffSummary) (delta : Delta) (outputChanged : Bool) : DiffSummary :=
  let s := match delta with
    | .newlyFailing => { s with newlyFailing := s.newlyFailing + 1 }
    | .newlyPassing => { s with newlyPassing := s.newlyPassing + 1 }
    | .stillFailing => { s with stillFailing := s.stillFailing + 1 }
    | .unchanged => { s with unchanged := s.unchanged + 1 }
    | .added => { s with added := s.added + 1 }
    | .removed => { s with removed := s.removed + 1 }
  if outputChanged then { s with outputChanged := s.outputChanged + 1 } else s

/-- The state of the loops. -/
structure DiffLoop where
  cases : List CaseDelta := []
  summary : DiffSummary := {}
  bCount : ℕ := 0
  cCount : ℕ := 0

namespace DiffLoop

/-- A case of the head run, which may be new. -/
def headStep (baseCases : List CaseResult) (l : DiffLoop) (hc : CaseResult) : DiffLoop :=
  let headPass := hc.status.passed
  let (l, delta, baseStatus, outputChanged) :=
    match byKey baseCases hc.caseKey with
    | some bc =>
      let outputChanged := decide (bc.outputText ≠ hc.outputText)
      let (l, delta) := match bc.status.passed, headPass with
        | true, false => ({ l with bCount := l.bCount + 1 }, Delta.newlyFailing)
        | false, true => ({ l with cCount := l.cCount + 1 }, Delta.newlyPassing)
        | false, false => (l, Delta.stillFailing)
        | true, true => (l, Delta.unchanged)
      (l, delta, some bc.status, outputChanged)
    | none => (l, Delta.added, none, false)
  { l with
    summary := l.summary.tally delta outputChanged
    cases := l.cases ++ [{
      caseKey := hc.caseKey
      name := hc.name
      baseStatus := baseStatus
      headStatus := some hc.status
      delta := delta
      outputChanged := outputChanged }] }

/-- A case of the base run, if it is only there. -/
def baseStep (headCases : List CaseResult) (l : DiffLoop) (bc : CaseResult) : DiffLoop :=
  if (byKey headCases bc.caseKey).isSome then l
  else { l with
    summary := { l.summary with removed := l.summary.removed + 1 }
    cases := l.cases ++ [{
      caseKey := bc.caseKey
      name := bc.name
      baseStatus := some bc.status
      headStatus := none
      delta := .removed
      outputChanged := false }] }

end DiffLoop

/-- `diff_runs`. -/
def diffRuns (base head : RunResult) : RunDiff :=
  let l := head.cases.foldl (DiffLoop.headStep base.cases) {}
  let l := base.cases.foldl (DiffLoop.baseStep head.cases) l
  { cases := l.cases
    summary := l.summary
    mcnemar := (mcnemar l.bCount l.cCount).view }

/-! ### Joining two lists by key -/

section
variable {α κ : Type*} [DecidableEq κ] (key : α → κ) (R : α → α → Prop) [DecidableRel R]

theorem sum_ite_eq_countP (p : α → Prop) [DecidablePred p] (xs : List α) :
    (xs.map fun x => if p x then 1 else 0).sum = xs.countP fun x => p x := by
  induction xs with
  | nil => rfl
  | cons x xs ih =>
    rw [List.map_cons, List.sum_cons, ih, List.countP_cons, add_comm]
    simp only [decide_eq_true_eq]

/-- The related pairs of two lists, counted by either component. -/
theorem sum_countP_comm (xs ys : List α) :
    (xs.map fun x => ys.countP fun y => R x y).sum =
      (ys.map fun y => xs.countP fun x => R x y).sum := by
  induction xs with
  | nil => simp
  | cons x xs ih =>
    have hcons (y : α) : (x :: xs).countP (fun x => R x y) =
        xs.countP (fun x => R x y) + (if R x y then 1 else 0) := by
      rw [List.countP_cons]
      simp only [decide_eq_true_eq]
    simp only [List.map_cons, List.sum_cons, hcons, List.sum_map_add, ih,
      sum_ite_eq_countP (fun y => R x y)]
    omega

/-- With unique keys, an item has at most one partner. -/
theorem countP_partner {ys : List α} (hys : (ys.map key).Nodup) (k : κ) (p : α → Prop)
    [DecidablePred p] : (ys.countP fun y => key y = k ∧ p y) =
      if ∃ y ∈ ys, key y = k ∧ p y then 1 else 0 := by
  induction ys with
  | nil => simp
  | cons y ys ih =>
    rw [List.map_cons, List.nodup_cons] at hys
    rw [List.countP_cons, ih hys.2]
    by_cases hy : key y = k ∧ p y
    · have hnone : ¬ ∃ z ∈ ys, key z = k ∧ p z := by
        rintro ⟨z, hz, hk, -⟩
        exact hys.1 (List.mem_map.mpr ⟨z, hz, hk.trans hy.1.symm⟩)
      simp [hy, hnone]
    · simp [hy]

/-- **The joined pairs are the same number from either side**, where keys are unique. -/
theorem countP_joins_comm {xs ys : List α} (hxs : (xs.map key).Nodup) (hys : (ys.map key).Nodup) :
    (xs.countP fun x => ∃ y ∈ ys, key y = key x ∧ R x y) =
      ys.countP fun y => ∃ x ∈ xs, key x = key y ∧ R x y := by
  have hx (x : α) : (if ∃ y ∈ ys, key y = key x ∧ R x y then 1 else 0) =
      ys.countP fun y => key y = key x ∧ R x y := (countP_partner key hys (key x) (R x)).symm
  have hy (y : α) : (if ∃ x ∈ xs, key x = key y ∧ R x y then 1 else 0) =
      xs.countP fun x => key y = key x ∧ R x y := by
    rw [← countP_partner key hxs (key y) fun x => R x y]
    simp only [eq_comm]
  rw [← sum_ite_eq_countP, ← sum_ite_eq_countP]
  simp only [hx, hy]
  exact sum_countP_comm (fun x y => key y = key x ∧ R x y) xs ys

end

/-! ### What the loops leave -/

/-- How a case that both runs have changed. -/
def pairDelta (basePass headPass : Bool) : Delta :=
  match basePass, headPass with
  | true, false => .newlyFailing
  | false, true => .newlyPassing
  | false, false => .stillFailing
  | true, true => .unchanged

/-- The delta of a case of the head run. -/
def headDelta (baseCases : List CaseResult) (hc : CaseResult) : CaseDelta where
  caseKey := hc.caseKey
  name := hc.name
  baseStatus := (byKey baseCases hc.caseKey).map CaseResult.status
  headStatus := some hc.status
  delta := match byKey baseCases hc.caseKey with
    | some bc => pairDelta bc.status.passed hc.status.passed
    | none => .added
  outputChanged := match byKey baseCases hc.caseKey with
    | some bc => bc.outputText ≠ hc.outputText
    | none => false

/-- The delta of a case that only the base run has. -/
def removedDelta (bc : CaseResult) : CaseDelta where
  caseKey := bc.caseKey
  name := bc.name
  baseStatus := some bc.status
  headStatus := none
  delta := .removed
  outputChanged := false

/-- How many deltas are of this category. -/
def countDelta (deltas : List CaseDelta) (delta : Delta) : ℕ :=
  deltas.countP fun d => d.delta = delta

/-- The tally of these deltas. -/
def tallyAll (deltas : List CaseDelta) : DiffSummary where
  newlyFailing := countDelta deltas .newlyFailing
  newlyPassing := countDelta deltas .newlyPassing
  stillFailing := countDelta deltas .stillFailing
  unchanged := countDelta deltas .unchanged
  outputChanged := deltas.countP CaseDelta.outputChanged
  added := countDelta deltas .added
  removed := countDelta deltas .removed

theorem tallyAll_append_singleton (deltas : List CaseDelta) (d : CaseDelta) :
    tallyAll (deltas ++ [d]) = (tallyAll deltas).tally d.delta d.outputChanged := by
  simp only [tallyAll, countDelta, List.countP_append, List.countP_singleton, DiffSummary.tally]
  cases d.delta <;> cases d.outputChanged <;> rfl

namespace DiffLoop

/-- The state of the loops after these deltas. -/
def after (deltas : List CaseDelta) : DiffLoop where
  cases := deltas
  summary := tallyAll deltas
  bCount := countDelta deltas .newlyFailing
  cCount := countDelta deltas .newlyPassing

theorem headStep_after (baseCases : List CaseResult) (deltas : List CaseDelta) (hc : CaseResult) :
    (after deltas).headStep baseCases hc = after (deltas ++ [headDelta baseCases hc]) := by
  have hcount (delta : Delta) : countDelta (deltas ++ [headDelta baseCases hc]) delta =
      countDelta deltas delta + (if (headDelta baseCases hc).delta = delta then 1 else 0) := by
    simp [countDelta]
  rw [after, after, tallyAll_append_singleton, hcount, hcount, headStep, headDelta]
  cases byKey baseCases hc.caseKey with
  | none => rfl
  | some bc =>
    cases hb : bc.status.passed <;> cases hh : hc.status.passed <;> simp [pairDelta, hb]

theorem baseStep_after (headCases : List CaseResult) (deltas : List CaseDelta) (bc : CaseResult) :
    (after deltas).baseStep headCases bc =
      if (byKey headCases bc.caseKey).isSome then after deltas
      else after (deltas ++ [removedDelta bc]) := by
  rw [baseStep]
  refine if_congr Iff.rfl rfl ?_
  have hcount (delta : Delta) (h : delta ≠ .removed) :
      countDelta (deltas ++ [removedDelta bc]) delta = countDelta deltas delta := by
    simp [countDelta, removedDelta, h.symm]
  rw [after, after, tallyAll_append_singleton, hcount .newlyFailing (by decide),
    hcount .newlyPassing (by decide)]
  rfl

theorem foldl_headStep (baseCases : List CaseResult) : ∀ (cases : List CaseResult)
    (deltas : List CaseDelta), cases.foldl (headStep baseCases) (after deltas) =
      after (deltas ++ cases.map (headDelta baseCases))
  | [], deltas => by rw [List.foldl_nil, List.map_nil, List.append_nil]
  | hc :: cases, deltas => by
    rw [List.foldl_cons, headStep_after, foldl_headStep, List.append_assoc, List.map_cons]
    rfl

theorem foldl_baseStep (headCases : List CaseResult) : ∀ (cases : List CaseResult)
    (deltas : List CaseDelta), cases.foldl (baseStep headCases) (after deltas) =
      after (deltas ++
        (cases.filter fun bc => (byKey headCases bc.caseKey).isNone).map removedDelta)
  | [], deltas => by rw [List.foldl_nil, List.filter_nil, List.map_nil, List.append_nil]
  | bc :: cases, deltas => by
    rw [List.foldl_cons, baseStep_after, List.filter_cons]
    cases byKey headCases bc.caseKey with
    | none =>
      simp only [Option.isSome_none, Bool.false_eq_true, if_false, Option.isNone_none, if_true]
      rw [foldl_baseStep, List.append_assoc, List.map_cons]
      rfl
    | some hc =>
      simp only [Option.isSome_some, if_true, Option.isNone_some, Bool.false_eq_true, if_false]
      exact foldl_baseStep headCases cases deltas

end DiffLoop

/-- The cases that only the base run has. -/
def removedCases (base head : RunResult) : List CaseResult :=
  base.cases.filter fun bc => (byKey head.cases bc.caseKey).isNone

theorem diffRuns_eq (base head : RunResult) :
    diffRuns base head =
      let deltas := head.cases.map (headDelta base.cases) ++
        (removedCases base head).map removedDelta
      { cases := deltas
        summary := tallyAll deltas
        mcnemar := (mcnemar (countDelta deltas .newlyFailing)
          (countDelta deltas .newlyPassing)).view } := by
  have hstart : ({} : DiffLoop) = .after [] := rfl
  rw [diffRuns, hstart, DiffLoop.foldl_headStep, DiffLoop.foldl_baseStep, List.nil_append]
  rfl

/-! ### The partition -/

/-- The keys of the cases of a run are pairwise distinct. -/
def RunResult.UniqueKeys (r : RunResult) : Prop := (r.cases.map CaseResult.caseKey).Nodup

instance (r : RunResult) : Decidable r.UniqueKeys :=
  inferInstanceAs (Decidable (r.cases.map CaseResult.caseKey).Nodup)

theorem byKey_eq_some {r : RunResult} (h : r.UniqueKeys) {key : String} {c : CaseResult} :
    byKey r.cases key = some c ↔ c ∈ r.cases ∧ c.caseKey = key := by
  rw [byKey]
  constructor
  · intro hfind
    have hkey := List.find?_some hfind
    exact ⟨List.mem_reverse.mp (List.mem_of_find?_eq_some hfind), of_decide_eq_true hkey⟩
  · rintro ⟨hc, rfl⟩
    cases hfind : r.cases.reverse.find? fun d => d.caseKey = c.caseKey with
    | none =>
      have hnone := List.find?_eq_none.mp hfind c (List.mem_reverse.mpr hc)
      exact absurd (decide_eq_true rfl) hnone
    | some d =>
      have hkey := List.find?_some hfind
      have hd := List.mem_reverse.mp (List.mem_of_find?_eq_some hfind)
      rw [List.inj_on_of_nodup_map h hd hc (of_decide_eq_true hkey)]

theorem byKey_eq_none {cases : List CaseResult} {key : String} :
    byKey cases key = none ↔ key ∉ cases.map CaseResult.caseKey := by
  rw [byKey, List.find?_eq_none]
  simp [eq_comm]

/-- What holds of the partner that a case is joined with. -/
theorem exists_byKey {r : RunResult} (h : r.UniqueKeys) {key : String} {p : CaseResult → Prop} :
    (∃ c, byKey r.cases key = some c ∧ p c) ↔ ∃ c ∈ r.cases, c.caseKey = key ∧ p c := by
  simp only [byKey_eq_some h, and_assoc]

theorem pairDelta_inj {a b c d : Bool} : pairDelta a b = pairDelta c d ↔ a = c ∧ b = d := by
  revert a b c d
  decide

theorem pairDelta_ne (a b : Bool) : pairDelta a b ≠ .added ∧ pairDelta a b ≠ .removed := by
  revert a b
  decide

theorem headDelta_eq_pair {base : RunResult} (hbase : base.UniqueKeys) {hc : CaseResult}
    {basePass headPass : Bool} :
    (headDelta base.cases hc).delta = pairDelta basePass headPass ↔
      ∃ bc ∈ base.cases, bc.caseKey = hc.caseKey ∧
        bc.status.passed = basePass ∧ hc.status.passed = headPass := by
  rw [← exists_byKey hbase, headDelta]
  cases byKey base.cases hc.caseKey with
  | none => simp [(pairDelta_ne basePass headPass).1.symm]
  | some bc => simp [pairDelta_inj]

theorem headDelta_outputChanged {base : RunResult} (hbase : base.UniqueKeys) {hc : CaseResult} :
    (headDelta base.cases hc).outputChanged = true ↔
      ∃ bc ∈ base.cases, bc.caseKey = hc.caseKey ∧ bc.outputText ≠ hc.outputText := by
  rw [← exists_byKey hbase, headDelta]
  cases byKey base.cases hc.caseKey with
  | none => simp
  | some bc => simp

/-- Cases that both runs have, counted among the cases of the head run. -/
theorem countDelta_pair {base head : RunResult} (hbase : base.UniqueKeys)
    (basePass headPass : Bool) :
    countDelta (diffRuns base head).cases (pairDelta basePass headPass) =
      head.cases.countP fun hc => ∃ bc ∈ base.cases, bc.caseKey = hc.caseKey ∧
        bc.status.passed = basePass ∧ hc.status.passed = headPass := by
  have hremoved : ((removedCases base head).map removedDelta).countP
      (fun d => d.delta = pairDelta basePass headPass) = 0 := by
    rw [List.countP_eq_zero]
    intro d hd
    obtain ⟨bc, -, rfl⟩ := List.mem_map.mp hd
    rw [decide_eq_true_eq]
    exact (pairDelta_ne basePass headPass).2.symm
  rw [diffRuns_eq, countDelta, List.countP_append, hremoved, add_zero, List.countP_map]
  refine List.countP_congr fun hc _ => ?_
  rw [Function.comp_apply, decide_eq_true_eq, decide_eq_true_eq, headDelta_eq_pair hbase]

theorem countP_outputChanged {base head : RunResult} (hbase : base.UniqueKeys) :
    (diffRuns base head).cases.countP CaseDelta.outputChanged =
      head.cases.countP fun hc => ∃ bc ∈ base.cases, bc.caseKey = hc.caseKey ∧
        bc.outputText ≠ hc.outputText := by
  have hremoved :
      ((removedCases base head).map removedDelta).countP CaseDelta.outputChanged = 0 := by
    rw [List.countP_eq_zero]
    intro d hd
    obtain ⟨bc, -, rfl⟩ := List.mem_map.mp hd
    exact Bool.false_ne_true
  rw [diffRuns_eq, List.countP_append, hremoved, add_zero, List.countP_map]
  refine List.countP_congr fun hc _ => ?_
  rw [Function.comp_apply, decide_eq_true_eq, headDelta_outputChanged hbase]

/-- Exchanging the runs exchanges the directions of the changes. -/
theorem countDelta_pair_swap {base head : RunResult} (hbase : base.UniqueKeys)
    (hhead : head.UniqueKeys) (basePass headPass : Bool) :
    countDelta (diffRuns head base).cases (pairDelta headPass basePass) =
      countDelta (diffRuns base head).cases (pairDelta basePass headPass) := by
  rw [countDelta_pair hhead, countDelta_pair hbase]
  refine (countP_joins_comm CaseResult.caseKey (fun bc hc : CaseResult =>
    hc.status.passed = headPass ∧ bc.status.passed = basePass) hbase hhead).trans ?_
  refine List.countP_congr fun hc _ => ?_
  simp only [decide_eq_true_eq, and_comm (a := hc.status.passed = headPass)]

theorem countP_outputChanged_swap {base head : RunResult} (hbase : base.UniqueKeys)
    (hhead : head.UniqueKeys) :
    (diffRuns head base).cases.countP CaseDelta.outputChanged =
      (diffRuns base head).cases.countP CaseDelta.outputChanged := by
  rw [countP_outputChanged hhead, countP_outputChanged hbase]
  refine (countP_joins_comm CaseResult.caseKey (fun bc hc : CaseResult =>
    hc.outputText ≠ bc.outputText) hbase hhead).trans ?_
  simp only [ne_eq, eq_comm]

theorem countDelta_added (base head : RunResult) :
    countDelta (diffRuns base head).cases .added =
      head.cases.countP fun hc => (byKey base.cases hc.caseKey).isNone := by
  have hremoved : ((removedCases base head).map removedDelta).countP
      (fun d => d.delta = .added) = 0 := by
    rw [List.countP_eq_zero]
    intro d hd
    obtain ⟨bc, -, rfl⟩ := List.mem_map.mp hd
    simp [removedDelta]
  rw [diffRuns_eq, countDelta, List.countP_append, hremoved, add_zero, List.countP_map]
  refine List.countP_congr fun hc _ => ?_
  rw [Function.comp_apply, decide_eq_true_eq, headDelta]
  cases byKey base.cases hc.caseKey with
  | none => simp
  | some bc => simp [(pairDelta_ne bc.status.passed hc.status.passed).1]

theorem countDelta_removed (base head : RunResult) :
    countDelta (diffRuns base head).cases .removed =
      base.cases.countP fun bc => (byKey head.cases bc.caseKey).isNone := by
  have hhead :
      (head.cases.map (headDelta base.cases)).countP (fun d => d.delta = .removed) = 0 := by
    rw [List.countP_eq_zero]
    intro d hd
    obtain ⟨hc, -, rfl⟩ := List.mem_map.mp hd
    rw [decide_eq_true_eq, headDelta]
    cases byKey base.cases hc.caseKey with
    | none => simp
    | some bc => exact (pairDelta_ne bc.status.passed hc.status.passed).2
  rw [diffRuns_eq, countDelta, List.countP_append, hhead, zero_add, List.countP_map, removedCases,
    List.countP_filter]
  simp [removedDelta]

/-- What a diff promises. -/
structure Partitions (base head : RunResult) : Prop where
  /-- Each key of either run is in exactly one delta. -/
  once : ((diffRuns base head).cases.map CaseDelta.caseKey).Nodup
  covers : ∀ k, k ∈ (diffRuns base head).cases.map CaseDelta.caseKey ↔
    k ∈ base.cases.map CaseResult.caseKey ∨ k ∈ head.cases.map CaseResult.caseKey
  counts : let s := (diffRuns base head).summary
    s.newlyFailing + s.newlyPassing + s.stillFailing + s.unchanged + s.added + s.removed =
      (diffRuns base head).cases.length
  regressions : (diffRuns base head).summary.newlyFailing = (diffRuns base head).mcnemar.regressions
  swap : let s := (diffRuns base head).summary
    (diffRuns head base).summary = { s with
      newlyFailing := s.newlyPassing
      newlyPassing := s.newlyFailing
      added := s.removed
      removed := s.added }

theorem diffRuns_summary (base head : RunResult) :
    (diffRuns base head).summary = tallyAll (diffRuns base head).cases := by
  rw [diffRuns_eq]

theorem diffRuns_keys (base head : RunResult) :
    (diffRuns base head).cases.map CaseDelta.caseKey =
      head.cases.map CaseResult.caseKey ++ (removedCases base head).map CaseResult.caseKey := by
  rw [diffRuns_eq, List.map_append, List.map_map, List.map_map]
  rfl

/-- Every delta is in one category. -/
theorem countDelta_sum (deltas : List CaseDelta) :
    countDelta deltas .newlyFailing + countDelta deltas .newlyPassing +
      countDelta deltas .stillFailing + countDelta deltas .unchanged + countDelta deltas .added +
      countDelta deltas .removed = deltas.length := by
  induction deltas with
  | nil => rfl
  | cons d deltas ih =>
    simp only [countDelta, List.countP_cons, List.length_cons] at ih ⊢
    cases d.delta <;> simp <;> omega

theorem tallyAll_swap {base head : RunResult} (hbase : base.UniqueKeys) (hhead : head.UniqueKeys) :
    tallyAll (diffRuns head base).cases =
      let s := tallyAll (diffRuns base head).cases
      { s with
        newlyFailing := s.newlyPassing
        newlyPassing := s.newlyFailing
        added := s.removed
        removed := s.added } := by
  have hfailing := countDelta_pair_swap hbase hhead false true
  have hpassing := countDelta_pair_swap hbase hhead true false
  have hstill := countDelta_pair_swap hbase hhead false false
  have hunchanged := countDelta_pair_swap hbase hhead true true
  have hadded : countDelta (diffRuns head base).cases .added =
      countDelta (diffRuns base head).cases .removed := by
    rw [countDelta_added, countDelta_removed]
  have hremoved : countDelta (diffRuns head base).cases .removed =
      countDelta (diffRuns base head).cases .added := by
    rw [countDelta_added, countDelta_removed]
  simp only [pairDelta] at hfailing hpassing hstill hunchanged
  simp only [tallyAll, hfailing, hpassing, hstill, hunchanged, hadded, hremoved,
    countP_outputChanged_swap hbase hhead]

/-- **The diff of two runs is a partition of their keys, and symmetric.** -/
theorem diffRuns_partition {base head : RunResult} (hbase : base.UniqueKeys)
    (hhead : head.UniqueKeys) : Partitions base head := by
  have hremoved {k : String} : k ∈ (removedCases base head).map CaseResult.caseKey ↔
      k ∈ base.cases.map CaseResult.caseKey ∧ k ∉ head.cases.map CaseResult.caseKey := by
    simp only [removedCases, List.mem_map, List.mem_filter, Option.isNone_iff_eq_none,
      byKey_eq_none]
    constructor
    · rintro ⟨bc, ⟨hbc, hnew⟩, rfl⟩
      exact ⟨⟨bc, hbc, rfl⟩, hnew⟩
    · rintro ⟨⟨bc, hbc, rfl⟩, hnew⟩
      exact ⟨bc, ⟨hbc, hnew⟩, rfl⟩
  refine ⟨?_, fun k => ?_, ?_, ?_, ?_⟩
  · -- the keys of head, and those of base that are gone
    rw [diffRuns_keys]
    have hsub : ((removedCases base head).map CaseResult.caseKey).Nodup :=
      hbase.sublist (List.filter_sublist.map _)
    refine List.nodup_append.mpr ⟨hhead, hsub, fun k hk k' hk' heq => ?_⟩
    exact (hremoved.mp hk').2 (heq ▸ hk)
  · rw [diffRuns_keys, List.mem_append, hremoved]
    by_cases hk : k ∈ head.cases.map CaseResult.caseKey
    · exact iff_of_true (.inl hk) (.inr hk)
    · simp only [hk, not_false_eq_true, and_true, false_or, or_false]
  · rw [diffRuns_summary]
    exact countDelta_sum _
  · rw [diffRuns_eq]
    rfl
  · -- swapped runs are tallied by the same keys
    rw [diffRuns_summary, diffRuns_summary]
    exact tallyAll_swap hbase hhead

/-- One regression, one case added and one removed. -/
theorem diffRuns_partition_regression :
    Partitions (branchRun "base" [passedCase "0", passedCase "1"])
      (branchRun "head" [{ passedCase "0" with status := .fail }, passedCase "2"]) :=
  diffRuns_partition (by decide) (by decide)

/-- A branch baseline can be diffed against: whatever the runs of the branch were, its keys are
unique. -/
theorem uniqueKeys_baseline {branch : String} {runs : List RunResult} {baseline : RunResult}
    (h : mergeBranchRuns branch runs = some (some baseline)) : baseline.UniqueKeys := by
  obtain ⟨newest, summary, -, rfl⟩ := mergeBranchRuns_eq_some h
  rw [RunResult.UniqueKeys, baselineOf, (walked_mergeRuns runs).cases]
  exact nodup_firstOf _ _ _
