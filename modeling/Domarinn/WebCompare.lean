/-
The comparison of two stored runs against the diff of their documents.

The server classifies a key by what the rows say of it, the command line by what the documents
say.  The rows of a stored run are those of its document, so both see the same two verdicts; but
a skipped case and an expected failure are no movement to the server, where the diff only asks
which cases pass.

* **`compareRuns_stored`** — the class of a key is a function of its two verdicts;
* **`compare_agrees_of_failing`** — the server's newly failing and newly passing keys are those
  of the diff that failed outright on the other side, and the rest agrees.
-/
import Domarinn.CompareRuns
import Domarinn.Entries
import Domarinn.Fallible
import Domarinn.RunDiff
import Domarinn.RunDocument

open Sql

/-! ### Verdicts -/

/-- The verdict that a run has on a key. -/
def RunResult.statusOf (run : RunResult) (key : String) : Option CaseStatus :=
  (byKey run.cases key).map CaseResult.status

/-- How the server classifies two verdicts, one of which is there. -/
def compareDelta : Option CaseStatus → Option CaseStatus → CompareDelta
  | some b, some h =>
    if b.isPassing && h.isFailing then .newlyFailing
    else if b.isFailing && h.isPassing then .newlyPassing
    else if b.isFailing && h.isFailing then .stillFailing
    else if b.isPassing && h.isPassing then .stillPassing
    else .unchanged
  | none, _ => .added
  | some _, none => .removed

/-- How the diff classifies them. -/
def diffDelta : Option CaseStatus → Option CaseStatus → Delta
  | some b, some h => pairDelta b.passed h.passed
  | none, _ => .added
  | some _, none => .removed

/-- The class with the runs exchanged. -/
def CompareDelta.swap : CompareDelta → CompareDelta
  | newlyFailing => newlyPassing
  | newlyPassing => newlyFailing
  | added => removed
  | removed => added
  | delta => delta

section
variable {b h : Option CaseStatus}

theorem classify_eq (b h : Option CmpCase) :
    classify b h = compareDelta (b.map CmpCase.status) (h.map CmpCase.status) := by
  cases b <;> cases h <;> rfl

/-- Exchanging the verdicts exchanges the directions. -/
theorem compareDelta_swap (hsome : b.isSome ∨ h.isSome) :
    compareDelta h b = (compareDelta b h).swap := by
  cases b with
  | none => cases h with
    | none => exact absurd hsome (by decide)
    | some h => rfl
  | some b => cases h with
    | none => rfl
    | some h => cases b <;> cases h <;> rfl

theorem added_iff : compareDelta b h = .added ↔ diffDelta b h = .added := by
  cases b with
  | none => exact iff_of_true rfl rfl
  | some b => cases h with
    | none => exact iff_of_false nofun nofun
    | some h => cases b <;> cases h <;> decide

theorem removed_iff : compareDelta b h = .removed ↔ diffDelta b h = .removed := by
  cases b with
  | none => exact iff_of_false nofun nofun
  | some b => cases h with
    | none => exact iff_of_true rfl rfl
    | some h => cases b <;> cases h <;> decide

/-- A case that used to pass is newly failing to the server when it failed or errored. -/
theorem newlyFailing_iff : compareDelta b h = .newlyFailing ↔
    diffDelta b h = .newlyFailing ∧ h.any CaseStatus.isFailing := by
  cases b with
  | none => exact iff_of_false nofun fun h => nomatch h.1
  | some b => cases h with
    | none => exact iff_of_false nofun fun h => nomatch h.1
    | some h => cases b <;> cases h <;> decide

/-- A case that passes now is newly passing to the server when it had failed or errored. -/
theorem newlyPassing_iff : compareDelta b h = .newlyPassing ↔
    diffDelta b h = .newlyPassing ∧ b.any CaseStatus.isFailing := by
  cases b with
  | none => exact iff_of_false nofun fun h => nomatch h.1
  | some b => cases h with
    | none => exact iff_of_false nofun fun h => nomatch h.1
    | some h => cases b <;> cases h <;> decide

/-- Where only the diff sees a movement, the server sees none. -/
theorem unchanged_of_quiet (hmoved : diffDelta b h = .newlyFailing ∨ diffDelta b h = .newlyPassing)
    (hquiet : compareDelta b h ≠ .newlyFailing ∧ compareDelta b h ≠ .newlyPassing) :
    compareDelta b h = .unchanged := by
  cases b with
  | none => cases hmoved <;> contradiction
  | some b => cases h with
    | none => cases hmoved <;> contradiction
    | some h =>
      revert hmoved hquiet
      cases b <;> cases h <;> decide

end

/-! ### What the server loads -/

/-- Keys that are not repeated are all kept. -/
theorem foldl_keepLastCase (cases : List (String × CmpCase)) :
    ∀ {kept : List (String × CmpCase)}, ((kept ++ cases).map Prod.fst).Nodup →
      cases.foldl keepLastCase kept = kept ++ cases := by
  induction cases with
  | nil => simp
  | cons c cases ih =>
    intro kept hnodup
    have hkept : kept.filter (fun x => x.1 ≠ c.1) = kept := by
      rw [List.filter_eq_self]
      intro x hx
      rw [List.map_append, List.map_cons] at hnodup
      refine decide_eq_true fun heq => ?_
      exact (List.nodup_append.mp hnodup).2.2 _ (List.mem_map_of_mem hx) _ (.head _) heq
    rw [List.foldl_cons, keepLastCase, hkept, ih, List.append_assoc, List.singleton_append]
    rwa [List.append_assoc, List.singleton_append]

theorem fromStr_asStr (status : CaseStatus) : CaseStatus.fromStr status.asStr = .ok status := by
  cases status <;> rfl

section
variable {codec : IngestCodec} {decode : Decoders} {t : RunTables} {run : RunDocument}

/-- The row of a case of a document, as the comparison loads it. -/
def cmpCaseOf (decode : Decoders) (codec : IngestCodec) (c : CaseDocument) : CmpCase where
  name := c.name
  status := c.status
  outputHash := (c.output.map Output.asText).map codec.sha256Hex
  score := some c.score
  asserts := parseStoredAsserts decode
    (some (codec.assertsText (c.asserts.map AssertResult.toLean)))
  promptDigest := c.promptDigest.map Digest.mk
  providerDigest := c.providerDigest.map Digest.mk
  assertDigest := c.assertDigest.map Digest.mk

theorem toCmpCase_row (idx : ℕ) (c : CaseDocument) (detail : List UInt8) (runId : String) :
    CaseRow.toCmpCase decode ((preparedCase codec idx c detail).row runId) =
      .ok (c.caseKey, cmpCaseOf decode codec c) := by
  rw [CaseRow.toCmpCase]
  show (CaseStatus.fromStr c.status.asStr).map _ = _
  rw [fromStr_asStr]
  rfl

/-- The cases that are loaded of a stored run, in the order of their keys. -/
theorem loadCompareCases_stored (h : Stored codec t run) (hnodup : run.caseKeys.Nodup) :
    loadCompareCases decode t run.runId = .ok (orderBy (fun a b => a.1 ≤ b.1)
      (run.documents.map fun c => (c.caseKey, cmpCaseOf decode codec c))) := by
  obtain ⟨ps, hcases, hrows⟩ := h.casesOf_eq hnodup
  have hload : (casesOf t run.runId).mapM (CaseRow.toCmpCase decode) =
      .ok (run.documents.map fun c => (c.caseKey, cmpCaseOf decode codec c)) := by
    have hmap := map_prepareCases hcases
      (f := fun q => CaseRow.toCmpCase decode (q.row run.runId)) fun idx c detail =>
        toCmpCase_row idx c detail run.runId
    refine mapM_of_map_ok ?_
    rw [hrows, List.map_map, List.map_map]
    exact hmap
  have hkeys : ((run.documents.map fun c => (c.caseKey, cmpCaseOf decode codec c)).map
      Prod.fst).Nodup := by
    rw [List.map_map]
    exact hnodup
  rw [loadCompareCases, hload]
  show Except.ok (orderBy _ (List.foldl keepLastCase [] _)) = _
  rw [foldl_keepLastCase _ (by rwa [List.nil_append]), List.nil_append]

end

/-! ### The class of a key -/

theorem uniqueKeys_iff {run : RunDocument} : run.UniqueKeys ↔ run.caseKeys.Nodup := by
  rw [RunResult.UniqueKeys, run.cases_eq, List.map_map]
  rfl

theorem statusOf_isSome {run : RunResult} {key : String} :
    (run.statusOf key).isSome ↔ key ∈ run.cases.map CaseResult.caseKey := by
  rw [RunResult.statusOf, Option.isSome_map, ← not_iff_not, Bool.not_eq_true,
    Option.isSome_eq_false_iff, Option.isNone_iff_eq_none, byKey_eq_none]

section
variable {codec : IngestCodec} {decode : Decoders} {run : RunDocument}

/-- The cases of a document as they are loaded. -/
def loadedCases (decode : Decoders) (codec : IngestCodec) (run : RunDocument) :
    List (String × CmpCase) :=
  orderBy (fun a b => a.1 ≤ b.1)
    (run.documents.map fun c => (c.caseKey, cmpCaseOf decode codec c))

theorem keys_loadedCases : ((loadedCases decode codec run).map Prod.fst).Perm run.caseKeys := by
  have hsorted := (List.perm_insertionSort (fun a b : String × CmpCase => a.1 ≤ b.1)
    (run.documents.map fun c => (c.caseKey, cmpCaseOf decode codec c))).map Prod.fst
  rwa [List.map_map] at hsorted

/-- What is loaded has the verdicts of the document. -/
theorem status_loadedCases (hnodup : run.caseKeys.Nodup) (key : String) :
    ((loadedCases decode codec run).lookup key).map CmpCase.status = run.statusOf key := by
  have hkeys : ((loadedCases decode codec run).map Prod.fst).Nodup :=
    keys_loadedCases.nodup_iff.mpr hnodup
  have hlookup (c : CmpCase) : (loadedCases decode codec run).lookup key = some c ↔
      ∃ d ∈ run.documents, d.caseKey = key ∧ cmpCaseOf decode codec d = c := by
    rw [lookup_eq_some_iff_mem hkeys, loadedCases, mem_orderBy, List.mem_map]
    simp only [Prod.mk.injEq]
  have hfind (c : CaseResult) : byKey run.cases key = some c ↔
      ∃ d ∈ run.documents, d.caseKey = key ∧ d.toCaseResult = c := by
    rw [byKey_eq_some (uniqueKeys_iff.mpr hnodup), run.cases_eq, List.mem_map]
    constructor
    · rintro ⟨⟨d, hd, rfl⟩, hkey⟩
      exact ⟨d, hd, hkey, rfl⟩
    · rintro ⟨d, hd, hkey, rfl⟩
      exact ⟨⟨d, hd, rfl⟩, hkey⟩
  refine Option.ext fun status => ?_
  rw [RunResult.statusOf, Option.map_eq_some_iff, Option.map_eq_some_iff]
  constructor
  · rintro ⟨c, hc, rfl⟩
    obtain ⟨d, hd, hkey, rfl⟩ := (hlookup c).mp hc
    exact ⟨d.toCaseResult, (hfind _).mpr ⟨d, hd, hkey, rfl⟩, rfl⟩
  · rintro ⟨c, hc, rfl⟩
    obtain ⟨d, hd, hkey, rfl⟩ := (hfind c).mp hc
    exact ⟨_, (hlookup _).mpr ⟨d, hd, hkey, rfl⟩, rfl⟩

end

/-- Every key of two runs is in one row, whose class follows from its two verdicts. -/
structure Classifies (base head : RunResult) (r : CompareResponse) : Prop where
  once : (r.cases.map CompareCaseRow.caseKey).Nodup
  covers : ∀ key, key ∈ r.cases.map CompareCaseRow.caseKey ↔
    key ∈ base.cases.map CaseResult.caseKey ∨ key ∈ head.cases.map CaseResult.caseKey
  delta : ∀ row ∈ r.cases,
    row.delta = compareDelta (base.statusOf row.caseKey) (head.statusOf row.caseKey)

section
variable {codec : IngestCodec} {t : RunTables} {base head : RunDocument}

theorem classifies_compareSides (decode : Decoders) (codec : IngestCodec)
    (hbase : base.caseKeys.Nodup) (hhead : head.caseKeys.Nodup)
    (baseAgg headAgg : RunAgg) :
    Classifies base.toRunResult head.toRunResult (compareSides base.runId head.runId baseAgg
      headAgg (loadedCases decode codec base) (loadedCases decode codec head)) := by
  set keys := orderBy (· ≤ ·) ((loadedCases decode codec base).map Prod.fst ++
    ((loadedCases decode codec head).map Prod.fst).filter fun key =>
      ((loadedCases decode codec base).lookup key).isNone) with hkeys
  have hmap : (compareSides base.runId head.runId baseAgg headAgg (loadedCases decode codec base)
      (loadedCases decode codec head)).cases.map CompareCaseRow.caseKey = keys := by
    show List.map _ (List.map _ keys) = keys
    rw [List.map_map]
    exact List.map_id _
  have hperm : keys.Perm ((loadedCases decode codec base).map Prod.fst ++
      ((loadedCases decode codec head).map Prod.fst).filter fun key =>
        ((loadedCases decode codec base).lookup key).isNone) := List.perm_insertionSort _ _
  have hmem (run : RunDocument) (key : String) :
      key ∈ (loadedCases decode codec run).map Prod.fst ↔ key ∈ run.caseKeys :=
    keys_loadedCases.mem_iff
  have hdocument (run : RunDocument) : run.cases.map CaseResult.caseKey = run.caseKeys := by
    rw [run.cases_eq, List.map_map]
    rfl
  have hnone (key : String) : ((loadedCases decode codec base).lookup key).isNone = true ↔
      key ∉ base.caseKeys := by
    rw [← hdocument, ← statusOf_isSome, ← status_loadedCases hbase, Option.isSome_map,
      Bool.not_eq_true, Option.isSome_eq_false_iff]
  refine ⟨?_, fun key => ?_, fun row hrow => ?_⟩
  · rw [hmap, hperm.nodup_iff, List.nodup_append]
    refine ⟨keys_loadedCases.nodup_iff.mpr hbase,
      (keys_loadedCases.nodup_iff.mpr hhead).filter _, fun key hkey key' hkey' heq => ?_⟩
    exact (hnone key').mp (List.mem_filter.mp hkey').2 (heq ▸ (hmem base key).mp hkey)
  · rw [hmap, hperm.mem_iff, List.mem_append, List.mem_filter, hmem, hmem, hnone, hdocument,
      hdocument]
    tauto
  · obtain ⟨key, -, rfl⟩ := List.mem_map.mp hrow
    rw [← status_loadedCases hbase, ← status_loadedCases hhead]
    exact classify_eq _ _

theorem compareRuns_stored (decode : Decoders) (policy : PolicyTables) (vis : RunVisibility)
    (hbase : Stored codec t base) (hhead : Stored codec t head)
    (hbaseKeys : base.caseKeys.Nodup) (hheadKeys : head.caseKeys.Nodup)
    (hbaseSeen : (findVisibleRun policy vis t base.runId).isSome)
    (hheadSeen : (findVisibleRun policy vis t head.runId).isSome) :
    ∃ r, compareRuns decode policy vis t base.runId head.runId = .ok (some r) ∧
      Classifies base.toRunResult head.toRunResult r := by
  obtain ⟨baseRow, hbaseRow⟩ := Option.isSome_iff_exists.mp hbaseSeen
  obtain ⟨headRow, hheadRow⟩ := Option.isSome_iff_exists.mp hheadSeen
  refine ⟨_, ?_, classifies_compareSides decode codec hbaseKeys hheadKeys
    baseRow.toAgg headRow.toAgg⟩
  rw [compareRuns, loadRunAgg, loadRunAgg, hbaseRow, hheadRow]
  show (do
    let baseCases ← loadCompareCases decode t base.runId
    let headCases ← loadCompareCases decode t head.runId
    return some (compareSides base.runId head.runId _ _ baseCases headCases)) = _
  rw [loadCompareCases_stored hbase hbaseKeys, loadCompareCases_stored hhead hheadKeys]
  rfl

end

/-! ### The diff of the documents -/

/-- The keys of a class. -/
def CompareResponse.keysOf (r : CompareResponse) (delta : CompareDelta) : List String :=
  (r.cases.filter fun row => row.delta = delta).map CompareCaseRow.caseKey

/-- The keys of a category. -/
def RunDiff.keysOf (d : RunDiff) (delta : Delta) : List String :=
  (d.cases.filter fun c => c.delta = delta).map CaseDelta.caseKey

section
variable {base head : RunResult} {r : CompareResponse} {key : String}

theorem Classifies.mem_keysOf (h : Classifies base head r) {delta : CompareDelta} :
    key ∈ r.keysOf delta ↔
      ((base.statusOf key).isSome ∨ (head.statusOf key).isSome) ∧
        compareDelta (base.statusOf key) (head.statusOf key) = delta := by
  rw [statusOf_isSome, statusOf_isSome, ← h.covers, CompareResponse.keysOf, List.mem_map]
  simp only [List.mem_filter, decide_eq_true_eq]
  constructor
  · rintro ⟨row, ⟨hrow, hdelta⟩, rfl⟩
    exact ⟨List.mem_map_of_mem hrow, (h.delta row hrow).symm.trans hdelta⟩
  · rintro ⟨hkey, hdelta⟩
    obtain ⟨row, hrow, rfl⟩ := List.mem_map.mp hkey
    exact ⟨row, ⟨hrow, (h.delta row hrow).trans hdelta⟩, rfl⟩

/-- What the diff says of a key. -/
theorem mem_diffRuns_cases (hbase : base.UniqueKeys) (hhead : head.UniqueKeys) {d : CaseDelta}
    (hd : d ∈ (diffRuns base head).cases) :
    d.baseStatus = base.statusOf d.caseKey ∧ d.headStatus = head.statusOf d.caseKey ∧
      d.delta = diffDelta d.baseStatus d.headStatus := by
  rw [diffRuns_eq] at hd
  obtain hd | hd := List.mem_append.mp hd
  · obtain ⟨hc, hmem, rfl⟩ := List.mem_map.mp hd
    have hfind : byKey head.cases hc.caseKey = some hc := (byKey_eq_some hhead).mpr ⟨hmem, rfl⟩
    refine ⟨rfl, ?_, ?_⟩
    · show some hc.status = head.statusOf hc.caseKey
      rw [RunResult.statusOf, hfind]
      rfl
    · rw [headDelta]
      cases byKey base.cases hc.caseKey <;> rfl
  · obtain ⟨bc, hmem, rfl⟩ := List.mem_map.mp hd
    obtain ⟨hmem, hnone⟩ := List.mem_filter.mp hmem
    have hfind : byKey base.cases bc.caseKey = some bc := (byKey_eq_some hbase).mpr ⟨hmem, rfl⟩
    refine ⟨?_, ?_, rfl⟩
    · show some bc.status = base.statusOf bc.caseKey
      rw [RunResult.statusOf, hfind]
      rfl
    · show none = head.statusOf bc.caseKey
      rw [RunResult.statusOf, Option.isNone_iff_eq_none.mp hnone]
      rfl

theorem mem_diffRuns_keysOf (hbase : base.UniqueKeys) (hhead : head.UniqueKeys) {delta : Delta} :
    key ∈ (diffRuns base head).keysOf delta ↔
      ((base.statusOf key).isSome ∨ (head.statusOf key).isSome) ∧
        diffDelta (base.statusOf key) (head.statusOf key) = delta := by
  rw [statusOf_isSome, statusOf_isSome, ← (diffRuns_partition hbase hhead).covers,
    RunDiff.keysOf, List.mem_map]
  simp only [List.mem_filter, decide_eq_true_eq]
  have hdelta : ∀ d ∈ (diffRuns base head).cases,
      d.delta = diffDelta (base.statusOf d.caseKey) (head.statusOf d.caseKey) := by
    intro d hd
    obtain ⟨hb, hh, hd⟩ := mem_diffRuns_cases hbase hhead hd
    rw [hd, hb, hh]
  constructor
  · rintro ⟨d, ⟨hd, heq⟩, rfl⟩
    exact ⟨List.mem_map_of_mem hd, (hdelta d hd).symm.trans heq⟩
  · rintro ⟨hkey, heq⟩
    obtain ⟨d, hd, rfl⟩ := List.mem_map.mp hkey
    exact ⟨d, ⟨hd, (hdelta d hd).trans heq⟩, rfl⟩

end

/-- How the comparison of two runs, and that of the runs exchanged, relates to their diff. -/
structure AgreesWithDiff (base head : RunResult) (r swapped : CompareResponse) : Prop where
  /-- Every key is in one row, so in one class. -/
  once : (r.cases.map CompareCaseRow.caseKey).Nodup
  covers : ∀ key, key ∈ r.cases.map CompareCaseRow.caseKey ↔
    key ∈ base.cases.map CaseResult.caseKey ∨ key ∈ head.cases.map CaseResult.caseKey
  swap : ∀ delta key, key ∈ swapped.keysOf delta.swap ↔ key ∈ r.keysOf delta
  added : ∀ key, key ∈ r.keysOf .added ↔ key ∈ (diffRuns base head).keysOf .added
  removed : ∀ key, key ∈ r.keysOf .removed ↔ key ∈ (diffRuns base head).keysOf .removed
  newlyFailing : ∀ key, key ∈ r.keysOf .newlyFailing ↔
    key ∈ (diffRuns base head).keysOf .newlyFailing ∧
      (head.statusOf key).any CaseStatus.isFailing
  newlyPassing : ∀ key, key ∈ r.keysOf .newlyPassing ↔
    key ∈ (diffRuns base head).keysOf .newlyPassing ∧
      (base.statusOf key).any CaseStatus.isFailing
  /-- The other movements of the diff are none to the server. -/
  quiet : ∀ key, key ∈ (diffRuns base head).keysOf .newlyFailing ∨
    key ∈ (diffRuns base head).keysOf .newlyPassing →
      key ∈ r.keysOf .newlyFailing ∨ key ∈ r.keysOf .newlyPassing ∨ key ∈ r.keysOf .unchanged

theorem CompareDelta.swap_swap (delta : CompareDelta) : delta.swap.swap = delta := by
  cases delta <;> rfl

theorem Classifies.agreesWithDiff {base head : RunResult} {r swapped : CompareResponse}
    (hbase : base.UniqueKeys) (hhead : head.UniqueKeys) (h : Classifies base head r)
    (hswapped : Classifies head base swapped) : AgreesWithDiff base head r swapped where
  once := h.once
  covers := h.covers
  swap := by
    intro delta key
    rw [hswapped.mem_keysOf, h.mem_keysOf, or_comm]
    refine and_congr_right fun hsome => ?_
    rw [compareDelta_swap hsome]
    constructor
    · intro heq
      rw [← CompareDelta.swap_swap (compareDelta _ _), heq, CompareDelta.swap_swap]
    · exact congrArg CompareDelta.swap
  added := by
    intro key
    rw [h.mem_keysOf, mem_diffRuns_keysOf hbase hhead, added_iff]
  removed := by
    intro key
    rw [h.mem_keysOf, mem_diffRuns_keysOf hbase hhead, removed_iff]
  newlyFailing := by
    intro key
    rw [h.mem_keysOf, mem_diffRuns_keysOf hbase hhead, newlyFailing_iff, and_assoc]
  newlyPassing := by
    intro key
    rw [h.mem_keysOf, mem_diffRuns_keysOf hbase hhead, newlyPassing_iff, and_assoc]
  quiet := by
    intro key
    rw [mem_diffRuns_keysOf hbase hhead, mem_diffRuns_keysOf hbase hhead, ← and_or_left,
      h.mem_keysOf, h.mem_keysOf, h.mem_keysOf]
    rintro ⟨hsome, hmoved⟩
    by_cases hfailing : compareDelta (base.statusOf key) (head.statusOf key) = .newlyFailing
    · exact .inl ⟨hsome, hfailing⟩
    · by_cases hpassing : compareDelta (base.statusOf key) (head.statusOf key) = .newlyPassing
      · exact .inr (.inl ⟨hsome, hpassing⟩)
      · exact .inr (.inr ⟨hsome, unchanged_of_quiet hmoved ⟨hfailing, hpassing⟩⟩)

/-- **The page a reviewer opens and the gate of a build agree** on what came and went, and on the
movements between passing and failing outright. -/
theorem compare_agrees_of_failing {codec : IngestCodec} {t : RunTables} {base head : RunDocument}
    (decode : Decoders) {policy : PolicyTables} {vis : RunVisibility}
    (hbase : Stored codec t base) (hhead : Stored codec t head)
    (hbaseKeys : base.UniqueKeys) (hheadKeys : head.UniqueKeys)
    (hbaseSeen : (findVisibleRun policy vis t base.runId).isSome)
    (hheadSeen : (findVisibleRun policy vis t head.runId).isSome) :
    ∃ r swapped, compareRuns decode policy vis t base.runId head.runId = .ok (some r) ∧
      compareRuns decode policy vis t head.runId base.runId = .ok (some swapped) ∧
      AgreesWithDiff base.toRunResult head.toRunResult r swapped := by
  have hbaseKeys' := uniqueKeys_iff.mp hbaseKeys
  have hheadKeys' := uniqueKeys_iff.mp hheadKeys
  obtain ⟨r, hr, hclasses⟩ :=
    compareRuns_stored decode policy vis hbase hhead hbaseKeys' hheadKeys' hbaseSeen hheadSeen
  obtain ⟨swapped, hswapped, hclasses'⟩ :=
    compareRuns_stored decode policy vis hhead hbase hheadKeys' hbaseKeys' hheadSeen hbaseSeen
  exact ⟨r, swapped, hr, hswapped, hclasses.agreesWithDiff hbaseKeys hheadKeys hclasses'⟩

/-! ### A case that is skipped -/

/-- What is made of a document that nothing is hashed and compressed of. -/
def plainUpload (run : RunDocument) : PreparedRun where
  row := runRowOf plainCodec run none
  tags := run.filters.tags
  blob := []
  cases := run.documents.zipIdx.map fun c => preparedCase plainCodec c.2 c.1 []

/-- A case that used to pass. -/
def passedBefore : RunDocument := documentOf "base" [taggedCase "a" []] (by decide)

/-- The same case, skipped. -/
def skippedNow : RunDocument :=
  documentOf "head" [{ taggedCase "a" [] with status := .skip }] (by decide)

/-- The upload of the first run, and of both. -/
def firstUpload : List StoreEvent :=
  [.change (.ingest (plainUpload passedBefore) ⟨0, zero_fits⟩)]

def bothUploads : List StoreEvent :=
  firstUpload ++ [.change (.ingest (plainUpload skippedNow) ⟨0, zero_fits⟩)]

theorem stored_both : Stored plainCodec (storedAfter bothUploads) passedBefore ∧
    Stored plainCodec (storedAfter bothUploads) skippedNow := by
  have hbase : buildRun plainCodec passedBefore none = .ok (plainUpload passedBefore) := rfl
  have hhead : buildRun plainCodec skippedNow none = .ok (plainUpload skippedNow) := rfl
  have hfirst : ingestRun (storedAfter []) (plainUpload passedBefore) ⟨0, zero_fits⟩ =
      (storedAfter firstUpload, .created) := rfl
  have hsecond : ingestRun (storedAfter firstUpload) (plainUpload skippedNow) ⟨0, zero_fits⟩ =
      (storedAfter bothUploads, .created) := rfl
  have hkept : passedBefore.runId ∈ (storedAfter bothUploads).runIds := .head _
  exact ⟨(Stored.created hbase hfirst).kept
    (.change (.ingest (plainUpload skippedNow) ⟨0, zero_fits⟩)) hkept, .created hhead hsecond⟩

/-- Nothing is read of assertions and documents. -/
def blindDecoders : Decoders where
  asserts := fun _ => none
  document := fun _ => .error "unreadable"

def openPolicy : PolicyTables where
  restrictions := []
  grants := []
  restrictionKey := .nil
  grantKey := .nil

theorem compare_agrees_skipped : ∃ r swapped,
    compareRuns blindDecoders openPolicy .full (storedAfter bothUploads) "base" "head" =
        .ok (some r) ∧
      compareRuns blindDecoders openPolicy .full (storedAfter bothUploads) "head" "base" =
        .ok (some swapped) ∧
      AgreesWithDiff passedBefore.toRunResult skippedNow.toRunResult r swapped :=
  compare_agrees_of_failing blindDecoders stored_both.1 stored_both.2 (by decide) (by decide)
    rfl rfl

/-- A case that used to pass and is skipped is a regression to the diff alone. -/
theorem skipped_not_newlyFailing : ¬ ∀ codec t base head decode policy vis r,
    Stored codec t base → Stored codec t head → base.UniqueKeys → head.UniqueKeys →
      compareRuns decode policy vis t base.runId head.runId = .ok (some r) →
        ∀ key, key ∈ r.keysOf .newlyFailing ↔
          key ∈ (diffRuns base.toRunResult head.toRunResult).keysOf .newlyFailing := by
  intro h
  have hbaseKeys : passedBefore.UniqueKeys := by decide
  have hheadKeys : skippedNow.UniqueKeys := by decide
  obtain ⟨r, hr, hclasses⟩ := compareRuns_stored blindDecoders openPolicy .full stored_both.1 stored_both.2 (uniqueKeys_iff.mp hbaseKeys)
    (uniqueKeys_iff.mp hheadKeys) rfl rfl
  have hsame := h _ _ _ _ _ _ _ _ stored_both.1 stored_both.2 hbaseKeys hheadKeys hr "a"
  rw [hclasses.mem_keysOf, mem_diffRuns_keysOf hbaseKeys hheadKeys] at hsame
  revert hsame
  decide
