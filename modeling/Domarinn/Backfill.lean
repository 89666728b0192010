/-
The startup backfill: columns that migrations added, filled from the columns and the blobs that
are there.

Three passes run in order, each selecting rows with a column that is still missing.  Case rows
are read from their blobs; runs are counted over their case rows where these know enough, and
read from their blobs else; answerers are stamped where a run vouches that it has none.  A row
that cannot be read is stamped with a sentinel, so that it is not selected again.
-/
import Domarinn.Chunks
import Domarinn.RunDocument

open Json Sql

/-- `v.as_i64()`. -/
def Json.asI64? : Json → Option ℤ
  | num (.posInt n) => if n < 2 ^ 63 then some n else none
  | num (.negInt n) => some (.negSucc n)
  | _ => none

/-- How blobs are read: decompressed and parsed, as a case and as a document. -/
structure BackfillReaders where
  case : List UInt8 → Except String CaseDocument
  run : List UInt8 → Except String Json

/-- The promoted columns of a run that its blob yields. -/
structure RunColumns where
  digest : String
  cacheHits : ℤ
  cacheMisses : ℤ
  emptyCount : ℤ
  fallbackCount : ℤ

/-- `decode_run_columns`. -/
def decodeRunColumns (read : BackfillReaders) (body : List UInt8) : Except String RunColumns := do
  let value ← read.run body
  match (getMember value "config_digest").bind asStr? with
  | none => .error "run body missing config_digest"
  | some digest =>
    let summary := getMember value "summary"
    let count (key : String) : ℤ := ((summary.bind (getMember · key)).bind asI64?).getD 0
    let cases := (getMember value "cases").bind asArray?
    let countCases (field : String) : ℤ := (cases.map fun cases =>
      asI64 (cases.countP fun c => ((getMember c field).bind asStr?).any (· ≠ ""))).getD 0
    return {
      digest
      cacheHits := count "cache_hits"
      cacheMisses := count "cache_misses"
      emptyCount := countCases "empty_reason"
      fallbackCount := countCases "answered_by_provider_id" }

/-! ### Case rows -/

/-- Some promoted column of a case is missing; the answerer is not asked for. -/
def caseDue (c : CaseRow) : Truth :=
  (((isNull c.providerId).or (isNull c.cached)).or (isNull c.error)).or (isNull c.emptyReason)

/-- What is written to a case row whose blob this is. -/
def stampCase (read : BackfillReaders) (detail : List UInt8) (c : CaseRow) : CaseRow :=
  match read.case detail with
  | .ok case =>
    { c with
      providerId := some case.providerId
      promptId := case.promptId
      testId := some case.testId
      repeatIdx := some case.repeatIdx
      score := some case.score
      stopReason := case.stopReason
      cached := some (if case.cached then 1 else 0)
      error := some (case.error.getD "")
      emptyReason := some ((case.emptyReason.map EmptyReason.value).getD "")
      answeredByProviderId := some (case.answeredByProviderId.getD "") }
  | .error _ =>
    { c with
      providerId := some ""
      cached := some (-1)
      error := some ""
      emptyReason := some ""
      answeredByProviderId := some "" }

/-- `CASE_CHUNK`. -/
def caseChunk : ℤ := 500

/-- One update of a case row after another. -/
def updateCases (set : List UInt8 → CaseRow → CaseRow) (rows chunk : List CaseRow) : List CaseRow :=
  chunk.foldl (fun rows c => update rows (fun r => eq (some r.key) (some c.key)) (set c.detail))
    rows

/-- `backfill_cases`. -/
def backfillCases (read : BackfillReaders) (rounds : ℕ) (cases : List CaseRow) :
    Option (List CaseRow) :=
  drain (fun rows => limit caseChunk (select rows caseDue)) (updateCases (stampCase read)) rounds
    cases

/-! ### Runs -/

/-- A case row of the run that could not be read. -/
def unreadableCase (cases : List CaseRow) (r : RunRow) : Truth :=
  existsRow cases fun c => (eq (some c.runId) (some r.id)).and (eq c.cached (some (-1)))

/-- Only the count of empty cases is missing, and the case rows know it. -/
def emptyCounted (cases : List CaseRow) (r : RunRow) : Truth :=
  (((isNull r.emptyCount).and (isNull r.configDigest).not).and (isNull r.cacheHits).not).and
    (unreadableCase cases r).not

/-- The case rows of a run with a reason for being empty. -/
def emptyRows (cases : List CaseRow) (id : String) : List CaseRow :=
  select cases fun c => (eq (some c.runId) (some id)).and (eq c.emptyReason (some "")).not

def countEmptyRows (cases : List CaseRow) (runs : List RunRow) : List RunRow :=
  update runs (emptyCounted cases) fun r =>
    { r with emptyCount := some (emptyRows cases r.id).length }

/-- Every case row of a run has an answerer that was read. -/
def fallbackCounted (cases : List CaseRow) (r : RunRow) : Truth :=
  (isNull r.fallbackCount).and (existsRow cases fun c => (eq (some c.runId) (some r.id)).and
    ((isNull c.answeredByProviderId).or (eq c.cached (some (-1))))).not

/-- The case rows of a run that another provider answered. -/
def fallbackRows (cases : List CaseRow) (id : String) : List CaseRow :=
  select cases fun c =>
    (eq (some c.runId) (some id)).and (eq c.answeredByProviderId (some "")).not

def countFallbackRows (cases : List CaseRow) (runs : List RunRow) : List RunRow :=
  update runs (fallbackCounted cases) fun r =>
    { r with fallbackCount := some (fallbackRows cases r.id).length }

/-- Some promoted column of a run is missing. -/
def runDue (r : RunRow) : Truth :=
  (((isNull r.configDigest).or (isNull r.cacheHits)).or (isNull r.emptyCount)).or
    (isNull r.fallbackCount)

/-- What is written to a run whose blob this is, where nothing is yet. -/
def stampRun (read : BackfillReaders) (body : List UInt8) (r : RunRow) : RunRow :=
  match decodeRunColumns read body with
  | .ok columns =>
    { r with
      configDigest := r.configDigest.or (some columns.digest)
      cacheHits := r.cacheHits.or (some columns.cacheHits)
      cacheMisses := r.cacheMisses.or (some columns.cacheMisses)
      emptyCount := r.emptyCount.or (some columns.emptyCount)
      fallbackCount := r.fallbackCount.or (some columns.fallbackCount) }
  | .error _ =>
    { r with
      configDigest := r.configDigest.or (some "")
      cacheHits := r.cacheHits.or (some (-1))
      cacheMisses := r.cacheMisses.or (some (-1))
      emptyCount := r.emptyCount.or (some (-1))
      fallbackCount := r.fallbackCount.or (some (-1)) }

/-- `RUN_CHUNK`. -/
def runChunk : ℤ := 100

/-- The blobs of the runs that are due. -/
def dueBlobs (blobs : List BlobRow) (runs : List RunRow) : List BlobRow :=
  limit runChunk (select blobs fun b =>
    inRows (some b.runId) ((select runs runDue).map fun r => some r.id))

def updateRuns (read : BackfillReaders) (runs : List RunRow) (chunk : List BlobRow) : List RunRow :=
  chunk.foldl (fun runs b => update runs (fun r => eq (some r.id) (some b.runId))
    (stampRun read b.body)) runs

/-- `backfill_runs`. -/
def backfillRuns (read : BackfillReaders) (rounds : ℕ) (blobs : List BlobRow)
    (cases : List CaseRow) (runs : List RunRow) : Option (List RunRow) :=
  drain (dueBlobs blobs) (updateRuns read) rounds
    (countFallbackRows cases (countEmptyRows cases runs))

/-! ### Answerers -/

/-- A run without fallbacks vouches for its case rows. -/
def stampVouched (runs : List RunRow) (cases : List CaseRow) : List CaseRow :=
  update cases
    (fun c => (isNull c.answeredByProviderId).and (inRows (some c.runId)
      ((select runs fun r => eq r.fallbackCount (some 0)).map fun r => some r.id)))
    fun c => { c with answeredByProviderId := some "" }

/-- What is written to a case row that has no answerer. -/
def stampAnswerer (read : BackfillReaders) (detail : List UInt8) (c : CaseRow) : CaseRow :=
  { c with
    answeredByProviderId := some (match read.case detail with
      | .ok case => case.answeredByProviderId.getD ""
      | .error _ => "") }

/-- `backfill_case_answerers`. -/
def backfillCaseAnswerers (read : BackfillReaders) (rounds : ℕ) (runs : List RunRow)
    (cases : List CaseRow) : Option (List CaseRow) :=
  drain (fun rows => limit caseChunk (select rows fun c => isNull c.answeredByProviderId))
    (updateCases (stampAnswerer read)) rounds (stampVouched runs cases)

/-! ### Search rows -/

/-- The search row of a case from its columns and, where it can be read, its blob. -/
def searchRowOf (read : BackfillReaders) (c : CaseRow) : CaseFtsRow :=
  let decoded := match read.case c.detail with
    | .ok case => some case
    | .error _ => none
  { runId := c.runId
    caseKey := c.caseKey
    name := c.name.getD ""
    prompt := ((decoded.bind CaseDocument.prompt).map flattenPrompt).getD ""
    output := c.outputText.getD ""
    error := (decoded.bind CaseDocument.error).getD ""
    tags := " ".intercalate ((decoded.map CaseDocument.tags).getD []) }

/-- `backfill_one_run`, of a run by its row. -/
def indexStoredRun (read : BackfillReaders) (t : RunTables) (r : RunRow) : RunTables :=
  { t with
    runsFts := t.runsFts ++ [{
      runId := r.id
      project := r.project.getD ""
      suite := r.suite.getD ""
      branch := r.gitBranch.getD ""
      commit := r.gitCommit.getD ""
      description := r.description.getD ""
      tags := " ".intercalate (loadRunTags t r.id) }]
    casesFts := t.casesFts ++ (casesOf t r.id).map (searchRowOf read) }

/-- `RUN_CHUNK` of the search rows. -/
def searchChunk : ℤ := 50

/-- `search::backfill`. -/
def backfillSearch (read : BackfillReaders) : ℕ → RunTables → Option RunTables :=
  drain (fun t => limit searchChunk (select t.runs fun r =>
      (inRows (some r.id) (t.runsFts.map fun x => some x.runId)).not))
    fun t chunk => chunk.foldl (indexStoredRun read) t

/-- `backfill::run`; the rounds are those of each loop. -/
def backfill (read : BackfillReaders) (rounds : ℕ) (t : RunTables) : Option RunTables := do
  let cases ← backfillCases read rounds t.cases
  let runs ← backfillRuns read rounds t.blobs cases t.runs
  let cases ← backfillCaseAnswerers read rounds runs cases
  backfillSearch read rounds { t with runs, cases }

/-! ### What a pass over case rows leaves -/

theorem limit_eq_nil {ρ : Type} {n : ℤ} (hn : 0 < n) {rows : List ρ} :
    limit n rows = [] ↔ rows = [] := by
  rw [limit, if_neg (by omega), List.take_eq_nil_iff]
  exact or_iff_right (by omega)

theorem limit_sublist {ρ : Type} (n : ℤ) (rows : List ρ) : (limit n rows).Sublist rows := by
  rw [limit]
  split_ifs
  · exact List.Sublist.refl _
  · exact List.take_sublist _ _

section
variable {due : CaseRow → Truth} {set : List UInt8 → CaseRow → CaseRow}

/-- The case rows of a chunk are updated from their own blobs, and the others stay. -/
theorem updateCases_eq (hset : ∀ detail c, (set detail c).key = c.key) {rows chunk : List CaseRow}
    (hkeys : (rows.map CaseRow.key).Nodup) (hchunk : chunk.Sublist rows) :
    updateCases set rows chunk =
      rows.map fun c => if c.key ∈ chunk.map CaseRow.key then set c.detail c else c := by
  have hchunkKeys := hkeys.sublist (hchunk.map CaseRow.key)
  rw [updateCases, foldl_update CaseRow.key CaseRow.key (fun c => set c.detail)
    (fun x r => hset x.detail r) chunk hchunkKeys]
  refine List.map_congr_left fun c hc => ?_
  by_cases hmem : c.key ∈ chunk.map CaseRow.key
  · obtain ⟨x, hx, hxc⟩ := List.mem_map.mp hmem
    obtain rfl : x = c := List.inj_on_of_nodup_map hkeys (hchunk.subset hx) hc hxc
    rw [find?_key hchunkKeys hx rfl, if_pos hmem]
    rfl
  · rw [find?_key_none hmem, if_neg hmem]
    rfl

theorem map_key_updated (hset : ∀ detail c, (set detail c).key = c.key) (rows : List CaseRow)
    (sel : CaseRow → Bool) :
    (rows.map fun c => if sel c then set c.detail c else c).map CaseRow.key =
      rows.map CaseRow.key := by
  rw [List.map_map]
  refine List.map_congr_left fun c _ => ?_
  rw [Function.comp_apply]
  split_ifs
  · exact hset c.detail c
  · rfl

/-- A pass over case rows ends, and has updated those that were due. -/
theorem drain_updateCases (due : CaseRow → Truth) (set : List UInt8 → CaseRow → CaseRow)
    (hset : ∀ detail c, (set detail c).key = c.key)
    (hdone : ∀ c, ¬ (due (set c.detail c)).IsTrue) {cases : List CaseRow}
    (hkeys : (cases.map CaseRow.key).Nodup) {rounds : ℕ} (hrounds : cases.length < rounds) :
    drain (fun rows => limit caseChunk (select rows due)) (updateCases set) rounds cases =
      some (cases.map fun c => if (due c).IsTrue then set c.detail c else c) := by
  have hsub (rows : List CaseRow) : (limit caseChunk (select rows due)).Sublist rows :=
    (limit_sublist _ _).trans List.filter_sublist
  have hfill := drain_fill (fun c => decide (due c).IsTrue) (fun c => set c.detail c)
    (fun rows => (rows.map CaseRow.key).Nodup) (fun rows => limit caseChunk (select rows due))
    (updateCases set) (fun c _ => decide_eq_false (hdone c))
    (fun rows sel h => by rwa [map_key_updated hset]) ?_ ?_ rounds hkeys
    (lt_of_le_of_lt List.countP_le_length hrounds)
  · simpa using hfill
  · intro rows _ hnone r hr
    refine decide_eq_false fun hdue => ?_
    have hmem : r ∈ select rows due := mem_select.mpr ⟨hr, hdue⟩
    rw [(limit_eq_nil (by decide)).mp hnone] at hmem
    cases hmem
  · intro rows hrows hsome
    refine ⟨fun c => c.key ∈ (limit caseChunk (select rows due)).map CaseRow.key, ?_, ?_, ?_⟩
    · intro c hc hsel
      obtain ⟨x, hx, hxc⟩ := List.mem_map.mp (of_decide_eq_true hsel)
      obtain rfl : x = c := List.inj_on_of_nodup_map hrows ((hsub rows).subset hx) hc hxc
      exact decide_eq_true (mem_select.mp ((limit_sublist _ _).subset hx)).2
    · obtain ⟨x, hx⟩ := List.exists_mem_of_ne_nil _ hsome
      exact ⟨x, (hsub rows).subset hx, decide_eq_true (List.mem_map_of_mem hx)⟩
    · simpa using updateCases_eq hset hrows (hsub rows)

end

/-! ### What the passes leave -/

/-- A case row after the first pass. -/
def filledCase (read : BackfillReaders) (c : CaseRow) : CaseRow :=
  if (caseDue c).IsTrue then stampCase read c.detail c else c

/-- A run after the loop of the second pass. -/
def filledRun (read : BackfillReaders) (blobs : List BlobRow) (r : RunRow) : RunRow :=
  if (runDue r).IsTrue then
    (blobs.find? fun b => b.runId = r.id).elim r fun b => stampRun read b.body r
  else r

/-- A case row after the loop of the third pass. -/
def answeredCase (read : BackfillReaders) (c : CaseRow) : CaseRow :=
  if (isNull c.answeredByProviderId).IsTrue then stampAnswerer read c.detail c else c

section
variable {read : BackfillReaders} {rounds : ℕ}

theorem stampCase_key (detail : List UInt8) (c : CaseRow) :
    (stampCase read detail c).key = c.key := by
  rw [stampCase]
  cases read.case detail <;> rfl

theorem not_caseDue_stampCase (detail : List UInt8) (c : CaseRow) :
    ¬ (caseDue (stampCase read detail c)).IsTrue := by
  rw [stampCase]
  cases read.case detail <;> simp [caseDue]

theorem stampRun_id (body : List UInt8) (r : RunRow) : (stampRun read body r).id = r.id := by
  rw [stampRun]
  cases decodeRunColumns read body <;> rfl

theorem not_runDue_stampRun (body : List UInt8) (r : RunRow) :
    ¬ (runDue (stampRun read body r)).IsTrue := by
  rw [stampRun]
  cases decodeRunColumns read body <;> simp [runDue]

/-- The first pass. -/
theorem backfillCases_eq {cases : List CaseRow} (hkeys : (cases.map CaseRow.key).Nodup)
    (hrounds : cases.length < rounds) :
    backfillCases read rounds cases = some (cases.map (filledCase read)) :=
  drain_updateCases caseDue (stampCase read) stampCase_key
    (fun c => not_caseDue_stampCase c.detail c) hkeys hrounds

/-- The blobs of a chunk are those of runs that are due. -/
theorem mem_dueBlobs {blobs : List BlobRow} {runs : List RunRow} {b : BlobRow}
    (hb : b ∈ dueBlobs blobs runs) :
    b ∈ blobs ∧ ∃ r ∈ runs, r.id = b.runId ∧ (runDue r).IsTrue := by
  obtain ⟨hb, hdue⟩ := mem_select.mp ((limit_sublist _ _).subset hb)
  obtain ⟨r, hr, hid⟩ := List.mem_map.mp (isTrue_inRows.mp hdue)
  obtain ⟨hr, hdue⟩ := mem_select.mp hr
  exact ⟨hb, r, hr, Option.some.inj hid, hdue⟩

/-- What is written to a run from its blob, if it has one. -/
def stampFromBlob (read : BackfillReaders) (blobs : List BlobRow) (r : RunRow) : RunRow :=
  (blobs.find? fun b => b.runId = r.id).elim r fun b => stampRun read b.body r

theorem stampFromBlob_id (blobs : List BlobRow) (r : RunRow) :
    (stampFromBlob read blobs r).id = r.id := by
  rw [stampFromBlob]
  cases blobs.find? fun b => b.runId = r.id with
  | none => rfl
  | some b => exact stampRun_id b.body r

/-- The runs of a chunk are updated from their blobs, and the others stay. -/
theorem updateRuns_eq {blobs chunk : List BlobRow} (hblobs : (blobs.map BlobRow.runId).Nodup)
    (hchunk : chunk.Sublist blobs) (runs : List RunRow) :
    updateRuns read runs chunk = runs.map fun r =>
      if r.id ∈ chunk.map BlobRow.runId then stampFromBlob read blobs r else r := by
  have hchunkKeys := hblobs.sublist (hchunk.map BlobRow.runId)
  rw [updateRuns, foldl_update RunRow.id BlobRow.runId (fun b => stampRun read b.body)
    (fun b r => stampRun_id b.body r) chunk hchunkKeys]
  refine List.map_congr_left fun r _ => ?_
  by_cases hmem : r.id ∈ chunk.map BlobRow.runId
  · obtain ⟨b, hb, hid⟩ := List.mem_map.mp hmem
    rw [find?_key hchunkKeys hb hid.symm, if_pos hmem, stampFromBlob,
      find?_key hblobs (hchunk.subset hb) hid.symm]
  · rw [find?_key_none hmem, if_neg hmem]
    rfl

/-- A run is due and has a blob to be read. -/
def readable (blobs : List BlobRow) (r : RunRow) : Bool :=
  decide ((runDue r).IsTrue ∧ r.id ∈ blobs.map BlobRow.runId)

/-- The loop of the second pass. -/
theorem drain_updateRuns {blobs : List BlobRow} (hblobs : (blobs.map BlobRow.runId).Nodup)
    {runs : List RunRow} (hids : (runs.map RunRow.id).Nodup) (hrounds : runs.length < rounds) :
    drain (dueBlobs blobs) (updateRuns read) rounds runs =
      some (runs.map (filledRun read blobs)) := by
  have hsub (runs : List RunRow) : (dueBlobs blobs runs).Sublist blobs :=
    (limit_sublist _ _).trans List.filter_sublist
  have hfill := drain_fill (readable blobs) (stampFromBlob read blobs)
    (fun runs => (runs.map RunRow.id).Nodup) (dueBlobs blobs) (updateRuns read) ?_ ?_ ?_ ?_ rounds
    hids (lt_of_le_of_lt List.countP_le_length hrounds)
  · rw [hfill]
    refine congrArg some (List.map_congr_left fun r _ => ?_)
    rw [filledRun, readable, ← stampFromBlob]
    by_cases hdue : (runDue r).IsTrue
    · by_cases hblob : r.id ∈ blobs.map BlobRow.runId
      · rw [if_pos hdue, if_pos (decide_eq_true ⟨hdue, hblob⟩)]
      · rw [if_pos hdue, stampFromBlob, find?_key_none hblob]
        exact ite_self r
    · rw [if_neg hdue, if_neg fun h => hdue (of_decide_eq_true h).1]
  · -- a run that was stamped is not due again
    intro r hr
    obtain ⟨-, hblob⟩ := of_decide_eq_true hr
    obtain ⟨b, hb, hid⟩ := List.mem_map.mp hblob
    rw [stampFromBlob, find?_key hblobs hb hid.symm]
    exact decide_eq_false fun h => not_runDue_stampRun b.body r h.1
  · intro runs sel h
    rw [List.map_map]
    refine (congrArg List.Nodup (List.map_congr_left fun r _ => ?_)).mpr h
    rw [Function.comp_apply]
    split_ifs
    · exact stampFromBlob_id blobs r
    · rfl
  · intro runs _ hnone r hr
    refine decide_eq_false fun hreadable => ?_
    obtain ⟨hdue, hblob⟩ := hreadable
    obtain ⟨b, hb, hid⟩ := List.mem_map.mp hblob
    have hmem : b ∈ select blobs fun b =>
        inRows (some b.runId) ((select runs runDue).map fun r => some r.id) :=
      mem_select.mpr ⟨hb, isTrue_inRows.mpr
        (List.mem_map.mpr ⟨r, mem_select.mpr ⟨hr, hdue⟩, congrArg some hid.symm⟩)⟩
    rw [(limit_eq_nil (by decide)).mp hnone] at hmem
    cases hmem
  · intro runs hruns hsome
    refine ⟨fun r => r.id ∈ (dueBlobs blobs runs).map BlobRow.runId, ?_, ?_, ?_⟩
    · intro r hr hsel
      obtain ⟨b, hb, hid⟩ := List.mem_map.mp (of_decide_eq_true hsel)
      obtain ⟨hb, r', hr', hid', hdue⟩ := mem_dueBlobs hb
      obtain rfl : r' = r := List.inj_on_of_nodup_map hruns hr' hr (hid'.trans hid)
      exact decide_eq_true ⟨hdue, hid ▸ List.mem_map_of_mem hb⟩
    · obtain ⟨b, hb⟩ := List.exists_mem_of_ne_nil _ hsome
      obtain ⟨-, r, hr, hid, -⟩ := mem_dueBlobs hb
      exact ⟨r, hr, decide_eq_true (hid ▸ List.mem_map_of_mem hb)⟩
    · simpa using updateRuns_eq hblobs (hsub runs) runs

/-! ### The search rows, and the whole -/

/-- Two states that differ in their search rows at most. -/
structure SameButSearch (t t' : RunTables) : Prop where
  runs : t'.runs = t.runs
  runTags : t'.runTags = t.runTags
  blobs : t'.blobs = t.blobs
  cases : t'.cases = t.cases
  caseTags : t'.caseTags = t.caseTags
  baselines : t'.baselines = t.baselines

theorem foldl_indexStoredRun (read : BackfillReaders) (chunk : List RunRow) : ∀ t : RunTables,
    SameButSearch t (chunk.foldl (indexStoredRun read) t) ∧
      (chunk.foldl (indexStoredRun read) t).runsFts.map RunFtsRow.runId =
        t.runsFts.map RunFtsRow.runId ++ chunk.map RunRow.id := by
  induction chunk with
  | nil => exact fun t => ⟨⟨rfl, rfl, rfl, rfl, rfl, rfl⟩, (List.append_nil _).symm⟩
  | cons r chunk ih =>
    intro t
    obtain ⟨hsame, hids⟩ := ih (indexStoredRun read t r)
    refine ⟨⟨hsame.runs, hsame.runTags, hsame.blobs, hsame.cases, hsame.caseTags,
      hsame.baselines⟩, ?_⟩
    rw [List.foldl_cons, hids]
    simp [indexStoredRun]

/-- The runs without a search row. -/
def unindexed (t : RunTables) : List RunRow :=
  select t.runs fun r => (inRows (some r.id) (t.runsFts.map fun x => some x.runId)).not

/-- The runs of a chunk are not without a search row any more. -/
theorem unindexed_foldl (read : BackfillReaders) (chunk : List RunRow) (t : RunTables) :
    unindexed (chunk.foldl (indexStoredRun read) t) =
      (unindexed t).filter fun r => r.id ∉ chunk.map RunRow.id := by
  obtain ⟨hsame, hids⟩ := foldl_indexStoredRun read chunk t
  have hmap (xs : List RunFtsRow) : xs.map (fun x => some x.runId) =
      (xs.map RunFtsRow.runId).map some := by
    rw [List.map_map]
    rfl
  rw [unindexed, unindexed, hsame.runs, select, select, List.filter_filter]
  refine List.filter_congr fun r _ => ?_
  rw [← Bool.decide_and, decide_eq_decide, hmap, hmap, hids, Truth.isTrue_not, Truth.isTrue_not,
    isFalse_inRows, isFalse_inRows]
  simp only [List.map_append, List.mem_append, List.mem_map, Option.some.injEq, exists_eq_right,
    reduceCtorEq, and_false, exists_false, not_false_eq_true, true_and, not_or]
  tauto

/-- The search rows are written, and then every run has one. -/
theorem backfillSearch_ends (read : BackfillReaders) (t : RunTables) {rounds : ℕ}
    (hrounds : t.runs.length < rounds) : ∃ t', backfillSearch read rounds t = some t' ∧
      SameButSearch t t' ∧ unindexed t' = [] := by
  have hstep (s : RunTables) (hsame : SameButSearch t s)
      (hchunk : limit searchChunk (unindexed s) ≠ []) :
      SameButSearch t ((limit searchChunk (unindexed s)).foldl (indexStoredRun read) s) ∧
        (unindexed ((limit searchChunk (unindexed s)).foldl (indexStoredRun read) s)).length <
          (unindexed s).length := by
    obtain ⟨hsame', hids⟩ := foldl_indexStoredRun read (limit searchChunk (unindexed s)) s
    refine ⟨⟨hsame'.runs.trans hsame.runs, hsame'.runTags.trans hsame.runTags,
      hsame'.blobs.trans hsame.blobs, hsame'.cases.trans hsame.cases,
      hsame'.caseTags.trans hsame.caseTags, hsame'.baselines.trans hsame.baselines⟩, ?_⟩
    rw [unindexed_foldl, List.length_filter_lt_length_iff_exists]
    obtain ⟨x, hx⟩ := List.exists_mem_of_ne_nil _ hchunk
    refine ⟨x, (limit_sublist _ _).subset hx, fun h => ?_⟩
    exact of_decide_eq_true h (List.mem_map_of_mem hx)
  obtain ⟨t', hend, hsame, hnone⟩ := drain_of_measure
    (fun s => limit searchChunk (unindexed s)) (fun s chunk => chunk.foldl (indexStoredRun read) s)
    (SameButSearch t) (fun s => (unindexed s).length)
    (fun s hs hchunk => (hstep s hs hchunk).1) (fun s hs hchunk => (hstep s hs hchunk).2) rounds
    ⟨rfl, rfl, rfl, rfl, rfl, rfl⟩
    (lt_of_le_of_lt (List.filter_sublist).length_le hrounds)
  exact ⟨t', hend, hsame, (limit_eq_nil (by decide)).mp hnone⟩

/-- The case rows after the first pass. -/
def firstCases (read : BackfillReaders) (t : RunTables) : List CaseRow :=
  t.cases.map (filledCase read)

/-- The runs after the second pass. -/
def filledRuns (read : BackfillReaders) (t : RunTables) : List RunRow :=
  (countFallbackRows (firstCases read t) (countEmptyRows (firstCases read t) t.runs)).map
    (filledRun read t.blobs)

/-- The case rows after the third pass. -/
def filledCases (read : BackfillReaders) (t : RunTables) : List CaseRow :=
  (stampVouched (filledRuns read t) (firstCases read t)).map (answeredCase read)

/-- The backfill ends with these tables, however many rounds its loops may take. -/
def Backfills (read : BackfillReaders) (t t' : RunTables) : Prop :=
  ∃ enough, ∀ rounds, enough ≤ rounds → backfill read rounds t = some t'

theorem map_id_counted (cases : List CaseRow) (runs : List RunRow) :
    (countFallbackRows cases (countEmptyRows cases runs)).map RunRow.id = runs.map RunRow.id := by
  rw [countFallbackRows, countEmptyRows, update, update, List.map_map, List.map_map]
  refine List.map_congr_left fun r _ => ?_
  simp only [Function.comp_apply]
  split_ifs <;> rfl

theorem length_counted (cases : List CaseRow) (runs : List RunRow) :
    (countFallbackRows cases (countEmptyRows cases runs)).length = runs.length := by
  have hlengths := congrArg List.length (map_id_counted cases runs)
  rwa [List.length_map, List.length_map] at hlengths

theorem map_key_firstCases (t : RunTables) :
    (firstCases read t).map CaseRow.key = t.cases.map CaseRow.key := by
  rw [firstCases, List.map_map]
  refine List.map_congr_left fun c _ => ?_
  rw [Function.comp_apply, filledCase]
  split_ifs
  · exact stampCase_key c.detail c
  · rfl

theorem map_key_stampVouched (runs : List RunRow) (cases : List CaseRow) :
    (stampVouched runs cases).map CaseRow.key = cases.map CaseRow.key := by
  rw [stampVouched, update, List.map_map]
  refine List.map_congr_left fun c _ => ?_
  rw [Function.comp_apply]
  split_ifs <;> rfl

/-- What the passes make of runs and case rows, before the search rows are written. -/
theorem backfill_eq {t : RunTables} (hids : (t.runs.map RunRow.id).Nodup)
    (hblobs : (t.blobs.map BlobRow.runId).Nodup) (hkeys : (t.cases.map CaseRow.key).Nodup)
    (hrounds : t.runs.length + t.cases.length < rounds) :
    backfill read rounds t = backfillSearch read rounds
      { t with runs := filledRuns read t, cases := filledCases read t } := by
  have hfirst : ((firstCases read t).map CaseRow.key).Nodup := by rwa [map_key_firstCases]
  have hruns : ((countFallbackRows (firstCases read t)
      (countEmptyRows (firstCases read t) t.runs)).map RunRow.id).Nodup := by rwa [map_id_counted]
  have hvouched : ((stampVouched (filledRuns read t) (firstCases read t)).map
      CaseRow.key).Nodup := by rwa [map_key_stampVouched]
  have hlengthRuns := length_counted (firstCases read t) t.runs
  have hlengthCases : (stampVouched (filledRuns read t) (firstCases read t)).length =
      t.cases.length := by
    rw [stampVouched, update, List.length_map, firstCases, List.length_map]
  have hcases : backfillCases read rounds t.cases = some (firstCases read t) :=
    backfillCases_eq hkeys (by omega)
  have hfill : backfillRuns read rounds t.blobs (firstCases read t) t.runs =
      some (filledRuns read t) := drain_updateRuns hblobs hruns (by omega)
  have hanswer : backfillCaseAnswerers read rounds (filledRuns read t) (firstCases read t) =
      some (filledCases read t) :=
    drain_updateCases (fun c => isNull c.answeredByProviderId) (stampAnswerer read)
      (fun _ _ => rfl) (fun c => by simp [stampAnswerer]) hvouched (by omega)
  rw [backfill, hcases]
  show (do
    let runs ← backfillRuns read rounds t.blobs (firstCases read t) t.runs
    let cases ← backfillCaseAnswerers read rounds runs (firstCases read t)
    backfillSearch read rounds { t with runs, cases }) = _
  rw [hfill]
  show (do
    let cases ← backfillCaseAnswerers read rounds (filledRuns read t) (firstCases read t)
    backfillSearch read rounds { t with runs := filledRuns read t, cases }) = _
  rw [hanswer]
  rfl

/-- **The backfill ends**, and leaves the runs and the case rows as its passes say. -/
theorem backfill_ends {t : RunTables} (hids : (t.runs.map RunRow.id).Nodup)
    (hblobs : (t.blobs.map BlobRow.runId).Nodup) (hkeys : (t.cases.map CaseRow.key).Nodup) :
    ∃ t', Backfills read t t' ∧
      SameButSearch { t with runs := filledRuns read t, cases := filledCases read t } t' ∧
        unindexed t' = [] := by
  set last : RunTables := { t with runs := filledRuns read t, cases := filledCases read t }
  have hlast : last.runs.length = t.runs.length := by
    show (filledRuns read t).length = _
    rw [filledRuns, List.length_map, length_counted]
  obtain ⟨t', hend, hsame, hindexed⟩ := backfillSearch_ends read last
    (Nat.lt_succ_of_le (Nat.le_refl last.runs.length))
  refine ⟨t', ⟨t.runs.length + t.cases.length + 1, fun rounds hrounds => ?_⟩, hsame, hindexed⟩
  rw [backfill_eq hids hblobs hkeys (by omega)]
  exact drain_mono hend (by omega)

/-- Where the passes find nothing to do, the backfill changes nothing. -/
theorem backfills_self {t : RunTables} (hids : (t.runs.map RunRow.id).Nodup)
    (hblobs : (t.blobs.map BlobRow.runId).Nodup) (hkeys : (t.cases.map CaseRow.key).Nodup)
    (hruns : filledRuns read t = t.runs) (hcases : filledCases read t = t.cases)
    (hindexed : unindexed t = []) : Backfills read t t := by
  refine ⟨t.runs.length + t.cases.length + 1, fun rounds hrounds => ?_⟩
  rw [backfill_eq hids hblobs hkeys (by omega), hruns, hcases]
  have hone : backfillSearch read 1 t = some t := by
    rw [backfillSearch, drain, ← unindexed, hindexed]
    rfl
  exact drain_mono hone (by omega)

theorem Backfills.unique {t t₁ t₂ : RunTables} (h₁ : Backfills read t t₁)
    (h₂ : Backfills read t t₂) : t₁ = t₂ := by
  obtain ⟨n, hn⟩ := h₁
  obtain ⟨m, hm⟩ := h₂
  exact Option.some.inj ((hn _ (Nat.le_max_left n m)).symm.trans (hm _ (Nat.le_max_right n m)))

end
