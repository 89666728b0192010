/-
One row after the startup backfill, against what ingest had written.

A database is brought to an earlier shape when columns are lost that later migrations add, and
some blobs besides.  A case row that is due is read or stamped as a whole, and any other gets an
answerer at most; a run is filled in column by column, from its case rows or from its blob.

* **`caseSound_iff`** — when a case row is filled in correctly;
* **`filledRun_counted`** — what each column of a run becomes.
-/
import Domarinn.Ingested

open Sql

/-! ### A database of an earlier shape -/

/-- A case row whose detail can be read. -/
def CaseReadable (read : BackfillReaders) (c : CaseRow) : Prop :=
  ∃ case, read.case c.detail = .ok case

/-- A run whose blob can be read. -/
def RunReadable (read : BackfillReaders) (t : RunTables) (id : String) : Prop :=
  ∃ b ∈ t.blobs, b.runId = id ∧ ∃ columns, decodeRunColumns read b.body = .ok columns

/-- A case row that lost columns, or its detail. -/
structure OlderCase (read : BackfillReaders) (c₀ c : CaseRow) : Prop where
  key : c.key = c₀.key
  detail : CaseReadable read c → c.detail = c₀.detail
  providerId : Older c₀.providerId c.providerId
  promptId : Older c₀.promptId c.promptId
  testId : Older c₀.testId c.testId
  repeatIdx : Older c₀.repeatIdx c.repeatIdx
  score : Older c₀.score c.score
  stopReason : Older c₀.stopReason c.stopReason
  cached : Older c₀.cached c.cached
  error : Older c₀.error c.error
  emptyReason : Older c₀.emptyReason c.emptyReason
  answeredByProviderId : Older c₀.answeredByProviderId c.answeredByProviderId

/-- A run that lost columns. -/
structure OlderRun (r₀ r : RunRow) : Prop where
  id : r.id = r₀.id
  configDigest : Older r₀.configDigest r.configDigest
  cacheHits : Older r₀.cacheHits r.cacheHits
  cacheMisses : Older r₀.cacheMisses r.cacheMisses
  emptyCount : Older r₀.emptyCount r.emptyCount
  fallbackCount : Older r₀.fallbackCount r.fallbackCount

/-- A blob as it was written, or one that cannot be read. -/
structure OlderBlob (read : BackfillReaders) (b₀ b : BlobRow) : Prop where
  runId : b.runId = b₀.runId
  body : (∃ columns, decodeRunColumns read b.body = .ok columns) → b.body = b₀.body

/-- The same rows, some of which lost something. -/
structure EarlierShape (read : BackfillReaders) (t₀ t : RunTables) : Prop where
  cases : List.Forall₂ (OlderCase read) t₀.cases t.cases
  runs : List.Forall₂ OlderRun t₀.runs t.runs
  blobs : List.Forall₂ (OlderBlob read) t₀.blobs t.blobs

/-! ### What a correct backfill does -/

/-- A case row is only filled in, and with what ingest had written. -/
structure CaseSound (read : BackfillReaders) (c₀ c c' : CaseRow) : Prop where
  rest : c' = { c with
    providerId := c'.providerId
    promptId := c'.promptId
    testId := c'.testId
    repeatIdx := c'.repeatIdx
    score := c'.score
    stopReason := c'.stopReason
    cached := c'.cached
    error := c'.error
    emptyReason := c'.emptyReason
    answeredByProviderId := c'.answeredByProviderId }
  providerId : FilledIn (CaseReadable read c) c₀.providerId c.providerId c'.providerId
  promptId : FilledIn (CaseReadable read c) c₀.promptId c.promptId c'.promptId
  testId : FilledIn (CaseReadable read c) c₀.testId c.testId c'.testId
  repeatIdx : FilledIn (CaseReadable read c) c₀.repeatIdx c.repeatIdx c'.repeatIdx
  score : FilledIn (CaseReadable read c) c₀.score c.score c'.score
  stopReason : FilledIn (CaseReadable read c) c₀.stopReason c.stopReason c'.stopReason
  cached : FilledIn (CaseReadable read c) c₀.cached c.cached c'.cached
  error : FilledIn (CaseReadable read c) c₀.error c.error c'.error
  emptyReason : FilledIn (CaseReadable read c) c₀.emptyReason c.emptyReason c'.emptyReason
  answeredByProviderId : FilledIn (CaseReadable read c) c₀.answeredByProviderId
    c.answeredByProviderId c'.answeredByProviderId

/-- A run is only filled in, and with what ingest had written. -/
structure RunSound (known : Prop) (r₀ r r' : RunRow) : Prop where
  rest : r' = { r with
    configDigest := r'.configDigest
    cacheHits := r'.cacheHits
    cacheMisses := r'.cacheMisses
    emptyCount := r'.emptyCount
    fallbackCount := r'.fallbackCount }
  configDigest : FilledIn known r₀.configDigest r.configDigest r'.configDigest
  cacheHits : FilledIn known r₀.cacheHits r.cacheHits r'.cacheHits
  cacheMisses : FilledIn known r₀.cacheMisses r.cacheMisses r'.cacheMisses
  emptyCount : FilledIn known r₀.emptyCount r.emptyCount r'.emptyCount
  fallbackCount : FilledIn known r₀.fallbackCount r.fallbackCount r'.fallbackCount

/-- Every row is only filled in, the rest is left alone but for the search rows, and a second
backfill changes nothing. -/
structure FilledSoundly (read : BackfillReaders) (t₀ t t' : RunTables) : Prop where
  rest : SameButSearch { t with runs := t'.runs, cases := t'.cases } t'
  keys : t'.cases.map CaseRow.key = t.cases.map CaseRow.key
  ids : t'.runs.map RunRow.id = t.runs.map RunRow.id
  cases : ∀ c₀ ∈ t₀.cases, ∀ c ∈ t.cases, ∀ c' ∈ t'.cases, c.key = c₀.key → c'.key = c.key →
    CaseSound read c₀ c c'
  runs : ∀ r₀ ∈ t₀.runs, ∀ r ∈ t.runs, ∀ r' ∈ t'.runs, r.id = r₀.id → r'.id = r.id →
    RunSound (RunReadable read t r.id) r₀ r r'
  again : Backfills read t' t'

/-! ### Where it goes wrong -/

/-- What is stamped on a case row that cannot be read is no news to it. -/
structure SentinelsOnly (c : CaseRow) : Prop where
  providerId : Older (some "") c.providerId
  cached : Older (some (-1)) c.cached
  error : Older (some "") c.error
  emptyReason : Older (some "") c.emptyReason
  answeredByProviderId : Older (some "") c.answeredByProviderId

/-- A case row that is due and cannot be read. -/
def Unreadable (read : BackfillReaders) (c : CaseRow) : Prop :=
  (caseDue c).IsTrue ∧ ¬ CaseReadable read c

/-- Only the count of empty cases is missing, and every case row can tell. -/
def CountsEmpty (read : BackfillReaders) (t : RunTables) (r : RunRow) : Prop :=
  r.emptyCount = none ∧ r.configDigest ≠ none ∧ r.cacheHits ≠ none ∧
    ∀ c ∈ t.cases, c.runId = r.id → ¬ Unreadable read c

/-- The count of fallbacks is missing, and every case row can tell, or will be read. -/
def CountsFallback (read : BackfillReaders) (t : RunTables) (r : RunRow) : Prop :=
  r.fallbackCount = none ∧ ∀ c ∈ t.cases, c.runId = r.id →
    ¬ Unreadable read c ∧ ((caseDue c).IsTrue ∨ c.answeredByProviderId ≠ none)

/-- The blob of the run is read. -/
def ReadsBlob (read : BackfillReaders) (t : RunTables) (r : RunRow) : Prop :=
  r.configDigest = none ∨ r.cacheHits = none ∨
    (r.emptyCount = none ∧ ¬ CountsEmpty read t r) ∨
      (r.fallbackCount = none ∧ ¬ CountsFallback read t r)

/-- What is counted over the case rows is what ingest had counted, and no counter that is read
again had wrapped around. -/
structure RunSafe (read : BackfillReaders) (t₀ t : RunTables) (r₀ r : RunRow) : Prop where
  cacheHits : r.cacheHits = none → ∀ n, r₀.cacheHits = some n → 0 ≤ n
  cacheMisses : r.cacheMisses = none → ReadsBlob read t r →
    ∀ n, r₀.cacheMisses = some n → 0 ≤ n
  emptyCount : CountsEmpty read t r →
    r₀.emptyCount = some ((emptyRows t₀.cases r.id).length : ℤ)
  fallbackCount : CountsFallback read t r →
    r₀.fallbackCount = some ((fallbackRows t₀.cases r.id).length : ℤ)

/-- The rows that the backfill fills in correctly. -/
structure BackfillSafe (read : BackfillReaders) (t₀ t : RunTables) : Prop where
  cases : ∀ c ∈ t.cases, Unreadable read c → SentinelsOnly c
  runs : ∀ r₀ ∈ t₀.runs, ∀ r ∈ t.runs, r.id = r₀.id → RunReadable read t r.id →
    RunSafe read t₀ t r₀ r

/-! ### One case row -/

/-- What the third pass makes of a case row that has no answerer. -/
def lateAnswerer (read : BackfillReaders) (runs : List RunRow) (c : CaseRow) : String :=
  if (inRows (some c.runId)
      ((select runs fun r => eq r.fallbackCount (some 0)).map fun r => some r.id)).IsTrue then ""
  else
    match read.case c.detail with
    | .ok case => case.answeredByProviderId.getD ""
    | .error _ => ""

/-- A case row after the backfill. -/
def lastCase (read : BackfillReaders) (runs : List RunRow) (c : CaseRow) : CaseRow :=
  let first := filledCase read c
  { first with answeredByProviderId :=
      first.answeredByProviderId.or (some (lateAnswerer read runs c)) }

section
variable {read : BackfillReaders} {c₀ c : CaseRow}

theorem filledCase_runId (c : CaseRow) : (filledCase read c).runId = c.runId := by
  rw [filledCase]
  split_ifs
  · exact congrArg Prod.fst (stampCase_key c.detail c)
  · rfl

theorem stampCase_detail (c : CaseRow) : (stampCase read c.detail c).detail = c.detail := by
  rw [stampCase]
  cases read.case c.detail <;> rfl

theorem filledCase_detail (c : CaseRow) : (filledCase read c).detail = c.detail := by
  rw [filledCase]
  split_ifs
  · exact stampCase_detail c
  · rfl

theorem filledCases_eq (t : RunTables) :
    filledCases read t = t.cases.map (lastCase read (filledRuns read t)) := by
  rw [filledCases, stampVouched, update, firstCases, List.map_map, List.map_map]
  refine List.map_congr_left fun c _ => ?_
  rw [Function.comp_apply, Function.comp_apply, lastCase, lateAnswerer, ← filledCase_runId c,
    ← filledCase_detail c]
  generalize filledCase read c = first
  rw [answeredCase]
  by_cases hnone : first.answeredByProviderId = none
  · rw [hnone]
    by_cases hvouched : (inRows (some first.runId)
        ((select (filledRuns read t) fun r => eq r.fallbackCount (some 0)).map fun r =>
          some r.id)).IsTrue
    · simp [hvouched]
    · rw [if_neg fun h => hvouched (Truth.isTrue_and.mp h).2, if_pos (isTrue_isNull.mpr hnone),
        if_neg hvouched, stampAnswerer]
      cases read.case first.detail <;> rfl
  · have hkept : ¬ ((isNull first.answeredByProviderId).and (inRows (some first.runId)
        ((select (filledRuns read t) fun r => eq r.fallbackCount (some 0)).map fun r =>
          some r.id))).IsTrue := fun h => hnone (isTrue_isNull.mp (Truth.isTrue_and.mp h).1)
    rw [if_neg hkept, if_neg fun h => hnone (isTrue_isNull.mp h)]
    obtain ⟨answerer, hanswer⟩ := Option.ne_none_iff_exists'.mp hnone
    rw [hanswer, Option.some_or, ← hanswer]

/-- A case row that is due has an answerer after the first pass. -/
theorem lastCase_of_due (hdue : (caseDue c).IsTrue) (runs : List RunRow) :
    lastCase read runs c = stampCase read c.detail c := by
  rw [lastCase, filledCase, if_pos hdue, stampCase]
  cases read.case c.detail <;> rfl

/-- A case row that is not due is filled in with its answerer, if anything. -/
theorem lastCase_of_not_due (hdue : ¬ (caseDue c).IsTrue) (runs : List RunRow) :
    lastCase read runs c = { c with
      answeredByProviderId :=
        c.answeredByProviderId.or (some (lateAnswerer read runs c)) } := by
  rw [lastCase, filledCase, if_neg hdue]

/-- What is stamped on a case row that can be read does not depend on what it held. -/
theorem stampCase_of_readable (hread : CaseReadable read c) (hdetail : c.detail = c₀.detail)
    (hstamped : stampCase read c₀.detail c₀ = c₀) : stampCase read c.detail c = { c with
      providerId := c₀.providerId
      promptId := c₀.promptId
      testId := c₀.testId
      repeatIdx := c₀.repeatIdx
      score := c₀.score
      stopReason := c₀.stopReason
      cached := c₀.cached
      error := c₀.error
      emptyReason := c₀.emptyReason
      answeredByProviderId := c₀.answeredByProviderId } := by
  obtain ⟨case, hcase⟩ := hread
  rw [← hstamped, stampCase, stampCase, ← hdetail, hcase]

theorem stampCase_of_not_readable (hread : ¬ CaseReadable read c) :
    stampCase read c.detail c = { c with
      providerId := some ""
      cached := some (-1)
      error := some ""
      emptyReason := some ""
      answeredByProviderId := some "" } := by
  rw [stampCase]
  cases hcase : read.case c.detail with
  | ok case => exact absurd ⟨case, hcase⟩ hread
  | error e => rfl

/-- **A case row is filled in correctly** unless sentinels are written over what it held. -/
theorem caseSound_iff (holder : OlderCase read c₀ c) (hstamped : stampCase read c₀.detail c₀ = c₀)
    {runs : List RunRow} (hlate : ¬ (caseDue c).IsTrue → c.answeredByProviderId = none →
      CaseReadable read c → c₀.answeredByProviderId = some (lateAnswerer read runs c)) :
    CaseSound read c₀ c (lastCase read runs c) ↔ (Unreadable read c → SentinelsOnly c) := by
  by_cases hdue : (caseDue c).IsTrue
  · rw [lastCase_of_due hdue]
    by_cases hread : CaseReadable read c
    · rw [stampCase_of_readable hread (holder.detail hread) hstamped]
      exact iff_of_true ⟨rfl, holder.providerId.filledIn, holder.promptId.filledIn,
        holder.testId.filledIn, holder.repeatIdx.filledIn, holder.score.filledIn,
        holder.stopReason.filledIn, holder.cached.filledIn, holder.error.filledIn,
        holder.emptyReason.filledIn, holder.answeredByProviderId.filledIn⟩
        fun h => absurd hread h.2
    · rw [stampCase_of_not_readable hread]
      constructor
      · intro h _
        exact ⟨(filledIn_assign hread).mp h.providerId, (filledIn_assign hread).mp h.cached,
          (filledIn_assign hread).mp h.error, (filledIn_assign hread).mp h.emptyReason,
          (filledIn_assign hread).mp h.answeredByProviderId⟩
      · intro h
        have h := h ⟨hdue, hread⟩
        exact ⟨rfl, (filledIn_assign hread).mpr h.providerId, .refl, .refl, .refl, .refl, .refl,
          (filledIn_assign hread).mpr h.cached, (filledIn_assign hread).mpr h.error,
          (filledIn_assign hread).mpr h.emptyReason,
          (filledIn_assign hread).mpr h.answeredByProviderId⟩
  · rw [lastCase_of_not_due hdue]
    refine iff_of_true ⟨rfl, .refl, .refl, .refl, .refl, .refl, .refl, .refl, .refl, .refl, ?_⟩
      fun h => absurd h.1 hdue
    exact filledIn_coalesce.mpr fun hread hnone => hlate hdue hnone hread

end

/-! ### One run -/

/-- What is written from a blob that cannot be read. -/
def unreadColumns : RunColumns where
  digest := ""
  cacheHits := -1
  cacheMisses := -1
  emptyCount := -1
  fallbackCount := -1

/-- What is written from a blob, where nothing is yet. -/
def blobColumns (read : BackfillReaders) (body : List UInt8) : RunColumns :=
  match decodeRunColumns read body with
  | .ok columns => columns
  | .error _ => unreadColumns

/-- A run after its counts over case rows. -/
def countedRun (cases : List CaseRow) (r : RunRow) : RunRow :=
  { r with
    emptyCount := if (emptyCounted cases r).IsTrue then some ↑(emptyRows cases r.id).length
      else r.emptyCount
    fallbackCount := if (fallbackCounted cases r).IsTrue
      then some ↑(fallbackRows cases r.id).length else r.fallbackCount }

section
variable {read : BackfillReaders} {t : RunTables} {r₀ r : RunRow}

theorem stampRun_eq (body : List UInt8) (r : RunRow) : stampRun read body r = { r with
    configDigest := r.configDigest.or (some (blobColumns read body).digest)
    cacheHits := r.cacheHits.or (some (blobColumns read body).cacheHits)
    cacheMisses := r.cacheMisses.or (some (blobColumns read body).cacheMisses)
    emptyCount := r.emptyCount.or (some (blobColumns read body).emptyCount)
    fallbackCount := r.fallbackCount.or (some (blobColumns read body).fallbackCount) } := by
  rw [stampRun, blobColumns]
  cases decodeRunColumns read body <;> rfl

theorem filledRuns_eq (t : RunTables) : filledRuns read t =
    t.runs.map fun r => filledRun read t.blobs (countedRun (firstCases read t) r) := by
  rw [filledRuns, countFallbackRows, countEmptyRows, update, update, List.map_map, List.map_map]
  refine List.map_congr_left fun r _ => ?_
  rw [Function.comp_apply, Function.comp_apply, countedRun]
  refine congrArg (filledRun read t.blobs) ?_
  by_cases hempty : (emptyCounted (firstCases read t) r).IsTrue
  · rw [if_pos hempty, if_pos hempty]
    split_ifs with hcounted hcounted'
    · rfl
    · exact absurd hcounted hcounted'
    · exact absurd ‹_› hcounted
    · rfl
  · rw [if_neg hempty, if_neg hempty]
    split_ifs <;> rfl

theorem counted_eq_none {counts : Prop} [Decidable counts] {before : Option ℤ} {n : ℤ} :
    (if counts then some n else before) = none ↔ before = none ∧ ¬ counts := by
  by_cases h : counts
  · rw [if_pos h]
    exact iff_of_false (Option.some_ne_none n) fun hnone => hnone.2 h
  · rw [if_neg h]
    exact (and_iff_left h).symm

theorem countedRun_emptyCount {cases : List CaseRow} : (countedRun cases r).emptyCount = none ↔
    r.emptyCount = none ∧ ¬ (emptyCounted cases r).IsTrue :=
  counted_eq_none

theorem countedRun_fallbackCount {cases : List CaseRow} :
    (countedRun cases r).fallbackCount = none ↔
      r.fallbackCount = none ∧ ¬ (fallbackCounted cases r).IsTrue :=
  counted_eq_none

theorem not_emptyCounted {cases : List CaseRow} (h : r.emptyCount ≠ none) :
    ¬ (emptyCounted cases r).IsTrue := by
  simp [emptyCounted, h]

theorem not_fallbackCounted {cases : List CaseRow} (h : r.fallbackCount ≠ none) :
    ¬ (fallbackCounted cases r).IsTrue := by
  simp [fallbackCounted, h]

/-- A count that is missing is taken from the case rows or from the blob. -/
theorem or_counted {counts : Prop} [Decidable counts] {before : Option ℤ} {n v : ℤ}
    (h : before ≠ none → ¬ counts) :
    (if counts then some n else before).or (some v) =
      before.or (some (if counts then n else v)) := by
  by_cases hcounts : counts
  · have hnone : before = none := by_contra fun hsome => h hsome hcounts
    rw [if_pos hcounts, if_pos hcounts, hnone, Option.some_or, Option.none_or]
  · rw [if_neg hcounts, if_neg hcounts]

theorem or_of_ne_none {α : Type} {a b : Option α} (h : a ≠ none) : a.or b = a := by
  obtain ⟨x, rfl⟩ := Option.ne_none_iff_exists'.mp h
  rfl

theorem filledRun_counted_id (blobs : List BlobRow) (cases : List CaseRow) (r : RunRow) :
    (filledRun read blobs (countedRun cases r)).id = r.id := by
  rw [filledRun, ← stampFromBlob]
  split_ifs
  · exact stampFromBlob_id blobs _
  · rfl

/-- A run with a blob is filled in column by column. -/
theorem filledRun_counted {b : BlobRow} (hblobs : (t.blobs.map BlobRow.runId).Nodup)
    (hb : b ∈ t.blobs) (hid : b.runId = r.id) (cases : List CaseRow) :
    filledRun read t.blobs (countedRun cases r) = { r with
      configDigest := r.configDigest.or (some (blobColumns read b.body).digest)
      cacheHits := r.cacheHits.or (some (blobColumns read b.body).cacheHits)
      cacheMisses := if (runDue (countedRun cases r)).IsTrue
        then r.cacheMisses.or (some (blobColumns read b.body).cacheMisses) else r.cacheMisses
      emptyCount := r.emptyCount.or (some (if (emptyCounted cases r).IsTrue
        then ↑(emptyRows cases r.id).length else (blobColumns read b.body).emptyCount))
      fallbackCount := r.fallbackCount.or (some (if (fallbackCounted cases r).IsTrue
        then ↑(fallbackRows cases r.id).length
        else (blobColumns read b.body).fallbackCount)) } := by
  rw [← or_counted (not_emptyCounted), ← or_counted (not_fallbackCounted), filledRun]
  by_cases hdue : (runDue (countedRun cases r)).IsTrue
  · have hfind : (t.blobs.find? fun b => b.runId = (countedRun cases r).id) = some b :=
      find?_key hblobs hb hid.symm
    rw [if_pos hdue, if_pos hdue, hfind]
    exact stampRun_eq b.body _
  · -- nothing is missing that would have to be read
    have hfull : r.configDigest ≠ none ∧ r.cacheHits ≠ none ∧
        (countedRun cases r).emptyCount ≠ none ∧ (countedRun cases r).fallbackCount ≠ none := by
      simpa [runDue, countedRun, and_assoc] using hdue
    obtain ⟨hdigest, hhits, hempty, hfallback⟩ := hfull
    rw [countedRun] at hempty hfallback
    rw [if_neg hdue, if_neg hdue, or_of_ne_none hdigest, or_of_ne_none hhits,
      or_of_ne_none hempty, or_of_ne_none hfallback]
    rfl

end

/-! ### The case rows after the first pass -/

section
variable {read : BackfillReaders} {t₀ t : RunTables} {c₀ c : CaseRow}

theorem cached_ne_sentinel (hread : CaseReadable read c₀)
    (hstamped : stampCase read c₀.detail c₀ = c₀) : c₀.cached ≠ some (-1) := by
  obtain ⟨case, hcase⟩ := hread
  rw [← hstamped, stampCase, hcase]
  show some (if case.cached then (1 : ℤ) else 0) ≠ some (-1)
  split_ifs <;> decide

/-- After the first pass, the sentinel marks the rows that could not be read. -/
theorem filledCase_cached (holder : OlderCase read c₀ c)
    (hstamped : stampCase read c₀.detail c₀ = c₀) (hcached : c₀.cached ≠ some (-1)) :
    (filledCase read c).cached = some (-1) ↔ Unreadable read c := by
  rw [filledCase]
  by_cases hdue : (caseDue c).IsTrue
  · rw [if_pos hdue]
    by_cases hread : CaseReadable read c
    · rw [stampCase_of_readable hread (holder.detail hread) hstamped]
      exact iff_of_false hcached fun h => h.2 hread
    · rw [stampCase_of_not_readable hread]
      exact iff_of_true rfl ⟨hdue, hread⟩
  · rw [if_neg hdue]
    refine iff_of_false (fun h => hcached ?_) fun h => hdue h.1
    have hsome : c.cached ≠ none := by
      rw [h]
      exact Option.some_ne_none _
    rw [← h]
    exact (holder.cached.resolve_right hsome).symm

/-- After the first pass, the reason is there on every row that could be read. -/
theorem filledCase_emptyReason (holder : OlderCase read c₀ c)
    (hstamped : stampCase read c₀.detail c₀ = c₀) (hreadable : ¬ Unreadable read c) :
    (filledCase read c).emptyReason = c₀.emptyReason := by
  rw [filledCase]
  by_cases hdue : (caseDue c).IsTrue
  · have hread : CaseReadable read c := by_contra fun h => hreadable ⟨hdue, h⟩
    rw [if_pos hdue, stampCase_of_readable hread (holder.detail hread) hstamped]
  · rw [if_neg hdue]
    refine holder.emptyReason.resolve_right fun hnone => hdue ?_
    simp [caseDue, hnone]

/-- After the first pass, the answerer is there where it was or has been read. -/
theorem filledCase_answerer (holder : OlderCase read c₀ c)
    (hstamped : stampCase read c₀.detail c₀ = c₀) (hreadable : ¬ Unreadable read c)
    (hthere : (caseDue c).IsTrue ∨ c.answeredByProviderId ≠ none) :
    (filledCase read c).answeredByProviderId = c₀.answeredByProviderId := by
  rw [filledCase]
  by_cases hdue : (caseDue c).IsTrue
  · have hread : CaseReadable read c := by_contra fun h => hreadable ⟨hdue, h⟩
    rw [if_pos hdue, stampCase_of_readable hread (holder.detail hread) hstamped]
  · rw [if_neg hdue]
    exact holder.answeredByProviderId.resolve_right (hthere.resolve_left hdue)

theorem filledCase_unanswered (c : CaseRow) : (filledCase read c).answeredByProviderId = none ↔
    ¬ (caseDue c).IsTrue ∧ c.answeredByProviderId = none := by
  rw [filledCase]
  by_cases hdue : (caseDue c).IsTrue
  · rw [if_pos hdue, stampCase]
    refine iff_of_false (fun h => ?_) fun h => h.1 hdue
    cases hcase : read.case c.detail <;> rw [hcase] at h <;> cases h
  · rw [if_neg hdue]
    exact (and_iff_right hdue).symm

theorem OlderCase.runId (holder : OlderCase read c₀ c) : c.runId = c₀.runId :=
  congrArg Prod.fst holder.key

/-- The case rows of a run with a text in a column are as many as ingest had left, where the
column holds what it held then. -/
theorem length_rows_firstCases (hshape : EarlierShape read t₀ t) {id : String}
    (column : CaseRow → Option String)
    (hcolumn : ∀ c₀ ∈ t₀.cases, ∀ c ∈ t.cases, OlderCase read c₀ c → c.runId = id →
      column (filledCase read c) = column c₀) :
    (select (firstCases read t) fun c =>
        (eq (some c.runId) (some id)).and (eq (column c) (some "")).not).length =
      (select t₀.cases fun c =>
        (eq (some c.runId) (some id)).and (eq (column c) (some "")).not).length := by
  rw [select, select, ← List.countP_eq_length_filter, ← List.countP_eq_length_filter, firstCases,
    List.countP_map]
  refine (countP_eq_of_forall₂ hshape.cases fun c₀ hc₀ c hc holder => ?_).symm
  rw [Function.comp_apply, decide_eq_decide, Truth.isTrue_and, Truth.isTrue_and,
    filledCase_runId, holder.runId]
  refine and_congr_right fun hid => ?_
  rw [hcolumn c₀ hc₀ c hc holder (holder.runId.trans (Option.some.inj (isTrue_eq.mp hid).2))]

end
