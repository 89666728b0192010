/-
What the startup backfill fills in, against what ingest had written.

The backfill ends, fills what it can read, and finds nothing to do a second time.  It is wrong in
three ways: a case row that cannot be read loses the columns it still had, a count over case rows
misses the cases that a repeated key left without one, and a counter past the range of an `i64`
comes back as zero.

* **`runSound_iff`** — when a run is filled in correctly;
* **`backfill_sound_iff`** — the backfill fills in correctly exactly where none of the three
  applies.
-/
import Domarinn.BackfilledRows

open Sql

/-! ### The counts over case rows -/

section
variable {read : BackfillReaders} {t₀ t : RunTables}

theorem mem_firstCases {c : CaseRow} :
    c ∈ firstCases read t ↔ ∃ d ∈ t.cases, filledCase read d = c :=
  List.mem_map

/-- The first pass leaves its sentinel on the rows that could not be read. -/
theorem firstCases_cached (hingested : Ingested read t₀) (hshape : EarlierShape read t₀ t)
    {c : CaseRow} (hc : c ∈ t.cases) :
    (filledCase read c).cached = some (-1) ↔ Unreadable read c := by
  obtain ⟨c₀, hc₀, holder⟩ := (exists_of_forall₂ hshape.cases).2 c hc
  have hstamped := hingested.stamped c₀ hc₀
  exact filledCase_cached holder hstamped
    (cached_ne_sentinel (hingested.readCase c₀ hc₀) hstamped)

theorem isTrue_emptyCounted (hingested : Ingested read t₀) (hshape : EarlierShape read t₀ t)
    {r : RunRow} : (emptyCounted (firstCases read t) r).IsTrue ↔ CountsEmpty read t r := by
  have hcases : (unreadableCase (firstCases read t) r).IsFalse ↔
      ∀ c ∈ t.cases, c.runId = r.id → ¬ Unreadable read c := by
    rw [unreadableCase, isFalse_existsRow]
    constructor
    · intro h c hc hid hunreadable
      refine h _ (mem_firstCases.mpr ⟨c, hc, rfl⟩) (Truth.isTrue_and.mpr ⟨?_, ?_⟩)
      · rw [filledCase_runId, hid]
        simp
      · rw [(firstCases_cached hingested hshape hc).mpr hunreadable]
        simp
    · intro h c hc hfound
      obtain ⟨d, hd, rfl⟩ := mem_firstCases.mp hc
      obtain ⟨hid, hcached⟩ := Truth.isTrue_and.mp hfound
      rw [filledCase_runId] at hid
      exact h d hd (Option.some.inj (isTrue_eq.mp hid).2)
        ((firstCases_cached hingested hshape hd).mp (isTrue_eq.mp hcached).2)
  rw [emptyCounted, Truth.isTrue_and, Truth.isTrue_not, hcases, CountsEmpty]
  simp [and_assoc]

theorem isTrue_fallbackCounted (hingested : Ingested read t₀) (hshape : EarlierShape read t₀ t)
    {r : RunRow} : (fallbackCounted (firstCases read t) r).IsTrue ↔ CountsFallback read t r := by
  rw [fallbackCounted, Truth.isTrue_and, Truth.isTrue_not, isFalse_existsRow, isTrue_isNull,
    CountsFallback]
  refine and_congr_right fun _ => ⟨fun h c hc hid => ?_, fun h c hc hfound => ?_⟩
  · have hrow := h _ (mem_firstCases.mpr ⟨c, hc, rfl⟩)
    rw [filledCase_runId, hid, Truth.isTrue_and, Truth.isTrue_or, isTrue_isNull] at hrow
    have hrow := not_or.mp fun hor => hrow ⟨by simp, hor⟩
    refine ⟨fun hunreadable => hrow.2 ?_, ?_⟩
    · rw [(firstCases_cached hingested hshape hc).mpr hunreadable]
      simp
    · rw [filledCase_unanswered, not_and_or, not_not] at hrow
      exact hrow.1
  · obtain ⟨d, hd, rfl⟩ := mem_firstCases.mp hc
    obtain ⟨hid, hrow⟩ := Truth.isTrue_and.mp hfound
    rw [filledCase_runId] at hid
    obtain ⟨hreadable, hthere⟩ := h d hd (Option.some.inj (isTrue_eq.mp hid).2)
    obtain hnone | hcached := Truth.isTrue_or.mp hrow
    · rw [isTrue_isNull, filledCase_unanswered] at hnone
      exact hthere.elim hnone.1 fun hsome => hsome hnone.2
    · exact hreadable ((firstCases_cached hingested hshape hd).mp (isTrue_eq.mp hcached).2)

theorem isTrue_runDue_counted (hingested : Ingested read t₀) (hshape : EarlierShape read t₀ t)
    {r : RunRow} :
    (runDue (countedRun (firstCases read t) r)).IsTrue ↔ ReadsBlob read t r := by
  rw [runDue, Truth.isTrue_or, Truth.isTrue_or, Truth.isTrue_or, isTrue_isNull, isTrue_isNull,
    isTrue_isNull, isTrue_isNull, countedRun_emptyCount, countedRun_fallbackCount,
    isTrue_emptyCounted hingested hshape, isTrue_fallbackCounted hingested hshape, or_assoc,
    or_assoc]
  exact Iff.rfl

theorem length_emptyRows (hingested : Ingested read t₀) (hshape : EarlierShape read t₀ t)
    {r : RunRow} (h : CountsEmpty read t r) :
    (emptyRows (firstCases read t) r.id).length = (emptyRows t₀.cases r.id).length :=
  length_rows_firstCases hshape (fun c => c.emptyReason) fun c₀ hc₀ c hc holder hid =>
    filledCase_emptyReason holder (hingested.stamped c₀ hc₀) (h.2.2.2 c hc hid)

theorem length_fallbackRows (hingested : Ingested read t₀) (hshape : EarlierShape read t₀ t)
    {r : RunRow} (h : CountsFallback read t r) :
    (fallbackRows (firstCases read t) r.id).length = (fallbackRows t₀.cases r.id).length :=
  length_rows_firstCases hshape (fun c => c.answeredByProviderId) fun c₀ hc₀ c hc holder hid =>
    filledCase_answerer holder (hingested.stamped c₀ hc₀) (h.2 c hc hid).1 (h.2 c hc hid).2

end

/-! ### The blob of a run -/

section
variable {read : BackfillReaders} {t₀ t : RunTables}

/-- The rows of an earlier shape have the keys they had. -/
theorem EarlierShape.nodup (hshape : EarlierShape read t₀ t) (hwell : t₀.WellFormed) :
    (t.cases.map CaseRow.key).Nodup ∧ (t.runs.map RunRow.id).Nodup ∧
      (t.blobs.map BlobRow.runId).Nodup := by
  have hkeys : t.cases.map CaseRow.key = t₀.cases.map CaseRow.key :=
    map_eq_of_forall₂ hshape.cases fun _ _ h => h.key
  have hids : t.runs.map RunRow.id = t₀.runs.map RunRow.id :=
    map_eq_of_forall₂ hshape.runs fun _ _ h => h.id
  have hblobs : t.blobs.map BlobRow.runId = t₀.blobs.map BlobRow.runId :=
    map_eq_of_forall₂ hshape.blobs fun _ _ h => h.runId
  exact ⟨hkeys ▸ hwell.caseKey, hids ▸ hwell.runKey, hblobs ▸ hwell.blobKey⟩

/-- Every run has a blob, and one that can be read says what ingest had written. -/
theorem exists_blob (hwell : t₀.WellFormed) (hingested : Ingested read t₀)
    (hshape : EarlierShape read t₀ t) {r₀ r : RunRow} (hr₀ : r₀ ∈ t₀.runs)
    (holder : OlderRun r₀ r) : ∃ b ∈ t.blobs, b.runId = r.id ∧
      (RunReadable read t r.id → RunMatches r₀ (blobColumns read b.body)) ∧
        (¬ RunReadable read t r.id → blobColumns read b.body = unreadColumns) := by
  obtain ⟨body, columns, hb₀, hcolumns, hmatches⟩ := hingested.readRun r₀ hr₀
  obtain ⟨b, hb, hblob⟩ := (exists_of_forall₂ hshape.blobs).1 _ hb₀
  have hid : b.runId = r.id := hblob.runId.trans holder.id.symm
  obtain ⟨-, -, hblobs⟩ := hshape.nodup hwell
  refine ⟨b, hb, hid, fun hread => ?_, fun hread => ?_⟩
  · obtain ⟨b', hb', hid', hdecoded⟩ := hread
    obtain rfl : b' = b := List.inj_on_of_nodup_map hblobs hb' hb (hid'.trans hid.symm)
    have hbody : b'.body = body := hblob.body hdecoded
    rwa [blobColumns, hbody, hcolumns]
  · rw [blobColumns]
    cases hdecoded : decodeRunColumns read b.body with
    | ok columns => exact absurd ⟨b, hb, hid, columns, hdecoded⟩ hread
    | error e => rfl

/-- A counter that is read again is what it was unless it had wrapped around. -/
theorem reread_iff {written : Option ℤ} {v : ℤ} (h : ∃ n, written = some n ∧ v = max n 0) :
    written = some v ↔ ∀ n, written = some n → 0 ≤ n := by
  obtain ⟨n, rfl, rfl⟩ := h
  constructor
  · intro heq m hm
    rw [Option.some.inj hm] at heq
    exact max_eq_left_iff.mp (Option.some.inj heq).symm
  · exact fun h => congrArg some (max_eq_left (h n rfl)).symm

/-- **A run is filled in correctly** unless a count over case rows differs from what ingest had
counted, or a counter had wrapped around. -/
theorem runSound_iff (hwell : t₀.WellFormed) (hingested : Ingested read t₀)
    (hshape : EarlierShape read t₀ t) {r₀ r : RunRow} (hr₀ : r₀ ∈ t₀.runs)
    (holder : OlderRun r₀ r) :
    RunSound (RunReadable read t r.id) r₀ r
        (filledRun read t.blobs (countedRun (firstCases read t) r)) ↔
      (RunReadable read t r.id → RunSafe read t₀ t r₀ r) := by
  obtain ⟨b, hb, hid, hmatches, -⟩ := exists_blob hwell hingested hshape hr₀ holder
  obtain ⟨-, -, hblobs⟩ := hshape.nodup hwell
  rw [filledRun_counted hblobs hb hid]
  by_cases hread : RunReadable read t r.id
  · have hmatches := hmatches hread
    have hhits := reread_iff hmatches.cacheHits
    have hmisses := reread_iff hmatches.cacheMisses
    constructor
    · intro h _
      refine ⟨fun hnone => hhits.mp (filledIn_coalesce.mp h.cacheHits hread hnone),
        fun hnone hblob => hmisses.mp ?_, fun hcounts => ?_, fun hcounts => ?_⟩
      · have hfilled := h.cacheMisses
        rw [if_pos ((isTrue_runDue_counted hingested hshape).mpr hblob)] at hfilled
        exact filledIn_coalesce.mp hfilled hread hnone
      · have hfilled := filledIn_coalesce.mp h.emptyCount hread hcounts.1
        rwa [if_pos ((isTrue_emptyCounted hingested hshape).mpr hcounts),
          length_emptyRows hingested hshape hcounts] at hfilled
      · have hfilled := filledIn_coalesce.mp h.fallbackCount hread hcounts.1
        rwa [if_pos ((isTrue_fallbackCounted hingested hshape).mpr hcounts),
          length_fallbackRows hingested hshape hcounts] at hfilled
    · intro h
      have h := h hread
      refine ⟨rfl, filledIn_coalesce.mpr fun _ _ => hmatches.configDigest,
        filledIn_coalesce.mpr fun _ hnone => hhits.mpr (h.cacheHits hnone), ?_,
        filledIn_coalesce.mpr fun _ hnone => ?_, filledIn_coalesce.mpr fun _ hnone => ?_⟩
      · show FilledIn _ _ _ (if _ then _ else _)
        split_ifs with hdue
        · exact filledIn_coalesce.mpr fun _ hnone => hmisses.mpr
            (h.cacheMisses hnone ((isTrue_runDue_counted hingested hshape).mp hdue))
        · exact .refl
      · split_ifs with hcounted
        · have hcounts := (isTrue_emptyCounted hingested hshape).mp hcounted
          rw [length_emptyRows hingested hshape hcounts]
          exact h.emptyCount hcounts
        · exact hmatches.emptyCount
      · split_ifs with hcounted
        · have hcounts := (isTrue_fallbackCounted hingested hshape).mp hcounted
          rw [length_fallbackRows hingested hshape hcounts]
          exact h.fallbackCount hcounts
        · exact hmatches.fallbackCount
  · -- from a blob that cannot be read, nothing is written over
    refine iff_of_true ⟨rfl, filledIn_coalesce.mpr fun h => absurd h hread,
      filledIn_coalesce.mpr fun h => absurd h hread, ?_,
      filledIn_coalesce.mpr fun h => absurd h hread,
      filledIn_coalesce.mpr fun h => absurd h hread⟩ fun h => absurd h hread
    show FilledIn _ _ _ (if _ then _ else _)
    split_ifs
    · exact filledIn_coalesce.mpr fun h => absurd h hread
    · exact .refl

end

/-! ### The answerers of the third pass -/

section
variable {read : BackfillReaders} {t₀ t : RunTables}

/-- A run that has no fallbacks after the second pass, and a case row without an answerer, had no
fallbacks when it was ingested. -/
theorem vouched_fallbackCount (hwell : t₀.WellFormed) (hingested : Ingested read t₀)
    (hshape : EarlierShape read t₀ t) {r₀ r : RunRow} (hr₀ : r₀ ∈ t₀.runs) (holder : OlderRun r₀ r)
    {c : CaseRow} (hc : c ∈ t.cases) (hid : c.runId = r.id) (hdue : ¬ (caseDue c).IsTrue)
    (hnone : c.answeredByProviderId = none)
    (hzero : (filledRun read t.blobs (countedRun (firstCases read t) r)).fallbackCount = some 0) :
    r₀.fallbackCount = some 0 := by
  obtain ⟨b, hb, hblobId, hmatches, hunread⟩ := exists_blob hwell hingested hshape hr₀ holder
  obtain ⟨-, -, hblobs⟩ := hshape.nodup hwell
  have hcounted : ¬ (fallbackCounted (firstCases read t) r).IsTrue := by
    rw [isTrue_fallbackCounted hingested hshape]
    exact fun hcounts => ((hcounts.2 c hc hid).2.elim hdue fun hsome => hsome hnone)
  rw [filledRun_counted hblobs hb hblobId, if_neg hcounted] at hzero
  by_cases hmissing : r.fallbackCount = none
  · -- the zero was read from the blob, and not stamped for want of one
    rw [hmissing, Option.none_or] at hzero
    by_cases hread : RunReadable read t r.id
    · exact (hmatches hread).fallbackCount.trans hzero
    · rw [hunread hread] at hzero
      cases hzero
  · rw [or_of_ne_none hmissing] at hzero
    exact (holder.fallbackCount.resolve_right hmissing).symm.trans hzero

/-- What the third pass writes to a case row that can be read is what ingest had written. -/
theorem lateAnswerer_eq (hwell : t₀.WellFormed) (hingested : Ingested read t₀)
    (hshape : EarlierShape read t₀ t) {c₀ c : CaseRow} (hc₀ : c₀ ∈ t₀.cases) (hc : c ∈ t.cases)
    (holder : OlderCase read c₀ c) (hdue : ¬ (caseDue c).IsTrue)
    (hnone : c.answeredByProviderId = none) (hread : CaseReadable read c) :
    c₀.answeredByProviderId = some (lateAnswerer read (filledRuns read t) c) := by
  rw [lateAnswerer]
  split_ifs with hvouched
  · obtain ⟨r', hr', hid⟩ := List.mem_map.mp (isTrue_inRows.mp hvouched)
    obtain ⟨hr', hzero⟩ := mem_select.mp hr'
    rw [filledRuns_eq] at hr'
    obtain ⟨r, hr, rfl⟩ := List.mem_map.mp hr'
    have hid : c.runId = r.id := by
      rw [← Option.some.inj hid, filledRun_counted_id]
    obtain ⟨r₀, hr₀, holderRun⟩ := (exists_of_forall₂ hshape.runs).2 r hr
    exact hingested.unanswered r₀ hr₀ (vouched_fallbackCount hwell hingested hshape hr₀ holderRun
      hc hid hdue hnone (isTrue_eq.mp hzero).2) c₀ hc₀
      (holder.runId.symm.trans (hid.trans holderRun.id))
  · have hstamped := hingested.stamped c₀ hc₀
    obtain ⟨case, hcase⟩ := hread
    rw [← hstamped, stampCase, ← holder.detail ⟨case, hcase⟩, hcase]

/-! ### A second backfill -/

theorem lastCase_settled (runs : List RunRow) (c : CaseRow) :
    ¬ (caseDue (lastCase read runs c)).IsTrue ∧
      (lastCase read runs c).answeredByProviderId ≠ none := by
  by_cases hdue : (caseDue c).IsTrue
  · rw [lastCase_of_due hdue]
    refine ⟨not_caseDue_stampCase c.detail c, ?_⟩
    rw [stampCase]
    cases read.case c.detail <;> exact Option.some_ne_none _
  · rw [lastCase_of_not_due hdue]
    refine ⟨hdue, fun hnone => ?_⟩
    exact Option.some_ne_none _ (Option.or_eq_none_iff.mp hnone).2

theorem lastCase_key (runs : List RunRow) (c : CaseRow) : (lastCase read runs c).key = c.key := by
  by_cases hdue : (caseDue c).IsTrue
  · rw [lastCase_of_due hdue]
    exact stampCase_key c.detail c
  · rw [lastCase_of_not_due hdue]
    rfl

theorem not_runDue_filledRun {blobs : List BlobRow} (hblobs : (blobs.map BlobRow.runId).Nodup)
    {b : BlobRow} (hb : b ∈ blobs) {r : RunRow} (hid : b.runId = r.id) :
    ¬ (runDue (filledRun read blobs r)).IsTrue := by
  rw [filledRun, find?_key hblobs hb hid.symm]
  split_ifs with hdue
  · exact not_runDue_stampRun b.body r
  · exact hdue

theorem countedRun_self {cases : List CaseRow} {r : RunRow} (hempty : r.emptyCount ≠ none)
    (hfallback : r.fallbackCount ≠ none) : countedRun cases r = r := by
  rw [countedRun, if_neg (not_emptyCounted hempty), if_neg (not_fallbackCounted hfallback)]

/-- Where nothing is missing, the passes change nothing. -/
theorem filled_self (hcases : ∀ c ∈ t.cases, ¬ (caseDue c).IsTrue ∧ c.answeredByProviderId ≠ none)
    (hruns : ∀ r ∈ t.runs, ¬ (runDue r).IsTrue) :
    filledRuns read t = t.runs ∧ filledCases read t = t.cases := by
  constructor
  · rw [filledRuns_eq]
    refine (List.map_congr_left fun r hr => ?_).trans (List.map_id t.runs)
    have hfull : r.configDigest ≠ none ∧ r.cacheHits ≠ none ∧ r.emptyCount ≠ none ∧
        r.fallbackCount ≠ none := by simpa [runDue, and_assoc] using hruns r hr
    rw [countedRun_self hfull.2.2.1 hfull.2.2.2, filledRun, if_neg (hruns r hr)]
    rfl
  · rw [filledCases_eq]
    refine (List.map_congr_left fun c hc => ?_).trans (List.map_id t.cases)
    rw [lastCase_of_not_due (hcases c hc).1, or_of_ne_none (hcases c hc).2]
    rfl

end

/-! ### The whole database -/

section
variable {read : BackfillReaders} {t₀ t : RunTables}

/-- A case row and the one of its key that ingest had written. -/
theorem EarlierShape.olderCase (hshape : EarlierShape read t₀ t) (hwell : t₀.WellFormed)
    {c₀ c : CaseRow} (hc₀ : c₀ ∈ t₀.cases) (hc : c ∈ t.cases) (hkey : c.key = c₀.key) :
    OlderCase read c₀ c := by
  obtain ⟨c₁, hc₁, holder⟩ := (exists_of_forall₂ hshape.cases).2 c hc
  obtain rfl : c₁ = c₀ :=
    List.inj_on_of_nodup_map hwell.caseKey hc₁ hc₀ (holder.key.symm.trans hkey)
  exact holder

/-- A run and the one of its id that ingest had written. -/
theorem EarlierShape.olderRun (hshape : EarlierShape read t₀ t) (hwell : t₀.WellFormed)
    {r₀ r : RunRow} (hr₀ : r₀ ∈ t₀.runs) (hr : r ∈ t.runs) (hid : r.id = r₀.id) :
    OlderRun r₀ r := by
  obtain ⟨r₁, hr₁, holder⟩ := (exists_of_forall₂ hshape.runs).2 r hr
  obtain rfl : r₁ = r₀ :=
    List.inj_on_of_nodup_map hwell.runKey hr₁ hr₀ (holder.id.symm.trans hid)
  exact holder

/-- A run after the backfill. -/
def lastRun (read : BackfillReaders) (t : RunTables) (r : RunRow) : RunRow :=
  filledRun read t.blobs (countedRun (firstCases read t) r)

theorem lastRun_id (r : RunRow) : (lastRun read t r).id = r.id :=
  filledRun_counted_id t.blobs _ r

/-- The backfill ends, row by row, and a second one changes nothing. -/
theorem backfill_settles (hwell : t₀.WellFormed) (hingested : Ingested read t₀)
    (hshape : EarlierShape read t₀ t) : ∃ t', Backfills read t t' ∧ Backfills read t' t' ∧
      t'.runs = t.runs.map (lastRun read t) ∧
        t'.cases = t.cases.map (lastCase read (filledRuns read t)) ∧
          SameButSearch { t with runs := t'.runs, cases := t'.cases } t' := by
  obtain ⟨hkeys, hids, hblobs⟩ := hshape.nodup hwell
  obtain ⟨t', hends, hsame, hindexed⟩ :=
    @backfill_ends read t hids hblobs hkeys
  have hruns : t'.runs = t.runs.map (lastRun read t) := hsame.runs.trans (filledRuns_eq t)
  have hcases : t'.cases = t.cases.map (lastCase read (filledRuns read t)) :=
    hsame.cases.trans (filledCases_eq t)
  have hsettled : filledRuns read t' = t'.runs ∧ filledCases read t' = t'.cases := by
    refine filled_self (fun c' hc' => ?_) fun r' hr' => ?_
    · rw [hcases] at hc'
      obtain ⟨c, -, rfl⟩ := List.mem_map.mp hc'
      exact lastCase_settled _ c
    · rw [hruns] at hr'
      obtain ⟨r, hr, rfl⟩ := List.mem_map.mp hr'
      obtain ⟨r₀, hr₀, holder⟩ := (exists_of_forall₂ hshape.runs).2 r hr
      obtain ⟨b, hb, hid, -⟩ := exists_blob hwell hingested hshape hr₀ holder
      exact not_runDue_filledRun hblobs hb hid
  refine ⟨t', hends, backfills_self ?_ ?_ ?_ hsettled.1 hsettled.2 hindexed, hruns, hcases,
    ⟨rfl, hsame.runTags, hsame.blobs, rfl, hsame.caseTags, hsame.baselines⟩⟩
  · rw [hruns, List.map_map]
    exact (List.map_congr_left fun r _ => lastRun_id r) ▸ hids
  · rw [hsame.blobs]
    exact hblobs
  · rw [hcases, List.map_map]
    exact (List.map_congr_left fun c _ => lastCase_key _ c) ▸ hkeys

/-- A case row beside the one of its key that ingest had written. -/
theorem EarlierShape.caseSound_lastCase (hshape : EarlierShape read t₀ t) (hwell : t₀.WellFormed)
    (hingested : Ingested read t₀) {c₀ c : CaseRow} (hc₀ : c₀ ∈ t₀.cases) (hc : c ∈ t.cases)
    (hkey : c.key = c₀.key) : CaseSound read c₀ c (lastCase read (filledRuns read t) c) ↔
      (Unreadable read c → SentinelsOnly c) :=
  have holder := hshape.olderCase hwell hc₀ hc hkey
  caseSound_iff holder (hingested.stamped c₀ hc₀)
    (lateAnswerer_eq hwell hingested hshape hc₀ hc holder)

/-- A run beside the one of its id that ingest had written. -/
theorem EarlierShape.runSound_lastRun (hshape : EarlierShape read t₀ t) (hwell : t₀.WellFormed)
    (hingested : Ingested read t₀) {r₀ r : RunRow} (hr₀ : r₀ ∈ t₀.runs) (hr : r ∈ t.runs)
    (hid : r.id = r₀.id) : RunSound (RunReadable read t r.id) r₀ r (lastRun read t r) ↔
      (RunReadable read t r.id → RunSafe read t₀ t r₀ r) :=
  runSound_iff hwell hingested hshape hr₀ (hshape.olderRun hwell hr₀ hr hid)

/-- Rows that were filled in correctly had been safe to fill in. -/
theorem safe_of_filledSoundly (hwell : t₀.WellFormed) (hingested : Ingested read t₀)
    (hshape : EarlierShape read t₀ t) {t' : RunTables} (hends : Backfills read t t')
    (h : FilledSoundly read t₀ t t') : BackfillSafe read t₀ t := by
  obtain ⟨t'', hends'', -, hruns, hcases, -⟩ := backfill_settles hwell hingested hshape
  obtain rfl := hends.unique hends''
  refine ⟨fun c hc => ?_, fun r₀ hr₀ r hr hid => ?_⟩
  · obtain ⟨c₀, hc₀, holder⟩ := (exists_of_forall₂ hshape.cases).2 c hc
    refine (hshape.caseSound_lastCase hwell hingested hc₀ hc holder.key).mp
      (h.cases c₀ hc₀ c hc _ ?_ holder.key (lastCase_key _ c))
    rw [hcases]
    exact List.mem_map_of_mem hc
  · refine (hshape.runSound_lastRun hwell hingested hr₀ hr hid).mp
      (h.runs r₀ hr₀ r hr _ ?_ hid (lastRun_id r))
    rw [hruns]
    exact List.mem_map_of_mem hr

/-- Rows that are safe to fill in are filled in correctly. -/
theorem filledSoundly_of_safe (hwell : t₀.WellFormed) (hingested : Ingested read t₀)
    (hshape : EarlierShape read t₀ t) (h : BackfillSafe read t₀ t) :
    ∃ t', Backfills read t t' ∧ FilledSoundly read t₀ t t' := by
  obtain ⟨hkeys, hids, -⟩ := hshape.nodup hwell
  obtain ⟨t', hends, hagain, hruns, hcases, hrest⟩ := backfill_settles hwell hingested hshape
  refine ⟨t', hends, hrest, ?_, ?_, fun c₀ hc₀ c hc c' hc' hkey hkey' => ?_,
    fun r₀ hr₀ r hr r' hr' hid hid' => ?_, hagain⟩
  · rw [hcases, List.map_map]
    exact List.map_congr_left fun c _ => lastCase_key _ c
  · rw [hruns, List.map_map]
    exact List.map_congr_left fun r _ => lastRun_id r
  · rw [hcases] at hc'
    obtain ⟨d, hd, rfl⟩ := List.mem_map.mp hc'
    obtain rfl : d = c := List.inj_on_of_nodup_map hkeys hd hc ((lastCase_key _ d).symm.trans hkey')
    exact (hshape.caseSound_lastCase hwell hingested hc₀ hc hkey).mpr (h.cases d hc)
  · rw [hruns] at hr'
    obtain ⟨s, hs, rfl⟩ := List.mem_map.mp hr'
    obtain rfl : s = r := List.inj_on_of_nodup_map hids hs hr ((lastRun_id s).symm.trans hid')
    exact (hshape.runSound_lastRun hwell hingested hr₀ hr hid).mpr (h.runs r₀ hr₀ s hr hid)

end

/-- **The backfill fills in correctly exactly where** no sentinel is written over a column that is
there, the case rows count what ingest had counted, and no counter that is read again had wrapped
around. -/
theorem backfill_sound_iff {codec : IngestCodec} {read : BackfillReaders}
    {history : List StoreEvent} {t : RunTables}
    (huploads : UploadsOf codec (BlobsReadBack codec read) history)
    (hshape : EarlierShape read (storedAfter history) t) :
    (∃ t', Backfills read t t' ∧ FilledSoundly read (storedAfter history) t t') ↔
      BackfillSafe read (storedAfter history) t := by
  have hwell := wellFormed_storedAfter history
  have hingested := ingested_storedAfter huploads
  constructor
  · rintro ⟨t', hends, h⟩
    exact safe_of_filledSoundly hwell hingested hshape hends h
  · exact filledSoundly_of_safe hwell hingested hshape

/-! ### One document, and a case that cannot be read any more -/

/-- The fields of a case that a run counts; one that is missing is left out. -/
def writtenCase (c : CaseDocument) : Json :=
  .obj ((c.emptyReason.map fun r => ("empty_reason", .str r.value)).toList ++
    (c.answeredByProviderId.map fun p => ("answered_by_provider_id", .str p)).toList)

/-- The fields of a document that the backfill reads. -/
def writtenRun (run : RunDocument) : Json :=
  .obj [("config_digest", .str run.configDigest),
    ("summary", .obj [("cache_hits", .num (.posInt run.summary.cacheHits)),
      ("cache_misses", .num (.posInt run.summary.cacheMisses))]),
    ("cases", .arr (run.documents.map writtenCase))]

/-- Text as it is, a byte for each of its characters. -/
def textBytes (text : String) : List UInt8 := text.toList.map fun c => c.toNat.toUInt8

def plainBlobs : IngestCodec where
  runValue := writtenRun
  caseValue := writtenCase
  assertsText := fun _ => "[]"
  sha256Hex := id
  compress := fun text => .ok (textBytes text)

def slowCase : CaseDocument := taggedCase "a" ["slow"]

/-- The blobs of one document are read, and no others. -/
def onceReaders : BackfillReaders where
  case := fun b =>
    if b = textBytes (writtenCase slowCase).text then .ok slowCase else .error "not a case"
  run := fun b =>
    if b = textBytes (writtenRun onceDocument).text then .ok (writtenRun onceDocument)
    else .error "not a run"

theorem onceReaders_case {b : List UInt8} : onceReaders.case b =
    if b = textBytes (writtenCase slowCase).text then .ok slowCase else .error "not a case" :=
  rfl

theorem onceReaders_run {b : List UInt8} : onceReaders.run b =
    if b = textBytes (writtenRun onceDocument).text then .ok (writtenRun onceDocument)
    else .error "not a run" :=
  rfl

def oncePrepared : PreparedRun where
  row := runRowOf plainBlobs onceDocument none
  tags := []
  blob := textBytes (writtenRun onceDocument).text
  cases := [preparedCase plainBlobs 0 slowCase (textBytes (writtenCase slowCase).text)]

def onceHistory : List StoreEvent := [.change (.ingest oncePrepared ⟨0, zero_fits⟩)]

theorem uploadsOf_once :
    UploadsOf plainBlobs (BlobsReadBack plainBlobs onceReaders) onceHistory := by
  intro p now hmem
  cases List.mem_singleton.mp hmem
  refine ⟨onceDocument, none, ⟨?_, ?_, rfl, rfl, rfl, rfl, ?_, ?_⟩, rfl⟩
  · intro c hc b hb
    cases List.mem_singleton.mp hc
    cases hb
    exact onceReaders_case.trans (if_pos rfl)
  · intro b hb
    cases hb
    exact onceReaders_run.trans (if_pos rfl)
  · intro c hc
    cases List.mem_singleton.mp hc
    rfl
  · intro c hc
    cases List.mem_singleton.mp hc
    rfl

/-- Rows that lost something each. -/
theorem earlierShape_map {read : BackfillReaders} {t : RunTables} {f : CaseRow → CaseRow}
    {g : RunRow → RunRow} (hf : ∀ c ∈ t.cases, OlderCase read c (f c))
    (hg : ∀ r ∈ t.runs, OlderRun r (g r)) :
    EarlierShape read t { t with runs := t.runs.map g, cases := t.cases.map f } where
  cases := List.forall₂_map_right_iff.mpr (List.forall₂_same.mpr hf)
  runs := List.forall₂_map_right_iff.mpr (List.forall₂_same.mpr hg)
  blobs := List.forall₂_same.mpr fun _ _ => ⟨rfl, fun _ => rfl⟩

/-- The rows before there were reasons for an empty output. -/
def withoutReasons (t : RunTables) : RunTables :=
  { t with
    runs := t.runs.map fun r => { r with emptyCount := none }
    cases := t.cases.map fun c => { c with emptyReason := none } }

/-- The same, and the details of all cases are damaged. -/
def withoutDetails (t : RunTables) : RunTables :=
  { t with
    runs := t.runs.map fun r => { r with emptyCount := none }
    cases := t.cases.map fun c => { c with emptyReason := none, detail := 0 :: c.detail } }

theorem olderRun_withoutReasons (r : RunRow) : OlderRun r { r with emptyCount := none } :=
  ⟨rfl, .inl rfl, .inl rfl, .inl rfl, .inr rfl, .inl rfl⟩

theorem earlierShape_withoutReasons (read : BackfillReaders) (t : RunTables) :
    EarlierShape read t (withoutReasons t) :=
  earlierShape_map (fun _ _ => ⟨rfl, fun _ => rfl, .inl rfl, .inl rfl, .inl rfl, .inl rfl, .inl rfl,
    .inl rfl, .inl rfl, .inl rfl, .inr rfl, .inl rfl⟩) fun r _ => olderRun_withoutReasons r

/-- A detail that is damaged is not one of those that are read. -/
theorem not_readable_damaged {t : RunTables} (h : Ingested onceReaders t) {c : CaseRow}
    (hc : c ∈ t.cases) (c' : CaseRow) (hdetail : c'.detail = 0 :: c.detail) :
    ¬ CaseReadable onceReaders c' := by
  obtain ⟨doc, hread⟩ := h.readCase c hc
  rintro ⟨doc', hread'⟩
  rw [onceReaders_case] at hread hread'
  by_cases hwritten : c.detail = textBytes (writtenCase slowCase).text
  · rw [if_neg] at hread'
    · cases hread'
    · rw [hdetail, hwritten]
      exact List.cons_ne_self _ _
  · rw [if_neg hwritten] at hread
    cases hread

theorem once_filledSoundly :
    UploadsOf plainBlobs (BlobsReadBack plainBlobs onceReaders) onceHistory ∧
      EarlierShape onceReaders (storedAfter onceHistory)
        (withoutReasons (storedAfter onceHistory)) ∧
      ∃ t', Backfills onceReaders (withoutReasons (storedAfter onceHistory)) t' ∧
        FilledSoundly onceReaders (storedAfter onceHistory)
          (withoutReasons (storedAfter onceHistory)) t' := by
  have hshape := earlierShape_withoutReasons onceReaders (storedAfter onceHistory)
  refine ⟨uploadsOf_once, hshape, (backfill_sound_iff uploadsOf_once hshape).mpr ⟨?_, ?_⟩⟩
  · intro c hc hunreadable
    obtain ⟨c₀, hc₀, rfl⟩ := List.mem_map.mp hc
    exact absurd ((ingested_storedAfter uploadsOf_once).readCase c₀ hc₀) hunreadable.2
  · intro r₀ hr₀ r hr _ _
    cases List.mem_singleton.mp hr₀
    cases List.mem_singleton.mp hr
    refine ⟨fun hnone => absurd hnone (Option.some_ne_none _),
      fun hnone => absurd hnone (Option.some_ne_none _), fun _ => ?_,
      fun hcounts => absurd hcounts.1 (Option.some_ne_none _)⟩
    show some (asI64 (onceDocument.documents.countP CaseDocument.cameBackEmpty)) = _
    rw [asI64_countP]
    rfl

/-- A case row whose detail is damaged loses its provider to the sentinel. -/
theorem provider_lost : ¬ ∀ codec read history t,
    UploadsOf codec (BlobsReadBack codec read) history →
      EarlierShape read (storedAfter history) t →
        ∃ t', Backfills read t t' ∧ FilledSoundly read (storedAfter history) t t' := by
  intro h
  have hwell := wellFormed_storedAfter onceHistory
  have hingested := ingested_storedAfter uploadsOf_once
  have hshape : EarlierShape onceReaders (storedAfter onceHistory)
      (withoutDetails (storedAfter onceHistory)) := by
    refine earlierShape_map (fun c hc => ?_) fun r _ => olderRun_withoutReasons r
    exact ⟨rfl, fun hread => absurd hread (not_readable_damaged hingested hc _ rfl), .inl rfl,
      .inl rfl, .inl rfl, .inl rfl, .inl rfl, .inl rfl, .inl rfl, .inl rfl, .inr rfl, .inl rfl⟩
  obtain ⟨t', hends, hsound⟩ := h plainBlobs onceReaders onceHistory _ uploadsOf_once hshape
  have hsafe := safe_of_filledSoundly hwell hingested hshape hends hsound
  have hsentinels := hsafe.cases _ (.head _) ⟨by decide,
    not_readable_damaged hingested (.head _) _ rfl⟩
  have hprovider : Older (some "") (some "main") := hsentinels.providerId
  revert hprovider
  unfold Older
  decide
