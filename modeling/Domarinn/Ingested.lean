/-
What ingest had written, as the blobs tell it.

A promoted column of a case is a member of its document, and so is in the blob; the counters of a
run are counted in its blob as ingest had counted them.  The exception is a cache counter past
the range of an `i64`, which ingest lets wrap around to a negative number and which is read back
as zero.

* **`BlobsReadBack`** — a document is written as its type says, and its blobs are read back;
* **`ingested_storedAfter`** — after every history of such documents, the rows hold what their
  blobs say.
-/
import Domarinn.Backfill
import Domarinn.Provenance

open Json Sql

/-! ### A document and its blobs -/

/-- A document is written as its type says, and its blobs are read back. -/
structure BlobsReadBack (codec : IngestCodec) (read : BackfillReaders) (run : RunDocument) : Prop where
  readCase : ∀ c ∈ run.documents, ∀ b,
    codec.compress (codec.caseValue c).text = .ok b → read.case b = .ok c
  readRun : ∀ b, codec.compress (codec.runValue run).text = .ok b →
    read.run b = .ok (codec.runValue run)
  digest : getMember (codec.runValue run) "config_digest" = some (.str run.configDigest)
  cacheHits : (getMember (codec.runValue run) "summary").bind (getMember · "cache_hits") =
    some (.num (.posInt run.summary.cacheHits))
  cacheMisses : (getMember (codec.runValue run) "summary").bind (getMember · "cache_misses") =
    some (.num (.posInt run.summary.cacheMisses))
  cases : getMember (codec.runValue run) "cases" =
    some (.arr (run.documents.map codec.caseValue))
  emptyReason : ∀ c ∈ run.documents, getMember (codec.caseValue c) "empty_reason" =
    c.emptyReason.map fun r => .str r.value
  answerer : ∀ c ∈ run.documents, getMember (codec.caseValue c) "answered_by_provider_id" =
    c.answeredByProviderId.map .str

/-- A counter that wrapped around is negative, and read as zero. -/
theorem max_asI64 {n : ℕ} (h : n < 2 ^ 64) :
    ((Json.num (.posInt n)).asI64?).getD 0 = max (asI64 n) 0 := by
  show (if n < 2 ^ 63 then some (n : ℤ) else none).getD 0 = _
  split_ifs with hfits
  · rw [asI64_of_lt hfits]
    exact (max_eq_left (Int.natCast_nonneg n)).symm
  · exact (max_eq_right (asI64_neg (not_lt.mp hfits) h).le).symm

/-- What `decode_run_columns` counts under a field of the cases. -/
def countInBlob (value : Json) (field : String) : ℤ :=
  (((getMember value "cases").bind asArray?).map fun cases =>
    asI64 (cases.countP fun c => ((getMember c field).bind asStr?).any (· ≠ ""))).getD 0

/-- What `decode_run_columns` reads under a key of the summary. -/
def countInSummary (value : Json) (key : String) : ℤ :=
  (((getMember value "summary").bind (getMember · key)).bind asI64?).getD 0

theorem decodeRunColumns_ok {read : BackfillReaders} {body : List UInt8} {value : Json}
    {digest : String} (hread : read.run body = .ok value)
    (hdigest : getMember value "config_digest" = some (.str digest)) :
    decodeRunColumns read body = .ok
      { digest
        cacheHits := countInSummary value "cache_hits"
        cacheMisses := countInSummary value "cache_misses"
        emptyCount := countInBlob value "empty_reason"
        fallbackCount := countInBlob value "answered_by_provider_id" } := by
  have hstr : (getMember value "config_digest").bind asStr? = some digest := by
    rw [hdigest]
    rfl
  rw [decodeRunColumns, hread]
  simp only [bind, Except.bind, hstr]
  rfl

section
variable {codec : IngestCodec} {read : BackfillReaders} {run : RunDocument}

/-- The cases with a text that is not empty are counted in the blob as in the document. -/
theorem countInBlob_eq (h : BlobsReadBack codec read run) {field : String}
    (text : CaseDocument → Option String)
    (hfield : ∀ c ∈ run.documents, getMember (codec.caseValue c) field = (text c).map .str) :
    countInBlob (codec.runValue run) field =
      asI64 (run.documents.countP fun c => (text c).any (· ≠ "")) := by
  have hcases : (getMember (codec.runValue run) "cases").bind asArray? =
      some (run.documents.map codec.caseValue) := by
    rw [h.cases]
    rfl
  have hcount : (run.documents.map codec.caseValue).countP
        (fun c => ((getMember c field).bind asStr?).any (· ≠ "")) =
      run.documents.countP fun c => (text c).any (· ≠ "") := by
    rw [List.countP_map]
    refine List.countP_congr fun c hc => ?_
    rw [Function.comp_apply, hfield c hc]
    cases text c <;> rfl
  rw [countInBlob, hcases, Option.map_some, Option.getD_some, hcount]

/-- **What the blob of a document says.** -/
theorem decodeRunColumns_written (h : BlobsReadBack codec read run) {body : List UInt8}
    (hbody : codec.compress (codec.runValue run).text = .ok body) :
    decodeRunColumns read body = .ok
      { digest := run.configDigest
        cacheHits := max (asI64 run.summary.cacheHits) 0
        cacheMisses := max (asI64 run.summary.cacheMisses) 0
        emptyCount := asI64 (run.documents.countP CaseDocument.cameBackEmpty)
        fallbackCount := asI64 (run.documents.countP CaseDocument.answeredByOther) } := by
  have hhits : countInSummary (codec.runValue run) "cache_hits" =
      max (asI64 run.summary.cacheHits) 0 := by
    rw [countInSummary, h.cacheHits]
    exact max_asI64 run.cacheCounts_fit.1
  have hmisses : countInSummary (codec.runValue run) "cache_misses" =
      max (asI64 run.summary.cacheMisses) 0 := by
    rw [countInSummary, h.cacheMisses]
    exact max_asI64 run.cacheCounts_fit.2
  have hempty : countInBlob (codec.runValue run) "empty_reason" =
      asI64 (run.documents.countP CaseDocument.cameBackEmpty) := by
    have hcount : (run.documents.countP fun c =>
        (c.emptyReason.map EmptyReason.value).any (· ≠ "")) =
          run.documents.countP CaseDocument.cameBackEmpty := by
      refine List.countP_congr fun c _ => ?_
      rw [CaseDocument.cameBackEmpty]
      cases c.emptyReason <;> rfl
    rw [countInBlob_eq h (fun c => c.emptyReason.map EmptyReason.value) fun c hc => by
      rw [h.emptyReason c hc, Option.map_map]
      rfl, hcount]
  have hanswered : countInBlob (codec.runValue run) "answered_by_provider_id" =
      asI64 (run.documents.countP CaseDocument.answeredByOther) :=
    countInBlob_eq h (fun c => c.answeredByProviderId) h.answerer
  rw [decodeRunColumns_ok (h.readRun body hbody) h.digest, hhits, hmisses, hempty,
    hanswered]

end

/-! ### The rows of a history -/

/-- The promoted columns of a run that hold what its blob says; a counter that is negative is
read as zero. -/
structure RunMatches (r : RunRow) (columns : RunColumns) : Prop where
  configDigest : r.configDigest = some columns.digest
  cacheHits : ∃ n, r.cacheHits = some n ∧ columns.cacheHits = max n 0
  cacheMisses : ∃ n, r.cacheMisses = some n ∧ columns.cacheMisses = max n 0
  emptyCount : r.emptyCount = some columns.emptyCount
  fallbackCount : r.fallbackCount = some columns.fallbackCount

/-- The rows hold what their blobs say. -/
structure Ingested (read : BackfillReaders) (t : RunTables) : Prop where
  readCase : ∀ c ∈ t.cases, ∃ case, read.case c.detail = .ok case
  stamped : ∀ c ∈ t.cases, stampCase read c.detail c = c
  readRun : ∀ r ∈ t.runs, ∃ body columns, ⟨r.id, body⟩ ∈ t.blobs ∧
    decodeRunColumns read body = .ok columns ∧ RunMatches r columns
  unanswered : ∀ r ∈ t.runs, r.fallbackCount = some 0 → ∀ c ∈ t.cases, c.runId = r.id →
    c.answeredByProviderId = some ""

section
variable {codec : IngestCodec} {read : BackfillReaders} {t : RunTables} {r : RunRow}
  {run : RunDocument} {p : PreparedRun}

/-- A case row of a run was prepared from a case of its document. -/
theorem BuiltFrom.caseRow (h : BuiltFrom codec t r run p) {c : CaseRow} (hc : c ∈ t.cases)
    (hid : c.runId = r.id) : ∃ doc ∈ run.documents, ∃ idx detail,
      codec.compress (codec.caseValue doc).text = .ok detail ∧
        c = (preparedCase codec idx doc detail).row r.id := by
  obtain ⟨uploadedBy, hbuild⟩ := h.build
  have hmem : c ∈ casesOf t r.id :=
    mem_select.mpr ⟨hc, isTrue_eq.mpr ⟨Option.some_ne_none _, congrArg some hid⟩⟩
  obtain ⟨q, hq, rfl⟩ := h.cases c hmem
  obtain ⟨idx, doc, detail, hdoc, hdetail, rfl⟩ := mem_prepareCases (buildRun_ok hbuild).2.1 hq
  exact ⟨doc, List.mem_of_getElem? hdoc, idx, detail, hdetail, rfl⟩

theorem stampCase_preparedCase {doc : CaseDocument} {detail : List UInt8}
    (hread : read.case detail = .ok doc) (idx : ℕ) (id : String) :
    stampCase read detail ((preparedCase codec idx doc detail).row id) =
      (preparedCase codec idx doc detail).row id := by
  rw [stampCase, hread]
  rfl

theorem BuiltFrom.runMatches (h : BuiltFrom codec t r run p)
    (hread : BlobsReadBack codec read run) : ∃ body columns, ⟨r.id, body⟩ ∈ t.blobs ∧
      decodeRunColumns read body = .ok columns ∧ RunMatches r columns := by
  obtain ⟨uploadedBy, hbuild⟩ := h.build
  obtain ⟨hrow, -, hblob⟩ := buildRun_ok hbuild
  refine ⟨p.blob, _, h.blob, decodeRunColumns_written hread hblob, ?_⟩
  have hempty : r.emptyCount =
      some (asI64 (run.documents.countP CaseDocument.cameBackEmpty)) := by
    rw [h.row, hrow, runRowOf]
  have hfallback : r.fallbackCount =
      some (asI64 (run.documents.countP CaseDocument.answeredByOther)) := by
    rw [h.row, hrow, runRowOf]
  have hdigest : r.configDigest = some run.configDigest := by rw [h.row, hrow, runRowOf]
  have hhits : r.cacheHits = some (asI64 run.summary.cacheHits) := by rw [h.row, hrow, runRowOf]
  have hmisses : r.cacheMisses = some (asI64 run.summary.cacheMisses) := by
    rw [h.row, hrow, runRowOf]
  refine ⟨hdigest, ⟨_, hhits, rfl⟩, ⟨_, hmisses, rfl⟩, ?_, ?_⟩
  · rw [hempty]
  · rw [hfallback]

/-- A run without fallbacks has no case that another provider answered. -/
theorem BuiltFrom.unanswered (h : BuiltFrom codec t r run p) (hzero : r.fallbackCount = some 0)
    {c : CaseRow} (hc : c ∈ t.cases) (hid : c.runId = r.id) :
    c.answeredByProviderId = some "" := by
  obtain ⟨uploadedBy, hbuild⟩ := h.build
  obtain ⟨doc, hdoc, idx, detail, -, rfl⟩ := h.caseRow hc hid
  have hcount : run.documents.countP CaseDocument.answeredByOther = 0 := by
    have hrow : r.fallbackCount =
        some (asI64 (run.documents.countP CaseDocument.answeredByOther)) := by
      rw [h.row, (buildRun_ok hbuild).1, runRowOf]
    rw [hrow, Option.some.injEq] at hzero
    rw [asI64_countP] at hzero
    exact Int.ofNat_eq_zero.mp hzero
  have hnone := List.countP_eq_zero.mp hcount doc hdoc
  show some (doc.answeredByProviderId.getD "") = some ""
  rw [CaseDocument.answeredByOther] at hnone
  cases hanswer : doc.answeredByProviderId with
  | none => rfl
  | some answerer =>
    rw [hanswer] at hnone
    by_contra hne
    exact hnone (decide_eq_true fun heq => hne (congrArg some heq))

end

/-- **The rows of a history hold what their blobs say.** -/
theorem ingested_storedAfter {codec : IngestCodec} {read : BackfillReaders}
    {history : List StoreEvent} (h : UploadsOf codec (BlobsReadBack codec read) history) :
    Ingested read (storedAfter history) := by
  have hdocumented := documented_storedAfter h
  have hcase : ∀ c ∈ (storedAfter history).cases, ∃ case, read.case c.detail = .ok case ∧
      stampCase read c.detail c = c := by
    intro c hc
    obtain ⟨r, hr, hid⟩ := List.mem_map.mp ((owned_storedAfter history).cases c hc)
    obtain ⟨run, p, hread, hbuilt⟩ := hdocumented r hr
    obtain ⟨doc, hdoc, idx, detail, hdetail, rfl⟩ := hbuilt.caseRow hc hid.symm
    have hcase := hread.readCase doc hdoc detail hdetail
    exact ⟨doc, hcase, stampCase_preparedCase hcase idx r.id⟩
  refine ⟨fun c hc => (hcase c hc).imp fun _ h => h.1, fun c hc => ?_, fun r hr => ?_,
    fun r hr hzero c hc hid => ?_⟩
  · obtain ⟨-, -, hstamped⟩ := hcase c hc
    exact hstamped
  · obtain ⟨run, p, hread, hbuilt⟩ := hdocumented r hr
    exact hbuilt.runMatches hread
  · obtain ⟨run, p, hread, hbuilt⟩ := hdocumented r hr
    exact hbuilt.unanswered hzero hc hid
