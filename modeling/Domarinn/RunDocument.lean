/-
What is stored of a run document.

`build` takes a document apart: one row for the run with its counters, one for each case, the
tags, and the search text.  `insert` then writes the rows one after another.  Cases and tags
yield to a row that is there under their key, search text does not, and the counters were taken
from the document before.

* **`owned_storedAfter`** — cases, tags and search text are of stored runs, after any history;
* **`ingest_agrees_iff`** — the rows agree with the document, and the counters with the rows,
  exactly when no key is repeated.
-/
import Domarinn.ChatWire
import Domarinn.EntryIndex
import Domarinn.Retention
import Domarinn.RunReads
import Domarinn.Summary

open Json Sql

/-! ### Documents -/

/-- The result of a cell with what is promoted of it. -/
structure CaseDocument extends CaseResult where
  providerId : String
  promptId : Option String
  testId : String
  repeatIdx : ℕ
  tags : List String
  prompt : Option RenderedPrompt
  score : ℚ
  stopReason : Option String
  latencyMs : ℕ
  cacheKey : Option String
  error : Option String
  errorClass : Option ErrorClass
  promptDigest : Option String
  providerDigest : Option String
  assertDigest : Option String

/-- A run document as it is uploaded.  No vector is longer than `isize::MAX`, times are within
the milliseconds of an `i64`, and counts within a `u64`. -/
structure RunDocument extends RunResult where
  documents : List CaseDocument
  cases_eq : cases = documents.map CaseDocument.toCaseResult
  length_lt : documents.length < 2 ^ 63
  finishedAt_fits : -2 ^ 63 ≤ finishedAt ∧ finishedAt < 2 ^ 63
  cacheCounts_fit : summary.cacheHits < 2 ^ 64 ∧ summary.cacheMisses < 2 ^ 64

/-- How documents are written: what `serde_json`, the hash and the compression give. -/
structure IngestCodec where
  runValue : RunDocument → Json
  caseValue : CaseDocument → Json
  assertsText : List CaseAssertLean → String
  sha256Hex : String → String
  compress : String → Except String (List UInt8)

/-! ### Taking a document apart -/

/-- `flatten_prompt`: what is searched of a prompt. -/
def flattenPrompt : RenderedPrompt → String
  | .text text => text
  | .messages messages => "\n".intercalate <| messages.map fun m =>
    let text := m.content.prose
    if m.toolCalls.isEmpty then text
    else
      let calls := "\n".intercalate (m.toolCalls.map fun c => c.name ++ " " ++ c.arguments.text)
      if text.isEmpty then calls else text ++ "\n" ++ calls

/-- What the case list keeps of an assertion. -/
def AssertResult.toLean (a : AssertResult) : CaseAssertLean where
  label := a.kind
  kind := a.kind
  passed := a.status = .pass
  score := a.score

/-- What `build` makes of a case, beside its compressed document. -/
def preparedCase (codec : IngestCodec) (idx : ℕ) (c : CaseDocument) (detail : List UInt8) :
    PreparedCase :=
  let text := c.output.map Output.asText
  { caseKey := c.caseKey
    idx := idx
    name := c.name
    status := c.status.asStr
    outputPreview := text.map fun t => takeChars t 300
    outputText := text
    outputHash := text.map codec.sha256Hex
    asserts := some (codec.assertsText (c.asserts.map AssertResult.toLean))
    promptTokens := c.usage.map fun u => asI64 u.inputTokens
    completionTokens := c.usage.map fun u => asI64 u.outputTokens
    costMicrousd := toMicrousd c.costUsd
    latencyMs := some (asI64 c.latencyMs)
    detail
    providerId := some c.providerId
    promptId := c.promptId
    testId := some c.testId
    repeatIdx := some c.repeatIdx
    score := some c.score
    stopReason := c.stopReason
    cached := some (if c.cached then 1 else 0)
    error := c.error
    promptDigest := c.promptDigest
    providerDigest := c.providerDigest
    assertDigest := c.assertDigest
    errorClass := c.errorClass.map ErrorClass.value
    cacheKey := c.cacheKey
    emptyReason := some ((c.emptyReason.map EmptyReason.value).getD "")
    answeredByProviderId := some (c.answeredByProviderId.getD "")
    tags := c.tags
    promptText := c.prompt.map flattenPrompt }

/-- One case of `build`. -/
def prepareCase (codec : IngestCodec) (idx : ℕ) (c : CaseDocument) :
    Except String PreparedCase := do
  let detail ← codec.compress (codec.caseValue c).text
  return preparedCase codec idx c detail

/-- The cases of `build`, from position `idx` on. -/
def prepareCases (codec : IngestCodec) : ℕ → List CaseDocument → Except String (List PreparedCase)
  | _, [] => .ok []
  | idx, c :: cs => do
    let prepared ← prepareCase codec idx c
    let rest ← prepareCases codec (idx + 1) cs
    return prepared :: rest

/-- A text member of an optional block. -/
def blockText (block : Option Json) (name : String) : Option String :=
  (block.bind fun b => getMember b name).bind asStr?

def RunDocument.caseKeys (run : RunDocument) : List String := run.documents.map fun c => c.caseKey

/-- A case that came back empty, for a reason that is not empty itself. -/
def CaseDocument.cameBackEmpty (c : CaseDocument) : Bool :=
  c.emptyReason.any fun r => r.value ≠ ""

/-- A case that another provider answered. -/
def CaseDocument.answeredByOther (c : CaseDocument) : Bool :=
  c.answeredByProviderId.any (· ≠ "")

/-- The row of a run, up to the time of its upload. -/
def runRowOf (codec : IngestCodec) (run : RunDocument) (uploadedBy : Option String) : RunRow where
  id := run.runId
  project := run.project
  suite := run.suite
  createdAt := ⟨run.finishedAt, run.finishedAt_fits⟩
  uploadedAt := ⟨run.finishedAt, run.finishedAt_fits⟩
  schemaVersion := run.schemaVersion
  description := ((blockText run.origin "note").or
    (blockText (some run.configSnapshot) "description")).filter fun d => !isBlank d
  gitBranch := run.git.bind GitMeta.branch
  gitCommit := run.git.bind GitMeta.commit
  gitDirty := run.git.map fun g => if g.dirty then 1 else 0
  ciProvider := blockText run.ci "provider"
  ciRunUrl := blockText run.ci "run_url"
  caseCount := asI64 run.summary.total
  passCount := asI64 run.summary.passed
  failCount := asI64 run.summary.failed
  errorCount := asI64 run.summary.errored
  promptTokens := asI64 run.summary.promptTokens
  completionTokens := asI64 run.summary.completionTokens
  costMicrousd := toMicrousd run.summary.costUsd
  durationMs := max (run.finishedAt - run.startedAt) 0
  contentHash := "sha256:" ++ codec.sha256Hex (canonicalJson (codec.runValue run))
  uploadedBy
  configDigest := some run.configDigest
  cacheHits := some (asI64 run.summary.cacheHits)
  cacheMisses := some (asI64 run.summary.cacheMisses)
  actor := blockText run.origin "actor"
  host := blockText run.origin "host"
  domarinnVersion := blockText run.origin "version"
  promptsDigest := blockText run.digests "prompts"
  providersDigest := blockText run.digests "providers"
  testsDigest := blockText run.digests "tests"
  assertsDigest := blockText run.digests "asserts"
  graderDigest := blockText run.digests "grader"
  cacheReadTokens := some (asI64 run.summary.cacheReadTokens)
  cacheWriteTokens := some (asI64 run.summary.cacheWriteTokens)
  cacheSavingsMicrousd := toMicrousd run.summary.cacheSavingsUsd
  graderCostMicrousd := toMicrousd run.summary.graderCostUsd
  emptyCount := some (asI64 (run.documents.countP CaseDocument.cameBackEmpty))
  fallbackCount := some (asI64 (run.documents.countP CaseDocument.answeredByOther))
  xfailCount := some (asI64 run.summary.xfailed)
  xpassCount := some (asI64 run.summary.xpassed)

/-- `build`. -/
def buildRun (codec : IngestCodec) (run : RunDocument) (uploadedBy : Option String) :
    Except String PreparedRun := do
  let blob ← codec.compress (codec.runValue run).text
  let cases ← prepareCases codec 0 run.documents
  return { row := runRowOf codec run uploadedBy, tags := run.filters.tags, blob, cases }

/-! ### What is made of the cases -/

section
variable {codec : IngestCodec} {docs : List CaseDocument} {ps : List PreparedCase} {idx : ℕ}

/-- Each case is prepared from the document at its position. -/
theorem prepareCases_ok : ∀ {docs : List CaseDocument} {ps : List PreparedCase} {idx : ℕ},
    prepareCases codec idx docs = .ok ps →
      List.Forall₂ (fun d p => ∃ detail, codec.compress (codec.caseValue d.1).text = .ok detail ∧
        p = preparedCase codec d.2 d.1 detail) (docs.zipIdx idx) ps
  | [], ps, idx, h => by
    cases h
    exact .nil
  | c :: docs, ps, idx, h => by
    rw [prepareCases, prepareCase] at h
    cases hdetail : codec.compress (codec.caseValue c).text with
    | error e =>
      rw [hdetail] at h
      cases h
    | ok detail =>
      rw [hdetail] at h
      cases hrest : prepareCases codec (idx + 1) docs with
      | error e =>
        rw [hrest] at h
        cases h
      | ok rest =>
        rw [hrest] at h
        cases h
        exact .cons ⟨detail, hdetail, rfl⟩ (prepareCases_ok hrest)

/-- What does not depend on position and compression can be read from the documents. -/
theorem map_prepareCases (h : prepareCases codec idx docs = .ok ps) {α : Type*}
    {f : PreparedCase → α} {g : CaseDocument → α}
    (hfg : ∀ idx c detail, f (preparedCase codec idx c detail) = g c) : ps.map f = docs.map g := by
  have hforall := prepareCases_ok h
  have hmap : (docs.zipIdx idx).map (fun d => g d.1) = ps.map f := by
    rw [← List.forall₂_eq_eq_eq, List.forall₂_map_left_iff, List.forall₂_map_right_iff]
    refine hforall.imp fun d p hp => ?_
    obtain ⟨detail, -, rfl⟩ := hp
    exact (hfg d.2 d.1 detail).symm
  have hdocs : (docs.zipIdx idx).map (g ∘ Prod.fst) = docs.map g := by
    rw [← List.map_map, List.zipIdx_map_fst]
  rw [← hmap, ← hdocs]
  rfl

/-- A prepared case says where in the document it was. -/
theorem mem_prepareCases (h : prepareCases codec 0 docs = .ok ps) {q : PreparedCase}
    (hq : q ∈ ps) : ∃ i c detail, docs[i]? = some c ∧
      codec.compress (codec.caseValue c).text = .ok detail ∧ q = preparedCase codec i c detail := by
  have hforall := prepareCases_ok h
  obtain ⟨n, hn, rfl⟩ := List.mem_iff_getElem.mp hq
  have hn' : n < docs.zipIdx.length := by rwa [hforall.length_eq]
  have hlt : n < docs.length := by rwa [List.length_zipIdx] at hn'
  obtain ⟨detail, hdetail, hprepared⟩ := hforall.get hn' hn
  refine ⟨n, docs[n], detail, List.getElem?_eq_getElem hlt, ?_, ?_⟩
  · simpa using hdetail
  · simpa using hprepared

end

/-! ### Histories -/

namespace RunTables

/-- A database without runs. -/
def empty : RunTables := ⟨[], [], [], [], [], [], [], []⟩

/-- Cases, their tags and their search text are of stored runs. -/
structure Owned (t : RunTables) : Prop where
  cases : ∀ c ∈ t.cases, c.runId ∈ t.runIds
  caseTags : ∀ x ∈ t.caseTags, x.runId ∈ t.runIds
  casesFts : ∀ x ∈ t.casesFts, x.runId ∈ t.runIds

end RunTables

/-- What happens to the database: an upload, a sweep, the deletion of a run, or a change of the
pins, whatever they become. -/
inductive StoreEvent where
  | change (op : RunsOp)
  | delete (id : String)
  | pins (baselines : List BaselineRow)

/-- The constraints on the pins. -/
def PinsAllowed (t : RunTables) (baselines : List BaselineRow) : Prop :=
  (baselines.map fun b => (b.project, b.suite)).Nodup ∧
    (∀ b ∈ baselines, ∀ id ∈ b.runId, id ∈ t.runIds) ∧
      ∀ b ∈ baselines, b.runId.isNone ≠ b.branch.isNone

instance (t : RunTables) (baselines : List BaselineRow) : Decidable (PinsAllowed t baselines) := by
  unfold PinsAllowed; infer_instance

def StoreEvent.apply (t : RunTables) : StoreEvent → RunTables
  | .change op => op.apply t
  | .delete id => t.deleteRun id
  | .pins baselines => if PinsAllowed t baselines then { t with baselines } else t

/-- The database after a history that begins without runs. -/
def storedAfter (history : List StoreEvent) : RunTables :=
  history.foldl StoreEvent.apply RunTables.empty

/-- All that an upload inserts is of its run. -/
theorem PreparedRun.runId_parts {p : PreparedRun} : ∀ i ∈ p.parts, i.runId = p.row.id := by
  intro i hi
  obtain hi | hi := List.mem_append.mp hi
  · obtain hi | hi := List.mem_cons.mp hi
    · rw [hi]
      rfl
    · obtain hi | hi := List.mem_append.mp hi
      · obtain ⟨tag, -, rfl⟩ := List.mem_map.mp hi
        rfl
      · obtain ⟨c, -, hi⟩ := List.mem_flatMap.mp hi
        obtain rfl | hi := List.mem_cons.mp hi
        · rfl
        · obtain hi | hi := List.mem_append.mp hi
          · obtain ⟨tag, -, rfl⟩ := List.mem_map.mp hi
            rfl
          · rw [List.mem_singleton.mp hi]
            rfl
  · rw [List.mem_singleton.mp hi]
    rfl

namespace RunTables.Owned

variable {t : RunTables}

theorem deleteRun (h : t.Owned) (id : String) : (t.deleteRun id).Owned where
  cases := by
    intro c hc
    obtain ⟨hc, hne⟩ := List.mem_filter.mp hc
    exact mem_runIds_deleteRun.mpr ⟨h.cases c hc, of_decide_eq_true hne⟩
  caseTags := by
    intro x hx
    obtain ⟨hx, hne⟩ := List.mem_filter.mp hx
    exact mem_runIds_deleteRun.mpr ⟨h.caseTags x hx, of_decide_eq_true hne⟩
  casesFts := by
    intro x hx
    obtain ⟨hx, hne⟩ := List.mem_filter.mp hx
    exact mem_runIds_deleteRun.mpr ⟨h.casesFts x hx, of_decide_eq_true hne⟩

/-- An insertion into a stored run, or of a run. -/
theorem insert (h : t.Owned) {i : RunInsert}
    (hi : i.runId ∈ t.runIds ∨ ∃ row, i = .run row) : (i.apply t).Owned := by
  have hids : ∀ id ∈ t.runIds, id ∈ (i.apply t).runIds := fun id => RunInsert.runIds_apply
  cases i with
  | run row =>
    exact ⟨fun c hc => hids _ (h.cases c hc), fun x hx => hids _ (h.caseTags x hx),
      fun x hx => hids _ (h.casesFts x hx)⟩
  | case row =>
    have hrow : row.runId ∈ t.runIds := hi.resolve_right fun ⟨_, hrun⟩ => by cases hrun
    refine ⟨fun c hc => ?_, h.caseTags, h.casesFts⟩
    obtain hc | ⟨rfl, -⟩ := Sql.mem_insertNew.mp hc
    · exact h.cases c hc
    · exact hrow
  | caseTag row =>
    have hrow : row.runId ∈ t.runIds := hi.resolve_right fun ⟨_, hrun⟩ => by cases hrun
    refine ⟨h.cases, fun x hx => ?_, h.casesFts⟩
    obtain hx | ⟨rfl, -⟩ := Sql.mem_insertNew.mp hx
    · exact h.caseTags x hx
    · exact hrow
  | caseText row =>
    have hrow : row.runId ∈ t.runIds := hi.resolve_right fun ⟨_, hrun⟩ => by cases hrun
    refine ⟨h.cases, h.caseTags, fun x hx => ?_⟩
    obtain hx | hx := List.mem_append.mp hx
    · exact h.casesFts x hx
    · rw [List.mem_singleton.mp hx]
      exact hrow
  | blob row => exact ⟨h.cases, h.caseTags, h.casesFts⟩
  | runTag row => exact ⟨h.cases, h.caseTags, h.casesFts⟩
  | runText row => exact ⟨h.cases, h.caseTags, h.casesFts⟩

theorem inserts (is : List RunInsert) : ∀ {t : RunTables}, t.Owned →
    (∀ i ∈ is, i.runId ∈ t.runIds) → (is.foldl RunInsert.apply t).Owned := by
  induction is with
  | nil => exact fun h _ => h
  | cons i is ih =>
    intro t h his
    exact ih (h.insert (.inl (his i (.head _)))) fun j hj =>
      RunInsert.runIds_apply (his j (.tail _ hj))

/-- An upload first inserts its run, and then what belongs to it. -/
theorem upload (h : t.Owned) (p : PreparedRun) (now : I64) : (ingestRun t p now).1.Owned := by
  rw [ingestRun]
  split
  · exact h
  · have hrun : p.row.id ∈ (t.insertRun { p.row with uploadedAt := now }).runIds := by
      simp [RunTables.runIds, RunTables.insertRun]
    refine (h.insert (i := .run { p.row with uploadedAt := now }) (.inr ⟨_, rfl⟩)).inserts p.parts
      fun i hi => ?_
    rw [p.runId_parts i hi]
    exact hrun

theorem deleteRuns (ids : List String) : ∀ {t : RunTables}, t.Owned →
    (ids.foldl RunTables.deleteRun t).Owned := by
  induction ids with
  | nil => exact fun h => h
  | cons id ids ih => exact fun h => ih (h.deleteRun id)

theorem apply (h : t.Owned) (event : StoreEvent) : (event.apply t).Owned := by
  cases event with
  | change op =>
    cases op with
    | sweepRuns maxAgeDays now => exact deleteRuns _ h
    | ingest upload now => exact h.upload upload now
  | delete id => exact h.deleteRun id
  | pins baselines =>
    rw [StoreEvent.apply]
    split_ifs
    · exact ⟨h.cases, h.caseTags, h.casesFts⟩
    · exact h

end RunTables.Owned

theorem StoreEvent.apply_wellFormed {t : RunTables} (h : t.WellFormed) (event : StoreEvent) :
    (event.apply t).WellFormed := by
  cases event with
  | change op => exact op.apply_wellFormed h
  | delete id => exact deleteRun_wellFormed h id
  | pins baselines =>
    rw [apply]
    split_ifs with hpins
    · exact { h with baselineKey := hpins.1, pin_run := hpins.2.1, pin_kind := hpins.2.2 }
    · exact h

/-- An invariant of every database that a history leaves. -/
theorem storedAfter_induction {P : RunTables → Prop} (hempty : P RunTables.empty)
    (happly : ∀ t event, P t → P (StoreEvent.apply t event)) (history : List StoreEvent) :
    P (storedAfter history) := by
  have hfold : ∀ (history : List StoreEvent) (t : RunTables), P t →
      P (history.foldl StoreEvent.apply t) := by
    intro history
    induction history with
    | nil => exact fun _ h => h
    | cons event history ih => exact fun t h => ih _ (happly t event h)
  exact hfold history _ hempty

theorem wellFormed_empty : RunTables.empty.WellFormed := by
  constructor <;> simp [RunTables.empty, RunTables.runIds]

theorem wellFormed_storedAfter (history : List StoreEvent) : (storedAfter history).WellFormed :=
  storedAfter_induction wellFormed_empty (fun _ event h => event.apply_wellFormed h) history

/-- Nothing is ever left behind of a run that went. -/
theorem owned_storedAfter (history : List StoreEvent) : (storedAfter history).Owned := by
  have hempty : RunTables.empty.Owned :=
    ⟨by simp [RunTables.empty], by simp [RunTables.empty], by simp [RunTables.empty]⟩
  exact storedAfter_induction hempty (fun _ event h => h.apply event) history

/-! ### What an upload leaves in the tables -/

namespace RunInsert

def run? : RunInsert → Option RunRow
  | .run row => some row
  | _ => none

def case? : RunInsert → Option CaseRow
  | .case row => some row
  | _ => none

def caseTag? : RunInsert → Option CaseTagRow
  | .caseTag row => some row
  | _ => none

def caseText? : RunInsert → Option CaseFtsRow
  | .caseText row => some row
  | _ => none

/-- A table is changed by the insertions into it alone, in their order. -/
theorem foldl_table {ρ : Type} (table : RunTables → List ρ) (part : RunInsert → Option ρ)
    (add : List ρ → ρ → List ρ)
    (hadd : ∀ t i, table (RunInsert.apply t i) = (part i).elim (table t) (add (table t)))
    (is : List RunInsert) : ∀ t : RunTables,
      table (is.foldl RunInsert.apply t) = (is.filterMap part).foldl add (table t) := by
  induction is with
  | nil => exact fun _ => rfl
  | cons i is ih =>
    intro t
    rw [List.foldl_cons, ih, hadd, List.filterMap_cons]
    cases part i <;> rfl

end RunInsert

/-- The `cases` row of a case: an error that is missing is stored as empty text. -/
def PreparedCase.row (runId : String) (c : PreparedCase) : CaseRow :=
  { c with runId, error := some (c.error.getD "") }

namespace PreparedRun

def caseKeys (p : PreparedRun) : List String := p.cases.map fun c => c.caseKey

variable (p : PreparedRun) (now : I64)

/-- Of the insertions of an upload, those into a table of runs or of their cases. -/
theorem filterMap_inserts {ρ : Type} (part : RunInsert → Option ρ) (rows : PreparedCase → List ρ)
    (hcase : ∀ c, (PreparedCase.inserts p.row.id c).filterMap part = rows c)
    (hblob : ∀ row, part (.blob row) = none) (htag : ∀ row, part (.runTag row) = none)
    (htext : ∀ row, part (.runText row) = none) :
    (p.inserts now).filterMap part =
      (part (.run { p.row with uploadedAt := now })).toList ++ p.cases.flatMap rows := by
  have htags : (p.tags.map fun tag => RunInsert.runTag ⟨p.row.id, tag⟩).filterMap part = [] := by
    rw [List.filterMap_map, List.filterMap_eq_nil_iff]
    exact fun tag _ => htag _
  have hcases : (p.cases.flatMap (PreparedCase.inserts p.row.id)).filterMap part =
      p.cases.flatMap rows := by
    rw [List.filterMap_flatMap]
    exact congrArg (p.cases.flatMap ·) (funext hcase)
  have hparts : p.parts.filterMap part = p.cases.flatMap rows := by
    rw [parts, List.filterMap_append, List.cons_append, List.filterMap_cons_none (hblob _),
      List.filterMap_append, htags, hcases, List.nil_append, List.filterMap_cons_none (htext _),
      List.filterMap_nil, List.append_nil]
  rw [inserts, List.filterMap_cons, hparts]
  cases part (.run { p.row with uploadedAt := now }) <;> rfl

end PreparedRun

theorem PreparedCase.filterMap_caseTag (runId : String) (c : PreparedCase) :
    (c.inserts runId).filterMap RunInsert.caseTag? =
      c.tags.map fun tag => ⟨runId, c.caseKey, tag⟩ := by
  have htags : (c.tags.map fun tag => RunInsert.caseTag ⟨runId, c.caseKey, tag⟩).filterMap
      RunInsert.caseTag? = c.tags.map fun tag => ⟨runId, c.caseKey, tag⟩ := by
    rw [List.filterMap_map]
    exact congrFun List.filterMap_eq_map c.tags
  rw [inserts, List.filterMap_append, List.filterMap_cons_none rfl, htags]
  exact List.append_nil _

/-- What is not of tags is one row of a case, or none. -/
theorem PreparedCase.filterMap_other {ρ : Type} (part : RunInsert → Option ρ)
    (htag : ∀ row, part (.caseTag row) = none) (runId : String) (c : PreparedCase) :
    (c.inserts runId).filterMap part =
      (part (.case (c.row runId))).toList ++ (part (.caseText (c.searchText runId))).toList := by
  have htags : (c.tags.map fun tag => RunInsert.caseTag ⟨runId, c.caseKey, tag⟩).filterMap part =
      [] := by
    rw [List.filterMap_map, List.filterMap_eq_nil_iff]
    exact fun tag _ => htag _
  rw [inserts, List.filterMap_append, List.filterMap_eq_flatMap_toList part (_ :: _),
    List.flatMap_cons, ← List.filterMap_eq_flatMap_toList, htags, List.append_nil,
    List.filterMap_eq_flatMap_toList, List.flatMap_singleton]
  rfl

section
variable {t t' : RunTables} {p : PreparedRun} {now : I64}

/-- An upload that created its run: nothing was stored of it before. -/
theorem ingestRun_created (h : ingestRun t p now = (t', .created)) :
    p.row.id ∉ t.runIds ∧ t' = (p.inserts now).foldl RunInsert.apply t := by
  rw [ingestRun] at h
  split at h
  · split at h <;> cases h
  · rename_i hnone
    cases h
    refine ⟨fun hmem => ?_, rfl⟩
    obtain ⟨r, hr, hid⟩ := List.mem_map.mp hmem
    simpa [hid] using List.find?_eq_none.mp hnone r hr

theorem runs_of_created (h : ingestRun t p now = (t', .created)) :
    t'.runs = t.runs ++ [{ p.row with uploadedAt := now }] := by
  rw [(ingestRun_created h).2, RunInsert.foldl_table RunTables.runs RunInsert.run?
      (fun rows row => rows ++ [row]) (fun t i => by cases i <;> rfl),
    p.filterMap_inserts now RunInsert.run? (fun _ => [])
      (fun c => PreparedCase.filterMap_other _ (fun _ => rfl) _ c) (fun _ => rfl) (fun _ => rfl)
      (fun _ => rfl)]
  simp [RunInsert.run?]

theorem cases_of_created (h : ingestRun t p now = (t', .created)) :
    t'.cases = (p.cases.map (PreparedCase.row p.row.id)).foldl (insertNew CaseRow.key) t.cases := by
  rw [(ingestRun_created h).2, RunInsert.foldl_table RunTables.cases RunInsert.case?
      (insertNew CaseRow.key) (fun t i => by cases i <;> rfl),
    p.filterMap_inserts now RunInsert.case? (fun c => [c.row p.row.id])
      (fun c => PreparedCase.filterMap_other _ (fun _ => rfl) _ c) (fun _ => rfl) (fun _ => rfl)
      (fun _ => rfl), List.map_eq_flatMap]
  rfl

theorem casesFts_of_created (h : ingestRun t p now = (t', .created)) :
    t'.casesFts = t.casesFts ++ p.cases.map (PreparedCase.searchText p.row.id) := by
  have hadd : ∀ news rows : List CaseFtsRow,
      news.foldl (fun rows row => rows ++ [row]) rows = rows ++ news := by
    intro news
    induction news with
    | nil => simp
    | cons new news ih => simp [ih]
  rw [(ingestRun_created h).2, RunInsert.foldl_table RunTables.casesFts RunInsert.caseText?
      (fun rows row => rows ++ [row]) (fun t i => by cases i <;> rfl),
    p.filterMap_inserts now RunInsert.caseText? (fun c => [c.searchText p.row.id])
      (fun c => PreparedCase.filterMap_other _ (fun _ => rfl) _ c) (fun _ => rfl) (fun _ => rfl)
      (fun _ => rfl), hadd, List.map_eq_flatMap]
  rfl

theorem mem_caseTags_of_created (h : ingestRun t p now = (t', .created)) {x : CaseTagRow} :
    x ∈ t'.caseTags ↔ x ∈ t.caseTags ∨
      ∃ c ∈ p.cases, ∃ tag ∈ c.tags, ⟨p.row.id, c.caseKey, tag⟩ = x := by
  rw [(ingestRun_created h).2, RunInsert.foldl_table RunTables.caseTags RunInsert.caseTag?
      (insertNew id) (fun t i => by cases i <;> rfl),
    p.filterMap_inserts now RunInsert.caseTag? _
      (PreparedCase.filterMap_caseTag p.row.id) (fun _ => rfl) (fun _ => rfl)
      (fun _ => rfl), mem_foldl_insertRow]
  simp [RunInsert.caseTag?]

end

/-! ### Agreement -/

/-- A row of a case that came back empty, for a reason that is not empty itself. -/
def CaseRow.hasReason (c : CaseRow) : Bool := c.emptyReason.any (· ≠ "")

/-- A row of a case that another provider answered. -/
def CaseRow.hasAnswerer (c : CaseRow) : Bool := c.answeredByProviderId.any (· ≠ "")

/-- The rows that are stored of a run are those of its document, and its counters count them. -/
structure RowsAgree (t : RunTables) (run : RunDocument) : Prop where
  stored : run.runId ∈ t.runIds
  oneRow : ∀ c ∈ run.documents,
    (casesOf t run.runId).countP (fun row => row.caseKey = c.caseKey) = 1
  oneText : ∀ c ∈ run.documents,
    t.casesFts.countP (fun x => x.runId = run.runId ∧ x.caseKey = c.caseKey) = 1
  /-- The tags under the key of a row are those of the case that the row was made of. -/
  tags : ∀ row ∈ casesOf t run.runId, ∃ c, run.documents[row.idx.toNat]? = some c ∧
    c.caseKey = row.caseKey ∧
      ∀ tag, ⟨run.runId, row.caseKey, tag⟩ ∈ t.caseTags ↔ tag ∈ c.tags
  emptyCount : ∀ r ∈ t.runs, r.id = run.runId →
    r.emptyCount = some ((casesOf t run.runId).countP CaseRow.hasReason : ℕ)
  emptyCounts : ∀ r ∈ t.runs, r.id = run.runId → r.emptyCount =
    some (((emptyCountsByReason (casesOf t run.runId)).getD []).map Prod.snd).sum
  fallbackCount : ∀ r ∈ t.runs, r.id = run.runId →
    r.fallbackCount = some ((casesOf t run.runId).countP CaseRow.hasAnswerer : ℕ)
  caseCount : summarize run.cases = some run.summary → ∀ r ∈ t.runs, r.id = run.runId →
    r.caseCount = (casesOf t run.runId).length

/-- The counts by reason add up to the rows that have one. -/
theorem sum_emptyCountsByReason (cases : List CaseRow) :
    (((emptyCountsByReason cases).getD []).map Prod.snd).sum = cases.countP CaseRow.hasReason := by
  set reasons := (cases.filterMap fun c => c.emptyReason).filter (· ≠ "") with hreasons
  set counts := orderBy (fun a b => a.1 ≤ b.1)
    ((groupBy id reasons).map fun group => (group.1, group.2.length)) with hcounts
  have hgetD : (emptyCountsByReason cases).getD [] = counts := by
    show (if counts.isEmpty then none else some counts).getD [] = counts
    split_ifs with hempty
    · exact (List.isEmpty_iff.mp hempty).symm
    · rfl
  have hperm : (counts.map Prod.snd).Perm
      ((groupBy id reasons).map fun group => group.2.length) := by
    have hsorted := (List.perm_insertionSort (fun a b : String × ℕ => a.1 ≤ b.1)
      ((groupBy id reasons).map fun group => (group.1, group.2.length))).map Prod.snd
    rwa [List.map_map] at hsorted
  rw [hgetD, hperm.sum_eq, sum_length_groupBy_id, hreasons, ← List.countP_eq_length_filter,
    List.countP_filterMap]
  refine List.countP_congr fun c _ => ?_
  rw [CaseRow.hasReason]
  cases c.emptyReason <;> simp

section
variable {t t' : RunTables} {p : PreparedRun} {now : I64}

/-- The search rows of a run that was just created, one for each case. -/
theorem countP_casesFts (howned : t.Owned) (h : ingestRun t p now = (t', .created))
    (key : String) : t'.casesFts.countP (fun x => x.runId = p.row.id ∧ x.caseKey = key) =
      p.caseKeys.count key := by
  have hold : t.casesFts.countP (fun x => x.runId = p.row.id ∧ x.caseKey = key) = 0 := by
    rw [List.countP_eq_zero]
    intro x hx hfound
    have hid : x.runId = p.row.id := (of_decide_eq_true hfound).1
    exact (ingestRun_created h).1 (hid ▸ howned.casesFts x hx)
  rw [casesFts_of_created h, List.countP_append, hold, Nat.zero_add, List.countP_map,
    PreparedRun.caseKeys, List.count, List.countP_map]
  refine List.countP_congr fun c _ => ?_
  show decide (p.row.id = p.row.id ∧ c.caseKey = key) = true ↔ (c.caseKey == key) = true
  rw [decide_eq_true_iff, beq_iff_eq]
  exact and_iff_right rfl

/-- Where no key is repeated, every case has its row. -/
theorem casesOf_of_created (howned : t.Owned) (h : ingestRun t p now = (t', .created))
    (hnodup : p.caseKeys.Nodup) :
    casesOf t' p.row.id = p.cases.map (PreparedCase.row p.row.id) := by
  have hnew := (ingestRun_created h).1
  have hkeys : ((p.cases.map (PreparedCase.row p.row.id)).map CaseRow.key).Nodup := by
    rw [List.map_map]
    refine List.Nodup.map_on (fun c hc d hd heq => ?_) (List.Nodup.of_map _ hnodup)
    exact List.inj_on_of_nodup_map hnodup hc hd (congrArg Prod.snd heq)
  have hfresh : ∀ row ∈ p.cases.map (PreparedCase.row p.row.id),
      row.key ∉ t.cases.map CaseRow.key := by
    intro row hrow hmem
    obtain ⟨c, -, rfl⟩ := List.mem_map.mp hrow
    obtain ⟨old, hold, hkey⟩ := List.mem_map.mp hmem
    have hid : old.runId = p.row.id := congrArg Prod.fst hkey
    exact hnew (hid ▸ howned.cases old hold)
  have hold : casesOf t p.row.id = [] := by
    rw [casesOf, List.eq_nil_iff_forall_not_mem]
    intro c hc
    obtain ⟨hc, hid⟩ := mem_select.mp hc
    have hid : c.runId = p.row.id := Option.some.inj (isTrue_eq.mp hid).2
    exact hnew (hid ▸ howned.cases c hc)
  rw [casesOf, cases_of_created h, foldl_insertNew_of_fresh _ hfresh hkeys, select,
    List.filter_append, ← select, ← casesOf, hold, List.nil_append, List.filter_eq_self]
  intro row hrow
  obtain ⟨c, -, rfl⟩ := List.mem_map.mp hrow
  exact decide_eq_true (isTrue_eq.mpr ⟨Option.some_ne_none _, rfl⟩)

/-- The tags under the key of a case of a run that was just created. -/
theorem mem_caseTags_iff (howned : t.Owned) (h : ingestRun t p now = (t', .created))
    (hnodup : p.caseKeys.Nodup) {c : PreparedCase} (hc : c ∈ p.cases)
    {tag : String} : ⟨p.row.id, c.caseKey, tag⟩ ∈ t'.caseTags ↔ tag ∈ c.tags := by
  rw [mem_caseTags_of_created h]
  constructor
  · rintro (hold | ⟨d, hd, tag', htag, heq⟩)
    · exact absurd (howned.caseTags _ hold) (ingestRun_created h).1
    · obtain ⟨-, hkey, rfl⟩ := CaseTagRow.mk.inj heq
      obtain rfl : d = c := List.inj_on_of_nodup_map hnodup hd hc hkey
      exact htag
  · exact fun htag => .inr ⟨c, hc, tag, htag, rfl⟩

/-- The row of a run that was just created is the only one of its id. -/
theorem run_of_created (h : ingestRun t p now = (t', .created)) {r : RunRow} (hr : r ∈ t'.runs)
    (hid : r.id = p.row.id) : r = { p.row with uploadedAt := now } := by
  rw [runs_of_created h, List.mem_append, List.mem_singleton] at hr
  refine hr.resolve_left fun hold => (ingestRun_created h).1 ?_
  rw [← hid]
  exact List.mem_map_of_mem hold

end

section
variable {codec : IngestCodec} {run : RunDocument} {uploadedBy : Option String} {p : PreparedRun}

theorem buildRun_ok (h : buildRun codec run uploadedBy = .ok p) :
    p.row = runRowOf codec run uploadedBy ∧ prepareCases codec 0 run.documents = .ok p.cases ∧
      codec.compress (codec.runValue run).text = .ok p.blob := by
  rw [buildRun] at h
  cases hblob : codec.compress (codec.runValue run).text with
  | error e =>
    rw [hblob] at h
    cases h
  | ok blob =>
    rw [hblob] at h
    cases hcases : prepareCases codec 0 run.documents with
    | error e =>
      rw [hcases] at h
      cases h
    | ok cases =>
      rw [hcases] at h
      cases h
      exact ⟨rfl, rfl, rfl⟩

/-- Rows are counted as their documents are. -/
theorem countP_rows (h : buildRun codec run uploadedBy = .ok p) (test : CaseRow → Bool)
    (test' : CaseDocument → Bool)
    (htest : ∀ idx c detail, test ((preparedCase codec idx c detail).row p.row.id) = test' c) :
    (p.cases.map (PreparedCase.row p.row.id)).countP test = run.documents.countP test' := by
  have hmap := map_prepareCases (buildRun_ok h).2.1 (f := fun q => test (q.row p.row.id)) htest
  have hrows := congrArg (List.countP id) hmap
  rw [List.countP_map, List.countP_map] at hrows
  rw [List.countP_map]
  exact hrows

/-- A count of cases fits its column. -/
theorem asI64_countP (run : RunDocument) (test : CaseDocument → Bool) :
    asI64 (run.documents.countP test) = (run.documents.countP test : ℕ) :=
  asI64_of_lt (lt_of_le_of_lt List.countP_le_length run.length_lt)

/-- Each search row of a key is one of its cases. -/
theorem nodup_of_rowsAgree {t t' : RunTables} (howned : t.Owned) {now : I64}
    (hbuild : buildRun codec run uploadedBy = .ok p)
    (hcreated : ingestRun t p now = (t', .created)) (hagree : RowsAgree t' run) :
    run.caseKeys.Nodup := by
  obtain ⟨hrow, hcases, -⟩ := buildRun_ok hbuild
  have hid : p.row.id = run.runId := by
    rw [hrow]
    rfl
  have hkeys : p.caseKeys = run.caseKeys := map_prepareCases hcases fun _ _ _ => rfl
  rw [List.nodup_iff_count_le_one]
  intro key
  by_cases hmem : key ∈ run.caseKeys
  · obtain ⟨c, hc, rfl⟩ := List.mem_map.mp hmem
    have hone := hagree.oneText c hc
    rw [← hid, countP_casesFts howned hcreated, hkeys] at hone
    exact hone.le
  · rw [List.count_eq_zero_of_not_mem hmem]
    exact Nat.zero_le 1

/-- Where no key is repeated, no insertion yields to another. -/
theorem rowsAgree_of_nodup {t t' : RunTables} (howned : t.Owned) {now : I64}
    (hbuild : buildRun codec run uploadedBy = .ok p)
    (hcreated : ingestRun t p now = (t', .created)) (hnodup : run.caseKeys.Nodup) :
    RowsAgree t' run := by
  obtain ⟨hrow, hcases, -⟩ := buildRun_ok hbuild
  have hid : p.row.id = run.runId := by
    rw [hrow]
    rfl
  have hkeys : p.caseKeys = run.caseKeys := map_prepareCases hcases fun _ _ _ => rfl
  have hnodup' : p.caseKeys.Nodup := hkeys ▸ hnodup
  have hrows : casesOf t' run.runId = p.cases.map (PreparedCase.row p.row.id) := by
    rw [← hid]
    exact casesOf_of_created howned hcreated hnodup'
  have hone : ∀ c ∈ run.documents, run.caseKeys.count c.caseKey = 1 := fun c hc =>
    List.count_eq_one_of_mem hnodup (List.mem_map_of_mem hc)
  have hrun : ∀ r ∈ t'.runs, r.id = run.runId → r = { p.row with uploadedAt := now } :=
    fun r hr hr' => run_of_created hcreated hr (hr'.trans hid.symm)
  have hempty : ∀ r ∈ t'.runs, r.id = run.runId →
      r.emptyCount = some ((casesOf t' run.runId).countP CaseRow.hasReason : ℕ) := by
    intro r hr hr'
    rw [hrun r hr hr', hrows, countP_rows hbuild _ CaseDocument.cameBackEmpty, hrow]
    · exact congrArg some (asI64_countP run _)
    · intro idx c detail
      show Option.any _ (some ((c.emptyReason.map EmptyReason.value).getD "")) = _
      rw [CaseDocument.cameBackEmpty]
      cases c.emptyReason <;> rfl
  refine
    { stored := ?_
      oneRow := ?_
      oneText := ?_
      tags := ?_
      emptyCount := hempty
      emptyCounts := ?_
      fallbackCount := ?_
      caseCount := ?_ }
  · rw [RunTables.runIds, runs_of_created hcreated, List.map_append, ← hid]
    exact List.mem_append_right _ (.head _)
  · intro c hc
    rw [hrows, countP_rows hbuild _ (fun d => d.caseKey = c.caseKey) fun _ _ _ => rfl,
      ← hone c hc, RunDocument.caseKeys, List.count, List.countP_map]
    exact List.countP_congr fun d _ => by simp
  · intro c hc
    rw [← hid, countP_casesFts howned hcreated, hkeys, hone c hc]
  · intro row hmem
    rw [hrows] at hmem
    obtain ⟨q, hq, rfl⟩ := List.mem_map.mp hmem
    obtain ⟨i, c, detail, hi, -, rfl⟩ := mem_prepareCases hcases hq
    refine ⟨c, hi, rfl, fun tag => ?_⟩
    rw [← hid]
    exact mem_caseTags_iff howned hcreated hnodup' hq
  · intro r hr hr'
    rw [hempty r hr hr', sum_emptyCountsByReason]
  · intro r hr hr'
    rw [hrun r hr hr', hrows, countP_rows hbuild _ CaseDocument.answeredByOther, hrow]
    · exact congrArg some (asI64_countP run _)
    · intro idx c detail
      show Option.any _ (some (c.answeredByProviderId.getD "")) = _
      rw [CaseDocument.answeredByOther]
      cases c.answeredByProviderId <;> rfl
  · intro hsummary r hr hr'
    have htotal : run.summary.total = run.documents.length := by
      rw [(summarize_eq_some.mp hsummary).2, run.cases_eq, List.length_map]
      rfl
    have hlength : p.cases.length = run.documents.length := by
      have hlengths := congrArg List.length hkeys
      rwa [PreparedRun.caseKeys, RunDocument.caseKeys, List.length_map, List.length_map]
        at hlengths
    have hcount : p.row.caseCount = asI64 run.summary.total := by rw [hrow, runRowOf]
    rw [hrun r hr hr', hrows, List.length_map, hlength, ← asI64_of_lt run.length_lt, ← htotal,
      ← hcount]

/-- **The rows agree with the document exactly when it repeats no key.** -/
theorem ingest_agrees_iff (history : List StoreEvent) {now : I64} {t' : RunTables}
    (hbuild : buildRun codec run uploadedBy = .ok p)
    (hcreated : ingestRun (storedAfter history) p now = (t', .created)) :
    RowsAgree t' run ↔ run.caseKeys.Nodup :=
  ⟨nodup_of_rowsAgree (owned_storedAfter history) hbuild hcreated,
    rowsAgree_of_nodup (owned_storedAfter history) hbuild hcreated⟩

end

/-! ### As long as the run stays -/

/-- The document was uploaded, the upload created its run, and the run has been there since. -/
inductive Stored (codec : IngestCodec) : RunTables → RunDocument → Prop where
  | created {history : List StoreEvent} {run : RunDocument} {uploadedBy : Option String}
      {p : PreparedRun} {now : I64} {t' : RunTables}
      (hbuild : buildRun codec run uploadedBy = .ok p)
      (hcreated : ingestRun (storedAfter history) p now = (t', .created)) : Stored codec t' run
  | kept {t : RunTables} {run : RunDocument} (event : StoreEvent) (h : Stored codec t run)
      (hkept : run.runId ∈ (event.apply t).runIds) : Stored codec (event.apply t) run

section
variable {t : RunTables} {id : String}

theorem casesOf_deleteRun {other : String} (hne : other ≠ id) :
    casesOf (t.deleteRun other) id = casesOf t id := by
  rw [casesOf, casesOf, select, select, RunTables.deleteRun, List.filter_filter]
  refine List.filter_congr fun c _ => ?_
  rw [← Bool.decide_and, decide_eq_decide, and_iff_left_iff_imp]
  intro hid hother
  exact hne (hother.symm.trans (Option.some.inj (isTrue_eq.mp hid).2))

/-- Deleting runs one by one leaves the cases of a run that is none of them. -/
theorem casesOf_deleteRuns (ids : List String) : ∀ {t : RunTables},
    id ∈ (ids.foldl RunTables.deleteRun t).runIds →
      casesOf (ids.foldl RunTables.deleteRun t) id = casesOf t id ∧ id ∈ t.runIds := by
  induction ids with
  | nil => exact fun h => ⟨rfl, h⟩
  | cons other ids ih =>
    intro t h
    obtain ⟨hcases, hmem⟩ := ih h
    obtain ⟨hmem, hne⟩ := mem_runIds_deleteRun.mp hmem
    exact ⟨hcases.trans (casesOf_deleteRun hne.symm), hmem⟩

/-- An upload leaves the cases of the runs that are there. -/
theorem casesOf_ingestRun (hid : id ∈ t.runIds) (p : PreparedRun) (now : I64) :
    casesOf (ingestRun t p now).1 id = casesOf t id := by
  rcases h : ingestRun t p now with ⟨t', outcome⟩
  by_cases hcreated : outcome = .created
  · subst hcreated
    have hne : p.row.id ≠ id := by
      rintro rfl
      exact (ingestRun_created h).1 hid
    show select t'.cases _ = _
    rw [cases_of_created h, casesOf, select, select]
    refine filter_foldl_insertNew _ fun row hrow => ?_
    obtain ⟨c, -, rfl⟩ := List.mem_map.mp hrow
    refine decide_eq_false fun heq => hne ?_
    exact Option.some.inj (isTrue_eq.mp heq).2
  · rw [ingestRun] at h
    split at h
    · cases h
      rfl
    · cases h
      exact absurd rfl hcreated

/-- A step that leaves a run leaves its cases. -/
theorem casesOf_apply {event : StoreEvent} (hid : id ∈ t.runIds)
    (hkept : id ∈ (event.apply t).runIds) : casesOf (event.apply t) id = casesOf t id := by
  cases event with
  | change op =>
    cases op with
    | sweepRuns maxAgeDays now => exact (casesOf_deleteRuns _ hkept).1
    | ingest upload now => exact casesOf_ingestRun hid upload now
  | delete other => exact casesOf_deleteRun (mem_runIds_deleteRun.mp hkept).2.symm
  | pins baselines =>
    rw [StoreEvent.apply]
    split_ifs <;> rfl

end

theorem Stored.mem_runIds {codec : IngestCodec} {t : RunTables} {run : RunDocument}
    (h : Stored codec t run) : run.runId ∈ t.runIds := by
  cases h with
  | created hbuild hcreated =>
    rw [RunTables.runIds, runs_of_created hcreated, List.map_append, List.mem_append,
      List.map_singleton, List.mem_singleton, (buildRun_ok hbuild).1]
    exact .inr rfl
  | kept event h hkept => exact hkept

/-- The cases of a stored run are those of its document, as long as the run stays. -/
theorem Stored.casesOf_eq {codec : IngestCodec} {t : RunTables} {run : RunDocument}
    (h : Stored codec t run) (hnodup : run.caseKeys.Nodup) : ∃ ps,
      prepareCases codec 0 run.documents = .ok ps ∧
        casesOf t run.runId = ps.map (PreparedCase.row run.runId) := by
  induction h with
  | @created history run uploadedBy p now t' hbuild hcreated =>
    obtain ⟨hrow, hcases, -⟩ := buildRun_ok hbuild
    have hid : p.row.id = run.runId := by
      rw [hrow]
      rfl
    have hkeys : p.caseKeys = run.caseKeys := map_prepareCases hcases fun _ _ _ => rfl
    refine ⟨p.cases, hcases, ?_⟩
    rw [← hid]
    exact casesOf_of_created (owned_storedAfter history) hcreated (hkeys ▸ hnodup)
  | kept event h hkept ih =>
    obtain ⟨ps, hcases, hrows⟩ := ih hnodup
    exact ⟨ps, hcases, (casesOf_apply h.mem_runIds hkept).trans hrows⟩

/-! ### A document that repeats a key -/

/-- A case with tags. -/
def taggedCase (key : String) (tags : List String) : CaseDocument where
  caseKey := key
  name := none
  status := .pass
  output := none
  asserts := []
  usage := none
  costUsd := none
  cached := false
  attempts := 1
  emptyReason := none
  answeredByProviderId := some "spare"
  providerId := "main"
  promptId := none
  testId := "t"
  repeatIdx := 0
  tags := tags
  prompt := none
  score := 1
  stopReason := none
  latencyMs := 5
  cacheKey := none
  error := none
  errorClass := none
  promptDigest := none
  providerDigest := none
  assertDigest := none

theorem zero_counts : 0 < 2 ^ 64 ∧ 0 < 2 ^ 64 := by decide

theorem zero_fits : -2 ^ 63 ≤ (0 : ℤ) ∧ (0 : ℤ) < 2 ^ 63 := by decide

/-- A run of these cases. -/
def documentOf (runId : String) (documents : List CaseDocument)
    (hlength : documents.length < 2 ^ 63) : RunDocument where
  schemaVersion := 1
  runId := runId
  project := none
  suite := some "qa"
  startedAt := 0
  finishedAt := 0
  configDigest := "d"
  configSnapshot := .null
  git := none
  ci := none
  origin := none
  digests := none
  shareUrl := none
  composite := none
  filters := {}
  cases := documents.map CaseDocument.toCaseResult
  summary := { total := documents.length }
  documents := documents
  cases_eq := rfl
  length_lt := hlength
  finishedAt_fits := zero_fits
  cacheCounts_fit := zero_counts

/-- Nothing is hashed, and nothing compressed. -/
def plainCodec : IngestCodec where
  runValue := fun _ => .null
  caseValue := fun _ => .null
  assertsText := fun _ => "[]"
  sha256Hex := id
  compress := fun _ => .ok []

def onceDocument : RunDocument := documentOf "r" [taggedCase "a" ["slow"]] (by decide)

def twiceDocument : RunDocument :=
  documentOf "r" [taggedCase "a" ["slow"], taggedCase "a" ["fast"]] (by decide)

theorem once_agrees : ∃ p t', buildRun plainCodec onceDocument none = .ok p ∧
    ingestRun (storedAfter []) p ⟨0, by decide⟩ = (t', .created) ∧
    onceDocument.caseKeys.Nodup ∧ RowsAgree t' onceDocument := by
  have hbuild : buildRun plainCodec onceDocument none = .ok _ := rfl
  exact ⟨_, _, rfl, rfl, by decide, (ingest_agrees_iff [] hbuild rfl).mpr (by decide)⟩

/-- Two cases of one key leave one row and two search rows, and both are counted. -/
theorem twice_disagrees : ¬ ∀ codec run uploadedBy p history now t',
    buildRun codec run uploadedBy = .ok p →
      ingestRun (storedAfter history) p now = (t', .created) → RowsAgree t' run := by
  intro h
  have hagree := h plainCodec twiceDocument none _ [] ⟨0, by decide⟩ _ rfl rfl
  have hone := hagree.oneText (taggedCase "a" ["slow"]) (.head _)
  revert hone
  decide
