/-
The runs database: its tables, their constraints, and the ways in which a run comes and goes.

Rows are keyed by the id of their run.  A run's blob, tags, cases and pins go with it by
foreign keys; its search rows have none, and every deletion names them.

* **`RunTables.WellFormed`** — the keys and references that the schema declares;
* **`ingestRun`** — one upload, when no other runs beside it;
* **`deleteRun_wellFormed`**, **`ingestRun_wellFormed`** — both keep the constraints.
-/
import Domarinn.Sql
import Mathlib.Data.Rat.Init

/-! ### Rows -/

/-- A row of `runs`. -/
structure RunRow where
  id : String
  project : Option String
  suite : Option String
  createdAt : Sql.I64
  uploadedAt : Sql.I64
  schemaVersion : ℤ
  description : Option String
  gitBranch : Option String
  gitCommit : Option String
  gitDirty : Option ℤ
  ciProvider : Option String
  ciRunUrl : Option String
  caseCount : ℤ
  passCount : ℤ
  failCount : ℤ
  errorCount : ℤ
  promptTokens : ℤ
  completionTokens : ℤ
  costMicrousd : Option ℤ
  durationMs : ℤ
  contentHash : String
  uploadedBy : Option String
  configDigest : Option String
  cacheHits : Option ℤ
  cacheMisses : Option ℤ
  actor : Option String
  host : Option String
  domarinnVersion : Option String
  promptsDigest : Option String
  providersDigest : Option String
  testsDigest : Option String
  assertsDigest : Option String
  graderDigest : Option String
  cacheReadTokens : Option ℤ
  cacheWriteTokens : Option ℤ
  cacheSavingsMicrousd : Option ℤ
  graderCostMicrousd : Option ℤ
  emptyCount : Option ℤ
  fallbackCount : Option ℤ
  xfailCount : Option ℤ
  xpassCount : Option ℤ

structure RunTagRow where
  runId : String
  tag : String
deriving DecidableEq

structure BlobRow where
  runId : String
  body : List UInt8
deriving DecidableEq

/-- The columns of `cases` beside the run's id. -/
structure CaseColumns where
  caseKey : String
  idx : ℤ
  name : Option String
  status : String
  outputPreview : Option String
  outputText : Option String
  outputHash : Option String
  asserts : Option String
  promptTokens : Option ℤ
  completionTokens : Option ℤ
  costMicrousd : Option ℤ
  latencyMs : Option ℤ
  detail : List UInt8
  providerId : Option String
  promptId : Option String
  testId : Option String
  repeatIdx : Option ℤ
  score : Option ℚ
  stopReason : Option String
  cached : Option ℤ
  error : Option String
  promptDigest : Option String
  providerDigest : Option String
  assertDigest : Option String
  errorClass : Option String
  cacheKey : Option String
  emptyReason : Option String
  answeredByProviderId : Option String

/-- A row of `cases`. -/
structure CaseRow extends CaseColumns where
  runId : String

/-- `PRIMARY KEY (run_id, case_key)`. -/
def CaseRow.key (c : CaseRow) : String × String := (c.runId, c.caseKey)

structure CaseTagRow where
  runId : String
  caseKey : String
  tag : String
deriving DecidableEq

/-- A pin: of a run, or of a branch. -/
structure BaselineRow where
  project : String
  suite : String
  runId : Option String
  branch : Option String
  setAt : ℤ
deriving DecidableEq

/-- A row of `runs_fts`. -/
structure RunFtsRow where
  runId : String
  project : String
  suite : String
  branch : String
  commit : String
  description : String
  tags : String
deriving DecidableEq

/-- A row of `cases_fts`. -/
structure CaseFtsRow where
  runId : String
  caseKey : String
  name : String
  prompt : String
  output : String
  error : String
  tags : String
deriving DecidableEq

/-! ### Tables -/

structure RunTables where
  runs : List RunRow
  runTags : List RunTagRow
  blobs : List BlobRow
  cases : List CaseRow
  caseTags : List CaseTagRow
  baselines : List BaselineRow
  runsFts : List RunFtsRow
  casesFts : List CaseFtsRow

namespace RunTables

def runIds (t : RunTables) : List String := t.runs.map RunRow.id

/-- The constraints of the schema.  Nothing ties a search row to a run. -/
structure WellFormed (t : RunTables) : Prop where
  runKey : t.runIds.Nodup
  runTagKey : t.runTags.Nodup
  blobKey : (t.blobs.map BlobRow.runId).Nodup
  caseKey : (t.cases.map CaseRow.key).Nodup
  caseTagKey : t.caseTags.Nodup
  baselineKey : (t.baselines.map fun b => (b.project, b.suite)).Nodup
  runTag_run : ∀ x ∈ t.runTags, x.runId ∈ t.runIds
  blob_run : ∀ b ∈ t.blobs, b.runId ∈ t.runIds
  case_run : ∀ c ∈ t.cases, c.runId ∈ t.runIds
  caseTag_case : ∀ x ∈ t.caseTags, (x.runId, x.caseKey) ∈ t.cases.map CaseRow.key
  pin_run : ∀ b ∈ t.baselines, ∀ id, b.runId = some id → id ∈ t.runIds
  pin_kind : ∀ b ∈ t.baselines, b.runId.isNone ≠ b.branch.isNone

end RunTables

/-- The database: tables that meet the constraints. -/
abbrev RunsDb := {t : RunTables // t.WellFormed}

/-! ### Deleting a run -/

/-- The statements that delete a run: the first cascades, the others name the search rows. -/
def RunTables.deleteRun (t : RunTables) (id : String) : RunTables where
  runs := t.runs.filter fun r => r.id ≠ id
  runTags := t.runTags.filter fun x => x.runId ≠ id
  blobs := t.blobs.filter fun b => b.runId ≠ id
  cases := t.cases.filter fun c => c.runId ≠ id
  caseTags := t.caseTags.filter fun x => x.runId ≠ id
  baselines := t.baselines.filter fun b => b.runId ≠ some id
  runsFts := t.runsFts.filter fun x => x.runId ≠ id
  casesFts := t.casesFts.filter fun x => x.runId ≠ id

theorem mem_runIds_deleteRun {t : RunTables} {id id' : String} :
    id' ∈ (t.deleteRun id).runIds ↔ id' ∈ t.runIds ∧ id' ≠ id := by
  simp only [RunTables.runIds, RunTables.deleteRun, List.mem_map, List.mem_filter,
    decide_eq_true_eq]
  constructor
  · rintro ⟨r, ⟨hr, hne⟩, rfl⟩
    exact ⟨⟨r, hr, rfl⟩, hne⟩
  · rintro ⟨⟨r, hr, rfl⟩, hne⟩
    exact ⟨r, ⟨hr, hne⟩, rfl⟩

theorem deleteRun_wellFormed {t : RunTables} (h : t.WellFormed) (id : String) :
    (t.deleteRun id).WellFormed where
  runKey := h.runKey.sublist (List.filter_sublist.map _)
  runTagKey := h.runTagKey.sublist List.filter_sublist
  blobKey := h.blobKey.sublist (List.filter_sublist.map _)
  caseKey := h.caseKey.sublist (List.filter_sublist.map _)
  caseTagKey := h.caseTagKey.sublist List.filter_sublist
  baselineKey := h.baselineKey.sublist (List.filter_sublist.map _)
  runTag_run := by
    intro x hx
    obtain ⟨hx, hne⟩ := List.mem_filter.mp hx
    exact mem_runIds_deleteRun.mpr ⟨h.runTag_run x hx, of_decide_eq_true hne⟩
  blob_run := by
    intro b hb
    obtain ⟨hb, hne⟩ := List.mem_filter.mp hb
    exact mem_runIds_deleteRun.mpr ⟨h.blob_run b hb, of_decide_eq_true hne⟩
  case_run := by
    intro c hc
    obtain ⟨hc, hne⟩ := List.mem_filter.mp hc
    exact mem_runIds_deleteRun.mpr ⟨h.case_run c hc, of_decide_eq_true hne⟩
  caseTag_case := by
    intro x hx
    obtain ⟨hx, hne⟩ := List.mem_filter.mp hx
    obtain ⟨c, hc, hkey⟩ := List.mem_map.mp (h.caseTag_case x hx)
    have hrun : c.runId = x.runId := congrArg Prod.fst hkey
    refine List.mem_map.mpr ⟨c, List.mem_filter.mpr ⟨hc, ?_⟩, hkey⟩
    rw [hrun]
    exact hne
  -- the run's own pins go with it, so no pin is left without its run
  pin_run := by
    intro b hb id' hid'
    obtain ⟨hb, hne⟩ := List.mem_filter.mp hb
    refine mem_runIds_deleteRun.mpr ⟨h.pin_run b hb id' hid', ?_⟩
    rintro rfl
    exact of_decide_eq_true hne hid'
  pin_kind := fun b hb => h.pin_kind b (List.mem_of_mem_filter hb)

/-! ### Inserting a run -/

/-- A case as an upload brings it. -/
structure PreparedCase extends CaseColumns where
  tags : List String
  promptText : Option String

/-- A run as an upload brings it: its row, up to the time of the upload, and what goes with
it. -/
structure PreparedRun where
  row : RunRow
  tags : List String
  blob : List UInt8
  cases : List PreparedCase

namespace RunTables

def insertRun (t : RunTables) (row : RunRow) : RunTables := { t with runs := t.runs ++ [row] }

def insertBlob (t : RunTables) (blob : BlobRow) : RunTables := { t with blobs := t.blobs ++ [blob] }

def insertRunTag (t : RunTables) (row : RunTagRow) : RunTables :=
  { t with runTags := Sql.insertNew id t.runTags row }

def insertCase (t : RunTables) (row : CaseRow) : RunTables :=
  { t with cases := Sql.insertNew CaseRow.key t.cases row }

def insertCaseTag (t : RunTables) (row : CaseTagRow) : RunTables :=
  { t with caseTags := Sql.insertNew id t.caseTags row }

def indexCase (t : RunTables) (row : CaseFtsRow) : RunTables :=
  { t with casesFts := t.casesFts ++ [row] }

def indexRun (t : RunTables) (row : RunFtsRow) : RunTables :=
  { t with runsFts := t.runsFts ++ [row] }

end RunTables

/-- What one statement of an upload inserts. -/
inductive RunInsert where
  | run (row : RunRow)
  | blob (row : BlobRow)
  | runTag (row : RunTagRow)
  | case (row : CaseRow)
  | caseTag (row : CaseTagRow)
  | caseText (row : CaseFtsRow)
  | runText (row : RunFtsRow)

def RunInsert.apply (t : RunTables) : RunInsert → RunTables
  | .run row => t.insertRun row
  | .blob row => t.insertBlob row
  | .runTag row => t.insertRunTag row
  | .case row => t.insertCase row
  | .caseTag row => t.insertCaseTag row
  | .caseText row => t.indexCase row
  | .runText row => t.indexRun row

/-- The run whose row or part a statement inserts. -/
def RunInsert.runId : RunInsert → String
  | .run row => row.id
  | .blob row => row.runId
  | .runTag row => row.runId
  | .case row => row.runId
  | .caseTag row => row.runId
  | .caseText row => row.runId
  | .runText row => row.runId

/-- The `cases_fts` row of a case; what is missing is indexed as empty text. -/
def PreparedCase.searchText (runId : String) (c : PreparedCase) : CaseFtsRow where
  runId := runId
  caseKey := c.caseKey
  name := c.name.getD ""
  prompt := c.promptText.getD ""
  output := c.outputText.getD ""
  error := c.error.getD ""
  tags := " ".intercalate c.tags

/-- The statements that insert one case. -/
def PreparedCase.inserts (runId : String) (c : PreparedCase) : List RunInsert :=
  .case { c with runId, error := some (c.error.getD "") }
    :: c.tags.map (fun tag => .caseTag ⟨runId, c.caseKey, tag⟩)
    ++ [.caseText (c.searchText runId)]

/-- The `runs_fts` row of a run. -/
def PreparedRun.searchText (p : PreparedRun) : RunFtsRow where
  runId := p.row.id
  project := p.row.project.getD ""
  suite := p.row.suite.getD ""
  branch := p.row.gitBranch.getD ""
  commit := p.row.gitCommit.getD ""
  description := p.row.description.getD ""
  tags := " ".intercalate p.tags

/-- The insertions after the row of the run, in the order of the source. -/
def PreparedRun.parts (p : PreparedRun) : List RunInsert :=
  .blob ⟨p.row.id, p.blob⟩
    :: p.tags.map (fun tag => .runTag ⟨p.row.id, tag⟩)
    ++ p.cases.flatMap (PreparedCase.inserts p.row.id)
    ++ [.runText p.searchText]

/-- The insertions of an upload at the time `now`. -/
def PreparedRun.inserts (p : PreparedRun) (now : Sql.I64) : List RunInsert :=
  .run { p.row with uploadedAt := now } :: p.parts

inductive IngestOutcome where
  | created
  | existing
  | conflict
deriving DecidableEq

/-- `insert`, run alone. -/
def ingestRun (t : RunTables) (p : PreparedRun) (now : Sql.I64) : RunTables × IngestOutcome :=
  match t.runs.find? (fun r => r.id = p.row.id) with
  | some stored =>
    (t, if stored.contentHash = p.row.contentHash then .existing else .conflict)
  | none => ((p.inserts now).foldl RunInsert.apply t, .created)

/-! ### Inserting keeps the constraints -/

namespace RunInsert

/-- The constraints let an insertion through. -/
def Allowed (t : RunTables) : RunInsert → Prop
  | .run row => row.id ∉ t.runIds
  | .blob row => row.runId ∈ t.runIds ∧ row.runId ∉ t.blobs.map BlobRow.runId
  | .runTag row => row.runId ∈ t.runIds
  | .case row => row.runId ∈ t.runIds
  | .caseTag row => (row.runId, row.caseKey) ∈ t.cases.map CaseRow.key
  | .caseText _ => True
  | .runText _ => True

/-- Insertions that a row of the same key cannot make fail. -/
def repeatable : RunInsert → Bool
  | .run _ | .blob _ => false
  | _ => true

theorem runIds_apply {t : RunTables} {i : RunInsert} {id : String} (h : id ∈ t.runIds) :
    id ∈ (i.apply t).runIds := by
  cases i with
  | run row =>
    show id ∈ (t.runs ++ [row]).map RunRow.id
    rw [List.map_append]
    exact List.mem_append_left _ h
  | _ => exact h

theorem caseKeys_apply {t : RunTables} {i : RunInsert} {key : String × String}
    (h : key ∈ t.cases.map CaseRow.key) : key ∈ (i.apply t).cases.map CaseRow.key := by
  cases i with
  | case row => exact Sql.keys_insertNew.mpr (.inl h)
  | _ => exact h

theorem Allowed.apply {t : RunTables} {i j : RunInsert} (h : i.Allowed t)
    (hi : i.repeatable = true) : i.Allowed (j.apply t) := by
  cases i with
  | run row => cases hi
  | blob row => cases hi
  | runTag row => exact runIds_apply h
  | case row => exact runIds_apply h
  | caseTag row => exact caseKeys_apply h
  | caseText row => trivial
  | runText row => trivial

/-- An insertion that the constraints let through keeps them. -/
theorem apply_wellFormed {t : RunTables} {i : RunInsert} (h : t.WellFormed) (hi : i.Allowed t) :
    (i.apply t).WellFormed := by
  -- an insert touches one table: its key, and what its row points to
  cases i with
  | run row =>
    exact
      { h with
        runKey := by
          show ((t.runs ++ [row]).map RunRow.id).Nodup
          rw [List.map_append, List.map_singleton]
          exact h.runKey.append (List.nodup_singleton _) (List.disjoint_singleton.mpr hi)
        runTag_run := fun x hx => runIds_apply (i := .run row) (h.runTag_run x hx)
        blob_run := fun b hb => runIds_apply (i := .run row) (h.blob_run b hb)
        case_run := fun c hc => runIds_apply (i := .run row) (h.case_run c hc)
        pin_run := fun b hb id hid => runIds_apply (i := .run row) (h.pin_run b hb id hid) }
  | blob row =>
    exact
      { h with
        blobKey := by
          show ((t.blobs ++ [row]).map BlobRow.runId).Nodup
          rw [List.map_append, List.map_singleton]
          exact h.blobKey.append (List.nodup_singleton _) (List.disjoint_singleton.mpr hi.2)
        blob_run := by
          intro b hb
          obtain hb | hb := List.mem_append.mp hb
          · exact h.blob_run b hb
          · rw [List.mem_singleton.mp hb]
            exact hi.1 }
  | runTag row =>
    exact
      { h with
        runTagKey := Sql.nodup_insertRow h.runTagKey
        runTag_run := by
          intro x hx
          obtain hx | ⟨rfl, -⟩ := Sql.mem_insertNew.mp hx
          · exact h.runTag_run x hx
          · exact hi }
  | case row =>
    exact
      { h with
        caseKey := Sql.nodup_insertNew h.caseKey
        case_run := by
          intro c hc
          obtain hc | ⟨rfl, -⟩ := Sql.mem_insertNew.mp hc
          · exact h.case_run c hc
          · exact hi
        caseTag_case := fun x hx => caseKeys_apply (i := .case row) (h.caseTag_case x hx) }
  | caseTag row =>
    exact
      { h with
        caseTagKey := Sql.nodup_insertRow h.caseTagKey
        caseTag_case := by
          intro x hx
          obtain hx | ⟨rfl, -⟩ := Sql.mem_insertNew.mp hx
          · exact h.caseTag_case x hx
          · exact hi }
  | caseText row => exact { h with }
  | runText row => exact { h with }

/-- Each of a list of insertions is let through where it comes. -/
def AllAllowed : RunTables → List RunInsert → Prop
  | _, [] => True
  | t, i :: is => i.Allowed t ∧ AllAllowed (i.apply t) is

theorem AllAllowed.append {is js : List RunInsert} :
    ∀ {t : RunTables}, AllAllowed t is → AllAllowed (is.foldl RunInsert.apply t) js →
      AllAllowed t (is ++ js) := by
  induction is with
  | nil => exact fun _ hjs => hjs
  | cons i is ih => exact fun ⟨hi, his⟩ hjs => ⟨hi, ih his hjs⟩

theorem AllAllowed.wellFormed {is : List RunInsert} :
    ∀ {t : RunTables}, t.WellFormed → AllAllowed t is → (is.foldl RunInsert.apply t).WellFormed := by
  induction is with
  | nil => exact fun h _ => h
  | cons i is ih => exact fun h ⟨hi, his⟩ => ih (apply_wellFormed h hi) his

theorem runIds_foldl {is : List RunInsert} {id : String} :
    ∀ {t : RunTables}, id ∈ t.runIds → id ∈ (is.foldl RunInsert.apply t).runIds := by
  induction is with
  | nil => exact fun h => h
  | cons i is ih => exact fun h => ih (runIds_apply h)

/-- Repeatable insertions that could all come first may come one after the other. -/
theorem allAllowed_of_repeatable {is : List RunInsert} :
    ∀ {t : RunTables}, (∀ i ∈ is, i.repeatable = true ∧ i.Allowed t) → AllAllowed t is := by
  induction is with
  | nil => exact fun _ => trivial
  | cons i is ih =>
    intro t h
    refine ⟨(h i (.head _)).2, ih fun j hj => ?_⟩
    obtain ⟨hrepeatable, hallowed⟩ := h j (.tail _ hj)
    exact ⟨hrepeatable, hallowed.apply hrepeatable⟩

end RunInsert

open RunInsert

theorem PreparedCase.inserts_allowed {t : RunTables} {runId : String} (h : runId ∈ t.runIds)
    (c : PreparedCase) : AllAllowed t (c.inserts runId) := by
  refine ⟨h, allAllowed_of_repeatable fun i hi => ?_⟩
  obtain hi | hi := List.mem_append.mp hi
  · obtain ⟨tag, -, rfl⟩ := List.mem_map.mp hi
    exact ⟨rfl, Sql.keys_insertNew.mpr (.inr rfl)⟩
  · rw [List.mem_singleton.mp hi]
    exact ⟨rfl, trivial⟩

theorem cases_allowed {runId : String} (cs : List PreparedCase) :
    ∀ {t : RunTables}, runId ∈ t.runIds → AllAllowed t (cs.flatMap (PreparedCase.inserts runId)) := by
  induction cs with
  | nil => exact fun _ => trivial
  | cons c cs ih => exact fun h => (c.inserts_allowed h).append (ih (runIds_foldl h))

/-- Nothing stops an upload whose run is not stored. -/
theorem PreparedRun.inserts_allowed {t : RunTables} (h : t.WellFormed) {p : PreparedRun}
    (hnew : p.row.id ∉ t.runIds) (now : Sql.I64) : AllAllowed t (p.inserts now) := by
  have hrun : p.row.id ∈ (t.insertRun { p.row with uploadedAt := now }).runIds := by
    simp [RunTables.runIds, RunTables.insertRun]
  have hblob : p.row.id ∉ t.blobs.map BlobRow.runId := by
    intro hmem
    obtain ⟨b, hb, hid⟩ := List.mem_map.mp hmem
    exact hnew (hid ▸ h.blob_run b hb)
  refine ⟨hnew, ⟨hrun, hblob⟩, ?_⟩
  refine (AllAllowed.append (allAllowed_of_repeatable fun i hi => ?_) ?_).append ?_
  · obtain ⟨tag, -, rfl⟩ := List.mem_map.mp hi
    exact ⟨rfl, hrun⟩
  · exact cases_allowed p.cases (runIds_foldl hrun)
  · exact ⟨trivial, trivial⟩

theorem ingestRun_wellFormed {t : RunTables} (h : t.WellFormed) (p : PreparedRun)
    (now : Sql.I64) : (ingestRun t p now).1.WellFormed := by
  rw [ingestRun]
  split
  · exact h
  · rename_i hnone
    refine (PreparedRun.inserts_allowed h ?_ now).wellFormed h
    intro hmem
    obtain ⟨r, hr, hid⟩ := List.mem_map.mp hmem
    simpa [hid] using List.find?_eq_none.mp hnone r hr
