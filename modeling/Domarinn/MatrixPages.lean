/-
The pages of the matrix of a stored run.

The rows of a stored run are read off its document; the matrix is made from them in order, and
its pages are read one after the other.

* **`rowOf_built`** — each case row of a stored run is of a case of its document;
* **`scannedRun_of_built`** — what the matrix of a stored run is made from;
* **`ScannedRun.pages_eq`** — over all pages, the rows of the scan.
-/
import Domarinn.Fallible
import Domarinn.MatrixScan
import Domarinn.Provenance
import Domarinn.WebCompare

open Sql Keyset

/-! ### The pages of the matrix -/

/-- The matrix under the cursor of a request; one that is no number counts as none. -/
def MatrixFilter.respond (f : MatrixFilter) (policy : PolicyTables) (t : RunTables)
    (cursor : Option String) : Except String MatrixResponse :=
  MatrixFilter.query { f with cursor := (cursor.bind parseI64).map Subtype.val } policy t

def MatrixFilter.page (f : MatrixFilter) (policy : PolicyTables) (t : RunTables) (_ : Unit)
    (cursor : Option String) : Page MatrixRow String :=
  match f.respond policy t cursor with
  | .ok response => ⟨response.rows, response.nextCursor⟩
  | .error _ => ⟨[], none⟩

/-- The pages of the matrix, more than there are cases. -/
def MatrixFilter.pages (f : MatrixFilter) (policy : PolicyTables) (t : RunTables) :
    List (Page MatrixRow String) :=
  follow (f.page policy t) none (.replicate (t.cases.length + 1) ())

/-- The cells of some rows; a test has none where it never ran. -/
def cellsShown (rows : List MatrixRow) : List MatrixCell :=
  rows.flatMap fun row => row.cells.filterMap id

/-- The cases that the rows of a run are of. -/
def RunDocument.casesAt (run : RunDocument) (rows : List CaseRow) : List CaseDocument :=
  rows.filterMap fun c => run.documents[c.idx.toNat]?

/-- The provider that a case is billed to: who answered it, if that has a name. -/
def CaseDocument.answerer (c : CaseDocument) : String :=
  (emptyToNone c.answeredByProviderId).getD c.providerId

/-- What a case cost, as it is stored. -/
def CaseDocument.micros (c : CaseDocument) : ℤ := (toMicrousd c.costUsd).getD 0

/-! ### The rows of a stored run -/

/-- The case of a document, as the matrix reads it from its row. -/
def CaseDocument.toRaw (codec : IngestCodec) (idx : ℤ) (c : CaseDocument) : RawCase where
  testId := c.testId
  providerId := c.providerId
  promptId := emptyToNone c.promptId
  name := c.name
  status := c.status
  score := some c.score
  outputHash := (c.output.map Output.asText).map codec.sha256Hex
  latencyMs := some (asI64 c.latencyMs)
  costMicrousd := toMicrousd c.costUsd
  caseKey := c.caseKey
  repeatIdx := c.repeatIdx
  idx := idx
  answeredBy := emptyToNone c.answeredByProviderId

/-- A row and the case that it is of. -/
structure RowOf (codec : IngestCodec) (run : RunDocument) (c : CaseRow) (d : CaseDocument) :
    Prop where
  document : run.documents[c.idx.toNat]? = some d
  idx : 0 ≤ c.idx ∧ c.idx < 2 ^ 63
  raw : c.toRawCase = .ok (d.toRaw codec c.idx)
  caseKey : c.caseKey = d.caseKey
  testId : c.testId = some d.testId
  providerId : c.providerId = some d.providerId
  cost : c.costMicrousd = toMicrousd d.costUsd

theorem emptyToNone_getD (value : Option String) :
    emptyToNone (some (value.getD "")) = emptyToNone value := by
  cases value <;> rfl

section
variable {codec : IngestCodec} {t : RunTables} {r : RunRow} {run : RunDocument} {p : PreparedRun}

/-- Each case row of a stored run is of a case of its document. -/
theorem rowOf_built (h : BuiltFrom codec t r run p) {c : CaseRow} (hc : c ∈ casesOf t r.id) :
    ∃ d, RowOf codec run c d := by
  obtain ⟨uploadedBy, hbuild⟩ := h.build
  obtain ⟨q, hq, rfl⟩ := h.cases c hc
  obtain ⟨i, d, detail, hdoc, -, rfl⟩ := mem_prepareCases (buildRun_ok hbuild).2.1 hq
  have hlt : i < run.documents.length := (List.getElem?_eq_some_iff.mp hdoc).1
  have hbound := run.length_lt
  have hraw : ((preparedCase codec i d detail).row r.id).toRawCase = .ok (d.toRaw codec i) := by
    rw [CaseRow.toRawCase]
    show (CaseStatus.fromStr d.status.asStr).map _ = _
    rw [fromStr_asStr]
    have htest : (emptyToNone (some d.testId)).getD "" = d.testId := by
      by_cases hempty : d.testId = ""
      · rw [hempty]
        rfl
      · rw [emptyToNone, Option.filter_some, if_pos (by simpa using hempty), Option.getD_some]
    show Except.ok (RawCase.mk ((emptyToNone (some d.testId)).getD "") _ _ _ _ _ _ _ _ _ _ _
      (emptyToNone (some (d.answeredByProviderId.getD "")))) = _
    rw [htest, emptyToNone_getD]
    rfl
  have hidx : 0 ≤ (i : ℤ) ∧ (i : ℤ) < 2 ^ 63 := by omega
  exact ⟨d,
    { document := hdoc
      idx := hidx
      raw := hraw
      caseKey := rfl
      testId := rfl
      providerId := rfl
      cost := rfl }⟩

/-- Rows of a run at one position are one row. -/
theorem nodup_idx (h : BuiltFrom codec t r run p) (hwell : t.WellFormed) :
    ((casesOf t r.id).map fun c => c.idx).Nodup ∧
      ((casesOf t r.id).map fun c => c.caseKey).Nodup := by
  have hkeys : ((casesOf t r.id).map CaseRow.key).Nodup :=
    hwell.caseKey.sublist (List.filter_sublist.map _)
  have hrun : ∀ c ∈ casesOf t r.id, c.runId = r.id := fun c hc =>
    Option.some.inj (isTrue_eq.mp (mem_select.mp hc).2).2
  have hcaseKeys : ((casesOf t r.id).map fun c => c.caseKey).Nodup := by
    refine List.pairwise_map.mpr ((List.pairwise_map.mp hkeys).imp_of_mem ?_)
    intro a b ha hb hne heq
    exact hne (Prod.ext ((hrun a ha).trans (hrun b hb).symm) heq)
  refine ⟨List.pairwise_map.mpr ((List.pairwise_map.mp hcaseKeys).imp_of_mem ?_), hcaseKeys⟩
  intro a b ha hb hne heq
  obtain ⟨d, hd⟩ := rowOf_built h ha
  obtain ⟨d', hd'⟩ := rowOf_built h hb
  have hsame : some d = some d' := by rw [← hd.document, ← hd'.document, heq]
  exact hne (by rw [hd.caseKey, hd'.caseKey, Option.some.inj hsame])

/-- What is read off rows and their cases alike. -/
theorem cases_read {α : Type} {rows : List CaseRow} {raws : List RawCase} {g : RawCase → α}
    {g' : CaseDocument → α} (hg : ∀ idx d, g (CaseDocument.toRaw codec idx d) = g' d)
    (h : List.Forall₂ (fun c raw => ∃ d, RowOf codec run c d ∧ raw = d.toRaw codec c.idx)
      rows raws) : raws.map g = (run.casesAt rows).map g' := by
  induction h with
  | nil => rfl
  | cons hrow _ ih =>
    obtain ⟨d, hd, rfl⟩ := hrow
    have hcons (c : CaseRow) (rows : List CaseRow) (hc : run.documents[c.idx.toNat]? = some d) :
        run.casesAt (c :: rows) = d :: run.casesAt rows := List.filterMap_cons_some hc
    rw [List.map_cons, ih, hg, hcons _ _ hd.document, List.map_cons]

/-- The same for what is on the rows. -/
theorem rows_read {α : Type} {rows : List CaseRow} {raws : List RawCase} {g : RawCase → α}
    {g' : CaseRow → α} (hg : ∀ c d, RowOf codec run c d → g (d.toRaw codec c.idx) = g' c)
    (h : List.Forall₂ (fun c raw => ∃ d, RowOf codec run c d ∧ raw = d.toRaw codec c.idx)
      rows raws) : raws.map g = rows.map g' := by
  induction h with
  | nil => rfl
  | cons hrow _ ih =>
    obtain ⟨d, hd, rfl⟩ := hrow
    rw [List.map_cons, ih, hg _ _ hd, List.map_cons]

/-- The rows that the matrix scans, where each has a provider and the caller sees the run. -/
theorem matrixRows_eq {policy : PolicyTables} {f : MatrixFilter} {t : RunTables}
    (hvisible : (visibleRunPredicate policy f.visibility t f.runId).IsTrue)
    (hids : ∀ c ∈ casesOf t f.runId, ∃ provider, c.providerId = some provider ∧ provider ≠ "") :
    matrixRows policy f t = orderBy (fun a b => a.idx ≤ b.idx) (casesOf t f.runId) := by
  rw [matrixRows, casesOf]
  congr 1
  refine select_congr fun c hc => ?_
  simp only [Truth.isTrue_and, hvisible, and_true]
  constructor
  · exact fun h => h.1.1
  · intro hid
    obtain ⟨provider, hprovider, hne⟩ := hids c (mem_select.mpr ⟨hc, hid⟩)
    rw [hprovider]
    exact ⟨⟨hid, by simp⟩, by simpa using hne⟩

/-! ### The matrix of a stored run -/

/-- What the matrix of a run is made from: its rows in order, and what is read off them. -/
structure ScannedRun (codec : IngestCodec) (policy : PolicyTables) (t : RunTables)
    (f : MatrixFilter) (run : RunDocument) (rows : List CaseRow) (raws : List RawCase) : Prop where
  perm : rows.Perm (casesOf t f.runId)
  read : List.Forall₂ (fun c raw => ∃ d, RowOf codec run c d ∧ raw = d.toRaw codec c.idx) rows raws
  query : ∀ cursor, f.respond policy t cursor = .ok
    (matrixPage { f with cursor := (cursor.bind parseI64).map Subtype.val } (scanCases raws))
  tests : ∀ raw ∈ raws, raw.testId ≠ ""
  ordered : raws.Pairwise fun a b => a.idx < b.idx
  fits : ∀ raw ∈ raws, FitsI64 raw.idx

theorem scannedRun_of_built {policy : PolicyTables} {f : MatrixFilter}
    (h : BuiltFrom codec t r run p) (hwell : t.WellFormed) (hid : r.id = f.runId)
    (hvisible : (visibleRunPredicate policy f.visibility t f.runId).IsTrue)
    (hids : ∀ c ∈ casesOf t f.runId,
      (∃ provider, c.providerId = some provider ∧ provider ≠ "") ∧
        ∃ test, c.testId = some test ∧ test ≠ "") :
    ∃ rows raws, ScannedRun codec policy t f run rows raws := by
  set rows := orderBy (fun a b => a.idx ≤ b.idx) (casesOf t f.runId) with hrows
  have hperm : rows.Perm (casesOf t f.runId) := List.perm_insertionSort _ _
  have hread : ∀ c ∈ rows, ∃ raw, c.toRawCase = .ok raw ∧
      ∃ d, RowOf codec run c d ∧ raw = d.toRaw codec c.idx := by
    intro c hc
    obtain ⟨d, hd⟩ := rowOf_built h (hid ▸ hperm.mem_iff.mp hc)
    exact ⟨_, hd.raw, d, hd, rfl⟩
  obtain ⟨raws, hraws, hall⟩ := mapM_exists hread
  have hidx : raws.map RawCase.idx = rows.map fun c => c.idx :=
    rows_read (fun _ _ _ => rfl) hall
  refine ⟨rows, raws, ⟨hperm, hall, fun cursor => ?_, fun raw hraw => ?_, ?_, fun raw hraw => ?_⟩⟩
  · have hquery : matrixRows policy { f with cursor := (cursor.bind parseI64).map Subtype.val } t =
        rows := matrixRows_eq hvisible fun c hc => (hids c hc).1
    rw [MatrixFilter.respond, MatrixFilter.query, hquery, hraws]
    rfl
  · have htest : raws.map (fun raw => some raw.testId) = rows.map fun c => c.testId :=
      rows_read (fun _ _ hd => hd.testId.symm) hall
    have hmem : some raw.testId ∈ rows.map fun c => c.testId :=
      htest ▸ List.mem_map_of_mem hraw
    obtain ⟨c, hc, heq⟩ := List.mem_map.mp hmem
    obtain ⟨test, htest, hne⟩ := (hids c (hperm.mem_iff.mp hc)).2
    rw [htest] at heq
    exact Option.some.inj heq ▸ hne
  · -- no two rows of the run are at one position
    have hnodup : (rows.map fun c => c.idx).Nodup :=
      (hperm.map fun c => c.idx).nodup_iff.mpr (hid ▸ (nodup_idx h hwell).1)
    have hsorted : rows.Pairwise fun a b => a.idx ≤ b.idx := by
      have : Std.Total fun a b : CaseRow => a.idx ≤ b.idx := ⟨fun a b => le_total a.idx b.idx⟩
      have : IsTrans CaseRow fun a b => a.idx ≤ b.idx := ⟨fun _ _ _ => le_trans⟩
      exact List.pairwise_insertionSort _ _
    refine List.pairwise_map.mp (?_ : (raws.map RawCase.idx).Pairwise (· < ·))
    rw [hidx]
    exact (List.pairwise_map.mpr hsorted).imp₂ (fun _ _ hle hne => lt_of_le_of_ne hle hne) hnodup
  · have hmem : raw.idx ∈ rows.map fun c => c.idx := hidx ▸ List.mem_map_of_mem hraw
    obtain ⟨c, hc, heq⟩ := List.mem_map.mp hmem
    obtain ⟨d, hd⟩ := rowOf_built h (hid ▸ hperm.mem_iff.mp hc)
    rw [← heq]
    exact ⟨by have := hd.idx.1; omega, hd.idx.2⟩


section
variable {policy : PolicyTables} {f : MatrixFilter} {rows : List CaseRow} {raws : List RawCase}

theorem ScannedRun.scanned (h : ScannedRun codec policy t f run rows raws) :
    Scanned raws (scanCases raws) := scanned_scanCases raws h.tests h.ordered

theorem ScannedRun.length_eq (h : ScannedRun codec policy t f run rows raws) :
    raws.length = (casesOf t f.runId).length := h.read.length_eq.symm.trans h.perm.length_eq

/-- What is read off the cases, and off the rows. -/
theorem ScannedRun.map_cases (h : ScannedRun codec policy t f run rows raws) {α : Type}
    {g : RawCase → α} {k : CaseDocument → α}
    (hg : ∀ idx d, g (CaseDocument.toRaw codec idx d) = k d) :
    (raws.map g).Perm ((run.casesAt (casesOf t f.runId)).map k) := by
  rw [cases_read hg h.read]
  exact (h.perm.filterMap _).map k

theorem ScannedRun.map_rows (h : ScannedRun codec policy t f run rows raws) {α : Type}
    {g : RawCase → α} {k : CaseRow → α}
    (hg : ∀ c d, RowOf codec run c d → g (d.toRaw codec c.idx) = k c) :
    (raws.map g).Perm ((casesOf t f.runId).map k) := by
  rw [rows_read hg h.read]
  exact h.perm.map k

/-- The pages return the rows of the scan. -/
theorem ScannedRun.pages_eq (h : ScannedRun codec policy t f run rows raws)
    (hlimit : 1 ≤ f.limit) :
    returned (f.pages policy t) =
        (scanCases raws).rows.map (RowAcc.finalize (scanCases raws).columns) ∧
      Ended (f.pages policy t) := by
  have hpage (cursor : Option String) : f.page policy t () cursor =
      ⟨(matrixPage { f with cursor := (cursor.bind parseI64).map Subtype.val }
          (scanCases raws)).rows,
        (matrixPage { f with cursor := (cursor.bind parseI64).map Subtype.val }
          (scanCases raws)).nextCursor⟩ := by
    rw [MatrixFilter.page, h.query]
  have hshort : (scanCases raws).rows.length < t.cases.length + 1 := by
    have hsub : (scanCases raws).rows.map RowAcc.testId ⊆ raws.map RawCase.testId :=
      fun test htest => (h.scanned.tests.2 test).mp htest
    have hle := (h.scanned.tests.1.subperm hsub).length_le
    have hrows : (casesOf t f.runId).length ≤ t.cases.length := List.length_filter_le _ _
    rw [List.length_map, List.length_map, h.length_eq] at hle
    omega
  obtain ⟨hreturned, hended⟩ := matrix_rows h.scanned h.fits
    (by omega : 0 < f.limit.toNat) hshort
  have hfollow : (returned (f.pages policy t)).map id =
      (returned (follow (fetch RowAcc.cursorOf RowAcc.isAfter f.limit.toNat
        fun _ => (scanCases raws).rows) none (.replicate (t.cases.length + 1) ()))).map
          (RowAcc.finalize (scanCases raws).columns) ∧ (Ended (f.pages policy t) ↔
      Ended (follow (fetch RowAcc.cursorOf RowAcc.isAfter f.limit.toNat
        fun _ => (scanCases raws).rows) none (.replicate (t.cases.length + 1) ()))) := by
    refine follow_map (fun _ _ c => ?_) (fun _ _ c => ?_) none
    · rw [hpage, (matrixPage_eq f hlimit _ c).2]
    · rw [hpage, (matrixPage_eq f hlimit _ c).1, List.map_id]
  rw [List.map_id, hreturned] at hfollow
  exact ⟨hfollow.1, hfollow.2.mpr hended⟩

/-- The cells that are shown are those of the scan. -/
theorem ScannedRun.cells_perm (h : ScannedRun codec policy t f run rows raws)
    (hlimit : 1 ≤ f.limit) : (cellsShown (returned (f.pages policy t))).Perm
      ((scanCases raws).allCells.map CellAcc.finalize) := by
  rw [(h.pages_eq hlimit).1, cellsShown, List.flatMap_map, MatrixScan.allCells, List.map_flatMap]
  exact List.Perm.flatMap_left _ fun row hrow =>
    finalize_cells h.scanned.columns (h.scanned.cells row hrow)

end

end
