/-
Where the rows of a run come from.

Whatever is uploaded, swept, deleted and pinned, every run that is stored was built from a
document: its row, its blob, and each of its case rows, of which there may be fewer than cases.

* **`Documented`** — the invariant;
* **`documented_storedAfter`** — it holds after every history whose uploads were built from
  documents.
-/
import Domarinn.RunDocument

open Sql

/-! ### What was built -/

/-- The stored rows of a run, and what they were built from. -/
structure BuiltFrom (codec : IngestCodec) (t : RunTables) (r : RunRow) (run : RunDocument)
    (p : PreparedRun) : Prop where
  build : ∃ uploadedBy, buildRun codec run uploadedBy = .ok p
  row : r = { p.row with uploadedAt := r.uploadedAt }
  blob : ⟨r.id, p.blob⟩ ∈ t.blobs
  cases : ∀ c ∈ casesOf t r.id, ∃ q ∈ p.cases, c = q.row r.id

/-- Every run was built from one of these documents. -/
def Documented (codec : IngestCodec) (docs : RunDocument → Prop) (t : RunTables) : Prop :=
  ∀ r ∈ t.runs, ∃ run p, docs run ∧ BuiltFrom codec t r run p

/-- Every upload of a history was built from one of these documents. -/
def UploadsOf (codec : IngestCodec) (docs : RunDocument → Prop) (history : List StoreEvent) : Prop :=
  ∀ p now, StoreEvent.change (.ingest p now) ∈ history →
    ∃ run uploadedBy, docs run ∧ buildRun codec run uploadedBy = .ok p

/-! ### Runs and blobs through a step -/

def RunInsert.blob? : RunInsert → Option BlobRow
  | .blob row => some row
  | _ => none

theorem PreparedRun.filterMap_blob (p : PreparedRun) (now : I64) :
    (p.inserts now).filterMap RunInsert.blob? = [⟨p.row.id, p.blob⟩] := by
  have htags : (p.tags.map fun tag => RunInsert.runTag ⟨p.row.id, tag⟩).filterMap
      RunInsert.blob? = [] := by
    rw [List.filterMap_map, List.filterMap_eq_nil_iff]
    exact fun _ _ => rfl
  have hcases : (p.cases.flatMap (PreparedCase.inserts p.row.id)).filterMap RunInsert.blob? =
      [] := by
    rw [List.filterMap_flatMap, List.flatMap_eq_nil_iff]
    exact fun c _ => PreparedCase.filterMap_other _ (fun _ => rfl) _ c
  rw [inserts, parts, List.filterMap_cons_none rfl, List.filterMap_append, List.cons_append,
    List.filterMap_cons_some (f := RunInsert.blob?) rfl, List.filterMap_append, htags, hcases]
  rfl

section
variable {t t' : RunTables} {p : PreparedRun} {now : I64} {r : RunRow} {b : BlobRow}

theorem blobs_of_created (h : ingestRun t p now = (t', .created)) :
    t'.blobs = t.blobs ++ [⟨p.row.id, p.blob⟩] := by
  rw [(ingestRun_created h).2, RunInsert.foldl_table RunTables.blobs RunInsert.blob?
    (fun rows row => rows ++ [row]) (fun t i => by cases i <;> rfl), p.filterMap_blob]
  rfl

/-- An upload that does not create its run changes nothing. -/
theorem ingestRun_not_created (h : (ingestRun t p now).2 ≠ .created) :
    (ingestRun t p now).1 = t := by
  rw [ingestRun] at h ⊢
  split
  · rfl
  · rename_i hnone
    rw [hnone] at h
    exact absurd rfl h

/-- A run after a step was there before, or was uploaded by it. -/
theorem mem_runs_apply {event : StoreEvent} (hr : r ∈ (event.apply t).runs) :
    r ∈ t.runs ∨ ∃ p now, event = .change (.ingest p now) ∧
      (ingestRun t p now).2 = .created ∧ r = { p.row with uploadedAt := now } := by
  cases event with
  | change op =>
    cases op with
    | sweepRuns maxAgeDays now =>
      have hsweep (ids : List String) (hmem : r ∈ (ids.foldl RunTables.deleteRun t).runs) :
          r ∈ t.runs := by
        rw [foldl_deleteRun RunTables.runs (fun r => some r.id) fun t id => by
          simp [RunTables.deleteRun]] at hmem
        exact List.mem_of_mem_filter hmem
      exact .inl (hsweep _ hr)
    | ingest p now =>
      by_cases hcreated : (ingestRun t p now).2 = .created
      · have hruns := runs_of_created (Prod.ext rfl hcreated : ingestRun t p now = (_, .created))
        have hr' : r ∈ (ingestRun t p now).1.runs := hr
        rw [hruns, List.mem_append, List.mem_singleton] at hr'
        exact hr'.imp_right fun heq => ⟨p, now, rfl, hcreated, heq⟩
      · have hr' : r ∈ (ingestRun t p now).1.runs := hr
        rw [ingestRun_not_created hcreated] at hr'
        exact .inl hr'
  | delete id => exact .inl (List.mem_of_mem_filter hr)
  | pins baselines =>
    rw [StoreEvent.apply] at hr
    split_ifs at hr <;> exact .inl hr

/-- The blob of a run stays as long as the run does. -/
theorem mem_blobs_apply {event : StoreEvent} (hb : b ∈ t.blobs)
    (hkept : b.runId ∈ (event.apply t).runIds) : b ∈ (event.apply t).blobs := by
  cases event with
  | change op =>
    cases op with
    | sweepRuns maxAgeDays now =>
      have hsweep (ids : List String)
          (hmem : b.runId ∈ (ids.foldl RunTables.deleteRun t).runIds) :
          b ∈ (ids.foldl RunTables.deleteRun t).blobs := by
        obtain ⟨r, hr, hid⟩ := List.mem_map.mp hmem
        rw [foldl_deleteRun RunTables.runs (fun r => some r.id) fun t id => by
          simp [RunTables.deleteRun]] at hr
        rw [foldl_deleteRun RunTables.blobs (fun b => some b.runId) fun t id => by
          simp [RunTables.deleteRun]]
        refine List.mem_filter.mpr ⟨hb, ?_⟩
        rw [← hid]
        exact (List.mem_filter.mp hr).2
      exact hsweep _ hkept
    | ingest p now =>
      show b ∈ (ingestRun t p now).1.blobs
      by_cases hcreated : (ingestRun t p now).2 = .created
      · rw [blobs_of_created (Prod.ext rfl hcreated : ingestRun t p now = (_, .created))]
        exact List.mem_append_left _ hb
      · rwa [ingestRun_not_created hcreated]
  | delete id =>
    exact List.mem_filter.mpr ⟨hb, decide_eq_true (mem_runIds_deleteRun.mp hkept).2⟩
  | pins baselines =>
    rw [StoreEvent.apply]
    split_ifs <;> exact hb

end

/-! ### The invariant -/

section
variable {codec : IngestCodec} {docs : RunDocument → Prop} {t : RunTables}

/-- The case rows of a run that was just created are those of some of its cases. -/
theorem casesOf_created_subset (howned : t.Owned) {p : PreparedRun} {now : I64} {t' : RunTables}
    (h : ingestRun t p now = (t', .created)) {c : CaseRow} (hc : c ∈ casesOf t' p.row.id) :
    ∃ q ∈ p.cases, c = q.row p.row.id := by
  obtain ⟨hc, hid⟩ := mem_select.mp hc
  have hid : c.runId = p.row.id := Option.some.inj (isTrue_eq.mp hid).2
  rw [cases_of_created h] at hc
  obtain hold | hnew := mem_of_mem_foldl_insertNew _ hc
  · exact absurd (howned.cases c hold) (hid ▸ (ingestRun_created h).1)
  · obtain ⟨q, hq, rfl⟩ := List.mem_map.mp hnew
    exact ⟨q, hq, rfl⟩

theorem Documented.apply (h : Documented codec docs t) (howned : t.Owned) {event : StoreEvent}
    (hevent : ∀ p now, event = .change (.ingest p now) →
      ∃ run uploadedBy, docs run ∧ buildRun codec run uploadedBy = .ok p) :
    Documented codec docs (event.apply t) := by
  intro r hr
  obtain hold | ⟨p, now, rfl, hcreated, rfl⟩ := mem_runs_apply hr
  · obtain ⟨run, p, hdocs, hbuilt⟩ := h r hold
    have hkept : r.id ∈ (event.apply t).runIds := List.mem_map_of_mem hr
    refine ⟨run, p, hdocs, ⟨hbuilt.build, hbuilt.row, mem_blobs_apply hbuilt.blob hkept, ?_⟩⟩
    rw [casesOf_apply (List.mem_map_of_mem hold) hkept]
    exact hbuilt.cases
  · obtain ⟨run, uploadedBy, hdocs, hbuild⟩ := hevent p now rfl
    have hingest : ingestRun t p now = ((ingestRun t p now).1, .created) := Prod.ext rfl hcreated
    refine ⟨run, p, hdocs, ⟨⟨uploadedBy, hbuild⟩, rfl, ?_, fun c hc =>
      casesOf_created_subset howned hingest hc⟩⟩
    show _ ∈ (ingestRun t p now).1.blobs
    rw [blobs_of_created hingest]
    exact List.mem_append_right _ (.head _)

/-- **Every stored run has its document.** -/
theorem documented_storedAfter {history : List StoreEvent} (h : UploadsOf codec docs history) :
    Documented codec docs (storedAfter history) := by
  have hfold : ∀ (history : List StoreEvent) (t : RunTables), UploadsOf codec docs history →
      t.Owned → Documented codec docs t →
        Documented codec docs (history.foldl StoreEvent.apply t) := by
    intro history
    induction history with
    | nil => exact fun _ _ _ h => h
    | cons event history ih =>
      intro t hhistory howned h
      refine ih _ (fun p now hmem => hhistory p now (.tail _ hmem)) (howned.apply event)
        (h.apply howned fun p now heq => hhistory p now (heq ▸ .head _))
  exact hfold history _ h (owned_storedAfter []) fun r hr => by cases hr

end
