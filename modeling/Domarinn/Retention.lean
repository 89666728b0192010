/-
Age-based retention: the sweep of runs that are old and that nothing needs.

A run outlives its age limit when a suite is pinned to it, or when it is a newest run of its
project, suite and branch.  The sweep finds the others with one condition over nullable
columns and deletes them one by one, each with its search rows.

* **`victim_isTrue`** — the condition is true of exactly the runs that may go;
* **`retention_exact`** — what one sweep, and any sequence of sweeps and uploads, does.
-/
import Domarinn.RunStore

open Sql

/-! ### The sweep -/

/-- What a sweep removed, and what it kept although it was old enough. -/
structure Swept where
  deleted : ℕ
  kept : ℕ
deriving DecidableEq

/-- The runs created before this are old enough; a limit that reaches before the first
representable time stops there. -/
def retentionCutoff (maxAgeDays : UInt64) (now : I64) : I64 :=
  ⟨max (now.1 - maxAgeDays.toNat * 86400000) (-2 ^ 63), by
    have hnow := now.2
    omega⟩

/-- `r2` is of the group of `r`, NULL being a project, suite and branch like any other. -/
def inGroup (r r2 : RunRow) : Truth :=
  ((isNotDistinctFrom r2.project r.project).and (isNotDistinctFrom r2.suite r.suite)).and
    (isNotDistinctFrom r2.gitBranch r.gitBranch)

/-- `PROTECTED`. -/
def protectedRun (t : RunTables) (r : RunRow) : Truth :=
  (inRows (some r.id)
      ((select t.baselines fun b => (isNull b.runId).not).map BaselineRow.runId)).or
    (inRows (some r.id)
      ((select t.runs fun r' =>
        eq (some r'.createdAt) (maxOf ((select t.runs (inGroup r')).map RunRow.createdAt))).map
          fun r' => some r'.id))

def expiredRun (cutoff : I64) (r : RunRow) : Truth := lt (some r.createdAt) (some cutoff)

def victimRun (t : RunTables) (cutoff : I64) (r : RunRow) : Truth :=
  (expiredRun cutoff r).and (protectedRun t r).not

/-- `sweep`. -/
def sweep (t : RunTables) (maxAgeDays : UInt64) (now : I64) : RunTables × Swept :=
  let cutoff := retentionCutoff maxAgeDays now
  let expired := (select t.runs (expiredRun cutoff)).length
  let victims := (select t.runs (victimRun t cutoff)).map RunRow.id
  (victims.foldl RunTables.deleteRun t, ⟨victims.length, expired - victims.length⟩)

/-! ### What the sweep is for -/

/-- Two runs of one project, suite and branch, or missing the same of them. -/
def SameGroup (r s : RunRow) : Prop :=
  r.project = s.project ∧ r.suite = s.suite ∧ r.gitBranch = s.gitBranch

/-- Some suite is pinned to the run. -/
def IsPinned (t : RunTables) (r : RunRow) : Prop := ∃ b ∈ t.baselines, b.runId = some r.id

/-- No run of its group is newer. -/
def IsNewest (t : RunTables) (r : RunRow) : Prop :=
  ∀ s ∈ t.runs, SameGroup s r → s.createdAt ≤ r.createdAt

/-- The run was created more than the age limit ago. -/
def IsExpired (maxAgeDays : UInt64) (now : I64) (r : RunRow) : Prop :=
  r.createdAt.1 < now.1 - maxAgeDays.toNat * 86400000

/-- The run is old, and nothing needs it. -/
def Expendable (t : RunTables) (maxAgeDays : UInt64) (now : I64) (r : RunRow) : Prop :=
  IsExpired maxAgeDays now r ∧ ¬ IsPinned t r ∧ ¬ IsNewest t r

instance (r s : RunRow) : Decidable (SameGroup r s) := by unfold SameGroup; infer_instance

instance (t : RunTables) (r : RunRow) : Decidable (IsPinned t r) := by
  unfold IsPinned; infer_instance

instance (t : RunTables) (r : RunRow) : Decidable (IsNewest t r) := by
  unfold IsNewest; infer_instance

instance (maxAgeDays : UInt64) (now : I64) (r : RunRow) :
    Decidable (IsExpired maxAgeDays now r) := by unfold IsExpired; infer_instance

instance (t : RunTables) (maxAgeDays : UInt64) (now : I64) (r : RunRow) :
    Decidable (Expendable t maxAgeDays now r) := by unfold Expendable; infer_instance

/-! ### The condition -/

/-- Clamping the cutoff changes nothing: no run was created before the first time. -/
theorem expiredRun_isTrue {maxAgeDays : UInt64} {now : I64} {r : RunRow} :
    (expiredRun (retentionCutoff maxAgeDays now) r).IsTrue ↔ IsExpired maxAgeDays now r := by
  have hfirst := r.createdAt.2.1
  rw [expiredRun, isTrue_lt, IsExpired, ← Subtype.coe_lt_coe, retentionCutoff]
  show r.createdAt.1 < max _ _ ↔ _
  rw [lt_max_iff]
  exact or_iff_left (by omega)

theorem inGroup_isTrue {r s : RunRow} : (inGroup r s).IsTrue ↔ SameGroup s r := by
  rw [inGroup, Truth.isTrue_and, Truth.isTrue_and, isTrue_isNotDistinctFrom,
    isTrue_isNotDistinctFrom, isTrue_isNotDistinctFrom, SameGroup, and_assoc]

/-- Selecting the greatest time of the group selects its newest runs. -/
theorem newest_isTrue {t : RunTables} {r : RunRow} (hr : r ∈ t.runs) :
    (eq (some r.createdAt) (maxOf ((select t.runs (inGroup r)).map RunRow.createdAt))).IsTrue ↔
      IsNewest t r := by
  have hself : r.createdAt ∈ (select t.runs (inGroup r)).map RunRow.createdAt :=
    List.mem_map_of_mem (mem_select.mpr ⟨hr, inGroup_isTrue.mpr ⟨rfl, rfl, rfl⟩⟩)
  rw [eq_maxOf_isTrue, and_iff_right hself, List.forall_mem_map, IsNewest]
  simp only [mem_select, inGroup_isTrue, and_imp]

section
variable {t : RunTables} {r : RunRow}

theorem pinned_mem :
    some r.id ∈ (select t.baselines fun b => (isNull b.runId).not).map BaselineRow.runId ↔
      IsPinned t r := by
  simp only [List.mem_map, mem_select, Truth.isTrue_not, isFalse_isNull, IsPinned]
  constructor
  · rintro ⟨b, ⟨hb, -⟩, hid⟩
    exact ⟨b, hb, hid⟩
  · rintro ⟨b, hb, hid⟩
    exact ⟨b, ⟨hb, by simp [hid]⟩, hid⟩

/-- The branch pins are left out, so the condition is never unknown for want of them. -/
theorem no_null_pinned :
    none ∉ (select t.baselines fun b => (isNull b.runId).not).map BaselineRow.runId := by
  simp only [List.mem_map, mem_select, Truth.isTrue_not, isFalse_isNull, not_exists, not_and]
  exact fun b hb hnone => hb.2 hnone

/-- Ids are unique, so being selected by id is being selected. -/
theorem newest_mem (h : t.WellFormed) (hr : r ∈ t.runs) :
    some r.id ∈ (select t.runs fun r' =>
        eq (some r'.createdAt) (maxOf ((select t.runs (inGroup r')).map RunRow.createdAt))).map
          (fun r' => some r'.id) ↔ IsNewest t r := by
  rw [List.mem_map]
  constructor
  · rintro ⟨r', hr', hid⟩
    obtain ⟨hr', hnewest⟩ := mem_select.mp hr'
    obtain rfl : r' = r := List.inj_on_of_nodup_map h.runKey hr' hr (Option.some.inj hid)
    exact (newest_isTrue hr).mp hnewest
  · exact fun hnewest => ⟨r, mem_select.mpr ⟨hr, (newest_isTrue hr).mpr hnewest⟩, rfl⟩

theorem protectedRun_isFalse (h : t.WellFormed) (hr : r ∈ t.runs) :
    (protectedRun t r).IsFalse ↔ ¬ IsPinned t r ∧ ¬ IsNewest t r := by
  have hnone : none ∉ (select t.runs fun r' => eq (some r'.createdAt)
      (maxOf ((select t.runs (inGroup r')).map RunRow.createdAt))).map (fun r' => some r'.id) := by
    simp
  rw [protectedRun, Truth.isFalse_or, isFalse_inRows, isFalse_inRows, and_iff_right no_null_pinned,
    and_iff_right hnone, pinned_mem, newest_mem h hr]

/-- The condition of the sweep is true of exactly the expendable runs. -/
theorem victim_isTrue (h : t.WellFormed) (hr : r ∈ t.runs) {maxAgeDays : UInt64} {now : I64} :
    (victimRun t (retentionCutoff maxAgeDays now) r).IsTrue ↔
      Expendable t maxAgeDays now r := by
  rw [victimRun, Truth.isTrue_and, Truth.isTrue_not, expiredRun_isTrue, protectedRun_isFalse h hr,
    Expendable]

end

/-! ### One sweep -/

/-- Deleting runs one by one leaves, in any table, the rows that are of none of them. -/
theorem foldl_deleteRun {ρ : Type*} (table : RunTables → List ρ) (key : ρ → Option String)
    (hdelete : ∀ t id, table (t.deleteRun id) = (table t).filter fun x => key x ≠ some id)
    (ids : List String) : ∀ t : RunTables,
      table (ids.foldl RunTables.deleteRun t) =
        (table t).filter fun x => ∀ id ∈ ids, key x ≠ some id := by
  induction ids with
  | nil => simp
  | cons id ids ih =>
    intro t
    rw [List.foldl_cons, ih, hdelete, List.filter_filter]
    refine List.filter_congr fun x _ => ?_
    rw [← Bool.decide_and, decide_eq_decide, List.forall_mem_cons, and_comm]

section
variable {t : RunTables} {r : RunRow} {maxAgeDays : UInt64} {now : I64}

/-- The ids that the sweep collects. -/
theorem mem_victims (h : t.WellFormed) {id : String} :
    id ∈ (select t.runs (victimRun t (retentionCutoff maxAgeDays now))).map RunRow.id ↔
      ∃ r ∈ t.runs, Expendable t maxAgeDays now r ∧ r.id = id := by
  rw [List.mem_map]
  refine exists_congr fun r => ?_
  rw [mem_select]
  constructor
  · rintro ⟨⟨hr, hvictim⟩, hid⟩
    exact ⟨hr, (victim_isTrue h hr).mp hvictim, hid⟩
  · rintro ⟨hr, hexpendable, hid⟩
    exact ⟨⟨hr, (victim_isTrue h hr).mpr hexpendable⟩, hid⟩

/-- What a sweep leaves of a table whose rows belong to runs. -/
theorem sweep_table (h : t.WellFormed) {ρ : Type*} (table : RunTables → List ρ)
    (key : ρ → Option String)
    (hdelete : ∀ t id, table (t.deleteRun id) = (table t).filter fun x => key x ≠ some id) :
    table (sweep t maxAgeDays now).1 = (table t).filter fun x =>
      ∀ r ∈ t.runs, Expendable t maxAgeDays now r → key x ≠ some r.id := by
  rw [sweep]
  dsimp only
  rw [foldl_deleteRun table key hdelete]
  refine List.filter_congr fun x _ => decide_eq_decide.mpr ?_
  constructor
  · exact fun hnone r hr hexpendable => hnone r.id ((mem_victims h).mpr ⟨r, hr, hexpendable, rfl⟩)
  · intro hnone id hid
    obtain ⟨r, hr, hexpendable, rfl⟩ := (mem_victims h).mp hid
    exact hnone r hr hexpendable

theorem sweep_runs (h : t.WellFormed) :
    (sweep t maxAgeDays now).1.runs = t.runs.filter fun r => ¬ Expendable t maxAgeDays now r := by
  rw [sweep_table h RunTables.runs (fun r => some r.id) fun t id => by
    simp [RunTables.deleteRun]]
  refine List.filter_congr fun r hr => decide_eq_decide.mpr ?_
  constructor
  · exact fun hnone hexpendable => hnone r hr hexpendable rfl
  · intro hkept s hs hexpendable hid
    obtain rfl : s = r := List.inj_on_of_nodup_map h.runKey hs hr (Option.some.inj hid).symm
    exact hkept hexpendable

theorem sweep_wellFormed (h : t.WellFormed) : (sweep t maxAgeDays now).1.WellFormed := by
  have hfold : ∀ (ids : List String) (t : RunTables), t.WellFormed →
      (ids.foldl RunTables.deleteRun t).WellFormed := by
    intro ids
    induction ids with
    | nil => exact fun _ h => h
    | cons id ids ih => exact fun t h => ih _ (deleteRun_wellFormed h id)
  exact hfold _ t h

end

/-- What one sweep does. -/
structure SweepExact (t : RunTables) (maxAgeDays : UInt64) (now : I64) : Prop where
  runs : (sweep t maxAgeDays now).1.runs =
    t.runs.filter fun r => ¬ Expendable t maxAgeDays now r
  /-- A run's search rows go exactly when the run goes. -/
  runsFts : (sweep t maxAgeDays now).1.runsFts = t.runsFts.filter fun x =>
    ∀ r ∈ t.runs, Expendable t maxAgeDays now r → x.runId ≠ r.id
  casesFts : (sweep t maxAgeDays now).1.casesFts = t.casesFts.filter fun x =>
    ∀ r ∈ t.runs, Expendable t maxAgeDays now r → x.runId ≠ r.id
  deleted : (sweep t maxAgeDays now).2.deleted =
    t.runs.countP fun r => Expendable t maxAgeDays now r
  counts : (sweep t maxAgeDays now).2.deleted + (sweep t maxAgeDays now).2.kept =
    t.runs.countP fun r => IsExpired maxAgeDays now r

theorem sweep_exact {t : RunTables} (h : t.WellFormed) (maxAgeDays : UInt64) (now : I64) :
    SweepExact t maxAgeDays now := by
  have hdeleted : (sweep t maxAgeDays now).2.deleted =
      t.runs.countP fun r => Expendable t maxAgeDays now r := by
    show ((select t.runs _).map RunRow.id).length = _
    rw [List.length_map, select, ← List.countP_eq_length_filter]
    exact List.countP_congr fun r hr => by
      rw [decide_eq_true_iff, decide_eq_true_iff]
      exact victim_isTrue h hr
  have hexpired : (select t.runs (expiredRun (retentionCutoff maxAgeDays now))).length =
      t.runs.countP fun r => IsExpired maxAgeDays now r := by
    rw [select, ← List.countP_eq_length_filter]
    exact List.countP_congr fun r _ => by
      rw [decide_eq_true_iff, decide_eq_true_iff]
      exact expiredRun_isTrue
  -- the index rows go with their runs
  refine ⟨sweep_runs h, ?_, ?_, hdeleted, ?_⟩
  · rw [sweep_table h RunTables.runsFts (fun x => some x.runId) fun t id => by
      simp [RunTables.deleteRun]]
    simp
  · rw [sweep_table h RunTables.casesFts (fun x => some x.runId) fun t id => by
      simp [RunTables.deleteRun]]
    simp
  · -- the victims are among the expired, so nothing is lost in the subtraction
    have hle : (sweep t maxAgeDays now).2.deleted ≤
        (select t.runs (expiredRun (retentionCutoff maxAgeDays now))).length := by
      rw [hdeleted, hexpired]
      exact List.countP_mono_left fun r _ hr => by
        rw [decide_eq_true_iff] at hr ⊢
        exact hr.1
    have hkept : (sweep t maxAgeDays now).2.kept =
        (select t.runs (expiredRun (retentionCutoff maxAgeDays now))).length -
          (sweep t maxAgeDays now).2.deleted := rfl
    omega

/-! ### Histories -/

/-- What happens to the database: a sweep, or an upload. -/
inductive RunsOp where
  | sweepRuns (maxAgeDays : UInt64) (now : I64)
  | ingest (upload : PreparedRun) (now : I64)

def RunsOp.apply (t : RunTables) : RunsOp → RunTables
  | .sweepRuns maxAgeDays now => (sweep t maxAgeDays now).1
  | .ingest upload now => (ingestRun t upload now).1

/-- The database after a history. -/
def RunTables.after (t : RunTables) (history : List RunsOp) : RunTables :=
  history.foldl RunsOp.apply t

theorem RunsOp.apply_wellFormed {t : RunTables} (h : t.WellFormed) (op : RunsOp) :
    (op.apply t).WellFormed := by
  cases op with
  | sweepRuns maxAgeDays now => exact sweep_wellFormed h
  | ingest upload now => exact ingestRun_wellFormed h upload now

section
variable {t : RunTables} {r : RunRow}

/-- Some run of the group of `r` is a newest one of it. -/
theorem exists_newest (hr : r ∈ t.runs) : ∃ s ∈ t.runs, SameGroup s r ∧ IsNewest t s := by
  have hgroup : (t.runs.filter fun s => SameGroup s r).map RunRow.createdAt ≠ [] :=
    List.ne_nil_of_mem (List.mem_map_of_mem
      (List.mem_filter.mpr ⟨hr, decide_eq_true ⟨rfl, rfl, rfl⟩⟩))
  obtain ⟨_, hmem, hmax⟩ := exists_maxOf hgroup
  obtain ⟨s, hs, rfl⟩ := List.mem_map.mp hmem
  obtain ⟨hs, hsame⟩ := List.mem_filter.mp hs
  obtain ⟨hproject, hsuite, hbranch⟩ := of_decide_eq_true hsame
  refine ⟨s, hs, ⟨hproject, hsuite, hbranch⟩, fun u hu hus => ?_⟩
  refine hmax _ (List.mem_map_of_mem (List.mem_filter.mpr ⟨hu, decide_eq_true ?_⟩))
  exact ⟨hus.1.trans hproject, hus.2.1.trans hsuite, hus.2.2.trans hbranch⟩

/-- An upload leaves every stored run, and every pin. -/
theorem subset_ingestRun (upload : PreparedRun) (now : I64) :
    (∀ r ∈ t.runs, r ∈ (ingestRun t upload now).1.runs) ∧
      (ingestRun t upload now).1.baselines = t.baselines := by
  have hfold : ∀ (is : List RunInsert) (t : RunTables),
      (∀ r ∈ t.runs, r ∈ (is.foldl RunInsert.apply t).runs) ∧
        (is.foldl RunInsert.apply t).baselines = t.baselines := by
    intro is
    induction is with
    | nil => exact fun t => ⟨fun r hr => hr, rfl⟩
    | cons i is ih =>
      intro t
      obtain ⟨hruns, hpins⟩ := ih (i.apply t)
      cases i with
      | run row => exact ⟨fun r hr => hruns r (List.mem_append_left _ hr), hpins⟩
      | _ => exact ⟨hruns, hpins⟩
  rw [ingestRun]
  split
  · exact ⟨fun r hr => hr, rfl⟩
  · exact hfold _ t

/-- A step leaves a run in every group that has one. -/
theorem RunsOp.apply_group (h : t.WellFormed) (op : RunsOp) (hr : r ∈ t.runs) :
    ∃ s ∈ (op.apply t).runs, SameGroup s r := by
  cases op with
  | sweepRuns maxAgeDays now =>
    obtain ⟨s, hs, hsame, hnewest⟩ := exists_newest hr
    refine ⟨s, ?_, hsame⟩
    show s ∈ (sweep t maxAgeDays now).1.runs
    rw [sweep_runs h]
    exact List.mem_filter.mpr ⟨hs, decide_eq_true fun hexpendable => hexpendable.2.2 hnewest⟩
  | ingest upload now => exact ⟨r, (subset_ingestRun upload now).1 r hr, rfl, rfl, rfl⟩

/-- A step leaves a pinned run, and leaves it pinned. -/
theorem RunsOp.apply_pinned (h : t.WellFormed) (op : RunsOp) (hr : r ∈ t.runs)
    (hpinned : IsPinned t r) : r ∈ (op.apply t).runs ∧ IsPinned (op.apply t) r := by
  cases op with
  | sweepRuns maxAgeDays now =>
    obtain ⟨b, hb, hpin⟩ := hpinned
    constructor
    · show r ∈ (sweep t maxAgeDays now).1.runs
      rw [sweep_runs h]
      exact List.mem_filter.mpr ⟨hr, decide_eq_true fun hexpendable =>
        hexpendable.2.1 ⟨b, hb, hpin⟩⟩
    · refine ⟨b, ?_, hpin⟩
      show b ∈ (sweep t maxAgeDays now).1.baselines
      rw [sweep_table h RunTables.baselines BaselineRow.runId fun _ _ => rfl]
      refine List.mem_filter.mpr ⟨hb, decide_eq_true fun s hs hexpendable hid => ?_⟩
      exact hexpendable.2.1 ⟨b, hb, hid⟩
  | ingest upload now =>
    obtain ⟨hruns, hpins⟩ := subset_ingestRun (t := t) upload now
    obtain ⟨b, hb, hpin⟩ := hpinned
    exact ⟨hruns r hr, b, hpins ▸ hb, hpin⟩

theorem after_group (history : List RunsOp) :
    ∀ {t : RunTables} {r : RunRow}, t.WellFormed → r ∈ t.runs →
      ∃ s ∈ (t.after history).runs, SameGroup s r := by
  induction history with
  | nil => exact fun _ hr => ⟨_, hr, rfl, rfl, rfl⟩
  | cons op history ih =>
    intro t r h hr
    obtain ⟨s, hs, hsr⟩ := op.apply_group h hr
    obtain ⟨u, hu, hus⟩ := ih (op.apply_wellFormed h) hs
    exact ⟨u, hu, hus.1.trans hsr.1, hus.2.1.trans hsr.2.1, hus.2.2.trans hsr.2.2⟩

theorem after_pinned (history : List RunsOp) :
    ∀ {t : RunTables} {r : RunRow}, t.WellFormed → r ∈ t.runs → IsPinned t r →
      r ∈ (t.after history).runs ∧ IsPinned (t.after history) r := by
  induction history with
  | nil => exact fun _ hr hpinned => ⟨hr, hpinned⟩
  | cons op history ih =>
    intro t r h hr hpinned
    obtain ⟨hr', hpinned'⟩ := op.apply_pinned h hr hpinned
    exact ih (op.apply_wellFormed h) hr' hpinned'

end

/-- Retention, from any content of the database. -/
structure RetentionExact (t : RunTables) : Prop where
  sweep : ∀ maxAgeDays now, SweepExact t maxAgeDays now
  /-- A group with a run has one after any history. -/
  group : ∀ history, ∀ r ∈ t.runs, ∃ s ∈ (t.after history).runs, SameGroup s r
  pinned : ∀ history, ∀ r ∈ t.runs, IsPinned t r →
    r ∈ (t.after history).runs ∧ IsPinned (t.after history) r

/-- **Retention deletes exactly the expendable runs.** -/
theorem retention_exact (db : RunsDb) : RetentionExact db.1 where
  sweep := sweep_exact db.2
  group := fun history _ hr => after_group history db.2 hr
  pinned := fun history _ hr hpinned => after_pinned history db.2 hr hpinned
