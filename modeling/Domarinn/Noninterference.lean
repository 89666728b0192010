/-
Runs that a caller may not see do not interfere with what the caller reads.

The view of a caller is the database without the hidden runs and all that belongs to them.  A
read is confined to it if it answers the same from the view as from the whole; the condition of
visibility in every query makes it so, also where rows are counted, grouped, or cut to a page.

* **`seen`** — the view, which is again a database;
* **`confined_answer`** — every read is confined to the caller's view;
* **`hidden_runs_do_not_interfere`** — two databases with one view answer every read alike.
-/
import Domarinn.CompareRuns
import Domarinn.ProjectReads
import Domarinn.RunMatrix
import Domarinn.RunSearch

open Sql

/-! ### The view of a caller -/

section
variable (policy : PolicyTables) (vis : RunVisibility)

/-- The ids of the runs that the caller may see. -/
def visibleIds (t : RunTables) : List String := (select t.runs (visibleRun policy vis)).map RunRow.id

/-- The tables without hidden runs, nor anything that belongs to one. -/
def seenTables (t : RunTables) : RunTables where
  runs := t.runs.filter fun r => (visibleRun policy vis r).IsTrue
  runTags := t.runTags.filter fun x => x.runId ∈ visibleIds policy vis t
  blobs := t.blobs.filter fun b => b.runId ∈ visibleIds policy vis t
  cases := t.cases.filter fun c => c.runId ∈ visibleIds policy vis t
  caseTags := t.caseTags.filter fun x => x.runId ∈ visibleIds policy vis t
  baselines := t.baselines.filter fun b => ∀ id ∈ b.runId, id ∈ visibleIds policy vis t
  runsFts := t.runsFts.filter fun x => x.runId ∈ visibleIds policy vis t
  casesFts := t.casesFts.filter fun x => x.runId ∈ visibleIds policy vis t

end

section
variable {policy : PolicyTables} {vis : RunVisibility} {t : RunTables}

theorem mem_visibleIds {id : String} : id ∈ visibleIds policy vis t ↔
    ∃ r ∈ t.runs, r.id = id ∧ (visibleRun policy vis r).IsTrue := by
  simp only [visibleIds, List.mem_map, mem_select]
  constructor
  · rintro ⟨r, ⟨hr, hvis⟩, hid⟩
    exact ⟨r, hr, hid, hvis⟩
  · rintro ⟨r, hr, hid, hvis⟩
    exact ⟨r, ⟨hr, hvis⟩, hid⟩

theorem seenTables_wellFormed (h : t.WellFormed) : (seenTables policy vis t).WellFormed where
  runKey := h.runKey.sublist (List.filter_sublist.map _)
  runTagKey := h.runTagKey.sublist List.filter_sublist
  blobKey := h.blobKey.sublist (List.filter_sublist.map _)
  caseKey := h.caseKey.sublist (List.filter_sublist.map _)
  caseTagKey := h.caseTagKey.sublist List.filter_sublist
  baselineKey := h.baselineKey.sublist (List.filter_sublist.map _)
  runTag_run := fun _ hx => of_decide_eq_true (List.mem_filter.mp hx).2
  blob_run := fun _ hb => of_decide_eq_true (List.mem_filter.mp hb).2
  case_run := fun _ hc => of_decide_eq_true (List.mem_filter.mp hc).2
  caseTag_case := by
    intro x hx
    obtain ⟨hx, hrun⟩ := List.mem_filter.mp hx
    obtain ⟨c, hc, hkey⟩ := List.mem_map.mp (h.caseTag_case x hx)
    refine List.mem_map.mpr ⟨c, List.mem_filter.mpr ⟨hc, ?_⟩, hkey⟩
    have hid : c.runId = x.runId := congrArg Prod.fst hkey
    rw [hid]
    exact hrun
  pin_run := by
    intro b hb id hid
    exact of_decide_eq_true (List.mem_filter.mp hb).2 id hid
  pin_kind := fun b hb => h.pin_kind b (List.mem_of_mem_filter hb)

/-- The view is a database. -/
def seen (policy : PolicyTables) (vis : RunVisibility) (db : RunsDb) : RunsDb :=
  ⟨seenTables policy vis db.1, seenTables_wellFormed db.2⟩

/-- Two databases that agree on everything the caller may see. -/
def Indistinguishable (policy : PolicyTables) (vis : RunVisibility) (db db' : RunsDb) : Prop :=
  seen policy vis db = seen policy vis db'

/-! ### Queries over the view -/

/-- A query that carries the condition selects from the view what it selects from the table. -/
theorem select_seen {condition : RunRow → Truth}
    (h : ∀ r, (condition r).IsTrue → (visibleRun policy vis r).IsTrue) :
    select (seenTables policy vis t).runs condition = select t.runs condition :=
  select_filter_of_imp fun r _ => h r

/-- The rows of a visible run, in a table keyed by runs. -/
theorem select_seen_of_run {ρ : Type} {rows : List ρ} {runId : ρ → String} {id : String}
    {condition : ρ → Truth} (hid : id ∈ visibleIds policy vis t)
    (h : ∀ r, (condition r).IsTrue → runId r = id) :
    select (rows.filter fun r => runId r ∈ visibleIds policy vis t) condition =
      select rows condition := by
  refine select_filter_of_imp fun r _ hr => ?_
  rw [h r hr]
  exact hid

theorem findVisibleRun_seen {id : String} :
    findVisibleRun policy vis (seenTables policy vis t) id = findVisibleRun policy vis t id :=
  congrArg List.head? (select_seen fun _ hr => (Truth.isTrue_and.mp hr).2)

/-- A run that was found is one of the visible ones. -/
theorem mem_visibleIds_of_find {id : String} {r : RunRow}
    (h : findVisibleRun policy vis t id = some r) : id ∈ visibleIds policy vis t := by
  obtain ⟨hr, hcond⟩ := mem_select.mp (List.mem_of_mem_head? h)
  obtain ⟨hid, hvis⟩ := Truth.isTrue_and.mp hcond
  exact mem_visibleIds.mpr ⟨r, hr, Option.some.inj (isTrue_eq.mp hid).2, hvis⟩

/-- The condition by id asks whether the id is one of the visible ones. -/
theorem visibleRunPredicate_eq {id : String} : visibleRunPredicate policy vis t id =
    Truth.ofBool (decide (id ∈ visibleIds policy vis t)) := by
  refine congrArg Truth.ofBool (Bool.eq_iff_iff.mpr ?_)
  simp [mem_visibleIds]

theorem isTrue_visibleRunPredicate {id : String} :
    (visibleRunPredicate policy vis t id).IsTrue ↔ id ∈ visibleIds policy vis t := by
  rw [visibleRunPredicate_eq, Truth.isTrue_ofBool, decide_eq_true_iff]

theorem visibleIds_seenTables :
    visibleIds policy vis (seenTables policy vis t) = visibleIds policy vis t :=
  congrArg (List.map RunRow.id) (select_seen fun _ hr => hr)

theorem visibleRunPredicate_seen {id : String} :
    visibleRunPredicate policy vis (seenTables policy vis t) id =
      visibleRunPredicate policy vis t id := by
  rw [visibleRunPredicate_eq, visibleRunPredicate_eq, visibleIds_seenTables]

theorem casesOf_seen {id : String} (hid : id ∈ visibleIds policy vis t) :
    casesOf (seenTables policy vis t) id = casesOf t id :=
  select_seen_of_run hid fun _ hc => Option.some.inj (isTrue_eq.mp hc).2

theorem loadRunTags_seen {id : String} (hid : id ∈ visibleIds policy vis t) :
    loadRunTags (seenTables policy vis t) id = loadRunTags t id := by
  have htags : select (seenTables policy vis t).runTags (fun x => eq (some x.runId) (some id)) =
      select t.runTags fun x => eq (some x.runId) (some id) :=
    select_seen_of_run hid fun _ hx => Option.some.inj (isTrue_eq.mp hx).2
  rw [loadRunTags, loadRunTags, htags]

/-- A join of a table keyed by runs with the runs themselves. -/
theorem join_seen {ρ : Type} {rows : List ρ} {runId : ρ → String} {on : ρ → RunRow → Truth}
    (h : ∀ x r, (on x r).IsTrue → r.id = runId x ∧ (visibleRun policy vis r).IsTrue) :
    join (rows.filter fun x => runId x ∈ visibleIds policy vis t) (seenTables policy vis t).runs on =
      join rows t.runs on := by
  have hruns : join (rows.filter fun x => runId x ∈ visibleIds policy vis t)
      (seenTables policy vis t).runs on =
        join (rows.filter fun x => runId x ∈ visibleIds policy vis t) t.runs on :=
    join_others_filter fun x _ r _ hon => (h x r hon).2
  rw [hruns]
  refine join_rows_filter fun x _ r hr hon => ?_
  obtain ⟨hid, hvis⟩ := h x r hon
  exact mem_visibleIds.mpr ⟨r, hr, hid, hvis⟩

/-! ### The run list -/

/-- Whether a visible run carries a tag can be told from the view. -/
theorem tagged_seen {r : RunRow} {tag : String} (hid : r.id ∈ visibleIds policy vis t) :
    (inRows (some r.id) ((select (seenTables policy vis t).runTags
        fun x => eq (some x.tag) (some tag)).map fun x => some x.runId)).IsTrue ↔
      (inRows (some r.id) ((select t.runTags
        fun x => eq (some x.tag) (some tag)).map fun x => some x.runId)).IsTrue := by
  simp only [isTrue_inRows, List.mem_map, mem_select, seenTables, List.mem_filter]
  constructor
  · rintro ⟨x, ⟨⟨hx, -⟩, htag⟩, hrun⟩
    exact ⟨x, ⟨hx, htag⟩, hrun⟩
  · rintro ⟨x, ⟨hx, htag⟩, hrun⟩
    refine ⟨x, ⟨⟨hx, decide_eq_true ?_⟩, htag⟩, hrun⟩
    rw [Option.some.inj hrun]
    exact hid

theorem clauses_seen {f : RunListFilter} {r : RunRow}
    (hid : r.id ∈ visibleIds policy f.visibility t) :
    (∀ c ∈ f.clauses policy (seenTables policy f.visibility t), (c r).IsTrue) ↔
      ∀ c ∈ f.clauses policy t, (c r).IsTrue := by
  simp only [RunListFilter.clauses, List.flatten_cons, List.forall_mem_append, forall_mem_clauseFor,
    tagged_seen hid]

/-- Clauses that visibility is one of select from the view what they select from the table. -/
theorem select_allOf_seen {cs cs' : List (RunRow → Truth)} (hvisible : visibleRun policy vis ∈ cs')
    (h : ∀ r : RunRow, r.id ∈ visibleIds policy vis t →
      ((∀ c ∈ cs, (c r).IsTrue) ↔ ∀ c ∈ cs', (c r).IsTrue)) :
    select (seenTables policy vis t).runs (allOf cs) = select t.runs (allOf cs') := by
  have hcond : ∀ r, (allOf cs' r).IsTrue → (visibleRun policy vis r).IsTrue :=
    fun r hr => isTrue_allOf.mp hr _ hvisible
  rw [← select_seen hcond]
  refine select_congr fun r hr => ?_
  obtain ⟨hr, hvis⟩ := List.mem_filter.mp hr
  rw [isTrue_allOf, isTrue_allOf]
  exact h r (mem_visibleIds.mpr ⟨r, hr, rfl, of_decide_eq_true hvis⟩)

theorem visibleRun_mem_clauses {f : RunListFilter} :
    visibleRun policy f.visibility ∈ f.clauses policy t := by simp [RunListFilter.clauses]

theorem rows_seen {f : RunListFilter} :
    f.rows policy (seenTables policy f.visibility t) = f.rows policy t := by
  refine congrArg (limit _) (congrArg (orderBy newestFirst) (select_allOf_seen ?_ ?_))
  · exact List.mem_append_left _ (List.mem_append_left _ visibleRun_mem_clauses)
  · intro r hid
    simp only [List.forall_mem_append, clauses_seen hid]

theorem cachedHidden_seen {f : RunListFilter} :
    f.cachedHidden policy (seenTables policy f.visibility t) = f.cachedHidden policy t := by
  have hcount : select (seenTables policy f.visibility t).runs
        (allOf (RunRow.fullyCached :: f.clauses policy (seenTables policy f.visibility t))) =
      select t.runs (allOf (RunRow.fullyCached :: f.clauses policy t)) := by
    refine select_allOf_seen (List.mem_cons_of_mem _ visibleRun_mem_clauses) fun r hid => ?_
    simp only [List.forall_mem_cons, clauses_seen hid]
  rw [RunListFilter.cachedHidden, RunListFilter.cachedHidden, hcount]

/-- Every row of a page is of a run that the caller may see. -/
theorem mem_visibleIds_of_rows {f : RunListFilter} {r : RunRow} (h : r ∈ f.rows policy t) :
    r.id ∈ visibleIds policy f.visibility t := by
  obtain ⟨hr, hclauses⟩ := mem_select.mp (mem_orderBy.mp (mem_of_mem_limit h))
  refine mem_visibleIds.mpr ⟨r, hr, rfl, isTrue_allOf.mp hclauses _ ?_⟩
  exact List.mem_append_left _ (List.mem_append_left _ visibleRun_mem_clauses)

theorem query_seen (f : RunListFilter) :
    f.query policy (seenTables policy f.visibility t) = f.query policy t := by
  have htags : ∀ page : List RunRow, (∀ r ∈ page, r ∈ f.rows policy t) →
      (page.map fun r => r.toDto (loadRunTags (seenTables policy f.visibility t) r.id)) =
        page.map fun r => r.toDto (loadRunTags t r.id) := by
    intro page hpage
    refine List.map_congr_left fun r hr => ?_
    rw [loadRunTags_seen (mem_visibleIds_of_rows (hpage r hr))]
  simp only [RunListFilter.query, rows_seen, cachedHidden_seen]
  rw [htags]
  intro r hr
  split_ifs at hr
  · exact List.mem_of_mem_dropLast hr
  · exact hr

/-! ### One run, and its cases -/

theorem getRunDetail_seen {decode : Decoders} {id : String} :
    getRunDetail decode policy vis (seenTables policy vis t) id =
      getRunDetail decode policy vis t id := by
  rw [getRunDetail, getRunDetail, findVisibleRun_seen]
  cases hrow : findVisibleRun policy vis t id with
  | none => rfl
  | some r =>
    have hid := mem_visibleIds_of_find hrow
    rw [loadRunTags_seen hid, casesOf_seen hid]

theorem loadRunBlob_seen {id : String} :
    loadRunBlob policy vis (seenTables policy vis t) id = loadRunBlob policy vis t id := by
  rw [loadRunBlob, loadRunBlob, visibleRunPredicate_seen]
  refine congrArg (Option.map BlobRow.body) (congrArg List.head? ?_)
  refine select_filter_of_imp fun b _ hb => ?_
  obtain ⟨hrun, hvis⟩ := Truth.isTrue_and.mp hb
  rw [Option.some.inj (isTrue_eq.mp hrun).2]
  exact isTrue_visibleRunPredicate.mp hvis

theorem exportRunBlob_seen {decode : Decoders} {id : String} :
    exportRunBlob decode policy vis (seenTables policy vis t) id =
      exportRunBlob decode policy vis t id := by
  rw [exportRunBlob, exportRunBlob, loadRunBlob_seen]

theorem runConfigBlob_seen {decode : Decoders} {id : String} :
    runConfigBlob decode policy vis (seenTables policy vis t) id =
      runConfigBlob decode policy vis t id := by
  rw [runConfigBlob, runConfigBlob, exportRunBlob_seen]

/-- Conditions on the cases of one run, that the caller may see, hold of the same cases of the
view. -/
theorem select_cases_seen (id : String) {condition condition' : CaseRow → Truth}
    (hrun : ∀ c, (condition' c).IsTrue → c.runId = id ∧ id ∈ visibleIds policy vis t)
    (h : ∀ c ∈ t.cases, c.runId ∈ visibleIds policy vis t →
      ((condition c).IsTrue ↔ (condition' c).IsTrue)) :
    select (seenTables policy vis t).cases condition = select t.cases condition' := by
  have hwhole : select (seenTables policy vis t).cases condition' = select t.cases condition' := by
    refine select_filter_of_imp fun c _ hc => ?_
    obtain ⟨hid, hvis⟩ := hrun c hc
    rw [hid]
    exact hvis
  rw [← hwhole]
  refine select_congr fun c hc => ?_
  obtain ⟨hc, hvis⟩ := List.mem_filter.mp hc
  exact h c hc (of_decide_eq_true hvis)

theorem caseTagged_seen {id caseKey tag : String} (hid : id ∈ visibleIds policy vis t) :
    inRows (some caseKey) ((select (seenTables policy vis t).caseTags fun x =>
        (eq (some x.runId) (some id)).and (eq (some x.tag) (some tag))).map fun x => some x.caseKey) =
      inRows (some caseKey) ((select t.caseTags fun x =>
        (eq (some x.runId) (some id)).and (eq (some x.tag) (some tag))).map fun x =>
          some x.caseKey) := by
  have hselect : select (seenTables policy vis t).caseTags (fun x =>
        (eq (some x.runId) (some id)).and (eq (some x.tag) (some tag))) =
      select t.caseTags fun x => (eq (some x.runId) (some id)).and (eq (some x.tag) (some tag)) := by
    refine select_seen_of_run hid fun x hx => ?_
    exact Option.some.inj (isTrue_eq.mp (Truth.isTrue_and.mp hx).1).2
  rw [hselect]

theorem caseRows_seen {f : CaseListFilter} :
    f.rows policy (seenTables policy f.visibility t) = f.rows policy t := by
  refine congrArg (limit _) (congrArg (orderBy _) ?_)
  have hrun : ∀ c, (allOf (f.clauses policy t) c).IsTrue →
      c.runId = f.runId ∧ f.runId ∈ visibleIds policy f.visibility t := by
    intro c hc
    have hclauses := isTrue_allOf.mp hc
    have hid := hclauses (fun c => eq (some c.runId) (some f.runId)) (by simp [CaseListFilter.clauses])
    have hvis := hclauses (fun _ => visibleRunPredicate policy f.visibility t f.runId)
      (by simp [CaseListFilter.clauses])
    exact ⟨Option.some.inj (isTrue_eq.mp hid).2, isTrue_visibleRunPredicate.mp hvis⟩
  refine select_cases_seen f.runId hrun fun c _ _ => ?_
  by_cases hid : f.runId ∈ visibleIds policy f.visibility t
  · rw [isTrue_allOf, isTrue_allOf]
    simp only [CaseListFilter.clauses, visibleRunPredicate_seen, caseTagged_seen hid]
  · -- both conditions ask for the run
    have hnot : ∀ t', visibleRunPredicate policy f.visibility t' f.runId =
        visibleRunPredicate policy f.visibility t f.runId →
          ¬ (allOf (f.clauses policy t') c).IsTrue := by
      intro t' heq hc
      have hvis := isTrue_allOf.mp hc (fun _ => visibleRunPredicate policy f.visibility t' f.runId)
        (by simp [CaseListFilter.clauses])
      rw [heq] at hvis
      exact hid (isTrue_visibleRunPredicate.mp hvis)
    exact iff_of_false (hnot _ visibleRunPredicate_seen) (hnot _ rfl)

theorem caseQuery_seen {decode : Decoders} (f : CaseListFilter) :
    f.query decode policy (seenTables policy f.visibility t) = f.query decode policy t := by
  rw [CaseListFilter.query, CaseListFilter.query, caseRows_seen]

theorem getCaseDetail_seen {decode : Decoders} {runId caseKey : String} :
    getCaseDetail decode policy vis (seenTables policy vis t) runId caseKey =
      getCaseDetail decode policy vis t runId caseKey := by
  have hselect : select (seenTables policy vis t).cases (fun c =>
        ((eq (some c.runId) (some runId)).and (eq (some c.caseKey) (some caseKey))).and
          (visibleRunPredicate policy vis (seenTables policy vis t) runId)) =
      select t.cases fun c =>
        ((eq (some c.runId) (some runId)).and (eq (some c.caseKey) (some caseKey))).and
          (visibleRunPredicate policy vis t runId) := by
    refine select_cases_seen runId (fun c hc => ?_) fun c _ _ => ?_
    · obtain ⟨hkey, hvis⟩ := Truth.isTrue_and.mp hc
      exact ⟨Option.some.inj (isTrue_eq.mp (Truth.isTrue_and.mp hkey).1).2,
        isTrue_visibleRunPredicate.mp hvis⟩
    · rw [visibleRunPredicate_seen]
  rw [getCaseDetail, getCaseDetail, hselect]

theorem matrixRows_seen {f : MatrixFilter} :
    matrixRows policy f (seenTables policy f.visibility t) = matrixRows policy f t := by
  refine congrArg (orderBy _) (select_cases_seen f.runId (fun c hc => ?_) fun c _ _ => ?_)
  · obtain ⟨hcase, hvis⟩ := Truth.isTrue_and.mp hc
    obtain ⟨hrun, -⟩ := Truth.isTrue_and.mp (Truth.isTrue_and.mp hcase).1
    exact ⟨Option.some.inj (isTrue_eq.mp hrun).2, isTrue_visibleRunPredicate.mp hvis⟩
  · rw [visibleRunPredicate_seen]

theorem matrixQuery_seen (f : MatrixFilter) :
    f.query policy (seenTables policy f.visibility t) = f.query policy t := by
  rw [MatrixFilter.query, MatrixFilter.query, matrixRows_seen]

/-! ### Two runs -/

theorem loadRunAgg_seen {id : String} :
    loadRunAgg policy vis (seenTables policy vis t) id = loadRunAgg policy vis t id :=
  congrArg (Option.map RunRow.toAgg) findVisibleRun_seen

theorem loadCompareCases_seen {decode : Decoders} {id : String} {agg : RunAgg}
    (h : loadRunAgg policy vis t id = some agg) :
    loadCompareCases decode (seenTables policy vis t) id = loadCompareCases decode t id := by
  obtain ⟨r, hr, -⟩ := Option.map_eq_some_iff.mp h
  rw [loadCompareCases, loadCompareCases, casesOf_seen (mem_visibleIds_of_find hr)]

theorem compareRuns_seen {decode : Decoders} {base head : String} :
    compareRuns decode policy vis (seenTables policy vis t) base head =
      compareRuns decode policy vis t base head := by
  rw [compareRuns, compareRuns, loadRunAgg_seen, loadRunAgg_seen]
  cases hbase : loadRunAgg policy vis t base with
  | none => rfl
  | some baseAgg =>
    cases hhead : loadRunAgg policy vis t head with
    | none => rfl
    | some headAgg => simp only [loadCompareCases_seen hbase, loadCompareCases_seen hhead]

/-! ### Across runs -/

/-- The run of a pin is found in the view, if the caller may see it. -/
theorem find_seen (h : t.WellFormed) {id : String} (hid : id ∈ visibleIds policy vis t) :
    (seenTables policy vis t).runs.find? (fun r => some id = some r.id) =
      t.runs.find? fun r => some id = some r.id := by
  rw [← List.head?_filter, ← List.head?_filter, seenTables, List.filter_filter]
  refine congrArg List.head? (List.filter_congr fun r hr => ?_)
  by_cases hrun : some id = some r.id
  · -- ids are unique, so the run of this id is the visible one
    obtain ⟨r', hr', hid', hvis⟩ := mem_visibleIds.mp hid
    have heq : r' = r := List.inj_on_of_nodup_map h.runKey hr' hr (hid'.trans (Option.some.inj hrun))
    rw [heq] at hvis
    simp [hrun, hvis]
  · simp [hrun]

theorem pinVisible_seen (h : t.WellFormed) {b : BaselineRow}
    (hb : ∀ id ∈ b.runId, id ∈ visibleIds policy vis t) :
    pinVisible policy vis (seenTables policy vis t) b = pinVisible policy vis t b := by
  cases hrun : b.runId with
  | none =>
    have hpass : ∀ t', pinVisible policy vis t' b = .yes := by
      intro t'
      rw [pinVisible, hrun]
      rfl
    rw [hpass, hpass]
  | some id => rw [pinVisible, pinVisible, hrun, find_seen h (hb id hrun)]

/-- A pin that passes is of no run, or of a visible one. -/
theorem visible_of_pinVisible (h : t.WellFormed) {b : BaselineRow} (hb : b ∈ t.baselines)
    (hpass : (pinVisible policy vis t b).IsTrue) : ∀ id ∈ b.runId, id ∈ visibleIds policy vis t := by
  intro id hid
  obtain ⟨r, hr, hrun⟩ := List.mem_map.mp (h.pin_run b hb id hid)
  obtain ⟨r', hfind⟩ : ∃ r', t.runs.find? (fun r => b.runId = some r.id) = some r' := by
    refine Option.isSome_iff_exists.mp (List.find?_isSome.mpr ⟨r, hr, decide_eq_true ?_⟩)
    rw [hrun]
    exact hid
  have hfound := List.find?_some hfind
  have hrun' : b.runId = some r'.id := of_decide_eq_true hfound
  rw [pinVisible, hfind, Truth.isTrue_or, isTrue_isNull, hrun'] at hpass
  obtain hnone | hvis := hpass
  · cases hnone
  · have hid' : id = r'.id := Option.some.inj (hid.symm.trans hrun')
    exact mem_visibleIds.mpr ⟨r', List.mem_of_find?_eq_some hfind, hid'.symm, hvis⟩

theorem readBaselineRow_seen (h : t.WellFormed) {project suite : String} :
    readBaselineRow policy vis (seenTables policy vis t) project suite =
      readBaselineRow policy vis t project suite := by
  have hpin : select (seenTables policy vis t).baselines (fun b =>
        ((eq (some b.project) (some project)).and (eq (some b.suite) (some suite))).and
          (pinVisible policy vis (seenTables policy vis t) b)) =
      select (seenTables policy vis t).baselines fun b =>
        ((eq (some b.project) (some project)).and (eq (some b.suite) (some suite))).and
          (pinVisible policy vis t b) := by
    refine select_congr fun b hb => ?_
    rw [pinVisible_seen h (of_decide_eq_true (List.mem_filter.mp hb).2)]
  rw [readBaselineRow, readBaselineRow, hpin]
  refine congrArg List.head? (select_filter_of_imp fun b hb hcond => ?_)
  exact visible_of_pinVisible h hb (Truth.isTrue_and.mp hcond).2

/-- The rows of a project, or of one of its suites. -/
theorem visibleRunsOf_seen {project : String} {suite : Option String} :
    visibleRunsOf policy vis (seenTables policy vis t) project suite =
      visibleRunsOf policy vis t project suite :=
  select_seen fun _ hr => (Truth.isTrue_and.mp hr).2

theorem baselineMeta_seen (h : t.WellFormed) {project suite : String} :
    baselineMeta policy vis (seenTables policy vis t) project suite =
      baselineMeta policy vis t project suite := by
  rw [baselineMeta, baselineMeta, readBaselineRow_seen h]

theorem listProjects_seen :
    listProjects policy vis (seenTables policy vis t) = listProjects policy vis t := by
  have hselect : select (seenTables policy vis t).runs
      (fun r => (isNull r.project).not.and (visibleRun policy vis r)) =
        select t.runs fun r => (isNull r.project).not.and (visibleRun policy vis r) :=
    select_seen fun _ hr => (Truth.isTrue_and.mp hr).2
  simp only [listProjects, hselect]

theorem suiteSeries_seen {project suite : String} :
    suiteSeries policy vis (seenTables policy vis t) project suite =
      suiteSeries policy vis t project suite := by
  have hselect : select (seenTables policy vis t).runs (fun r => ((eq r.project (some project)).and
      (eq r.suite (some suite))).and (visibleRun policy vis r)) =
        select t.runs fun r => ((eq r.project (some project)).and (eq r.suite (some suite))).and
          (visibleRun policy vis r) :=
    select_seen fun _ hr => (Truth.isTrue_and.mp hr).2
  rw [suiteSeries, suiteSeries, hselect]

theorem listSuites_seen (h : t.WellFormed) {project : String} :
    listSuites policy vis (seenTables policy vis t) project = listSuites policy vis t project := by
  have hselect : select (seenTables policy vis t).runs (fun r => ((eq r.project (some project)).and
      (isNull r.suite).not).and (visibleRun policy vis r)) =
        select t.runs fun r => ((eq r.project (some project)).and (isNull r.suite).not).and
          (visibleRun policy vis r) :=
    select_seen fun _ hr => (Truth.isTrue_and.mp hr).2
  simp only [listSuites, hselect, suiteSeries_seen, readBaselinePin, readBaselineRow_seen h]

theorem latestPassRates_seen {project : String} :
    latestPassRates policy vis (seenTables policy vis t) project =
      latestPassRates policy vis t project := by
  have hselect : select (seenTables policy vis t).runs
      (fun r => ((isNull r.project).not.and (isNull r.suite).not).and (visibleRun policy vis r)) =
        select t.runs fun r => ((isNull r.project).not.and (isNull r.suite).not).and
          (visibleRun policy vis r) :=
    select_seen fun _ hr => (Truth.isTrue_and.mp hr).2
  simp only [latestPassRates, hselect]

theorem listRunSets_seen :
    listRunSets policy vis (seenTables policy vis t) = listRunSets policy vis t := by
  have hselect : select (seenTables policy vis t).runs
      (fun r => (isNull r.project).not.and (visibleRun policy vis r)) =
        select t.runs fun r => (isNull r.project).not.and (visibleRun policy vis r) :=
    select_seen fun _ hr => (Truth.isTrue_and.mp hr).2
  simp only [listRunSets, hselect, latestPassRates_seen]

theorem suiteSetView_seen (h : t.WellFormed) {project suite : String} {rows : List RunRow} :
    suiteSetView policy vis (seenTables policy vis t) project suite rows =
      suiteSetView policy vis t project suite rows := by
  simp only [suiteSetView, sparkline, visibleRunsOf_seen, readBaselinePin, readBaselineRow_seen h]

theorem projectHasVisibleRuns_seen {project : String} {suite : Option String} :
    projectHasVisibleRuns policy vis (seenTables policy vis t) project suite =
      projectHasVisibleRuns policy vis t project suite := by
  rw [projectHasVisibleRuns, projectHasVisibleRuns, visibleRunsOf_seen]

theorem runSetProject_seen (h : t.WellFormed) {project : String} :
    runSetProject policy vis (seenTables policy vis t) project =
      runSetProject policy vis t project := by
  rw [runSetProject, runSetProject, projectHasVisibleRuns_seen, visibleRunsOf_seen]
  simp only [suiteSetView_seen h]

theorem runSetSuite_seen (h : t.WellFormed) {project suite : String} :
    runSetSuite policy vis (seenTables policy vis t) project suite =
      runSetSuite policy vis t project suite := by
  rw [runSetSuite, runSetSuite, projectHasVisibleRuns_seen, visibleRunsOf_seen,
    suiteSetView_seen h]

theorem visibleCases_seen {condition : CaseRow → RunRow → Truth} :
    visibleCases policy vis (seenTables policy vis t) condition =
      visibleCases policy vis t condition := by
  refine join_seen fun c r hon => ?_
  obtain ⟨hcond, hvis⟩ := Truth.isTrue_and.mp hon
  exact ⟨Option.some.inj (isTrue_eq.mp (Truth.isTrue_and.mp hcond).1).2, hvis⟩

theorem caseHistory_seen (h : t.WellFormed) {project suite caseKey : String} {max : ℤ} :
    caseHistory policy vis (seenTables policy vis t) project suite caseKey max =
      caseHistory policy vis t project suite caseKey max := by
  simp only [caseHistory, visibleCases_seen, readBaselinePin, readBaselineRow_seen h]

theorem entryRuns_seen {key : String} {max : ℤ} {cursor : Option (I64 × String)} :
    entryRuns policy vis (seenTables policy vis t) key max cursor =
      entryRuns policy vis t key max cursor := by
  simp only [entryRuns, visibleCases_seen]

theorem branchBlobs_seen {project suite branch : String} {exclude : Option String} :
    branchBlobs policy vis (seenTables policy vis t) project suite branch exclude =
      branchBlobs policy vis t project suite branch exclude := by
  have hselect : select (seenTables policy vis t).runs (fun r => ((((eq r.project (some project)).and
      (eq r.suite (some suite))).and (eq r.gitBranch (some branch))).and (visibleRun policy vis r)).and
        (allOf (clauseFor exclude fun id r => (eq (some r.id) (some id)).not) r)) =
      select t.runs fun r => ((((eq r.project (some project)).and (eq r.suite (some suite))).and
        (eq r.gitBranch (some branch))).and (visibleRun policy vis r)).and
          (allOf (clauseFor exclude fun id r => (eq (some r.id) (some id)).not) r) :=
    select_seen fun _ hr => (Truth.isTrue_and.mp (Truth.isTrue_and.mp hr).1).2
  rw [branchBlobs, branchBlobs, hselect]
  refine congrArg (List.map _) (congrArg (limit _) (congrArg (orderBy _) ?_))
  refine join_others_filter fun r hr b _ hon => ?_
  obtain ⟨hr, hcond⟩ := mem_select.mp hr
  rw [Option.some.inj (isTrue_eq.mp hon).2]
  exact mem_visibleIds.mpr
    ⟨r, hr, rfl, (Truth.isTrue_and.mp (Truth.isTrue_and.mp hcond).1).2⟩

end

/-! ### Every read -/

/-- A read of the run database. -/
inductive RunRead where
  | listRuns (filter : RunListFilter)
  | getRun (id : String)
  | runExists (id : String)
  | exportRun (id : String)
  | runConfig (id : String)
  | listCases (filter : CaseListFilter)
  | getCase (runId caseKey : String)
  | runMatrix (filter : MatrixFilter)
  | compareRuns (base head : String)
  | caseHistory (project suite caseKey : String) (limit : ℤ)
  | cacheEntryRuns (key : String) (limit : ℤ) (cursor : Option (I64 × String))
  | listProjects
  | listSuites (project : String)
  | listRunSets
  | runSetProject (project : String)
  | runSetSuite (project suite : String)
  | baseline (project suite : String)
  | branchBaseline (project suite branch : String) (exclude : Option String)

abbrev RunRead.Answer : RunRead → Type
  | .listRuns _ => RunListPage
  | .getRun _ => Option RunDetailResponse
  | .runExists _ => Bool
  | .exportRun _ => Except String (Option Json)
  | .runConfig _ => Except String (Option RunConfigResponse)
  | .listCases _ => Except String CaseListResponse
  | .getCase .. => Except String (Option Json)
  | .runMatrix _ => Except String MatrixResponse
  | .compareRuns .. => Except String (Option CompareResponse)
  | .caseHistory .. => Except String (Option CaseHistoryResponse)
  | .cacheEntryRuns .. => CacheEntryRunsResponse
  | .listProjects => List ProjectListItem
  | .listSuites _ => SuitesResponse
  | .listRunSets => List ProjectSetView
  | .runSetProject _ => Option ProjectSetDetailResponse
  | .runSetSuite .. => Option (String × SuiteSetView)
  | .baseline .. => Option (BaselinePin × ℤ)
  | .branchBaseline .. => List (List UInt8)

/-- What a read answers a caller; a filter carries the caller's visibility. -/
def answerRead (decode : Decoders) (policy : PolicyTables) (vis : RunVisibility) (t : RunTables) :
    (read : RunRead) → read.Answer
  | .listRuns filter => { filter with visibility := vis }.query policy t
  | .getRun id => getRunDetail decode policy vis t id
  | .runExists id => runExists policy vis t id
  | .exportRun id => exportRunBlob decode policy vis t id
  | .runConfig id => runConfigBlob decode policy vis t id
  | .listCases filter => { filter with visibility := vis }.query decode policy t
  | .getCase runId caseKey => getCaseDetail decode policy vis t runId caseKey
  | .runMatrix filter => { filter with visibility := vis }.query policy t
  | .compareRuns base head => compareRuns decode policy vis t base head
  | .caseHistory project suite caseKey limit => caseHistory policy vis t project suite caseKey limit
  | .cacheEntryRuns key limit cursor => entryRuns policy vis t key limit cursor
  | .listProjects => listProjects policy vis t
  | .listSuites project => listSuites policy vis t project
  | .listRunSets => listRunSets policy vis t
  | .runSetProject project => runSetProject policy vis t project
  | .runSetSuite project suite => runSetSuite policy vis t project suite
  | .baseline project suite => baselineMeta policy vis t project suite
  | .branchBaseline project suite branch exclude =>
    branchBlobs policy vis t project suite branch exclude

/-- **Every read is confined to the caller's view.** -/
theorem confined_answer (decode : Decoders) (policy : PolicyTables) (vis : RunVisibility)
    (read : RunRead) :
    ConfinedTo (seen policy vis) fun db => answerRead decode policy vis db.1 read := by
  intro db
  show answerRead decode policy vis (seenTables policy vis db.1) read =
    answerRead decode policy vis db.1 read
  cases read with
  | listRuns filter => exact query_seen { filter with visibility := vis }
  | getRun id => exact getRunDetail_seen
  | runExists id => exact congrArg Option.isSome findVisibleRun_seen
  | exportRun id => exact exportRunBlob_seen
  | runConfig id => exact runConfigBlob_seen
  | listCases filter => exact caseQuery_seen { filter with visibility := vis }
  | getCase runId caseKey => exact getCaseDetail_seen
  | runMatrix filter => exact matrixQuery_seen { filter with visibility := vis }
  | compareRuns base head => exact compareRuns_seen
  | caseHistory project suite caseKey limit => exact caseHistory_seen db.2
  | cacheEntryRuns key limit cursor => exact entryRuns_seen
  | listProjects => exact listProjects_seen
  | listSuites project => exact listSuites_seen db.2
  | listRunSets => exact listRunSets_seen
  | runSetProject project => exact runSetProject_seen db.2
  | runSetSuite project suite => exact runSetSuite_seen db.2
  | baseline project suite => exact baselineMeta_seen db.2
  | branchBaseline project suite branch exclude => exact branchBlobs_seen

/-! ### Search -/

section
variable {policy : PolicyTables} {vis : RunVisibility} {t : RunTables} {tokens : List String}
  {cached : Option CachedFilter}

/-- The clauses of a hit ask that its run be visible. -/
theorem visible_of_hitClauses {r : RunRow} (h : (hitClauses policy vis cached r).IsTrue) :
    (visibleRun policy vis r).IsTrue := (Truth.isTrue_and.mp h).1

theorem runMatches_seen {engine : FtsEngine RunFtsRow} :
    runMatches engine policy vis (seenTables policy vis t) tokens cached =
      runMatches engine policy vis t tokens cached := by
  refine join_seen fun x r hon => ?_
  obtain ⟨hid, hhit⟩ := Truth.isTrue_and.mp hon
  exact ⟨Option.some.inj (isTrue_eq.mp hid).2,
    visible_of_hitClauses (Truth.isTrue_and.mp hhit).2⟩

theorem caseMatches_seen {engine : FtsEngine CaseFtsRow} :
    caseMatches engine policy vis (seenTables policy vis t) tokens cached =
      caseMatches engine policy vis t tokens cached := by
  have hcases : join (seenTables policy vis t).cases (seenTables policy vis t).runs (fun c r =>
        (eq (some r.id) (some c.runId)).and (hitClauses policy vis cached r)) =
      join t.cases t.runs fun c r =>
        (eq (some r.id) (some c.runId)).and (hitClauses policy vis cached r) := by
    refine join_seen fun c r hon => ?_
    obtain ⟨hid, hhit⟩ := Truth.isTrue_and.mp hon
    exact ⟨Option.some.inj (isTrue_eq.mp hid).2, visible_of_hitClauses hhit⟩
  rw [caseMatches, caseMatches, hcases]
  refine join_rows_filter fun x _ row hrow hon => ?_
  -- the case of a hit is of a visible run, and the search row is of the same run
  obtain ⟨-, hr, hcond⟩ := mem_join.mp hrow
  obtain ⟨hid, hhit⟩ := Truth.isTrue_and.mp hcond
  obtain ⟨hrun, -⟩ := Truth.isTrue_and.mp (Truth.isTrue_and.mp hon).1
  have hx : x.runId = row.2.id :=
    ((Option.some.inj (isTrue_eq.mp hid).2).trans (Option.some.inj (isTrue_eq.mp hrun).2)).symm
  rw [hx]
  exact mem_visibleIds.mpr ⟨row.2, hr, rfl, visible_of_hitClauses hhit⟩

end

/-- Whether the rows that a caller may see are as relevant in one database as in the other. -/
structure SameRanks (engines : SearchEngines) (policy : PolicyTables) (vis : RunVisibility)
    (db db' : RunsDb) : Prop where
  runs : ∀ tokens, ∀ x ∈ (seen policy vis db).1.runsFts,
    engines.runs.rank tokens db.1.runsFts x = engines.runs.rank tokens db'.1.runsFts x
  cases : ∀ tokens, ∀ x ∈ (seen policy vis db).1.casesFts,
    engines.cases.rank tokens db.1.casesFts x = engines.cases.rank tokens db'.1.casesFts x

section
variable {policy : PolicyTables} {vis : RunVisibility} {db db' : RunsDb} {engines : SearchEngines}

theorem runHits_eq (h : Indistinguishable policy vis db db')
    (hranks : SameRanks engines policy vis db db') {tokens : List String} {max : ℤ}
    {cached : Option CachedFilter} :
    runHits engines.runs policy vis db.1 tokens max cached =
      runHits engines.runs policy vis db'.1 tokens max cached := by
  have hmatches : runMatches engines.runs policy vis db.1 tokens cached =
      runMatches engines.runs policy vis db'.1 tokens cached := by
    rw [← runMatches_seen, ← runMatches_seen (t := db'.1)]
    exact congrArg (fun d : RunsDb => runMatches engines.runs policy vis d.1 tokens cached) h
  have hrank : ∀ row ∈ runMatches engines.runs policy vis db.1 tokens cached,
      engines.runs.rank tokens db.1.runsFts row.1 = engines.runs.rank tokens db'.1.runsFts row.1 := by
    intro row hrow
    rw [← runMatches_seen] at hrow
    exact hranks.runs tokens row.1 (mem_join.mp hrow).1
  have horder := orderBy_rank_congr hrank
  simp only [runHits, horder]
  rw [hmatches]

theorem caseHits_eq (h : Indistinguishable policy vis db db')
    (hranks : SameRanks engines policy vis db db') {tokens : List String} {max : ℤ}
    {cached : Option CachedFilter} :
    caseHits engines.cases policy vis db.1 tokens max cached =
      caseHits engines.cases policy vis db'.1 tokens max cached := by
  have hmatches : caseMatches engines.cases policy vis db.1 tokens cached =
      caseMatches engines.cases policy vis db'.1 tokens cached := by
    rw [← caseMatches_seen, ← caseMatches_seen (t := db'.1)]
    exact congrArg (fun d : RunsDb => caseMatches engines.cases policy vis d.1 tokens cached) h
  have hrank : ∀ row ∈ caseMatches engines.cases policy vis db.1 tokens cached,
      engines.cases.rank tokens db.1.casesFts row.1 =
        engines.cases.rank tokens db'.1.casesFts row.1 := by
    intro row hrow
    rw [← caseMatches_seen] at hrow
    exact hranks.cases tokens row.1 (mem_join.mp hrow).1
  have horder := orderBy_rank_congr hrank
  simp only [caseHits, horder]
  rw [hmatches]

end

/-! ### Noninterference -/

/-- A caller learns as little from one database as from the other. -/
structure SameAnswers (decode : Decoders) (engines : SearchEngines) (policy : PolicyTables)
    (vis : RunVisibility) (db db' : RunsDb) : Prop where
  reads : ∀ read, answerRead decode policy vis db.1 read = answerRead decode policy vis db'.1 read
  /-- Relevance aside, a search is a read like the others. -/
  search : SameRanks engines policy vis db db' → ∀ query max cached,
    search engines policy vis db.1 query max cached = search engines policy vis db'.1 query max cached

/-- **Hidden runs do not interfere**: databases that agree on everything a caller may see answer
the caller alike. -/
theorem hidden_runs_do_not_interfere (decode : Decoders) (engines : SearchEngines)
    (policy : PolicyTables) (identity : Auth.Identity) (db db' : RunsDb)
    (h : Indistinguishable policy (.of identity) db db') :
    SameAnswers decode engines policy (.of identity) db db' where
  reads := fun read => (confined_answer decode policy (.of identity) read).eq_of_view_eq h
  search := by
    intro hranks query max cached
    rw [search, search]
    cases searchQuery engines.isAlphanumeric query with
    | none => rfl
    | some tokens => simp only [runHits_eq h hranks, caseHits_eq h hranks]

theorem startOfTime_bounds : -2 ^ 63 ≤ (0 : ℤ) ∧ (0 : ℤ) < 2 ^ 63 := by decide

def startOfTime : I64 := ⟨0, startOfTime_bounds⟩

/-- A run of an empty suite. -/
def bareRun (id : String) (project : Option String) : RunRow where
  id := id
  project := project
  suite := none
  createdAt := startOfTime
  uploadedAt := startOfTime
  schemaVersion := 1
  description := none
  gitBranch := none
  gitCommit := none
  gitDirty := none
  ciProvider := none
  ciRunUrl := none
  caseCount := 0
  passCount := 0
  failCount := 0
  errorCount := 0
  promptTokens := 0
  completionTokens := 0
  costMicrousd := none
  durationMs := 0
  contentHash := "00"
  uploadedBy := none
  configDigest := none
  cacheHits := some 0
  cacheMisses := some 0
  actor := none
  host := none
  domarinnVersion := none
  promptsDigest := none
  providersDigest := none
  testsDigest := none
  assertsDigest := none
  graderDigest := none
  cacheReadTokens := none
  cacheWriteTokens := none
  cacheSavingsMicrousd := none
  graderCostMicrousd := none
  emptyCount := some 0
  fallbackCount := some 0
  xfailCount := some 0
  xpassCount := some 0

/-- A database of bare runs. -/
def bareRuns (runs : List RunRow) (h : (runs.map RunRow.id).Nodup) : RunsDb :=
  ⟨⟨runs, [], [], [], [], [], [], []⟩, by constructor <;> simp [RunTables.runIds, h]⟩

/-- A project that is restricted, and granted to nobody. -/
def secretPolicy : PolicyTables := ⟨[⟨"secret", none⟩], [], by decide, by decide⟩

/-- An anonymous caller cannot tell a database with a secret run from one without. -/
theorem secret_run_is_hidden :
    SameAnswers ⟨fun _ => none, fun _ => .ok .null⟩
      ⟨Char.isAlphanum, ⟨fun _ _ => true, fun _ _ => "", fun _ rows _ => rows.length⟩,
        ⟨fun _ _ => true, fun _ _ => "", fun _ rows _ => rows.length⟩⟩
      secretPolicy (.of ⟨none, .open, none, none, .anonymous⟩)
      (bareRuns [bareRun "r1" none, bareRun "r2" (some "secret")] (by decide))
      (bareRuns [bareRun "r1" none] (by decide)) :=
  hidden_runs_do_not_interfere _ _ _ _ _ _ rfl
