/-
The cases behind a cache entry, page by page.

A page lists cases, but it ends at the creation time and the id of a run, and the next page
takes the cases of the runs that come after.  Where a page ends inside a run, the other cases
of that run are never listed.

* **`entryRuns_page_eq`** — a page of the response is a page of the cases with the key;
* **`entry_runs_complete_iff`** — every case is listed exactly when no page ends inside a run;
* **`entry_runs_lose_case`** — two cases of one run with one key, a case to a page.
-/
import Domarinn.ProjectReads
import Domarinn.RunPages

open Sql Keyset

/-! ### The cases with a key -/

/-- A case with the row of its run. -/
abbrev CaseOfRun : Type := CaseRow × RunRow

/-- The cases with the key whose run the caller may see. -/
def casesWithKey (policy : PolicyTables) (vis : RunVisibility) (t : RunTables) (key : String) :
    List CaseRow :=
  t.cases.filter fun c => c.cacheKey = some key ∧
    ∃ r ∈ t.runs, r.id = c.runId ∧ (visibleRun policy vis r).IsTrue

/-- These cases with their runs, the newest run first. -/
def casesByRun (policy : PolicyTables) (vis : RunVisibility) (t : RunTables) (key : String) :
    List CaseOfRun :=
  orderBy (fun a b => newestFirst a.2 b.2)
    (visibleCases policy vis t fun c _ => eq c.cacheKey (some key))

/-- `cache_entry_runs` under the cursor of a request; one that cannot be read counts as none. -/
def entryRunsPage (policy : PolicyTables) (vis : RunVisibility) (t : RunTables) (key : String)
    (max : ℤ) (_ : Unit) (cursor : Option String) : Page CacheEntryRunRef String :=
  let response := entryRuns policy vis t key max (cursor.bind decodeCursor)
  ⟨response.cases, response.nextCursor⟩

/-- The case that a line of the response is about. -/
def CacheEntryRunRef.key (ref : CacheEntryRunRef) : String × String := (ref.runId, ref.caseKey)

/-- The pages, followed from the first, end, and list every case with the key once. -/
def ListsEveryCase (policy : PolicyTables) (vis : RunVisibility) (t : RunTables) (key : String)
    (max : ℤ) : Prop :=
  ∃ n, Ended (follow (entryRunsPage policy vis t key max) none (.replicate n ())) ∧
    ((returned (follow (entryRunsPage policy vis t key max) none (.replicate n ()))).map
      CacheEntryRunRef.key).Perm ((casesWithKey policy vis t key).map CaseRow.key)

/-- No page ends inside a run: the cases on either side of its end are of two runs. -/
def EndsBetweenRuns (policy : PolicyTables) (vis : RunVisibility) (t : RunTables) (key : String)
    (max : ℤ) : Prop :=
  ∀ front (a b : CaseOfRun) back, casesByRun policy vis t key = front ++ a :: b :: back →
    max.toNat ∣ front.length + 1 → a.1.runId ≠ b.1.runId

/-! ### A page is a page of these cases -/

def CaseOfRun.cursor (row : CaseOfRun) : String := row.2.cursor

def CaseOfRun.isAfter (cursor : String) (row : CaseOfRun) : Bool := row.2.isAfter cursor

section
variable {policy : PolicyTables} {vis : RunVisibility} {t : RunTables} {key : String} {max : ℤ}

instance : Std.Total fun a b : CaseOfRun => newestFirst a.2 b.2 where
  total := fun a b => Std.Total.total a.2 b.2

instance : IsTrans CaseOfRun fun a b => newestFirst a.2 b.2 where
  trans := fun _ _ _ => Trans.trans

theorem mem_casesByRun {row : CaseOfRun} : row ∈ casesByRun policy vis t key ↔
    row.1 ∈ t.cases ∧ row.2 ∈ t.runs ∧ row.2.id = row.1.runId ∧ row.1.cacheKey = some key ∧
      (visibleRun policy vis row.2).IsTrue := by
  rw [casesByRun, mem_orderBy, visibleCases, mem_join, Truth.isTrue_and, Truth.isTrue_and,
    isTrue_eq, isTrue_eq]
  constructor
  · rintro ⟨hc, hr, ⟨⟨-, hid⟩, -, hkey⟩, hvisible⟩
    exact ⟨hc, hr, Option.some.inj hid, hkey, hvisible⟩
  · rintro ⟨hc, hr, hid, hkey, hvisible⟩
    exact ⟨hc, hr, ⟨⟨by simp, congrArg some hid⟩, by simp [hkey], hkey⟩, hvisible⟩

/-- A case has one run, so it is one of the cases once. -/
theorem casesByRun_perm (h : t.WellFormed) :
    ((casesByRun policy vis t key).map fun row => (row.2.id, row.1.caseKey)).Perm
      ((casesWithKey policy vis t key).map CaseRow.key) := by
  have hrun : ∀ row ∈ casesByRun policy vis t key, (row.2.id, row.1.caseKey) = row.1.key :=
    fun row hrow => congrArg (·, row.1.caseKey) (mem_casesByRun.mp hrow).2.2.1
  rw [List.map_congr_left hrun]
  have hone : ∀ c : CaseRow, (select t.runs fun r => ((eq (some r.id) (some c.runId)).and
      (eq c.cacheKey (some key))).and (visibleRun policy vis r)).length ≤ 1 := by
    intro c
    set found := select t.runs fun r => ((eq (some r.id) (some c.runId)).and
      (eq c.cacheKey (some key))).and (visibleRun policy vis r) with hfound
    have hid : ∀ id ∈ found.map RunRow.id, id = c.runId := by
      intro id hid
      obtain ⟨r, hr, rfl⟩ := List.mem_map.mp hid
      have hcondition := (mem_select.mp hr).2
      rw [Truth.isTrue_and, Truth.isTrue_and, isTrue_eq] at hcondition
      exact Option.some.inj hcondition.1.1.2
    have hnodup : (found.map RunRow.id).Nodup := h.runKey.sublist (List.filter_sublist.map _)
    rw [List.eq_replicate_of_mem hid, List.nodup_replicate, List.length_map] at hnodup
    exact hnodup
  have hsub : ((visibleCases policy vis t fun c _ => eq c.cacheKey (some key)).map
      Prod.fst).Sublist t.cases := join_fst_sublist fun c _ => hone c
  have hcases : ((visibleCases policy vis t fun c _ => eq c.cacheKey (some key)).map
      fun row => row.1.key).Nodup := by
    have hkeys := h.caseKey.sublist (hsub.map CaseRow.key)
    rwa [List.map_map] at hkeys
  have hnodup : ((casesByRun policy vis t key).map fun row => row.1.key).Nodup :=
    (((List.perm_insertionSort _ _).map _).nodup_iff).mpr hcases
  refine (List.perm_ext_iff_of_nodup hnodup
    (h.caseKey.sublist (List.filter_sublist.map _))).mpr fun k => ?_
  simp only [List.mem_map, mem_casesByRun, List.mem_filter, decide_eq_true_eq]
  constructor
  · rintro ⟨row, ⟨hc, hr, hid, hkey, hvisible⟩, rfl⟩
    exact ⟨row.1, ⟨hc, hkey, row.2, hr, hid, hvisible⟩, rfl⟩
  · rintro ⟨c, ⟨hc, hkey, r, hr, hid, hvisible⟩, rfl⟩
    exact ⟨(c, r), ⟨hc, hr, hid, hkey, hvisible⟩, rfl⟩

/-- The rows read for a page: what is left of the cases, up to one more than the page. -/
theorem entryRuns_rows (hmax : 1 ≤ max) (cursor : Option String) :
    Sql.limit (max + 1) (orderBy (fun a b : CaseOfRun => newestFirst a.2 b.2)
      (visibleCases policy vis t fun c r => (eq c.cacheKey (some key)).and
        (allOf (clauseFor (cursor.bind decodeCursor) afterCursor) r))) =
      (left CaseOfRun.isAfter (casesByRun policy vis t key) cursor).take (max.toNat + 1) := by
  have hnonneg : ¬ max + 1 < 0 := by omega
  have hnat : (max + 1).toNat = max.toNat + 1 := by omega
  have hjoin : (visibleCases policy vis t fun c r => (eq c.cacheKey (some key)).and
      (allOf (clauseFor (cursor.bind decodeCursor) afterCursor) r)) =
      (visibleCases policy vis t fun c _ => eq c.cacheKey (some key)).filter fun row =>
        decide (allOf (clauseFor (cursor.bind decodeCursor) afterCursor) row.2).IsTrue := by
    refine join_and fun c r => ?_
    simp only [Truth.isTrue_and, decide_eq_true_eq]
    tauto
  rw [Sql.limit, if_neg hnonneg, hnat, hjoin, orderBy_filter, ← casesByRun]
  cases cursor with
  | none =>
    refine congrArg _ (List.filter_eq_self.mpr fun row _ => decide_eq_true (isTrue_allOf.mpr ?_))
    simp
  | some c => rfl

/-- **A page of the response** is a page of the cases with the key. -/
theorem entryRuns_page_eq (hmax : 1 ≤ max) (u : Unit) (cursor : Option String) :
    ((entryRunsPage policy vis t key max u cursor).next =
        (fetch CaseOfRun.cursor CaseOfRun.isAfter max.toNat
          (fun _ : Unit => casesByRun policy vis t key) u cursor).next) ∧
      (entryRunsPage policy vis t key max u cursor).rows.map CacheEntryRunRef.key =
        (fetch CaseOfRun.cursor CaseOfRun.isAfter max.toNat
          (fun _ : Unit => casesByRun policy vis t key) u cursor).rows.map
            fun row => (row.2.id, row.1.caseKey) := by
  rw [entryRunsPage, entryRuns]
  simp only [entryRuns_rows hmax, fetch]
  generalize left CaseOfRun.isAfter (casesByRun policy vis t key) cursor = rest
  obtain ⟨hfull, htake, hle⟩ | ⟨hfull, htake, hlt⟩ := take_row_more (by omega : 0 ≤ max) rest
  · -- everything that is left fits, so the row more is not there
    rw [pageOf_last hle, if_neg hfull, if_neg hfull, htake, List.map_map]
    exact ⟨rfl, rfl⟩
  · rw [if_pos hfull, if_pos hfull, htake, pageOf, if_pos hlt, List.map_map]
    exact ⟨rfl, rfl⟩

/-! ### Where pages end -/

theorem not_before_of_newestFirst {a b : RunRow} (h : newestFirst a b) : ¬ b.Before a := by
  intro hba
  obtain hab | ⟨hcreated, hid⟩ := h
  · obtain hlt | ⟨heq, -⟩ := hba
    · exact lt_asymm hab hlt
    · exact hab.ne heq.symm
  · obtain hlt | ⟨-, hlt⟩ := hba
    · exact hlt.ne hcreated.symm
    · exact hid.not_gt hlt

theorem before_of_newestFirst {a b : RunRow} (h : newestFirst a b) (hne : a.id ≠ b.id) :
    a.Before b := by
  obtain hlt | ⟨heq, hle⟩ := h
  · exact .inl hlt
  · exact .inr ⟨heq, lt_of_le_of_ne hle hne.symm⟩

theorem casesByRun_pairwise (policy : PolicyTables) (vis : RunVisibility) (t : RunTables)
    (key : String) :
    (casesByRun policy vis t key).Pairwise fun a b => newestFirst a.2 b.2 :=
  List.pairwise_insertionSort _ _

instance : Std.Refl fun a b : CaseOfRun => newestFirst a.2 b.2 where
  refl := fun _ => .inr ⟨rfl, le_rfl⟩

/-- No case is after the cursor of a later one. -/
theorem not_isAfter (a b : CaseOfRun) (h : newestFirst a.2 b.2) : a.isAfter b.cursor = false :=
  Bool.eq_false_iff.mpr fun hafter => not_before_of_newestFirst h (isAfter_cursor.mp hafter)

/-- What does not come before a case that is after a cursor is after it too. -/
theorem case_isAfter_mono (cursor : String) (a b : CaseOfRun) (ha : a.isAfter cursor = true)
    (hab : newestFirst a.2 b.2) : b.isAfter cursor = true := isAfter_mono ha hab

/-- The cursor of a case leaves a final part of the cases after it. -/
theorem casesByRun_forward {front back : List CaseOfRun} {a : CaseOfRun}
    (hsplit : casesByRun policy vis t key = front ++ a :: back) :
    (casesByRun policy vis t key).filter (CaseOfRun.isAfter a.cursor) <:+ back := by
  have hordered := casesByRun_pairwise policy vis t key
  rw [hsplit] at hordered ⊢
  rw [filter_split not_isAfter hordered]
  have hback := (List.pairwise_cons.mp (List.pairwise_append.mp hordered).2.1).2
  exact filter_suffix (case_isAfter_mono a.cursor) hback

/-- Of the cases that do not come before it, a cursor leaves those of other runs. -/
theorem isAfter_iff (h : t.WellFormed) {a b : CaseOfRun} (ha : a ∈ casesByRun policy vis t key)
    (hb : b ∈ casesByRun policy vis t key) (hab : newestFirst a.2 b.2) :
    b.isAfter a.cursor = true ↔ a.1.runId ≠ b.1.runId := by
  obtain ⟨-, harun, haid, -⟩ := mem_casesByRun.mp ha
  obtain ⟨-, hbrun, hbid, -⟩ := mem_casesByRun.mp hb
  rw [← haid, ← hbid]
  constructor
  · -- an id is the key of a run, and no run comes before itself
    intro hafter hid
    have heq : a.2 = b.2 := List.inj_on_of_nodup_map h.runKey harun hbrun hid
    have hbefore : a.2.Before b.2 := isAfter_cursor.mp hafter
    rw [heq] at hbefore
    exact Std.Irrefl.irrefl _ hbefore
  · exact fun hne => isAfter_cursor.mpr (before_of_newestFirst hab hne)

theorem casesByRun_nodup (h : t.WellFormed) : (casesByRun policy vis t key).Nodup := by
  have hcases : ((casesWithKey policy vis t key).map CaseRow.key).Nodup :=
    h.caseKey.sublist (List.filter_sublist.map _)
  exact ((casesByRun_perm h).nodup_iff.mpr hcases).of_map _

/-- Pages are cut right exactly when they end between runs. -/
theorem cuts_iff (h : t.WellFormed) :
    Cuts CaseOfRun.cursor CaseOfRun.isAfter max.toNat (casesByRun policy vis t key) ↔
      EndsBetweenRuns policy vis t key max := by
  have hordered := casesByRun_pairwise policy vis t key
  rw [cuts_iff_ends (casesByRun_nodup h) hordered case_isAfter_mono, EndsBetweenRuns]
  refine forall₄_congr fun front a b back => forall_congr' fun hsplit => forall_congr' fun _ => ?_
  have hmem : ∀ x ∈ a :: b :: back, x ∈ casesByRun policy vis t key := fun x hx =>
    hsplit ▸ List.mem_append_right front hx
  rw [hsplit] at hordered
  have hab := (List.pairwise_cons.mp (List.pairwise_append.mp hordered).2.1).1 b List.mem_cons_self
  rw [isAfter_iff h (hmem a (by simp)) (hmem b (by simp)) hab]
  exact and_iff_right (not_isAfter a a (.inr ⟨rfl, le_rfl⟩))

/-- The pages of an unchanging table, as pages of its cases. -/
theorem entryRuns_follow (hmax : 1 ≤ max) (n : ℕ) :
    (returned (follow (entryRunsPage policy vis t key max) none (.replicate n ()))).map
        CacheEntryRunRef.key =
      (returned (follow (fetch CaseOfRun.cursor CaseOfRun.isAfter max.toNat
        fun _ => casesByRun policy vis t key) none (.replicate n ()))).map
          (fun row => (row.2.id, row.1.caseKey)) ∧
      (Ended (follow (entryRunsPage policy vis t key max) none (.replicate n ())) ↔
        Ended (follow (fetch CaseOfRun.cursor CaseOfRun.isAfter max.toNat
          fun _ => casesByRun policy vis t key) none (.replicate n ()))) :=
  follow_map (fun u _ c => (entryRuns_page_eq hmax u c).1)
    (fun u _ c => (entryRuns_page_eq hmax u c).2) none

end

/-- **Every case with the key is listed exactly when no page ends inside a run.** -/
theorem entry_runs_complete_iff (policy : PolicyTables) (vis : RunVisibility) (db : RunsDb)
    (key : String) {max : ℤ} (hmax : 1 ≤ max) :
    ListsEveryCase policy vis db.1 key max ↔ EndsBetweenRuns policy vis db.1 key max := by
  have hpos : 0 < max.toNat := by omega
  have hkeys : ((casesByRun policy vis db.1 key).map fun row => (row.2.id, row.1.caseKey)).Perm
      ((casesWithKey policy vis db.1 key).map CaseRow.key) := casesByRun_perm db.2
  rw [← cuts_iff db.2]
  constructor
  · rintro ⟨n, -, hperm⟩
    rw [(entryRuns_follow hmax n).1] at hperm
    refine cuts_of_length hpos (casesByRun_nodup db.2)
      (fun _ _ _ hsplit => casesByRun_forward hsplit) () n ?_
    have hlength := (hperm.trans hkeys.symm).length_eq
    rwa [List.length_map, List.length_map] at hlength
  · intro hcuts
    obtain ⟨hreturned, hended⟩ := follow_exact hpos hcuts ()
      ((casesByRun policy vis db.1 key).length + 1) [] (casesByRun policy vis db.1 key) none rfl
      (Nat.dvd_zero _) rfl (Nat.lt_succ_self _)
    obtain ⟨hlisted, hends⟩ := entryRuns_follow hmax ((casesByRun policy vis db.1 key).length + 1)
    refine ⟨_, hends.mpr hended, ?_⟩
    rw [hlisted, hreturned]
    exact hkeys

/-! ### Two cases of one run -/

/-- A case that passed, answered under the key `k`. -/
def keyedCase (caseKey : String) : PreparedCase where
  caseKey := caseKey
  idx := 0
  name := none
  status := "pass"
  outputPreview := none
  outputText := none
  outputHash := none
  asserts := none
  promptTokens := none
  completionTokens := none
  costMicrousd := none
  latencyMs := none
  detail := []
  providerId := none
  promptId := none
  testId := none
  repeatIdx := none
  score := none
  stopReason := none
  cached := none
  error := none
  promptDigest := none
  providerDigest := none
  assertDigest := none
  errorClass := none
  cacheKey := some "k"
  emptyReason := none
  answeredByProviderId := none
  tags := []
  promptText := none

/-- A run in which a cell was repeated. -/
def repeatedCell : RunsDb :=
  Ingest.emptyRuns.upload
    { Ingest.bareUpload with cases := [keyedCase "cell#0", keyedCase "cell#1"] }

theorem repeatedCell_listed : ListsEveryCase noPolicy .full repeatedCell.1 "k" 2 := by
  refine (entry_runs_complete_iff noPolicy .full repeatedCell "k" (by decide)).mpr ?_
  intro front a b back hsplit hdvd
  have hlength : (casesByRun noPolicy .full repeatedCell.1 "k").length = 2 := rfl
  rw [hsplit, List.length_append, List.length_cons, List.length_cons] at hlength
  have hfront : front.length = 0 := by omega
  rw [hfront] at hdvd
  exact absurd hdvd (by decide)

/-- **A page that ends inside a run loses its other cases.** -/
theorem entry_runs_lose_case : ¬ ListsEveryCase noPolicy .full repeatedCell.1 "k" 1 := by
  have hfirst : (entryRunsPage noPolicy .full repeatedCell.1 "k" 1 () none).rows.length = 1 ∧
      (entryRunsPage noPolicy .full repeatedCell.1 "k" 1 () none).next =
        some (encodeCursor 0 "r1") := ⟨rfl, rfl⟩
  -- the other case is of the run that the cursor names
  have hcursor : decodeCursor (encodeCursor 0 "r1") = some (⟨0, by decide⟩, "r1") :=
    decodeCursor_encodeCursor ⟨0, by decide⟩ "r1"
  have hsecond : entryRunsPage noPolicy .full repeatedCell.1 "k" 1 () (some (encodeCursor 0 "r1")) =
      ⟨[], none⟩ := by
    rw [entryRunsPage, Option.bind_some, hcursor]
    rfl
  rintro ⟨n, hended, hperm⟩
  have hlength := hperm.length_eq
  rw [List.length_map] at hlength
  cases n with
  | zero => exact not_ended_nil hended
  | succ n =>
    rw [List.replicate_succ, follow_more hfirst.2, returned_cons, List.length_append,
      hfirst.1] at hlength
    cases n with
    | zero =>
      revert hlength
      exact by decide
    | succ n =>
      rw [List.replicate_succ, follow_last (by rw [hsecond]), hsecond] at hlength
      revert hlength
      exact by decide
