/-
The matrix of a run holds its cases and what they cost.

The pages of the matrix are read one after the other.  Over all of them each case is in one cell;
the bills, which are on every page, are those of the run.  Two counts are kept twice: a case that
another provider answered is counted by the cell that shows it and by the summary of the run, and
what a provider cost is added up in 64 bits.

* **`matrix_conserves_iff`** — the matrix of a stored run, and when it agrees with the summary of
  its cases and with their costs;
* **`blank_answerer_counted`** — a case that says it was answered by a provider without a name.
-/
import Domarinn.MatrixPages
import Mathlib.Data.List.Dedup

open Sql Keyset

/-- The matrix of a run over all its pages, beside its case rows and the cases that these are
of. -/
structure MatrixConserves (policy : PolicyTables) (t : RunTables) (f : MatrixFilter)
    (rows : List CaseRow) (cases : List CaseDocument) : Prop where
  answered : ∀ cursor, ∃ response, f.respond policy t cursor = .ok response
  ends : Ended (f.pages policy t)
  /-- Each test has one row. -/
  tests : ((returned (f.pages policy t)).map MatrixRow.testId).Nodup ∧
    ∀ test, test ∈ (returned (f.pages policy t)).map MatrixRow.testId ↔
      ∃ c ∈ rows, c.testId = some test
  /-- A cell counts each of its cases under one status. -/
  counts : ∀ cell ∈ cellsShown (returned (f.pages policy t)),
    cell.passed + cell.failed + cell.errored + cell.skipped + cell.xfailed + cell.xpassed =
      cell.total
  totals : ((cellsShown (returned (f.pages policy t))).map MatrixCell.total).sum = rows.length
  /-- Each case is in one cell. -/
  keys : (rows.map fun c => c.caseKey).Nodup ∧
    ((cellsShown (returned (f.pages policy t))).flatMap MatrixCell.caseKeys).Perm
      (rows.map fun c => c.caseKey)
  /-- The bills are the same on every page, and those of the run. -/
  bills : ∃ bills : List ProviderCost,
    (∀ cursor response, f.respond policy t cursor = .ok response →
      response.providerCosts = bills) ∧
    (bills.map ProviderCost.cases).sum = rows.length ∧
    (bills.map fun bill => bill.costUsd.getD 0).sum =
      (rows.map fun c => (fromMicrousd c.costMicrousd).getD 0).sum
  fallback : ∀ s, summarize (cases.map CaseDocument.toCaseResult) = some s →
    ((cellsShown (returned (f.pages policy t))).map MatrixCell.fallbackAnswered).sum =
      s.fallbackCases

/-- Cases that the matrix and the summary count alike. -/
structure Conservable (cases : List CaseDocument) : Prop where
  /-- No graded case was answered by a provider without a name; or there is no summary. -/
  graded : TokensFit (cases.map CaseDocument.toCaseResult) →
    ∀ c ∈ cases, c.status ≠ .skip → c.answeredByProviderId ≠ some ""
  /-- The sums of what each provider cost do not wrap around, or as often up as down. -/
  costs : (((cases.map CaseDocument.answerer).dedup).map fun p =>
    (((cases.filter (·.answerer = p)).map CaseDocument.micros).sum).bdiv (2 ^ 64)).sum = 0

/-! ### Counts and sums -/

/-- Of two counts, the finer one is the other where it leaves nothing out. -/
theorem countP_eq_iff {α : Type} {p q : α → Bool} (himp : ∀ x, p x → q x) : ∀ l : List α,
    l.countP p = l.countP q ↔ ∀ x ∈ l, q x → p x
  | [] => by simp
  | x :: xs => by
    have hle : xs.countP p ≤ xs.countP q := List.countP_mono_left fun x _ => himp x
    rw [List.forall_mem_cons, ← countP_eq_iff himp xs, List.countP_cons, List.countP_cons]
    have hx := himp x
    cases hp : p x <;> cases hq : q x <;> simp_all
    omega

/-- A sum of dollars is the sum of its micro-dollars. -/
theorem sum_usd : ∀ micros : List ℤ,
    (micros.map fun m : ℤ => (m : ℚ) / 1000000).sum = (micros.sum : ℚ) / 1000000
  | [] => by simp
  | m :: micros => by
    rw [List.map_cons, List.sum_cons, sum_usd micros, List.sum_cons, Int.cast_add, add_div]

/-- What sums that wrap around leave out of the sum. -/
theorem sum_bmod (m : ℕ) : ∀ sums : List ℤ,
    (sums.map (Int.bmod · m)).sum + m * (sums.map (Int.bdiv · m)).sum = sums.sum
  | [] => by simp
  | s :: sums => by
    rw [List.map_cons, List.sum_cons, List.map_cons, List.sum_cons, List.sum_cons,
      ← sum_bmod m sums, mul_add, add_add_add_comm, Int.bmod_add_bdiv]

theorem sum_bmod_eq_iff {m : ℕ} (hm : m ≠ 0) (sums : List ℤ) :
    (sums.map (Int.bmod · m)).sum = sums.sum ↔ (sums.map (Int.bdiv · m)).sum = 0 := by
  rw [← sum_bmod m sums, left_eq_add, mul_eq_zero, or_iff_right (Nat.cast_ne_zero.mpr hm)]

theorem coe_flatMap {α β : Type} (f : α → List β) : ∀ l : List α,
    ((l.flatMap f : List β) : Multiset β) = (l.map fun x => (f x : Multiset β)).sum
  | [] => rfl
  | x :: xs => by
    rw [List.flatMap_cons, ← Multiset.coe_add, coe_flatMap f xs, List.map_cons, List.sum_cons]

section
variable {codec : IngestCodec} {t : RunTables} {run : RunDocument} {policy : PolicyTables}
  {f : MatrixFilter} {rows : List CaseRow} {raws : List RawCase}

theorem isSome_emptyToNone (value : Option String) :
    (emptyToNone value).isSome ↔ value.isSome ∧ value ≠ some "" := by
  cases value with
  | none => simp [emptyToNone]
  | some value => by_cases h : value = "" <;> simp [emptyToNone, h]

/-! ### The cells -/

/-- A number that is added up over the cells. -/
theorem ScannedRun.sum_shown (h : ScannedRun codec policy t f run rows raws)
    (hlimit : 1 ≤ f.limit) {m : CellAcc → ℕ} {d : RawCase → ℕ} (hempty : m CellAcc.empty = 0)
    (hadd : ∀ raw cell, m (cell.add raw) = m cell + d raw) {g : MatrixCell → ℕ}
    (hg : ∀ acc, g (CellAcc.finalize acc) = m acc) :
    ((cellsShown (returned (f.pages policy t))).map g).sum = (raws.map d).sum := by
  rw [((h.cells_perm hlimit).map g).sum_eq, List.map_map, ← sum_cells hempty hadd raws h.tests]
  congr 1
  exact List.map_congr_left fun acc _ => hg acc

theorem ScannedRun.totals (h : ScannedRun codec policy t f run rows raws) (hlimit : 1 ≤ f.limit) :
    ((cellsShown (returned (f.pages policy t))).map MatrixCell.total).sum =
      (casesOf t f.runId).length := by
  have hsum := h.sum_shown hlimit (m := CellAcc.total) (d := fun _ => 1) (g := MatrixCell.total)
    rfl (fun _ _ => rfl) fun _ => rfl
  rw [hsum, List.map_const', List.sum_replicate, smul_eq_mul, mul_one, h.length_eq]

theorem ScannedRun.fallback (h : ScannedRun codec policy t f run rows raws)
    (hlimit : 1 ≤ f.limit) :
    ((cellsShown (returned (f.pages policy t))).map MatrixCell.fallbackAnswered).sum =
      raws.countP RawCase.handedOver := by
  have hsum := h.sum_shown hlimit (m := CellAcc.fallbackAnswered)
    (d := fun raw => if raw.handedOver then 1 else 0) (g := MatrixCell.fallbackAnswered)
    rfl (fun _ _ => rfl) fun _ => rfl
  rw [hsum, sum_ite_eq_countP]
  simp

/-- Each case is counted under its status. -/
theorem ScannedRun.counts (h : ScannedRun codec policy t f run rows raws) (hlimit : 1 ≤ f.limit) :
    ∀ cell ∈ cellsShown (returned (f.pages policy t)),
      cell.passed + cell.failed + cell.errored + cell.skipped + cell.xfailed + cell.xpassed =
        cell.total := by
  intro cell hcell
  obtain ⟨acc, hacc, rfl⟩ := List.mem_map.mp ((h.cells_perm hlimit).mem_iff.mp hcell)
  refine forall_cells (P := fun acc => acc.passed + acc.failed + acc.errored + acc.skipped +
    acc.xfailed + acc.xpassed = acc.total) rfl ?_ raws h.tests acc hacc
  intro raw cell hcell
  rw [CellAcc.add]
  cases raw.status <;> simp <;> omega

theorem ScannedRun.keys (h : ScannedRun codec policy t f run rows raws) (hlimit : 1 ≤ f.limit) :
    ((cellsShown (returned (f.pages policy t))).flatMap MatrixCell.caseKeys).Perm
      ((casesOf t f.runId).map fun c => c.caseKey) := by
  have hcell : ∀ acc : CellAcc,
      acc.finalize.caseKeys.Perm (acc.caseKeys.map fun key => key.2.2) := fun acc =>
    (List.perm_insertionSort _ _).map _
  have hscan : ((scanCases raws).allCells.flatMap fun acc =>
      acc.caseKeys.map fun key => key.2.2).Perm (raws.map RawCase.caseKey) := by
    rw [← Multiset.coe_eq_coe, coe_flatMap]
    have hadd (raw : RawCase) (cell : CellAcc) :
        (((cell.add raw).caseKeys.map fun key => key.2.2 : List String) : Multiset String) =
          ((cell.caseKeys.map fun key => key.2.2 : List String) : Multiset String) +
            {raw.caseKey} := by
      show (((cell.caseKeys ++ [(raw.repeatIdx, raw.idx, raw.caseKey)]).map fun key => key.2.2 :
        List String) : Multiset String) = _
      rw [List.map_append, ← Multiset.coe_add]
      rfl
    have hone : raws.map RawCase.caseKey = raws.flatMap fun raw => [raw.caseKey] :=
      List.map_eq_flatMap
    rw [hone, coe_flatMap, sum_cells rfl hadd raws h.tests]
    rfl
  have hshown := (h.cells_perm hlimit).flatMap_right MatrixCell.caseKeys
  rw [List.flatMap_map] at hshown
  exact hshown.trans ((List.Perm.flatMap_left _ fun acc _ => hcell acc).trans
    (hscan.trans (h.map_rows fun _ _ hd => hd.caseKey.symm)))

/-! ### The bills -/

/-- The bills of a scan, as every page has them. -/
def MatrixScan.bills (scan : MatrixScan) : List ProviderCost :=
  scan.costs.map fun acc =>
    { providerId := acc.providerId
      cases := acc.cases
      costUsd := if acc.costAny then fromMicrousd (some acc.costMicroSum) else none }

theorem ScannedRun.providerCosts (h : ScannedRun codec policy t f run rows raws)
    (cursor : Option String) {response : MatrixResponse}
    (hresponse : f.respond policy t cursor = .ok response) :
    response.providerCosts = (scanCases raws).bills := by
  rw [h.query] at hresponse
  rw [← Except.ok.inj hresponse]
  rfl

theorem ScannedRun.bill_cases (h : ScannedRun codec policy t f run rows raws) :
    ((scanCases raws).bills.map ProviderCost.cases).sum = (casesOf t f.runId).length := by
  rw [← h.length_eq, ← sum_bills raws h.tests, MatrixScan.bills, List.map_map]
  rfl

/-- The sum that a provider is billed, and what it cost. -/
theorem Billed.costMicroSum_eq {keep : List RawCase} {acc : ProviderCostAcc}
    (h : Billed keep acc) :
    ((if acc.costAny then fromMicrousd (some acc.costMicroSum) else none).getD 0 : ℚ) =
      (((keep.map RawCase.micros).sum.bmod (2 ^ 64) : ℤ) : ℚ) / 1000000 := by
  cases hany : acc.costAny with
  | true => rw [if_pos rfl, h.1]; rfl
  | false =>
    -- a provider none of whose cases has a cost
    have hzero : keep.map RawCase.micros = keep.map fun _ => 0 :=
      List.map_congr_left fun raw hraw => by rw [RawCase.micros, h.2 hany raw hraw]; rfl
    rw [hzero, List.map_const', List.sum_replicate]
    simp

/-- What the cases of a provider cost, on the rows and in the documents. -/
theorem ScannedRun.cost_of (h : ScannedRun codec policy t f run rows raws) (p : String) :
    ((raws.filter (·.answerer = p)).map RawCase.micros).sum =
      (((run.casesAt (casesOf t f.runId)).filter (·.answerer = p)).map
        CaseDocument.micros).sum := by
  have hpairs := h.map_cases (g := fun raw => (raw.answerer, raw.micros))
    (k := fun c => (c.answerer, c.micros)) fun _ _ => rfl
  have hfiltered := ((hpairs.filter fun pair => pair.1 = p).map Prod.snd).sum_eq
  rw [List.filter_map, List.filter_map, List.map_map, List.map_map] at hfiltered
  exact hfiltered

/-- The providers that are billed, each once. -/
theorem ScannedRun.providers_perm (h : ScannedRun codec policy t f run rows raws) :
    ((scanCases raws).costs.map ProviderCostAcc.providerId).Perm
      ((run.casesAt (casesOf t f.runId)).map CaseDocument.answerer).dedup := by
  refine (List.perm_ext_iff_of_nodup h.scanned.providers.1 (List.nodup_dedup _)).mpr fun p => ?_
  have hanswerers := h.map_cases (g := RawCase.answerer) (k := CaseDocument.answerer)
    fun _ _ => rfl
  rw [h.scanned.providers.2, List.mem_dedup, hanswerers.mem_iff]

/-- **The bills are the costs of the run** where no sum wraps around for good. -/
theorem ScannedRun.bill_costs_iff (h : ScannedRun codec policy t f run rows raws) :
    ((scanCases raws).bills.map fun bill => bill.costUsd.getD 0).sum =
        ((casesOf t f.runId).map fun c => (fromMicrousd c.costMicrousd).getD 0).sum ↔
      ((((run.casesAt (casesOf t f.runId)).map CaseDocument.answerer).dedup).map fun p =>
        ((((run.casesAt (casesOf t f.runId)).filter (·.answerer = p)).map
          CaseDocument.micros).sum).bdiv (2 ^ 64)).sum = 0 := by
  set providers := (scanCases raws).costs.map ProviderCostAcc.providerId with hproviders
  set sums := providers.map fun p => ((raws.filter (·.answerer = p)).map RawCase.micros).sum
    with hsums
  -- the bills are the sums as far as they wrap around
  have hbills : ((scanCases raws).bills.map fun bill => bill.costUsd.getD 0) =
      (sums.map (Int.bmod · (2 ^ 64))).map fun m : ℤ => (m : ℚ) / 1000000 := by
    rw [MatrixScan.bills, List.map_map, hsums, hproviders, List.map_map, List.map_map,
      List.map_map]
    exact List.map_congr_left fun acc hacc => (h.scanned.billed acc hacc).costMicroSum_eq
  -- and the run cost all that was billed
  have hrun : ((casesOf t f.runId).map fun c => (fromMicrousd c.costMicrousd).getD 0).sum =
      (sums.sum : ℚ) / 1000000 := by
    have hrows := h.map_rows (g := fun raw => (fromMicrousd raw.costMicrousd).getD 0)
      (k := fun c => (fromMicrousd c.costMicrousd).getD 0) fun _ _ hd => by rw [hd.cost]; rfl
    have hmicros : raws.map (fun raw => (fromMicrousd raw.costMicrousd).getD 0) =
        (raws.map RawCase.micros).map fun m : ℤ => (m : ℚ) / 1000000 := by
      rw [List.map_map]
      refine List.map_congr_left fun raw _ => ?_
      rw [Function.comp_apply, RawCase.micros]
      cases raw.costMicrousd <;> simp [fromMicrousd]
    rw [← hrows.sum_eq, hmicros, sum_usd, hsums, sum_by_key h.scanned.providers.1 _ _
      fun raw hraw => (h.scanned.providers.2 _).mpr (List.mem_map_of_mem hraw)]
  have hdocuments : sums = providers.map fun p =>
      (((run.casesAt (casesOf t f.runId)).filter (·.answerer = p)).map CaseDocument.micros).sum :=
    List.map_congr_left fun p _ => h.cost_of p
  rw [hbills, sum_usd, hrun, div_left_inj' (by norm_num), Int.cast_inj,
    sum_bmod_eq_iff (by norm_num), hdocuments, List.map_map,
    (h.providers_perm.map _).sum_eq]
  rfl

/-! ### The whole matrix -/

/-- The count of the summary, and the one of the cells. -/
theorem ScannedRun.fallback_iff (h : ScannedRun codec policy t f run rows raws)
    (hlimit : 1 ≤ f.limit) :
    (∀ s, summarize ((run.casesAt (casesOf t f.runId)).map CaseDocument.toCaseResult) = some s →
        ((cellsShown (returned (f.pages policy t))).map MatrixCell.fallbackAnswered).sum =
          s.fallbackCases) ↔
      (TokensFit ((run.casesAt (casesOf t f.runId)).map CaseDocument.toCaseResult) →
        ∀ c ∈ run.casesAt (casesOf t f.runId), c.status ≠ .skip →
          c.answeredByProviderId ≠ some "") := by
  set cases := run.casesAt (casesOf t f.runId) with hcases
  set named : CaseDocument → Bool := fun c =>
    (emptyToNone c.answeredByProviderId).isSome && c.status ≠ .skip with hnamed
  set answered : CaseDocument → Bool := fun c => c.toCaseResult.fellBack with hanswered
  have hcells : ((cellsShown (returned (f.pages policy t))).map
      MatrixCell.fallbackAnswered).sum = cases.countP named := by
    have hhanded := h.map_cases (g := RawCase.handedOver) (k := named) fun _ _ => rfl
    have hcount := hhanded.countP_eq id
    rw [List.countP_map, List.countP_map] at hcount
    rw [h.fallback hlimit]
    exact hcount
  have hboth : ∀ c, (named c → answered c) ∧
      ((answered c → named c) ↔ (c.status ≠ .skip → c.answeredByProviderId ≠ some "")) := by
    intro c
    have hfell : answered c = decide (c.status ≠ .skip ∧ c.answeredByProviderId.isSome) := rfl
    simp only [hfell, hnamed, Bool.and_eq_true, decide_eq_true_eq, isSome_emptyToNone]
    exact ⟨fun hc => ⟨hc.2, hc.1.1⟩, fun hc hgraded hblank =>
      (hc ⟨hgraded, by rw [hblank]; rfl⟩).1.2 hblank, fun hc hfell =>
      ⟨⟨hfell.2, hc hfell.1⟩, hfell.1⟩⟩
  have hall : (∀ c ∈ cases, answered c → named c) ↔
      ∀ c ∈ cases, c.status ≠ .skip → c.answeredByProviderId ≠ some "" :=
    forall₂_congr fun c _ => (hboth c).2
  have hsummary : (cases.map CaseDocument.toCaseResult).countP CaseResult.fellBack =
      cases.countP answered := List.countP_map
  rw [hcells, ← hall, ← countP_eq_iff fun c => (hboth c).1, ← hsummary]
  constructor
  · exact fun hsame hfit => hsame _ (summarize_eq_some.mpr ⟨hfit, rfl⟩)
  · intro hcount s hs
    obtain ⟨hfit, rfl⟩ := summarize_eq_some.mp hs
    exact hcount hfit

/-- **The matrix of a stored run conserves its cases and costs** exactly where no graded case was
answered by a provider without a name, and no sum of costs wraps around. -/
theorem matrix_conserves_iff {docs : RunDocument → Prop} {history : List StoreEvent}
    (huploads : UploadsOf codec docs history) {r : RunRow}
    (hr : r ∈ (storedAfter history).runs) (hid : r.id = f.runId) (hlimit : 1 ≤ f.limit)
    (hvisible : (visibleRunPredicate policy f.visibility (storedAfter history) f.runId).IsTrue)
    (hids : ∀ c ∈ casesOf (storedAfter history) f.runId,
      (∃ provider, c.providerId = some provider ∧ provider ≠ "") ∧
        ∃ test, c.testId = some test ∧ test ≠ "") :
    ∃ run p, docs run ∧ BuiltFrom codec (storedAfter history) r run p ∧
      (MatrixConserves policy (storedAfter history) f (casesOf (storedAfter history) f.runId)
          (run.casesAt (casesOf (storedAfter history) f.runId)) ↔
        Conservable (run.casesAt (casesOf (storedAfter history) f.runId))) := by
  obtain ⟨run, p, hdocs, hbuilt⟩ := documented_storedAfter huploads r hr
  have hwell := wellFormed_storedAfter history
  obtain ⟨rows, raws, h⟩ := scannedRun_of_built hbuilt hwell hid hvisible hids
  refine ⟨run, p, hdocs, hbuilt, fun hconserves => ⟨?_, ?_⟩, fun hable => ?_⟩
  · exact (h.fallback_iff hlimit).mp hconserves.fallback
  · obtain ⟨bills, hbills, -, hcosts⟩ := hconserves.bills
    obtain ⟨response, hresponse⟩ := hconserves.answered none
    rw [← hbills none response hresponse, h.providerCosts none hresponse] at hcosts
    exact h.bill_costs_iff.mp hcosts
  · have hrows := (h.pages_eq hlimit).1
    have htests : (returned (f.pages policy (storedAfter history))).map MatrixRow.testId =
        (scanCases raws).rows.map RowAcc.testId := by
      rw [hrows, List.map_map]
      rfl
    have htestIds := h.map_rows (g := fun raw => some raw.testId) (k := fun c => c.testId)
      fun _ _ hd => hd.testId.symm
    exact
      { answered := fun cursor => ⟨_, h.query cursor⟩
        ends := (h.pages_eq hlimit).2
        tests := by
          rw [htests]
          refine ⟨h.scanned.tests.1, fun test => ?_⟩
          rw [h.scanned.tests.2]
          have hmem := htestIds.mem_iff (a := some test)
          simp only [List.mem_map, Option.some.injEq] at hmem
          rw [List.mem_map, hmem]
        counts := h.counts hlimit
        totals := h.totals hlimit
        keys := ⟨hid ▸ (nodup_idx hbuilt hwell).2, h.keys hlimit⟩
        bills := ⟨_, fun cursor _ => h.providerCosts cursor, h.bill_cases,
          h.bill_costs_iff.mpr hable.costs⟩
        fallback := (h.fallback_iff hlimit).mpr hable.graded }

end

/-! ### An answer without a name -/

/-- The first page of the matrix of a run. -/
def wholeMatrix : MatrixFilter := ⟨"base", .full, 50, none⟩

theorem uploadsOf_firstUpload : UploadsOf plainCodec (· = passedBefore) firstUpload := by
  intro p now hp
  obtain ⟨rfl, -⟩ := RunsOp.ingest.inj (StoreEvent.change.inj (List.mem_singleton.mp hp))
  exact ⟨passedBefore, none, rfl, rfl⟩

theorem matrix_conserves_spare :
    MatrixConserves openPolicy (storedAfter firstUpload) wholeMatrix
      (casesOf (storedAfter firstUpload) "base")
      (passedBefore.casesAt (casesOf (storedAfter firstUpload) "base")) := by
  obtain ⟨r, hr, hid⟩ : ∃ r ∈ (storedAfter firstUpload).runs, r.id = wholeMatrix.runId :=
    ⟨_, .head _, rfl⟩
  obtain ⟨_, _, rfl, -, hiff⟩ := @matrix_conserves_iff _ openPolicy wholeMatrix _ _
    uploadsOf_firstUpload r hr hid (by decide) rfl (by decide)
  exact hiff.mpr ⟨fun _ => by decide, by decide⟩

/-- A passed case that says it was answered by a provider without a name. -/
def blankAnswerer : RunDocument :=
  documentOf "base" [{ taggedCase "a" [] with answeredByProviderId := some "" }] (by decide)

def blankUpload : List StoreEvent :=
  [.change (.ingest (plainUpload blankAnswerer) ⟨0, zero_fits⟩)]

/-- The summary counts a fallback that no cell of the matrix shows. -/
theorem blank_answerer_counted : ¬ ∀ codec docs history policy f r,
    UploadsOf codec docs history → r ∈ (storedAfter history).runs → r.id = f.runId →
      1 ≤ f.limit →
      (visibleRunPredicate policy f.visibility (storedAfter history) f.runId).IsTrue →
      (∀ c ∈ casesOf (storedAfter history) f.runId,
        (∃ provider, c.providerId = some provider ∧ provider ≠ "") ∧
          ∃ test, c.testId = some test ∧ test ≠ "") →
      ∃ run p, docs run ∧ BuiltFrom codec (storedAfter history) r run p ∧
        MatrixConserves policy (storedAfter history) f (casesOf (storedAfter history) f.runId)
          (run.casesAt (casesOf (storedAfter history) f.runId)) := by
  intro h
  have huploads : UploadsOf plainCodec (· = blankAnswerer) blankUpload := by
    intro p now hp
    obtain ⟨rfl, -⟩ := RunsOp.ingest.inj (StoreEvent.change.inj (List.mem_singleton.mp hp))
    exact ⟨blankAnswerer, none, rfl, rfl⟩
  obtain ⟨r, hr, hid⟩ : ∃ r ∈ (storedAfter blankUpload).runs, r.id = wholeMatrix.runId :=
    ⟨_, .head _, rfl⟩
  obtain ⟨_, _, rfl, -, hconserves⟩ := h plainCodec (· = blankAnswerer) blankUpload openPolicy
    wholeMatrix r huploads hr hid (by decide) rfl (by decide)
  have hsummary := hconserves.fallback _ (summarize_eq_some.mpr ⟨by constructor <;> decide, rfl⟩)
  revert hsummary
  decide
