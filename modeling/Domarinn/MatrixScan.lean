/-
What the scan of a run's cases has counted.

Every case is added to the cell of its test and column, and to the bill of the provider that
answered it; columns, rows and bills are each kept in the order in which they were first seen.

* **`scanned_scanCases`** — the invariant of the scan, over all cases with a test, in order;
* **`sum_cells`** — what a cell adds up over its cases, all cells add up over all cases;
* **`matrix_rows`** — the pages of the rows end, and return each row.
-/
import Domarinn.Keyset
import Domarinn.RunMatrix
import Mathlib.Data.Multiset.Basic

open Sql Keyset

/-! ### One case more -/

/-- The provider that a case is billed to. -/
def RawCase.answerer (raw : RawCase) : String := raw.answeredBy.getD raw.providerId

def RawCase.column (raw : RawCase) : MatrixColumn := ⟨raw.providerId, raw.promptId⟩

/-- What a case cost. -/
def RawCase.micros (raw : RawCase) : ℤ := raw.costMicrousd.getD 0

/-- A case that was graded, with another provider's answer. -/
def RawCase.handedOver (raw : RawCase) : Bool := raw.answeredBy.isSome && raw.status ≠ .skip

/-- What a bill says of the cases of its provider. -/
def Billed (keep : List RawCase) (acc : ProviderCostAcc) : Prop :=
  acc.costMicroSum = ((keep.map RawCase.micros).sum).bmod (2 ^ 64) ∧
    (acc.costAny = false → ∀ raw ∈ keep, raw.costMicrousd = none)

/-- What the scan has counted of these cases. -/
structure Scanned (cases : List RawCase) (scan : MatrixScan) : Prop where
  tests : (scan.rows.map RowAcc.testId).Nodup ∧
    ∀ test, test ∈ scan.rows.map RowAcc.testId ↔ test ∈ cases.map RawCase.testId
  first : (scan.rows.map RowAcc.firstSeenIdx).Pairwise (· < ·) ∧
    ∀ row ∈ scan.rows, ∃ raw ∈ cases, row.firstSeenIdx = raw.idx
  columns : scan.columns.Nodup
  cells : ∀ row ∈ scan.rows, (row.cells.map Prod.fst).Nodup ∧
    ∀ cell ∈ row.cells, cell.1 ∈ scan.columns
  providers : (scan.costs.map ProviderCostAcc.providerId).Nodup ∧
    ∀ p, p ∈ scan.costs.map ProviderCostAcc.providerId ↔ p ∈ cases.map RawCase.answerer
  billed : ∀ acc ∈ scan.costs, Billed (cases.filter (·.answerer = acc.providerId)) acc

theorem addKnown_eq (sum : ℤ) (value : Option ℤ) (hsum : sum.bmod (2 ^ 64) = sum) :
    addKnown sum value = (sum + value.getD 0).bmod (2 ^ 64) := by
  cases value with
  | none => rw [addKnown, Option.elim_none, Option.getD_none, Int.add_zero, hsum]
  | some cost => rfl

section
variable {cases : List RawCase} {scan : MatrixScan} {raw : RawCase}

/-- The row of a test, with one case more. -/
def RowAcc.add (raw : RawCase) (row : RowAcc) : RowAcc :=
  { row with
    name := row.name <|> raw.name
    cells := updateEntry Prod.fst raw.column (raw.column, CellAcc.empty)
      (fun cell => (cell.1, cell.2.add raw)) row.cells }

/-- The row of a test that was not seen before. -/
def RawCase.newRow (raw : RawCase) : RowAcc := ⟨raw.testId, raw.idx, none, []⟩

def RawCase.newBill (raw : RawCase) : ProviderCostAcc := ⟨raw.answerer, 0, 0, false⟩

theorem testId_newRow : raw.newRow.testId = raw.testId := rfl

theorem providerId_newBill : raw.newBill.providerId = raw.answerer := rfl

theorem testId_add (row : RowAcc) : (row.add raw).testId = row.testId := rfl

theorem providerId_add (acc : ProviderCostAcc) : (acc.add raw).providerId = acc.providerId := rfl

theorem step_columns (htest : raw.testId ≠ "") : (scan.step raw).columns =
    if raw.column ∈ scan.columns then scan.columns else scan.columns ++ [raw.column] := by
  rw [MatrixScan.step, if_neg htest]
  rfl

theorem step_rows (htest : raw.testId ≠ "") : (scan.step raw).rows =
    updateEntry RowAcc.testId raw.testId raw.newRow (RowAcc.add raw) scan.rows := by
  rw [MatrixScan.step, if_neg htest]
  rfl

theorem step_costs (htest : raw.testId ≠ "") : (scan.step raw).costs =
    updateEntry ProviderCostAcc.providerId raw.answerer raw.newBill (ProviderCostAcc.add raw)
      scan.costs := by
  rw [MatrixScan.step, if_neg htest]
  rfl

theorem mem_step_columns {column : MatrixColumn} (htest : raw.testId ≠ "") :
    column ∈ (scan.step raw).columns ↔ column ∈ scan.columns ∨ column = raw.column := by
  rw [step_columns htest]
  split_ifs with hin
  · refine ⟨.inl, ?_⟩
    rintro (h | rfl)
    · exact h
    · exact hin
  · rw [List.mem_append, List.mem_singleton]

/-- The cells of a row stay apart, and in the columns. -/
theorem cells_add {row : RowAcc} {columns columns' : List MatrixColumn}
    (hsub : ∀ column, column ∈ columns' ↔ column ∈ columns ∨ column = raw.column)
    (hrow : (row.cells.map Prod.fst).Nodup ∧ ∀ cell ∈ row.cells, cell.1 ∈ columns) :
    ((row.add raw).cells.map Prod.fst).Nodup ∧
      ∀ cell ∈ (row.add raw).cells, cell.1 ∈ columns' := by
  have hkeep : ∀ cell : MatrixColumn × CellAcc, (cell.1, cell.2.add raw).1 = cell.1 :=
    fun _ => rfl
  have hnew : ((raw.column, CellAcc.empty) : MatrixColumn × CellAcc).1 = raw.column := rfl
  have hcells : (row.add raw).cells = updateEntry Prod.fst raw.column (raw.column, CellAcc.empty)
      (fun cell => (cell.1, cell.2.add raw)) row.cells := rfl
  rw [hcells]
  refine ⟨nodup_updateEntry hnew hkeep hrow.1, fun cell hcell => (hsub _).mpr ?_⟩
  obtain hold | hcolumn := (mem_keys_updateEntry hnew hkeep).mp (List.mem_map_of_mem hcell)
  · obtain ⟨cell', hcell', heq⟩ := List.mem_map.mp hold
    exact .inl (heq ▸ hrow.2 cell' hcell')
  · exact .inr hcolumn

/-- A row after a step was there before, with or without one case more, or is new. -/
theorem mem_step_rows (h : Scanned cases scan) (htest : raw.testId ≠ "") {row : RowAcc}
    (hrow : row ∈ (scan.step raw).rows) : row ∈ scan.rows ∨ (∃ b ∈ scan.rows, row = b.add raw) ∨
      row = raw.newRow.add raw := by
  rw [step_rows htest] at hrow
  obtain ⟨hold, -⟩ | ⟨b, hb, -, heq⟩ | ⟨-, heq⟩ := mem_updateEntry h.tests.1 hrow
  · exact .inl hold
  · exact .inr (.inl ⟨b, hb, heq⟩)
  · exact .inr (.inr heq)

/-! ### The bills -/

theorem Billed.add {keep : List RawCase} {acc : ProviderCostAcc} (h : Billed keep acc) :
    Billed (keep ++ [raw]) (acc.add raw) := by
  obtain ⟨hsum, hany⟩ := h
  have hfits : acc.costMicroSum.bmod (2 ^ 64) = acc.costMicroSum := by rw [hsum, Int.bmod_bmod]
  constructor
  · show addKnown acc.costMicroSum raw.costMicrousd = _
    rw [addKnown_eq _ _ hfits, hsum, Int.bmod_add_bmod, List.map_append, List.sum_append,
      List.map_singleton, List.sum_singleton]
    rfl
  · intro hnone x hx
    obtain ⟨hbefore, hraw⟩ := Bool.or_eq_false_iff.mp hnone
    obtain hx | hx := List.mem_append.mp hx
    · exact hany hbefore x hx
    · rw [List.mem_singleton.mp hx]
      exact Option.not_isSome_iff_eq_none.mp (Bool.eq_false_iff.mp hraw)

/-- The cases of a provider, with one case more. -/
theorem filter_answerer (p : String) : (cases ++ [raw]).filter (·.answerer = p) =
    cases.filter (·.answerer = p) ++ if raw.answerer = p then [raw] else [] := by
  rw [List.filter_append]
  congr 1
  split_ifs with h <;> simp [h]

/-! ### The whole scan -/

/-- **A step keeps the invariant.** -/
theorem Scanned.step (h : Scanned cases scan) (htest : raw.testId ≠ "")
    (hlater : ∀ x ∈ cases, x.idx < raw.idx) : Scanned (cases ++ [raw]) (scan.step raw) := by
  constructor
  · -- the tests
    rw [step_rows htest]
    refine ⟨nodup_updateEntry testId_newRow testId_add h.tests.1, fun test => ?_⟩
    rw [mem_keys_updateEntry testId_newRow testId_add, h.tests.2, List.map_append, List.mem_append,
      List.map_singleton, List.mem_singleton]
  · -- a new row was first seen after all others
    constructor
    · have hkeep : ∀ row : RowAcc, (row.add raw).firstSeenIdx = row.firstSeenIdx := fun _ => rfl
      rw [step_rows htest, map_updateEntry hkeep]
      split_ifs
      · exact h.first.1
      · refine List.pairwise_append.mpr ⟨h.first.1, List.pairwise_singleton _ _, ?_⟩
        rintro i hi _ hj
        obtain ⟨row, hrow, rfl⟩ := List.mem_map.mp hi
        obtain ⟨x, hx, heq⟩ := h.first.2 row hrow
        rw [List.mem_singleton.mp hj, heq]
        exact hlater x hx
    · intro row hrow
      obtain hold | ⟨b, hb, rfl⟩ | rfl := mem_step_rows h htest hrow
      · obtain ⟨x, hx, heq⟩ := h.first.2 row hold
        exact ⟨x, List.mem_append_left _ hx, heq⟩
      · obtain ⟨x, hx, heq⟩ := h.first.2 b hb
        exact ⟨x, List.mem_append_left _ hx, heq⟩
      · exact ⟨raw, by simp, rfl⟩
  · -- the columns
    rw [step_columns htest]
    split_ifs with hin
    · exact h.columns
    · refine List.nodup_append.mpr ⟨h.columns, List.pairwise_singleton _ _, ?_⟩
      rintro _ hc _ hc' rfl
      exact hin (List.mem_singleton.mp hc' ▸ hc)
  · -- the cells
    intro row hrow
    obtain hold | ⟨b, hb, rfl⟩ | rfl := mem_step_rows h htest hrow
    · exact ⟨(h.cells row hold).1, fun cell hcell =>
        (mem_step_columns htest).mpr (.inl ((h.cells row hold).2 cell hcell))⟩
    · exact cells_add (fun _ => mem_step_columns htest) (h.cells b hb)
    · exact cells_add (fun _ => mem_step_columns htest) ⟨List.nodup_nil, nofun⟩
  · -- the providers
    rw [step_costs htest]
    refine ⟨nodup_updateEntry providerId_newBill providerId_add h.providers.1, fun p => ?_⟩
    rw [mem_keys_updateEntry providerId_newBill providerId_add, h.providers.2, List.map_append,
      List.mem_append, List.map_singleton, List.mem_singleton]
  · -- the bills
    intro acc hacc
    rw [step_costs htest] at hacc
    rw [filter_answerer]
    obtain ⟨hold, hne⟩ | ⟨b, hb, hkey, rfl⟩ | ⟨hnew, rfl⟩ := mem_updateEntry h.providers.1 hacc
    · rw [if_neg (Ne.symm hne), List.append_nil]
      exact h.billed acc hold
    · rw [providerId_add, if_pos hkey.symm]
      exact (h.billed b hb).add
    · -- none of the cases before was billed to a new provider
      have hnone : cases.filter (·.answerer = raw.answerer) = [] := by
        refine List.filter_eq_nil_iff.mpr fun x hx heq => hnew ?_
        rw [← of_decide_eq_true heq]
        exact (h.providers.2 _).mpr (List.mem_map_of_mem hx)
      rw [providerId_add, providerId_newBill, if_pos rfl, hnone]
      exact Billed.add ⟨by simp [RawCase.newBill], by simp⟩

/-- **The invariant of the scan.**  By induction from the back: a step sees what the cases before
it have left. -/
theorem scanned_scanCases (cases : List RawCase) (htests : ∀ raw ∈ cases, raw.testId ≠ "")
    (hordered : cases.Pairwise fun a b => a.idx < b.idx) : Scanned cases (scanCases cases) := by
  induction cases using List.reverseRecOn with
  | nil =>
    exact ⟨⟨List.nodup_nil, by simp [scanCases]⟩, ⟨List.Pairwise.nil, by simp [scanCases]⟩,
      List.nodup_nil, by simp [scanCases], ⟨List.nodup_nil, by simp [scanCases]⟩,
      by simp [scanCases]⟩
  | append_singleton cases raw ih =>
    obtain ⟨hcases, -, hlater⟩ := List.pairwise_append.mp hordered
    rw [scanCases, List.foldl_append]
    refine Scanned.step (ih (fun x hx => htests x (List.mem_append_left _ hx)) hcases)
      (htests raw (by simp)) fun x hx => hlater x hx raw (by simp)

/-! ### Sums over the cells -/

/-- All the cells of the rows. -/
def MatrixScan.allCells (scan : MatrixScan) : List CellAcc :=
  scan.rows.flatMap fun row => row.cells.map Prod.snd

/-- **What a cell adds up over its cases**, all cells add up over all cases. -/
theorem sum_cells {M : Type} [AddCommMonoid M] {m : CellAcc → M} {d : RawCase → M}
    (hempty : m CellAcc.empty = 0) (hadd : ∀ raw cell, m (cell.add raw) = m cell + d raw)
    (cases : List RawCase) (htests : ∀ raw ∈ cases, raw.testId ≠ "") :
    ((scanCases cases).allCells.map m).sum = (cases.map d).sum := by
  have hrows : ∀ scan : MatrixScan, (scan.allCells.map m).sum =
      (scan.rows.map fun row => (row.cells.map fun cell => m cell.2).sum).sum := by
    intro scan
    rw [MatrixScan.allCells, List.map_flatMap, List.flatMap, List.sum_flatten, List.map_map]
    simp only [Function.comp_def, List.map_map]
  rw [hrows]
  induction cases using List.reverseRecOn with
  | nil => rfl
  | append_singleton cases raw ih =>
    have hrow : ∀ row : RowAcc, ((row.add raw).cells.map fun cell => m cell.2).sum =
        (row.cells.map fun cell => m cell.2).sum + d raw := by
      intro row
      have hcell : ∀ cell : MatrixColumn × CellAcc, m (cell.2.add raw) = m cell.2 + d raw :=
        fun cell => hadd raw cell.2
      exact @sum_updateEntry _ _ _ _ _ raw.column (raw.column, CellAcc.empty) _ _
        (fun cell => m cell.2) _ hempty hcell row.cells
    rw [scanCases, List.foldl_append, List.foldl_cons, List.foldl_nil,
      step_rows (htests raw (by simp)), sum_updateEntry (by rfl) hrow, List.map_append,
      List.sum_append, List.map_singleton, List.sum_singleton]
    congr 1
    exact ih fun x hx => htests x (List.mem_append_left _ hx)

/-- What a cell has from the start, and one case more keeps. -/
theorem forall_cells {P : CellAcc → Prop} (hempty : P CellAcc.empty)
    (hadd : ∀ raw cell, P cell → P (cell.add raw)) (cases : List RawCase)
    (htests : ∀ raw ∈ cases, raw.testId ≠ "") : ∀ cell ∈ (scanCases cases).allCells, P cell := by
  have hrows : ∀ row ∈ (scanCases cases).rows, ∀ cell ∈ row.cells, P cell.2 := by
    induction cases using List.reverseRecOn with
    | nil => exact nofun
    | append_singleton cases raw ih =>
      have hcell : ∀ cell : MatrixColumn × CellAcc, P cell.2 → P (cell.2.add raw) :=
        fun cell => hadd raw cell.2
      have hrow : ∀ row : RowAcc, (∀ cell ∈ row.cells, P cell.2) →
          ∀ cell ∈ (row.add raw).cells, P cell.2 := fun row hcells =>
        @forall_updateEntry _ _ _ _ raw.column (raw.column, CellAcc.empty) _ (fun cell => P cell.2)
          (hadd raw _ hempty) hcell row.cells hcells
      rw [scanCases, List.foldl_append, List.foldl_cons, List.foldl_nil,
        step_rows (htests raw (by simp))]
      exact forall_updateEntry (hrow raw.newRow nofun) hrow
        (ih fun x hx => htests x (List.mem_append_left _ hx))
  intro cell hcell
  obtain ⟨row, hrow, hcell⟩ := List.mem_flatMap.mp hcell
  obtain ⟨pair, hpair, rfl⟩ := List.mem_map.mp hcell
  exact hrows row hrow pair hpair

/-- Each case is on one bill. -/
theorem sum_bills (cases : List RawCase) (htests : ∀ raw ∈ cases, raw.testId ≠ "") :
    ((scanCases cases).costs.map ProviderCostAcc.cases).sum = cases.length := by
  induction cases using List.reverseRecOn with
  | nil => rfl
  | append_singleton cases raw ih =>
    have hbill : ∀ acc : ProviderCostAcc, (acc.add raw).cases = acc.cases + 1 := fun _ => rfl
    rw [scanCases, List.foldl_append, List.foldl_cons, List.foldl_nil,
      step_costs (htests raw (by simp)), sum_updateEntry (by rfl) hbill, List.length_append,
      List.length_singleton]
    congr 1
    exact ih fun x hx => htests x (List.mem_append_left _ hx)

/-! ### The pages of the rows -/

/-- A row is first seen after the case of a cursor; after one that cannot be read, every row
is. -/
def RowAcc.isAfter (cursor : String) (row : RowAcc) : Bool :=
  (parseI64 cursor).all fun c => decide (c.1 < row.firstSeenIdx)

def RowAcc.cursorOf (row : RowAcc) : String := toString row.firstSeenIdx

/-- The page of a scan is a page of its rows. -/
theorem matrixPage_eq (f : MatrixFilter) (hlimit : 1 ≤ f.limit) (scan : MatrixScan)
    (cursor : Option String) :
    (matrixPage { f with cursor := (cursor.bind parseI64).map Subtype.val } scan).rows =
        (fetch RowAcc.cursorOf RowAcc.isAfter f.limit.toNat (fun _ : Unit => scan.rows) ()
          cursor).rows.map (RowAcc.finalize scan.columns) ∧
      (matrixPage { f with cursor := (cursor.bind parseI64).map Subtype.val } scan).nextCursor =
        (fetch RowAcc.cursorOf RowAcc.isAfter f.limit.toNat (fun _ : Unit => scan.rows) ()
          cursor).next := by
  have hleft : (scan.rows.filter fun row => ((cursor.bind parseI64).map Subtype.val).all
      fun c => c < row.firstSeenIdx) = left RowAcc.isAfter scan.rows cursor := by
    cases cursor with
    | none => simp [left]
    | some c =>
      refine List.filter_congr fun row _ => ?_
      rw [Option.bind_some, RowAcc.isAfter]
      cases parseI64 c <;> rfl
  have hpos : 0 < f.limit.toNat := by omega
  rw [matrixPage, hleft, fetch, pageOf]
  refine ⟨rfl, ?_⟩
  have hlength : ((left RowAcc.isAfter scan.rows cursor).take f.limit.toNat).length <
      (left RowAcc.isAfter scan.rows cursor).length ↔
        f.limit.toNat < (left RowAcc.isAfter scan.rows cursor).length := by
    rw [List.length_take]
    omega
  exact if_congr hlength rfl rfl

/-- **The pages of the rows end, and return each row.** -/
theorem matrix_rows (h : Scanned cases scan) (hfits : ∀ raw ∈ cases, FitsI64 raw.idx) {limit : ℕ}
    (hlimit : 0 < limit) {n : ℕ} (hn : scan.rows.length < n) :
    returned (follow (fetch RowAcc.cursorOf RowAcc.isAfter limit fun _ => scan.rows) none
        (.replicate n ())) = scan.rows ∧
      Ended (follow (fetch RowAcc.cursorOf RowAcc.isAfter limit fun _ => scan.rows) none
        (.replicate n ())) := by
  have hordered : scan.rows.Pairwise fun a b => a.firstSeenIdx < b.firstSeenIdx :=
    List.pairwise_map.mp h.first.1
  have hafter : ∀ a ∈ scan.rows, ∀ x, RowAcc.isAfter a.cursorOf x =
      decide (a.firstSeenIdx < x.firstSeenIdx) := by
    intro a ha x
    obtain ⟨raw, hraw, hidx⟩ := h.first.2 a ha
    have hread := parseI64_toString ⟨a.firstSeenIdx, hidx ▸ hfits raw hraw⟩
    rw [RowAcc.isAfter, RowAcc.cursorOf, hread]
    rfl
  have hcuts : Cuts RowAcc.cursorOf RowAcc.isAfter limit scan.rows := by
    intro front r back hsplit _ _
    have hr : r ∈ scan.rows := hsplit ▸ by simp
    rw [hsplit] at hordered
    obtain ⟨-, hback, hfront⟩ := List.pairwise_append.mp hordered
    have hnone : front.filter (RowAcc.isAfter r.cursorOf) = [] := by
      refine List.filter_eq_nil_iff.mpr fun x hx => ?_
      rw [hafter r hr, decide_eq_true_eq]
      exact (hfront x hx r List.mem_cons_self).asymm
    have hall : back.filter (RowAcc.isAfter r.cursorOf) = back := by
      refine List.filter_eq_self.mpr fun x hx => ?_
      rw [hafter r hr]
      exact decide_eq_true ((List.pairwise_cons.mp hback).1 x hx)
    have hself : ¬ RowAcc.isAfter r.cursorOf r = true := by
      rw [hafter r hr, decide_eq_true_eq]
      exact lt_irrefl _
    rw [hsplit, List.filter_append, hnone, List.nil_append, List.filter_cons_of_neg hself, hall]
  exact follow_exact hlimit hcuts () n [] scan.rows none rfl (Nat.dvd_zero _) rfl hn

/-- The cells that a row shows are its cells. -/
theorem finalize_cells {row : RowAcc} {columns : List MatrixColumn} (hcolumns : columns.Nodup)
    (hrow : (row.cells.map Prod.fst).Nodup ∧ ∀ cell ∈ row.cells, cell.1 ∈ columns) :
    ((row.finalize columns).cells.filterMap id).Perm
      ((row.cells.map Prod.snd).map CellAcc.finalize) := by
  have hfound := (filterMap_lookup_perm hcolumns hrow.1 hrow.2).map CellAcc.finalize
  rw [List.map_filterMap] at hfound
  refine (List.Perm.of_eq ?_).trans hfound
  rw [RowAcc.finalize, List.filterMap_map]
  rfl

end
