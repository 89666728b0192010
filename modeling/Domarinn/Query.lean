/-
Result sets: order, limits, groups and patterns; and reads that see only part of a state.

* **`ConfinedTo`** — a read answers from what a view shows of the state;
* **`ConfinedTo.eq_of_view_eq`** — two states with one view get one answer from every such read.
-/
import Domarinn.Sql
import Mathlib.Data.List.Sort

namespace Sql

/-! ### Result sets -/

section
variable {ρ κ : Type*}

/-- `ORDER BY`; rows that compare equal keep the order of the table. -/
def orderBy (le : ρ → ρ → Prop) [DecidableRel le] (rows : List ρ) : List ρ := rows.insertionSort le

/-- `LIMIT`, where a negative limit is none. -/
def limit (n : ℤ) (rows : List ρ) : List ρ := if n < 0 then rows else rows.take n.toNat

/-- `SELECT DISTINCT`. -/
def distinct [DecidableEq ρ] (rows : List ρ) : List ρ := rows.eraseDups

/-- `GROUP BY`: each key with its rows. -/
def groupBy [DecidableEq κ] (key : ρ → κ) (rows : List ρ) : List (κ × List ρ) :=
  (distinct (rows.map key)).map fun k => (k, rows.filter fun r => key r = k)

/-- `COUNT(DISTINCT …)`, which passes over `NULL`. -/
def countDistinct [DecidableEq κ] (column : ρ → Option κ) (rows : List ρ) : ℕ :=
  (distinct (rows.filterMap column)).length

/-- A clause for a filter that is set. -/
def clauseFor {α : Type*} (filter : Option α) (clause : α → ρ → Truth) : List (ρ → Truth) :=
  filter.toList.map clause

/-- All the clauses of a `WHERE`. -/
def allOf (clauses : List (ρ → Truth)) (row : ρ) : Truth :=
  clauses.foldr (fun clause rest => (clause row).and rest) .yes

/-- `a JOIN b ON …`. -/
def join {σ : Type*} (rows : List ρ) (others : List σ) (on : ρ → σ → Truth) : List (ρ × σ) :=
  rows.flatMap fun r => (select others (on r)).map (r, ·)

end

/-- A pattern of `LIKE` against a text: `%` stands for any text, `_` for any character. -/
def matchesPattern : List Char → List Char → Bool
  | [], text => text.isEmpty
  | c :: pattern, text =>
    if c = '%' then text.tails.any (matchesPattern pattern)
    else match text with
      | [] => false
      | d :: text => (c = '_' || c = d) && matchesPattern pattern text

/-- `LOWER(text) LIKE LOWER(pattern)`. -/
def like (text : Option String) (pattern : String) : Truth :=
  match text with
  | none => .unknown
  | some text => .ofBool (matchesPattern pattern.toLower.toList text.toLower.toList)

section
variable {ρ σ κ : Type*} {rows : List ρ} {condition : ρ → Truth}

@[simp] theorem isTrue_allOf {clauses : List (ρ → Truth)} {row : ρ} :
    (allOf clauses row).IsTrue ↔ ∀ clause ∈ clauses, (clause row).IsTrue := by
  induction clauses with
  | nil => simp [allOf]
  | cons clause clauses ih =>
    rw [List.forall_mem_cons, ← ih]
    exact Truth.isTrue_and

@[simp] theorem forall_mem_clauseFor {α : Type*} {filter : Option α} {clause : α → ρ → Truth}
    {row : ρ} : (∀ c ∈ clauseFor filter clause, (c row).IsTrue) ↔
      ∀ a ∈ filter, (clause a row).IsTrue := by
  cases filter <;> simp [clauseFor]

/-- A selection that asks for more can be made from rows already filtered. -/
theorem select_filter_of_imp {keep : ρ → Prop} [DecidablePred keep]
    (h : ∀ r ∈ rows, (condition r).IsTrue → keep r) :
    select (rows.filter keep) condition = select rows condition := by
  rw [select, select, List.filter_filter]
  refine List.filter_congr fun r hmem => ?_
  by_cases hr : (condition r).IsTrue
  · simp [hr, h r hmem hr]
  · simp [hr]

/-- Clauses select one after the other. -/
theorem select_append {clauses more : List (ρ → Truth)} :
    select rows (allOf (clauses ++ more)) = select (select rows (allOf clauses)) (allOf more) := by
  rw [select, select, select, List.filter_filter]
  refine List.filter_congr fun r _ => ?_
  rw [Bool.eq_iff_iff, Bool.and_eq_true, decide_eq_true_eq, decide_eq_true_eq, decide_eq_true_eq,
    isTrue_allOf, isTrue_allOf, isTrue_allOf, List.forall_mem_append]
  exact and_comm

/-- A selection reads its condition on the rows alone. -/
theorem select_congr {condition' : ρ → Truth}
    (h : ∀ r ∈ rows, ((condition r).IsTrue ↔ (condition' r).IsTrue)) :
    select rows condition = select rows condition' :=
  List.filter_congr fun r hr => decide_eq_decide.mpr (h r hr)

theorem orderBy_congr {le le' : ρ → ρ → Prop} [DecidableRel le] [DecidableRel le']
    (h : ∀ a ∈ rows, ∀ b ∈ rows, (le a b ↔ le' a b)) : orderBy le rows = orderBy le' rows := by
  have hinsert : ∀ (a : ρ) (bs : List ρ), (∀ b ∈ bs, (le a b ↔ le' a b)) →
      bs.orderedInsert le a = bs.orderedInsert le' a := by
    intro a bs hbs
    induction bs with
    | nil => rfl
    | cons b bs ih =>
      obtain ⟨hb, hbs⟩ := List.forall_mem_cons.mp hbs
      rw [List.orderedInsert_cons, List.orderedInsert_cons, ih hbs]
      exact if_congr hb rfl rfl
  induction rows with
  | nil => rfl
  | cons a rows ih =>
    have htail : orderBy le rows = orderBy le' rows := ih fun b hb c hc =>
      h b (List.mem_cons_of_mem _ hb) c (List.mem_cons_of_mem _ hc)
    show (orderBy le rows).orderedInsert le a = (orderBy le' rows).orderedInsert le' a
    rw [htail]
    refine hinsert a _ fun b hb => h a List.mem_cons_self b (List.mem_cons_of_mem _ ?_)
    exact (List.perm_insertionSort le' rows).mem_iff.mp hb

/-- Rows that a rank orders depend on it at these rows alone. -/
theorem orderBy_rank_congr {κ : Type*} [LinearOrder κ] {rank rank' : ρ → κ}
    (h : ∀ r ∈ rows, rank r = rank' r) :
    orderBy (fun a b => rank a ≤ rank b) rows = orderBy (fun a b => rank' a ≤ rank' b) rows := by
  refine orderBy_congr fun a ha b hb => ?_
  rw [h a ha, h b hb]

/-- Rows are left out before they are ordered, or after. -/
theorem orderBy_filter {le : ρ → ρ → Prop} [DecidableRel le] [Std.Total le] [IsTrans ρ le]
    (keep : ρ → Bool) : orderBy le (rows.filter keep) = (orderBy le rows).filter keep := by
  have hinsert : ∀ (a : ρ) (bs : List ρ), bs.Pairwise le →
      (bs.orderedInsert le a).filter keep =
        if keep a then (bs.filter keep).orderedInsert le a else bs.filter keep := by
    intro a bs hbs
    induction bs with
    | nil => cases hkeep : keep a <;> simp [hkeep]
    | cons b bs ih =>
      obtain ⟨hb, hbs⟩ := List.pairwise_cons.mp hbs
      by_cases hab : le a b
      · -- a row goes before the next one that stays, for it goes before the next one
        rw [List.orderedInsert_cons_of_le le bs hab, List.filter_cons]
        refine if_congr Iff.rfl ?_ rfl
        cases hbs' : (b :: bs).filter keep with
        | nil => rfl
        | cons c cs =>
          have hc : c ∈ b :: bs := List.mem_of_mem_filter (hbs' ▸ List.mem_cons_self)
          have hac : le a c := by
            obtain rfl | hc := List.mem_cons.mp hc
            · exact hab
            · exact Trans.trans hab (hb c hc)
          exact (List.orderedInsert_cons_of_le le cs hac).symm
      · rw [List.orderedInsert_of_not_le le bs hab, List.filter_cons, List.filter_cons, ih hbs]
        cases hb' : keep b with
        | false => simp
        | true =>
          simp only [if_true]
          split_ifs
          · exact (List.orderedInsert_of_not_le le _ hab).symm
          · rfl
  induction rows with
  | nil => rfl
  | cons a rows ih =>
    show _ = ((orderBy le rows).orderedInsert le a).filter keep
    have hordered : (orderBy le rows).Pairwise le := List.pairwise_insertionSort le rows
    rw [hinsert a _ hordered, ← ih, List.filter_cons]
    split_ifs <;> rfl

theorem mem_orderBy {le : ρ → ρ → Prop} [DecidableRel le] {row : ρ} :
    row ∈ orderBy le rows ↔ row ∈ rows :=
  (List.perm_insertionSort le rows).mem_iff

/-- Each element is counted once, however often it occurs. -/
theorem sum_count_distinct [DecidableEq ρ] : ∀ rows : List ρ,
    ((distinct rows).map rows.count).sum = rows.length := by
  intro rows
  induction hn : rows.length using Nat.strong_induction_on generalizing rows with
  | h n ih =>
    cases rows with
    | nil => exact hn
    | cons a rows =>
      rw [List.length_cons] at hn
      have hshort : (rows.filter fun b => !b == a).length < n := by
        have hle := rows.length_filter_le fun b => !b == a
        omega
      -- beside the rows equal to the first, the others are counted among themselves
      have hrest : ∀ k ∈ distinct (rows.filter fun b => !b == a),
          (a :: rows).count k = (rows.filter fun b => !b == a).count k := by
        intro k hk
        have hne : (!k == a) = true := (List.mem_filter.mp (List.mem_eraseDups.mp hk)).2
        have hka : a ≠ k := by
          rintro rfl
          simp at hne
        rw [List.count_filter (p := fun b => !b == a) hne, List.count_cons_of_ne hka]
      have hsplit := rows.length_eq_countP_add_countP (fun b => b == a)
      rw [distinct, List.eraseDups_cons, List.map_cons, List.sum_cons, ← distinct,
        List.map_congr_left hrest, ih _ hshort _ rfl, List.count_cons_self, List.count,
        ← List.countP_eq_length_filter]
      simp only [Bool.not_eq_true, Bool.decide_eq_false] at hsplit
      omega

/-- Every row is in the group of its key. -/
theorem sum_length_groupBy_id [DecidableEq ρ] (rows : List ρ) :
    ((groupBy id rows).map fun group => group.2.length).sum = rows.length := by
  rw [groupBy, List.map_map, List.map_id, ← sum_count_distinct rows]
  refine congrArg List.sum (List.map_congr_left fun k _ => ?_)
  rw [List.count, List.countP_eq_length_filter]
  rfl

theorem mem_of_mem_limit {n : ℤ} {row : ρ} (h : row ∈ limit n rows) : row ∈ rows := by
  rw [limit] at h
  split_ifs at h
  · exact h
  · exact List.mem_of_mem_take h

theorem mem_join {others : List σ} {on : ρ → σ → Truth} {row : ρ × σ} :
    row ∈ join rows others on ↔ row.1 ∈ rows ∧ row.2 ∈ others ∧ (on row.1 row.2).IsTrue := by
  simp only [join, List.mem_flatMap, List.mem_map, mem_select]
  constructor
  · rintro ⟨r, hr, o, ho, rfl⟩
    exact ⟨hr, ho⟩
  · rintro ⟨hr, ho⟩
    exact ⟨row.1, hr, row.2, ho, rfl⟩

/-- A condition on the pairs of a join leaves some of them out. -/
theorem join_and {others : List σ} {on on' : ρ → σ → Truth} {keep : ρ × σ → Bool}
    (h : ∀ r o, (on' r o).IsTrue ↔ (on r o).IsTrue ∧ keep (r, o) = true) :
    join rows others on' = (join rows others on).filter keep := by
  rw [join, join, List.filter_flatMap]
  refine List.flatMap_congr fun r _ => ?_
  rw [List.filter_map, select, select, List.filter_filter]
  refine congrArg _ (List.filter_congr fun o _ => ?_)
  rw [Bool.eq_iff_iff, Bool.and_eq_true, decide_eq_true_eq, decide_eq_true_eq, h]
  exact and_comm

/-- Rows of the other table are left out before the join, or after. -/
theorem join_filter {others : List σ} {on : ρ → σ → Truth} {keep : σ → Bool} :
    join rows (others.filter keep) on = (join rows others on).filter fun row => keep row.2 := by
  rw [join, join, List.filter_flatMap]
  refine List.flatMap_congr fun r _ => ?_
  rw [List.filter_map, select, select, List.filter_filter, List.filter_filter]
  exact congrArg _ (List.filter_congr fun o _ => Bool.and_comm _ _)

/-- A join with a table that has at most one row for each row keeps the rows. -/
theorem join_fst_sublist {others : List σ} {on : ρ → σ → Truth}
    (h : ∀ r ∈ rows, (select others (on r)).length ≤ 1) :
    ((join rows others on).map Prod.fst).Sublist rows := by
  induction rows with
  | nil => exact List.Sublist.slnil
  | cons r rows ih =>
    obtain ⟨hr, hrows⟩ := List.forall_mem_cons.mp h
    have hrest : ((join rows others on).map Prod.fst).Sublist rows := ih hrows
    show (((select others (on r)).map (r, ·) ++ join rows others on).map Prod.fst).Sublist
      (r :: rows)
    rw [List.map_append, List.map_map]
    cases hselect : select others (on r) with
    | nil => exact hrest.cons r
    | cons o os =>
      rw [hselect] at hr
      have hos : os = [] := List.eq_nil_of_length_eq_zero (by simpa using hr)
      rw [hos]
      exact hrest.cons_cons r

/-- A join can be made from the part of the other table that holds all the rows that join. -/
theorem join_others_filter {others : List σ} {on : ρ → σ → Truth} {keep : σ → Prop}
    [DecidablePred keep] (h : ∀ r ∈ rows, ∀ o ∈ others, (on r o).IsTrue → keep o) :
    join rows (others.filter keep) on = join rows others on := by
  refine List.flatMap_congr fun r hr => ?_
  rw [select_filter_of_imp (h r hr)]

/-- Likewise from a part of the first table, for a row that is left out joins with none. -/
theorem join_rows_filter {others : List σ} {on : ρ → σ → Truth} {keep : ρ → Prop}
    [DecidablePred keep] (h : ∀ r ∈ rows, ∀ o ∈ others, (on r o).IsTrue → keep r) :
    join (rows.filter keep) others on = join rows others on := by
  induction rows with
  | nil => rfl
  | cons r rows ih =>
    obtain ⟨hr, hrows⟩ := List.forall_mem_cons.mp h
    have htail : join (rows.filter keep) others on = join rows others on := ih hrows
    show _ = (select others (on r)).map (r, ·) ++ join rows others on
    rw [List.filter_cons]
    split_ifs with hkeep
    · rw [← htail]
      rfl
    · have hnone : select others (on r) = [] := by
        refine List.filter_eq_nil_iff.mpr fun o ho hon => hkeep ?_
        exact decide_eq_true (hr o ho (of_decide_eq_true hon))
      rw [hnone, htail]
      rfl

end

end Sql

/-! ### Reads through a view -/

section
variable {σ α : Type*} {view : σ → σ}

/-- A read that answers from what a view shows. -/
def ConfinedTo (view : σ → σ) (read : σ → α) : Prop := ∀ s, read (view s) = read s

namespace ConfinedTo

/-- **States with one view get one answer.** -/
theorem eq_of_view_eq {read : σ → α} (h : ConfinedTo view read) {s s' : σ}
    (hview : view s = view s') : read s = read s' := by
  rw [← h s, hview, h s']

end ConfinedTo

end
