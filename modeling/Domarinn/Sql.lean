/-
SQL conditions in three-valued logic, and what statements do to the rows of a table.

A comparison with NULL is neither true nor false, and a statement selects a row only when its
condition is true.  Conditions are computed as the database computes them; the lemmas say when
one is true, and when it is false, which is not the same as being not true.

* **`isTrue_inRows`**, **`isFalse_inRows`** — `IN` against rows that may be NULL;
* **`mem_select`**, **`mem_deleteWhere`** — a statement keeps exactly the rows it should;
* **`eq_maxOf_isTrue`** — a value compared with the greatest of its group.
-/
import Mathlib.Algebra.Order.Ring.Int
import Mathlib.Data.List.Nodup
import Mathlib.Order.MinMax

namespace Sql

/-- A 64-bit integer column. -/
abbrev I64 := {n : ℤ // -2 ^ 63 ≤ n ∧ n < 2 ^ 63}

instance : DecidableLT I64 := fun a b => Int.decLt a.1 b.1

instance : DecidableLE I64 := fun a b => Int.decLe a.1 b.1

/-! ### Truth values -/

/-- The value of a condition. -/
inductive Truth where
  | yes
  | no
  | unknown
deriving DecidableEq

namespace Truth

def ofBool : Bool → Truth
  | true => yes
  | false => no

def IsTrue (t : Truth) : Prop := t = yes

def IsFalse (t : Truth) : Prop := t = no

instance (t : Truth) : Decidable t.IsTrue := inferInstanceAs (Decidable (t = yes))

instance (t : Truth) : Decidable t.IsFalse := inferInstanceAs (Decidable (t = no))

def not : Truth → Truth
  | yes => no
  | no => yes
  | unknown => unknown

def and : Truth → Truth → Truth
  | no, _ => no
  | _, no => no
  | yes, yes => yes
  | _, _ => unknown

def or : Truth → Truth → Truth
  | yes, _ => yes
  | _, yes => yes
  | no, no => no
  | _, _ => unknown

/-- `IS NOT TRUE`. -/
def isNotTrue (t : Truth) : Truth := ofBool (decide (t ≠ yes))

variable {a b : Truth}

@[simp] theorem isTrue_yes : yes.IsTrue := rfl

@[simp] theorem isFalse_no : no.IsFalse := rfl

@[simp] theorem not_isTrue_no : ¬ no.IsTrue := by intro h; cases h

@[simp] theorem not_isTrue_unknown : ¬ unknown.IsTrue := by intro h; cases h

@[simp] theorem not_isFalse_yes : ¬ yes.IsFalse := by intro h; cases h

@[simp] theorem not_isFalse_unknown : ¬ unknown.IsFalse := by intro h; cases h

@[simp] theorem isTrue_ofBool {p : Bool} : (ofBool p).IsTrue ↔ p = true := by
  cases p <;> simp [ofBool]

@[simp] theorem isFalse_ofBool {p : Bool} : (ofBool p).IsFalse ↔ p = false := by
  cases p <;> simp [ofBool]

@[simp] theorem isTrue_not : a.not.IsTrue ↔ a.IsFalse := by cases a <;> simp [not]

@[simp] theorem isFalse_not : a.not.IsFalse ↔ a.IsTrue := by cases a <;> simp [not]

@[simp] theorem isTrue_and : (a.and b).IsTrue ↔ a.IsTrue ∧ b.IsTrue := by
  cases a <;> cases b <;> simp [and]

@[simp] theorem isFalse_and : (a.and b).IsFalse ↔ a.IsFalse ∨ b.IsFalse := by
  cases a <;> cases b <;> simp [and]

@[simp] theorem isTrue_or : (a.or b).IsTrue ↔ a.IsTrue ∨ b.IsTrue := by
  cases a <;> cases b <;> simp [or]

@[simp] theorem isFalse_or : (a.or b).IsFalse ↔ a.IsFalse ∧ b.IsFalse := by
  cases a <;> cases b <;> simp [or]

@[simp] theorem isTrue_isNotTrue : a.isNotTrue.IsTrue ↔ ¬ a.IsTrue := by
  cases a <;> simp [isNotTrue]

end Truth

open Truth

/-! ### Comparisons -/

section
variable {α : Type*}

/-- `a = b`. -/
def eq [DecidableEq α] : Option α → Option α → Truth
  | some a, some b => ofBool (decide (a = b))
  | _, _ => unknown

/-- `a < b`. -/
def lt [LT α] [DecidableLT α] : Option α → Option α → Truth
  | some a, some b => ofBool (decide (a < b))
  | _, _ => unknown

/-- `a <= b`. -/
def le [LE α] [DecidableLE α] : Option α → Option α → Truth
  | some a, some b => ofBool (decide (a ≤ b))
  | _, _ => unknown

/-- `a IS NULL`. -/
def isNull (a : Option α) : Truth := ofBool a.isNone

/-- `a IS NOT DISTINCT FROM b`: equality with NULL as a value. -/
def isNotDistinctFrom [DecidableEq α] (a b : Option α) : Truth := ofBool (decide (a = b))

/-- `a IN (SELECT …)`. -/
def inRows [DecidableEq α] (a : Option α) (rows : List (Option α)) : Truth :=
  rows.foldr (fun b t => (eq a b).or t) .no

/-- `SELECT MAX(…)`: NULL when nothing is selected. -/
def maxOf [Max α] (values : List α) : Option α := values.max?

variable {a b : Option α} {x : α}

@[simp] theorem isTrue_eq [DecidableEq α] : (eq a b).IsTrue ↔ a ≠ none ∧ a = b := by
  cases a <;> cases b <;> simp [eq]

@[simp] theorem isFalse_eq [DecidableEq α] :
    (eq a b).IsFalse ↔ a ≠ none ∧ b ≠ none ∧ a ≠ b := by
  cases a <;> cases b <;> simp [eq]

@[simp] theorem isTrue_lt [LT α] [DecidableLT α] {x y : α} :
    (lt (some x) (some y)).IsTrue ↔ x < y := by simp [lt]

@[simp] theorem isTrue_le [LE α] [DecidableLE α] {x y : α} :
    (le (some x) (some y)).IsTrue ↔ x ≤ y := by simp [le]

@[simp] theorem isTrue_isNull : (isNull a).IsTrue ↔ a = none := by cases a <;> simp [isNull]

@[simp] theorem isFalse_isNull : (isNull a).IsFalse ↔ a ≠ none := by cases a <;> simp [isNull]

@[simp] theorem isTrue_isNotDistinctFrom [DecidableEq α] :
    (isNotDistinctFrom a b).IsTrue ↔ a = b := by simp [isNotDistinctFrom]

theorem isTrue_inRows [DecidableEq α] {rows : List (Option α)} :
    (inRows (some x) rows).IsTrue ↔ some x ∈ rows := by
  induction rows with
  | nil => simp [inRows]
  | cons b rows ih => simpa [inRows] using or_congr_right ih

/-- A single NULL among the rows keeps `IN` from ever being false. -/
theorem isFalse_inRows [DecidableEq α] {rows : List (Option α)} :
    (inRows (some x) rows).IsFalse ↔ none ∉ rows ∧ some x ∉ rows := by
  induction rows with
  | nil => simp [inRows]
  | cons b rows ih =>
    have hstep : (inRows (some x) (b :: rows)).IsFalse ↔
        (b ≠ none ∧ some x ≠ b) ∧ none ∉ rows ∧ some x ∉ rows := by
      rw [← ih]
      simp [inRows]
    rw [hstep, List.mem_cons, List.mem_cons]
    tauto

/-- The greatest of a group is one of it, and nothing in the group exceeds it. -/
theorem maxOf_eq_some [LinearOrder α] {values : List α} :
    maxOf values = some x ↔ x ∈ values ∧ ∀ y ∈ values, y ≤ x := by
  have : Std.LawfulOrderMax α :=
    { max_le_iff := fun _ _ _ => max_le_iff
      max_eq_or := max_choice }
  exact List.max?_eq_some_iff

theorem eq_maxOf_isTrue [LinearOrder α] [DecidableEq α] {values : List α} :
    (eq (some x) (maxOf values)).IsTrue ↔ x ∈ values ∧ ∀ y ∈ values, y ≤ x := by
  rw [isTrue_eq, eq_comm, maxOf_eq_some]
  simp

theorem exists_maxOf [LinearOrder α] {values : List α} (h : values ≠ []) :
    ∃ x ∈ values, ∀ y ∈ values, y ≤ x := by
  have hmax : maxOf values ≠ none := by simpa [maxOf] using h
  obtain ⟨x, hx⟩ := Option.ne_none_iff_exists'.mp hmax
  exact ⟨x, maxOf_eq_some.mp hx⟩

end

/-! ### Statements -/

section
variable {ρ κ : Type*} {rows : List ρ} {row : ρ} {condition : ρ → Truth}

/-- `SELECT … WHERE`. -/
def select (rows : List ρ) (condition : ρ → Truth) : List ρ :=
  rows.filter fun r => (condition r).IsTrue

/-- `EXISTS (SELECT … WHERE …)`, which is never unknown. -/
def existsRow (rows : List ρ) (condition : ρ → Truth) : Truth :=
  ofBool (rows.any fun r => (condition r).IsTrue)

/-- `DELETE … WHERE`. -/
def deleteWhere (rows : List ρ) (condition : ρ → Truth) : List ρ :=
  rows.filter fun r => ¬ (condition r).IsTrue

/-- `INSERT … ON CONFLICT (key) DO NOTHING`. -/
def insertNew [DecidableEq κ] (key : ρ → κ) (rows : List ρ) (row : ρ) : List ρ :=
  if key row ∈ rows.map key then rows else rows ++ [row]

/-- `INSERT … ON CONFLICT (key) DO UPDATE`. -/
def upsert [DecidableEq κ] (key : ρ → κ) (update : ρ → ρ) (rows : List ρ) (row : ρ) : List ρ :=
  if key row ∈ rows.map key then rows.map fun r => if key r = key row then update r else r
  else rows ++ [row]

@[simp] theorem mem_select : row ∈ select rows condition ↔ row ∈ rows ∧ (condition row).IsTrue := by
  simp [select]

@[simp] theorem isTrue_existsRow :
    (existsRow rows condition).IsTrue ↔ ∃ r ∈ rows, (condition r).IsTrue := by
  simp [existsRow]

@[simp] theorem isFalse_existsRow :
    (existsRow rows condition).IsFalse ↔ ∀ r ∈ rows, ¬ (condition r).IsTrue := by
  simp [existsRow]

@[simp] theorem mem_deleteWhere :
    row ∈ deleteWhere rows condition ↔ row ∈ rows ∧ ¬ (condition row).IsTrue := by
  simp [deleteWhere]

theorem mem_insertNew [DecidableEq κ] {key : ρ → κ} {r : ρ} :
    r ∈ insertNew key rows row ↔ r ∈ rows ∨ (r = row ∧ key row ∉ rows.map key) := by
  rw [insertNew]
  split_ifs with h <;> simp [h]

theorem keys_insertNew [DecidableEq κ] {key : ρ → κ} {k : κ} :
    k ∈ (insertNew key rows row).map key ↔ k ∈ rows.map key ∨ k = key row := by
  rw [insertNew]
  split_ifs with h
  · refine ⟨Or.inl, fun hk => hk.elim id ?_⟩
    rintro rfl
    exact h
  · rw [List.map_append, List.mem_append, List.map_singleton, List.mem_singleton]

/-- An insertion that yields to a row of its key keeps the key unique. -/
theorem nodup_insertNew [DecidableEq κ] {key : ρ → κ} (h : (rows.map key).Nodup) :
    ((insertNew key rows row).map key).Nodup := by
  rw [insertNew]
  split_ifs with hk
  · exact h
  · rw [List.map_append, List.map_singleton]
    exact h.append (List.nodup_singleton _) (List.disjoint_singleton.mpr hk)

/-- The same where the whole row is the key. -/
theorem nodup_insertRow [DecidableEq ρ] (h : rows.Nodup) : (insertNew id rows row).Nodup := by
  have hid : (rows.map id).Nodup := by rwa [List.map_id]
  have hinsert : ((insertNew id rows row).map id).Nodup := nodup_insertNew hid
  rwa [List.map_id] at hinsert

/-- Rows of new and different keys are all inserted. -/
theorem foldl_insertNew_of_fresh [DecidableEq κ] {key : ρ → κ} (news : List ρ) :
    ∀ {rows : List ρ}, (∀ r ∈ news, key r ∉ rows.map key) → (news.map key).Nodup →
      news.foldl (insertNew key) rows = rows ++ news := by
  induction news with
  | nil => simp
  | cons new news ih =>
    intro rows hfresh hnodup
    obtain ⟨hnew, hnodup⟩ := List.nodup_cons.mp hnodup
    rw [List.foldl_cons, insertNew, if_neg (hfresh new (.head _)), ih ?_ hnodup,
      List.append_assoc, List.singleton_append]
    intro r hr hmem
    rw [List.map_append, List.map_singleton, List.mem_append, List.mem_singleton] at hmem
    obtain hmem | heq := hmem
    · exact hfresh r (.tail _ hr) hmem
    · exact hnew (heq ▸ List.mem_map_of_mem hr)

theorem mem_foldl_insertRow [DecidableEq ρ] {r : ρ} (news : List ρ) :
    ∀ {rows : List ρ}, r ∈ news.foldl (insertNew id) rows ↔ r ∈ rows ∨ r ∈ news := by
  induction news with
  | nil => simp
  | cons new news ih =>
    intro rows
    have hkeys : r ∈ (insertNew id rows new).map id ↔ r ∈ rows.map id ∨ r = id new := keys_insertNew
    rw [List.map_id, List.map_id] at hkeys
    rw [List.foldl_cons, ih, hkeys, List.mem_cons, or_assoc, id]

theorem mem_of_mem_foldl_insertNew [DecidableEq κ] {key : ρ → κ} {r : ρ} (news : List ρ) :
    ∀ {rows : List ρ}, r ∈ news.foldl (insertNew key) rows → r ∈ rows ∨ r ∈ news := by
  induction news with
  | nil => exact .inl
  | cons new news ih =>
    intro rows h
    obtain h | h := ih h
    · obtain h | ⟨rfl, -⟩ := mem_insertNew.mp h
      · exact .inl h
      · exact .inr (.head _)
    · exact .inr (.tail _ h)

/-- Rows that are not asked for do not show. -/
theorem filter_foldl_insertNew [DecidableEq κ] {key : ρ → κ} {p : ρ → Bool} (news : List ρ)
    (hnews : ∀ r ∈ news, p r = false) :
    ∀ {rows : List ρ}, (news.foldl (insertNew key) rows).filter p = rows.filter p := by
  induction news with
  | nil => exact rfl
  | cons new news ih =>
    intro rows
    have hnew : (insertNew key rows new).filter p = rows.filter p := by
      rw [insertNew]
      split_ifs
      · rfl
      · rw [List.filter_append, List.filter_singleton, hnews new (.head _)]
        exact List.append_nil _
    rw [List.foldl_cons, ih fun r hr => hnews r (.tail _ hr), hnew]

theorem mem_upsert [DecidableEq κ] {key : ρ → κ} {update : ρ → ρ} {r : ρ}
    (h : r ∈ upsert key update rows row) :
    (r ∈ rows ∧ key r ≠ key row) ∨ (∃ r' ∈ rows, key r' = key row ∧ r = update r') ∨ r = row := by
  rw [upsert] at h
  split_ifs at h with hk
  · obtain ⟨r', hr', rfl⟩ := List.mem_map.mp h
    split_ifs with hkey
    · exact .inr (.inl ⟨r', hr', hkey, rfl⟩)
    · exact .inl ⟨hr', hkey⟩
  · obtain hr | hr := List.mem_append.mp h
    · refine .inl ⟨hr, fun hkey => hk ?_⟩
      rw [← hkey]
      exact List.mem_map_of_mem hr
    · exact .inr (.inr (List.mem_singleton.mp hr))

/-- Rows of other keys stay. -/
theorem mem_upsert_of_ne [DecidableEq κ] {key : ρ → κ} {update : ρ → ρ} {r : ρ} (hr : r ∈ rows)
    (hne : key r ≠ key row) : r ∈ upsert key update rows row := by
  rw [upsert]
  split_ifs with hk
  · exact List.mem_map.mpr ⟨r, hr, if_neg hne⟩
  · exact List.mem_append_left _ hr

theorem nodup_upsert [DecidableEq κ] {key : ρ → κ} {update : ρ → ρ}
    (hupdate : ∀ r, key (update r) = key r) (h : (rows.map key).Nodup) :
    ((upsert key update rows row).map key).Nodup := by
  rw [upsert]
  split_ifs with hk
  · rw [List.map_map]
    have hkeys : rows.map (key ∘ fun r => if key r = key row then update r else r) =
        rows.map key := by
      refine List.map_congr_left fun r _ => ?_
      dsimp only [Function.comp]
      split_ifs
      · exact hupdate r
      · rfl
    rw [hkeys]
    exact h
  · rw [List.map_append, List.map_singleton]
    exact h.append (List.nodup_singleton _) (List.disjoint_singleton.mpr hk)

theorem deleteWhere_sublist : (deleteWhere rows condition).Sublist rows := List.filter_sublist

end

end Sql
