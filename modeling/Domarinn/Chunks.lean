/-
Tables brought up to date a chunk at a time.

A pass selects some of the rows that are due, updates them one after another, and starts again
until it selects none.  Which rows a chunk holds is up to the database; what the pass leaves is
not, as long as an updated row is not due any more.

* **`foldl_update`** — updates by key, one after another, as one map over the table;
* **`drain_fill`** — a pass ends, and has updated exactly the rows that were due;
* **`drain_of_measure`** — the same for a pass over anything that runs out;
* **`filledIn_coalesce`**, **`filledIn_assign`** — when filling in a column does no harm.
-/
import Domarinn.Sql

namespace Sql

section
variable {ρ σ τ κ : Type*}

/-- `UPDATE … SET … WHERE`. -/
def update (rows : List ρ) (condition : ρ → Truth) (set : ρ → ρ) : List ρ :=
  rows.map fun r => if (condition r).IsTrue then set r else r

/-- Take a chunk, stop when there is none, and process it else. -/
def drain (chunk : σ → List τ) (process : σ → List τ → σ) : ℕ → σ → Option σ
  | 0, _ => none
  | rounds + 1, s =>
    let rows := chunk s
    if rows.isEmpty then some s else drain chunk process rounds (process s rows)

/-! ### Updates by key -/

/-- A row is found by its key. -/
theorem find?_key [DecidableEq κ] {key : ρ → κ} {rows : List ρ}
    (h : (rows.map key).Nodup) {r : ρ} (hr : r ∈ rows) {k : κ} (hk : k = key r) :
    (rows.find? fun x => key x = k) = some r := by
  subst hk
  cases hfind : rows.find? fun x => key x = key r with
  | none => exact absurd (decide_eq_true rfl) (List.find?_eq_none.mp hfind r hr)
  | some x =>
    have hx := List.find?_some hfind
    rw [decide_eq_true_eq] at hx
    rw [List.inj_on_of_nodup_map h (List.mem_of_find?_eq_some hfind) hr hx]

theorem find?_key_none [DecidableEq κ] {key : ρ → κ} {rows : List ρ} {k : κ}
    (h : k ∉ rows.map key) : (rows.find? fun x => key x = k) = none := by
  rw [List.find?_eq_none]
  intro x hx heq
  exact h (of_decide_eq_true heq ▸ List.mem_map_of_mem hx)

/-- Each row is updated by what comes under its key. -/
theorem foldl_update [DecidableEq κ] (key : ρ → κ) (key' : τ → κ) (set : τ → ρ → ρ)
    (hset : ∀ x r, key (set x r) = key r) (xs : List τ) :
    ∀ {rows : List ρ}, (xs.map key').Nodup →
      xs.foldl (fun rows x => update rows (fun r => eq (some (key r)) (some (key' x))) (set x))
          rows =
        rows.map fun r => (xs.find? fun x => key' x = key r).elim r fun x => set x r := by
  induction xs with
  | nil =>
    intro rows _
    exact (List.map_id rows).symm
  | cons x xs ih =>
    intro rows hnodup
    obtain ⟨hx, hnodup⟩ := List.nodup_cons.mp hnodup
    rw [List.foldl_cons, ih hnodup, update, List.map_map]
    refine List.map_congr_left fun r _ => ?_
    rw [Function.comp_apply, List.find?_cons]
    by_cases hkey : key' x = key r
    · -- nothing later comes under the key of the row
      have hnone : (xs.find? fun y => key' y = key (set x r)) = none := by
        rw [hset, ← hkey]
        exact find?_key_none hx
      have htrue : (eq (some (key r)) (some (key' x))).IsTrue :=
        isTrue_eq.mpr ⟨Option.some_ne_none _, congrArg some hkey.symm⟩
      rw [if_pos htrue, hnone, decide_eq_true hkey]
      rfl
    · have hfalse : ¬ (eq (some (key r)) (some (key' x))).IsTrue := by
        intro heq
        exact hkey (Option.some.inj (isTrue_eq.mp heq).2).symm
      rw [if_neg hfalse, decide_eq_false hkey]

/-! ### Passes -/

/-- More rounds than a pass takes change nothing. -/
theorem drain_mono {chunk : σ → List τ} {process : σ → List τ → σ} :
    ∀ {rounds more : ℕ} {s t : σ}, drain chunk process rounds s = some t → rounds ≤ more →
      drain chunk process more s = some t
  | 0, _, _, _, h, _ => by cases h
  | rounds + 1, 0, _, _, _, hle => absurd hle (Nat.not_succ_le_zero _)
  | rounds + 1, more + 1, s, t, h, hle => by
    rw [drain] at h ⊢
    by_cases hchunk : (chunk s).isEmpty
    · rwa [if_pos hchunk] at h ⊢
    · rw [if_neg hchunk] at h ⊢
      exact drain_mono h (Nat.le_of_succ_le_succ hle)

/-- A pass ends when each round leaves less to do. -/
theorem drain_of_measure (chunk : σ → List τ) (process : σ → List τ → σ) (P : σ → Prop)
    (measure : σ → ℕ) (hkeep : ∀ s, P s → chunk s ≠ [] → P (process s (chunk s)))
    (hless : ∀ s, P s → chunk s ≠ [] → measure (process s (chunk s)) < measure s) :
    ∀ (rounds : ℕ) {s : σ}, P s → measure s < rounds →
      ∃ t, drain chunk process rounds s = some t ∧ P t ∧ chunk t = []
  | 0, _, _, h => absurd h (Nat.not_lt_zero _)
  | rounds + 1, s, hs, h => by
    rw [drain]
    by_cases hchunk : chunk s = []
    · exact ⟨s, by simp [hchunk], hs, hchunk⟩
    · obtain ⟨t, ht, hend⟩ := drain_of_measure chunk process P measure hkeep hless rounds
        (hkeep s hs hchunk) (by have hdown := hless s hs hchunk; omega)
      refine ⟨t, ?_, hend⟩
      rwa [if_neg (by simpa using hchunk)]

/-- An update that makes no row due, and one due row not, leaves fewer. -/
theorem countP_map_lt {due : ρ → Bool} {f : ρ → ρ} {rows : List ρ}
    (hle : ∀ r ∈ rows, due (f r) = true → due r = true) {x : ρ} (hx : x ∈ rows)
    (hdue : due x = true) (hdone : due (f x) = false) :
    (rows.map f).countP due < rows.countP due := by
  obtain ⟨before, after, rfl⟩ := List.append_of_mem hx
  have hbefore : (before.map f).countP due ≤ before.countP due := by
    rw [List.countP_map]
    exact List.countP_mono_left fun r hr => hle r (List.mem_append_left _ hr)
  have hafter : (after.map f).countP due ≤ after.countP due := by
    rw [List.countP_map]
    exact List.countP_mono_left fun r hr => hle r (List.mem_append_right _ (.tail _ hr))
  rw [List.map_append, List.map_cons, List.countP_append, List.countP_append, List.countP_cons,
    List.countP_cons, hdue, hdone]
  simp only [if_true, Bool.false_eq_true, if_false]
  omega

/-- What a pass does to the rows of a table, when a round updates some that are due and no row
is due twice. -/
theorem drain_fill (due : ρ → Bool) (fill : ρ → ρ) (P : List ρ → Prop) (chunk : List ρ → List τ)
    (process : List ρ → List τ → List ρ) (hdone : ∀ r, due r = true → due (fill r) = false)
    (hkeep : ∀ rows (sel : ρ → Bool), P rows → P (rows.map fun r => if sel r then fill r else r))
    (hnone : ∀ rows, P rows → chunk rows = [] → ∀ r ∈ rows, due r = false)
    (hsome : ∀ rows, P rows → chunk rows ≠ [] → ∃ sel : ρ → Bool,
      (∀ r ∈ rows, sel r = true → due r = true) ∧ (∃ r ∈ rows, sel r = true) ∧
        process rows (chunk rows) = rows.map fun r => if sel r then fill r else r) :
    ∀ (rounds : ℕ) {rows : List ρ}, P rows → rows.countP due < rounds →
      drain chunk process rounds rows = some (rows.map fun r => if due r then fill r else r)
  | 0, _, _, h => absurd h (Nat.not_lt_zero _)
  | rounds + 1, rows, hrows, h => by
    rw [drain]
    by_cases hchunk : chunk rows = []
    · have hsame : (rows.map fun r => if due r then fill r else r) = rows := by
        refine (List.map_congr_left fun r hr => ?_).trans (List.map_id rows)
        rw [hnone rows hrows hchunk r hr]
        rfl
      simp [hchunk, hsame]
    · obtain ⟨sel, hsel, hany, hprocess⟩ := hsome rows hrows hchunk
      have hstep (r : ρ) (hr : r ∈ rows) : (due (if sel r then fill r else r) = true ↔
          due r = true ∧ sel r = false) := by
        cases hr' : sel r with
        | false => simp
        | true => simp [hdone r (hsel r hr hr')]
      obtain ⟨x, hx, hxsel⟩ := hany
      have hless : (rows.map fun r => if sel r then fill r else r).countP due < rows.countP due := by
        refine countP_map_lt (fun r hr hdue => ((hstep r hr).mp hdue).1) hx (hsel x hx hxsel) ?_
        rw [hxsel]
        exact hdone x (hsel x hx hxsel)
      have hrest := drain_fill due fill P chunk process hdone hkeep hnone hsome rounds
        (hkeep rows sel hrows) (by omega)
      rw [if_neg (by simpa using hchunk), hprocess, hrest, List.map_map]
      refine congrArg some (List.map_congr_left fun r hr => ?_)
      rw [Function.comp_apply]
      cases hr' : sel r with
      | false => rfl
      | true =>
        have hdue := hsel r hr hr'
        simp [hdue, hdone r hdue]

/-! ### Columns that may be missing -/

/-- A column as it was written, or lost. -/
def Older (written stored : Option ρ) : Prop :=
  stored = written ∨ stored = none

/-- What a pass may do to a column: keep what is there, and fill in nothing but what was written,
where that can be known. -/
structure FilledIn (known : Prop) (written before after : Option ρ) : Prop where
  kept : before ≠ none → after = before
  filled : known → before = none → after ≠ none → after = written

section
variable {known : Prop} {written before : Option ρ} {v : ρ}

theorem FilledIn.refl : FilledIn known written before before where
  kept := fun _ => rfl
  filled := fun _ hnone hsome => absurd hnone hsome

/-- What was written may be written again. -/
theorem Older.filledIn (h : Older written before) : FilledIn known written before written where
  kept := fun hsome => (h.resolve_right hsome).symm
  filled := fun _ _ _ => rfl

/-- `COALESCE` keeps what is there; what it fills in has to be what was written. -/
theorem filledIn_coalesce :
    FilledIn known written before (before.or (some v)) ↔
      (known → before = none → written = some v) := by
  cases before with
  | none =>
    constructor
    · exact fun h hknown hnone => (h.filled hknown hnone (Option.some_ne_none v)).symm
    · exact fun h => ⟨fun hsome => absurd rfl hsome, fun hknown hnone _ => (h hknown hnone).symm⟩
  | some x =>
    constructor
    · exact fun _ _ hnone => absurd hnone (Option.some_ne_none x)
    · exact fun _ => FilledIn.refl

/-- An assignment without a look at the column is right only where that makes no difference. -/
theorem filledIn_assign (hunknown : ¬ known) :
    FilledIn known written before (some v) ↔ Older (some v) before := by
  constructor
  · intro h
    by_cases hnone : before = none
    · exact .inr hnone
    · exact .inl (h.kept hnone).symm
  · rintro (rfl | rfl)
    · exact FilledIn.refl
    · exact ⟨fun hsome => absurd rfl hsome, fun hknown => absurd hknown hunknown⟩

end

/-! ### Rows in step -/

/-- Rows that correspond are counted alike. -/
theorem countP_eq_of_forall₂ {R : ρ → σ → Prop} {p : ρ → Bool} {q : σ → Bool} {xs : List ρ}
    {ys : List σ} (h : List.Forall₂ R xs ys)
    (hpq : ∀ x ∈ xs, ∀ y ∈ ys, R x y → p x = q y) : xs.countP p = ys.countP q := by
  induction h with
  | nil => rfl
  | @cons x y xs ys hxy h ih =>
    rw [List.countP_cons, List.countP_cons, hpq x (.head _) y (.head _) hxy,
      ih fun x hx y hy => hpq x (.tail _ hx) y (.tail _ hy)]

/-- A row corresponds to some row. -/
theorem exists_of_forall₂ {R : ρ → σ → Prop} {xs : List ρ} {ys : List σ}
    (h : List.Forall₂ R xs ys) : (∀ x ∈ xs, ∃ y ∈ ys, R x y) ∧ ∀ y ∈ ys, ∃ x ∈ xs, R x y := by
  induction h with
  | nil => exact ⟨by simp, by simp⟩
  | @cons x y xs ys hxy h ih =>
    refine ⟨fun a ha => ?_, fun b hb => ?_⟩
    · obtain rfl | ha := List.mem_cons.mp ha
      · exact ⟨y, .head _, hxy⟩
      · obtain ⟨b, hb, hab⟩ := ih.1 a ha
        exact ⟨b, .tail _ hb, hab⟩
    · obtain rfl | hb := List.mem_cons.mp hb
      · exact ⟨x, .head _, hxy⟩
      · obtain ⟨a, ha, hab⟩ := ih.2 b hb
        exact ⟨a, .tail _ ha, hab⟩

/-- Rows that correspond have the same keys. -/
theorem map_eq_of_forall₂ {R : ρ → σ → Prop} {f : ρ → κ} {g : σ → κ} {xs : List ρ} {ys : List σ}
    (h : List.Forall₂ R xs ys) (hfg : ∀ x y, R x y → g y = f x) : ys.map g = xs.map f := by
  rw [← List.forall₂_eq_eq_eq, List.forall₂_map_left_iff, List.forall₂_map_right_iff]
  exact h.flip.imp fun y x hxy => hfg x y hxy

end

end Sql
