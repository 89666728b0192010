/-
A step that can fail, over the elements of a list.

The first error ends the walk; without one, the results are those of the elements, in their order.

* **`mapM_ok_iff`** — the results, one for each element;
* **`mapM_returns_iff`**, **`mapM_exists`** — there are results where every element has one;
* **`mem_mapM_ok`**, **`mapM_ok_map`**, **`mapM_ok_flatten`** — what can be read off them.
-/
import Mathlib.Data.List.Forall2

variable {ε α β γ : Type} {f : α → Except ε β}

theorem mapM_cons_ok_iff {x : α} {xs : List α} {ys : List β} :
    (x :: xs).mapM f = .ok ys ↔ ∃ y rest, f x = .ok y ∧ xs.mapM f = .ok rest ∧ ys = y :: rest := by
  rw [List.mapM_cons]
  cases f x with
  | error e =>
    refine iff_of_false (fun h => by cases h) ?_
    rintro ⟨_, _, h, -⟩
    cases h
  | ok y =>
    cases xs.mapM f with
    | error e =>
      refine iff_of_false (fun h => by cases h) ?_
      rintro ⟨_, _, -, h, -⟩
      cases h
    | ok rest =>
      constructor
      · intro h
        exact ⟨y, rest, rfl, rfl, (Except.ok.inj h).symm⟩
      · rintro ⟨_, _, ⟨⟩, ⟨⟩, rfl⟩
        rfl

theorem mapM_ok_iff {xs : List α} {ys : List β} :
    xs.mapM f = .ok ys ↔ List.Forall₂ (fun x y => f x = .ok y) xs ys := by
  induction xs generalizing ys with
  | nil =>
    rw [List.forall₂_nil_left_iff]
    exact ⟨fun h => (Except.ok.inj h).symm, fun h => congrArg Except.ok h.symm⟩
  | cons x xs ih =>
    rw [mapM_cons_ok_iff, List.forall₂_cons_left_iff]
    simp only [ih]

/-- A step that succeeds on every element, with what holds of its results. -/
theorem mapM_exists {P : α → β → Prop} {xs : List α} (h : ∀ x ∈ xs, ∃ y, f x = .ok y ∧ P x y) :
    ∃ ys, xs.mapM f = .ok ys ∧ List.Forall₂ P xs ys := by
  induction xs with
  | nil => exact ⟨[], rfl, .nil⟩
  | cons x xs ih =>
    obtain ⟨⟨y, hy, hP⟩, hxs⟩ := List.forall_mem_cons.mp h
    obtain ⟨ys, hys, hall⟩ := ih hxs
    exact ⟨y :: ys, mapM_cons_ok_iff.mpr ⟨y, ys, hy, hys, rfl⟩, .cons hP hall⟩

theorem mapM_returns_iff {xs : List α} :
    (∃ ys, xs.mapM f = .ok ys) ↔ ∀ x ∈ xs, ∃ y, f x = .ok y := by
  induction xs with
  | nil => exact iff_of_true ⟨[], rfl⟩ (List.forall_mem_nil _)
  | cons x xs ih =>
    simp only [mapM_cons_ok_iff, List.forall_mem_cons, ← ih]
    constructor
    · rintro ⟨_, y, rest, hy, hrest, -⟩
      exact ⟨⟨y, hy⟩, rest, hrest⟩
    · rintro ⟨⟨y, hy⟩, rest, hrest⟩
      exact ⟨_, y, rest, hy, hrest, rfl⟩

/-- A step whose results are known. -/
theorem mapM_of_map_ok {xs : List α} {ys : List β} (h : xs.map f = ys.map .ok) :
    xs.mapM f = .ok ys := by
  rw [mapM_ok_iff, ← List.forall₂_map_left_iff (f := f) (R := fun r y => r = .ok y), h,
    List.forall₂_map_left_iff]
  exact List.forall₂_same.mpr fun y _ => rfl

/-- What a step computes, it computes on a whole list. -/
theorem mapM_ok_map {g : α → γ} {h : β → γ} (hf : ∀ x y, f x = .ok y → h y = g x) {xs : List α}
    {ys : List β} (hys : xs.mapM f = .ok ys) : ys.map h = xs.map g := by
  induction xs generalizing ys with
  | nil =>
    obtain rfl := Except.ok.inj hys
    rfl
  | cons x xs ih =>
    obtain ⟨y, rest, hy, hrest, rfl⟩ := mapM_cons_ok_iff.mp hys
    rw [List.map_cons, List.map_cons, hf x y hy, ih hrest]

/-- A step that returns lists. -/
theorem mapM_ok_flatten {f : α → Except ε (List β)} {g : α → List γ} {h : β → γ}
    (hf : ∀ x y, f x = .ok y → y.map h = g x) {xs : List α} {ys : List (List β)}
    (hys : xs.mapM f = .ok ys) : ys.flatten.map h = xs.flatMap g := by
  rw [List.map_flatten, mapM_ok_map (h := List.map h) hf hys, List.flatMap]

theorem mem_mapM_ok {y : β} {xs : List α} {ys : List β} (h : xs.mapM f = .ok ys) :
    y ∈ ys ↔ ∃ x ∈ xs, f x = .ok y := by
  induction xs generalizing ys with
  | nil =>
    obtain rfl := Except.ok.inj h
    simp
  | cons x xs ih =>
    obtain ⟨z, rest, hz, hrest, rfl⟩ := mapM_cons_ok_iff.mp h
    rw [List.mem_cons, ih hrest, List.exists_mem_cons_iff, hz, Except.ok.injEq, eq_comm]
