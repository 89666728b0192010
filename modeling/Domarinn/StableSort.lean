/-
Stable sorting by a key.

A stable sort keeps the elements of one key in the order they came in, so it is decided by
what the list has under each key.

* **`filter_sortBy`** — sorting changes nothing under a single key;
* **`sortBy_eq_iff`** — two lists sort alike exactly when they have the same under each key;
* **`sortBy_order_free`** — the order of a list is lost exactly when elements of one key are
  one element.
-/
import Mathlib.Data.List.Sort
import Mathlib.Data.List.Basic
import Mathlib.Tactic.Common

variable {α β κ : Type} [LinearOrder κ]

/-- The elements in the order of their keys; those of one key stay in order. -/
def sortBy (key : α → κ) (l : List α) : List α := l.insertionSort fun a b => key a ≤ key b

/-- What a list has under a key. -/
def under (key : α → κ) (k : κ) (l : List α) : List α := l.filter fun a => key a = k

section
variable (key : α → κ)

@[simp] theorem under_nil (k : κ) : under key k [] = [] := rfl

theorem under_cons (k : κ) (a : α) (l : List α) :
    under key k (a :: l) = if key a = k then a :: under key k l else under key k l := by
  rw [under, List.filter_cons, ← under]
  simp only [decide_eq_true_eq]

theorem mem_under {k : κ} {a : α} {l : List α} : a ∈ under key k l ↔ a ∈ l ∧ key a = k := by
  rw [under, List.mem_filter, decide_eq_true_eq]

theorem perm_sortBy (l : List α) : (sortBy key l).Perm l := List.perm_insertionSort _ l

theorem sortBy_eq_nil {key : α → κ} {l : List α} (h : sortBy key l = []) : l = [] :=
  List.nil_perm.mp (h ▸ perm_sortBy key l)

theorem pairwise_sortBy (l : List α) : (sortBy key l).Pairwise fun a b => key a ≤ key b := by
  have : Std.Total fun a b : α => key a ≤ key b := ⟨fun a b => le_total (key a) (key b)⟩
  have : IsTrans α fun a b => key a ≤ key b := ⟨fun _ _ _ => le_trans⟩
  exact List.pairwise_insertionSort _ l

/-- Sorting by a key that a map keeps. -/
theorem sortBy_map (f : β → α) (l : List β) :
    sortBy key (l.map f) = (sortBy (key ∘ f) l).map f :=
  (List.map_insertionSort _ _ f l fun _ _ _ _ => Iff.rfl).symm

/-- An element goes before those of its own key. -/
theorem under_orderedInsert (a : α) (k : κ) (l : List α) :
    under key k (l.orderedInsert (fun a b => key a ≤ key b) a) = under key k (a :: l) := by
  induction l with
  | nil => rfl
  | cons b l ih =>
    rw [List.orderedInsert_cons]
    split_ifs with h
    · rfl
    · rw [under_cons, ih, under_cons, under_cons, under_cons]
      by_cases hb : key b = k
      · have ha : key a ≠ k := fun ha => h (ha.trans hb.symm).le
        rw [if_pos hb, if_neg ha, if_neg ha, if_pos hb]
      · rw [if_neg hb, if_neg hb]

/-- **A stable sort changes nothing under a single key.** -/
theorem under_sortBy (k : κ) (l : List α) : under key k (sortBy key l) = under key k l := by
  induction l with
  | nil => rfl
  | cons a l ih =>
    rw [sortBy, List.insertionSort_cons, ← sortBy, under_orderedInsert, under_cons, under_cons,
      ih]

variable {key}

/-- A sorted list begins with its least key. -/
theorem key_head_le {a : α} {l : List α}
    (h : (a :: l).Pairwise fun a b => key a ≤ key b) {b : α} (hb : b ∈ a :: l) :
    key a ≤ key b := by
  rcases List.mem_cons.mp hb with rfl | hb
  · exact le_rfl
  · exact (List.pairwise_cons.mp h).1 b hb

theorem under_tail_eq {k : κ} {a : α} {l₁ l₂ : List α}
    (h : under key k (a :: l₁) = under key k (a :: l₂)) : under key k l₁ = under key k l₂ := by
  rw [under_cons, under_cons] at h
  split_ifs at h
  · exact (List.cons.inj h).2
  · exact h

/-- Sorted lists with the same under each key are one list. -/
theorem eq_of_under_eq : ∀ {l₁ l₂ : List α},
    (l₁.Pairwise fun a b => key a ≤ key b) → (l₂.Pairwise fun a b => key a ≤ key b) →
      (∀ k, under key k l₁ = under key k l₂) → l₁ = l₂ := by
  intro l₁
  induction l₁ with
  | nil =>
    intro l₂ _ _ h
    cases l₂ with
    | nil => rfl
    | cons b l₂ => simpa [under_cons] using h (key b)
  | cons a l₁ ih =>
    intro l₂ h₁ h₂ h
    cases l₂ with
    | nil => simpa [under_cons] using h (key a)
    | cons b l₂ =>
      have hmem : ∀ c, c ∈ a :: l₁ ↔ c ∈ b :: l₂ := by
        intro c
        have hc : c ∈ under key (key c) (a :: l₁) ↔ c ∈ under key (key c) (b :: l₂) := by rw [h]
        simpa only [mem_under, and_true] using hc
      -- each head is the least key of the other list
      have hkey : key a = key b :=
        le_antisymm (key_head_le h₁ ((hmem b).mpr List.mem_cons_self))
          (key_head_le h₂ ((hmem a).mp List.mem_cons_self))
      have hhead := h (key a)
      rw [under_cons, under_cons, if_pos rfl, if_pos hkey.symm, List.cons.injEq] at hhead
      obtain ⟨rfl, -⟩ := hhead
      congr 1
      refine ih (List.pairwise_cons.mp h₁).2 (List.pairwise_cons.mp h₂).2 fun k => ?_
      exact under_tail_eq (h k)

/-- **Two lists sort alike exactly when they have the same under each key.** -/
theorem sortBy_eq_iff {l₁ l₂ : List α} :
    sortBy key l₁ = sortBy key l₂ ↔ ∀ k, under key k l₁ = under key k l₂ := by
  constructor
  · intro h k
    rw [← under_sortBy key k l₁, h, under_sortBy]
  · intro h
    refine eq_of_under_eq (pairwise_sortBy key l₁) (pairwise_sortBy key l₂) fun k => ?_
    rw [under_sortBy, under_sortBy, h k]

/-- Lists with the same keys in the same order sort alike only when they are one list. -/
theorem eq_of_sortBy_eq : ∀ {l₁ l₂ : List α}, l₁.map key = l₂.map key →
    sortBy key l₁ = sortBy key l₂ → l₁ = l₂ := by
  intro l₁ l₂ hkeys hsort
  have h := sortBy_eq_iff.mp hsort
  clear hsort
  induction l₁ generalizing l₂ with
  | nil => exact (List.map_eq_nil_iff.mp hkeys.symm).symm
  | cons a l₁ ih =>
    cases l₂ with
    | nil => simp at hkeys
    | cons b l₂ =>
      rw [List.map_cons, List.map_cons, List.cons.injEq] at hkeys
      have hhead := h (key a)
      rw [under_cons, under_cons, if_pos rfl, if_pos hkeys.1.symm, List.cons.injEq] at hhead
      obtain ⟨rfl, -⟩ := hhead
      congr 1
      refine ih hkeys.2 fun k => ?_
      exact under_tail_eq (h k)

theorem under_map (f : β → α) (k : κ) (l : List β) :
    under key k (l.map f) = (under (key ∘ f) k l).map f := by
  rw [under, List.filter_map]
  rfl

/-- **The order of a list is lost exactly when elements of one key are one element.** -/
theorem sortBy_order_free (f : β → α) (l : List β) :
    (∀ l' : List β, l.Perm l' → sortBy key (l'.map f) = sortBy key (l.map f)) ↔
      ∀ a ∈ l, ∀ b ∈ l, key (f a) = key (f b) → f a = f b := by
  classical
  constructor
  · intro h a ha b hb hkey
    by_cases hab : a = b
    · rw [hab]
    -- the list with `a` first, and with `b` first
    have hb' : b ∈ l.erase a := (List.mem_erase_of_ne (Ne.symm hab)).mpr hb
    have hperm : l.Perm (a :: b :: (l.erase a).erase b) :=
      (List.perm_cons_erase ha).trans ((List.perm_cons_erase hb').cons a)
    have hswap : l.Perm (b :: a :: (l.erase a).erase b) := hperm.trans (List.Perm.swap b a _)
    have hunder := sortBy_eq_iff.mp ((h _ hperm).trans (h _ hswap).symm) (key (f a))
    simp only [List.map_cons, under_cons, hkey, if_true] at hunder
    exact (List.cons.inj hunder).1
  · intro h l' hperm
    refine sortBy_eq_iff.mpr fun k => ?_
    have hunder : (under key k (l'.map f)).Perm (under key k (l.map f)) :=
      (hperm.symm.map f).filter _
    -- under one key there is one element, so a permutation is no change
    have hany : ∀ l : List α, l.Pairwise fun _ _ => True :=
      fun l => List.pairwise_of_forall fun _ _ => trivial
    refine List.Perm.eq_of_pairwise (fun x y hx hy _ _ => ?_) (hany _) (hany _) hunder
    obtain ⟨hx, hkx⟩ := (mem_under key).mp (hunder.mem_iff.mp hx)
    obtain ⟨hy, hky⟩ := (mem_under key).mp hy
    obtain ⟨a, ha, rfl⟩ := List.mem_map.mp hx
    obtain ⟨b, hb, rfl⟩ := List.mem_map.mp hy
    exact h a ha b hb (hkx.trans hky.symm)

end
