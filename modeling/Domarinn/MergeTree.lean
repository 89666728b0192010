/-
Trees whose children have names, and merging one over another.

A tree is a scalar, a list of items, or has children by name; a name without a child has the absent
tree.  `mergeWith` lays a tree over another.  What happens where both have something is said by a
rule, from the path and the two trees: the upper one replaces the lower, two lists are joined, or
the children are merged name by name.

Names and scalars are of arbitrary types.

* **`mergeWith_eq_over_iff`** — when the upper tree is what comes out;
* **`mergeWith_eq_iff`** — when two rules come to the same tree.
-/
import Mathlib.Logic.Basic
import Mathlib.Data.List.Basic

/-- A tree with children by name. -/
inductive MergeTree (ν α : Type*) where
  | absent
  | scalar (v : α)
  | items (xs : List α)
  | node (children : ν → MergeTree ν α)

namespace MergeTree

variable {ν α : Type*}

/-- What becomes of two trees at a path. -/
inductive Rule where
  | replace
  | append
  | descend
deriving DecidableEq

/-- A rule for every path and every two trees. -/
abbrev Rules (ν α : Type*) := List ν → MergeTree ν α → MergeTree ν α → Rule

/-- A tree laid over another, from a path on. -/
def mergeWith (rule : Rules ν α) : List ν → MergeTree ν α → MergeTree ν α → MergeTree ν α
  | _, base, absent => base
  | _, _, scalar v => scalar v
  | path, base, items ys =>
    match base with
    | items xs => if rule path base (items ys) = .append then items (xs ++ ys) else items ys
    | _ => items ys
  | path, base, node upper =>
    match base with
    | node below =>
      if rule path base (node upper) = .descend then
        node fun k => mergeWith rule (path ++ [k]) (below k) (upper k)
      else node upper
    | _ => node upper

variable {rule : Rules ν α} {path : List ν} {base upper : MergeTree ν α}

@[simp] theorem mergeWith_absent : mergeWith rule path base absent = base := by
  cases base <;> rfl

@[simp] theorem absent_mergeWith : mergeWith rule path absent upper = upper := by
  cases upper <;> rfl

@[simp] theorem mergeWith_scalar (v : α) : mergeWith rule path base (scalar v) = scalar v := by
  cases base <;> rfl

theorem mergeWith_items (xs ys : List α) : mergeWith rule path (items xs) (items ys) =
    if rule path (items xs) (items ys) = .append then items (xs ++ ys) else items ys := rfl

theorem mergeWith_node (below upper : ν → MergeTree ν α) :
    mergeWith rule path (node below) (node upper) =
      if rule path (node below) (node upper) = .descend then
        node fun k => mergeWith rule (path ++ [k]) (below k) (upper k)
      else node upper := rfl

/-! ### When the upper tree is what comes out -/

/-- The lower tree adds nothing: where lists are joined its list is empty, and where children are
merged none of its own adds anything to the upper one's. -/
def AddsNothing (rule : Rules ν α) : List ν → MergeTree ν α → MergeTree ν α → Prop
  | _, base, absent => base = absent
  | _, _, scalar _ => True
  | path, base, items ys => ∀ xs, base = items xs → rule path base (items ys) = .append → xs = []
  | path, base, node upper => ∀ below, base = node below → rule path base (node upper) = .descend →
      ∀ k, AddsNothing rule (path ++ [k]) (below k) (upper k)

/-- **The upper tree comes out exactly when the lower one adds nothing to it.** -/
theorem mergeWith_eq_over_iff : ∀ {path : List ν} {base upper : MergeTree ν α},
    mergeWith rule path base upper = upper ↔ AddsNothing rule path base upper := by
  intro path base upper
  induction upper generalizing path base with
  | absent => rw [mergeWith_absent, AddsNothing]
  | scalar v => exact iff_of_true (mergeWith_scalar v) trivial
  | items ys =>
    rw [AddsNothing]
    cases base with
    | items xs =>
      rw [mergeWith_items]
      by_cases happend : rule path (items xs) (items ys) = .append
      · -- joined lists are the upper one when the lower one is empty
        rw [if_pos happend, items.injEq, List.append_left_eq_self]
        refine ⟨fun h xs' heq _ => ?_, fun h => h xs rfl happend⟩
        rwa [← items.inj heq]
      · rw [if_neg happend]
        exact iff_of_true rfl fun _ _ h => absurd h happend
    | absent | scalar v | node below => exact iff_of_true rfl fun _ h => by cases h
  | node upper ih =>
    rw [AddsNothing]
    cases base with
    | node below =>
      rw [mergeWith_node]
      by_cases hdescend : rule path (node below) (node upper) = .descend
      · -- merged children are the upper ones name by name
        rw [if_pos hdescend, node.injEq, funext_iff]
        refine ⟨fun h below' heq _ k => ?_, fun h k => (ih k).mpr (h below rfl hdescend k)⟩
        rw [← node.inj heq]
        exact (ih k).mp (h k)
      · rw [if_neg hdescend]
        exact iff_of_true rfl fun _ _ h => absurd h hdescend
    | absent | scalar v | items xs => exact iff_of_true rfl fun _ h => by cases h

/-! ### When two rules come to the same tree -/

/-- Two rules agree: lists that only one of them joins have nothing to join, and children that only
one of them merges add nothing. -/
def Agree (rule rule' : Rules ν α) : List ν → MergeTree ν α → MergeTree ν α → Prop
  | _, _, absent => True
  | _, _, scalar _ => True
  | path, base, items ys => ∀ xs, base = items xs →
      (rule path base (items ys) = .append ↔ rule' path base (items ys) = .append) ∨ xs = []
  | path, base, node upper => ∀ below, base = node below →
      (rule path base (node upper) = .descend → rule' path base (node upper) = .descend →
        ∀ k, Agree rule rule' (path ++ [k]) (below k) (upper k)) ∧
      (rule' path base (node upper) ≠ .descend → AddsNothing rule path base (node upper)) ∧
      (rule path base (node upper) ≠ .descend → AddsNothing rule' path base (node upper))

theorem mergeWith_items_eq_iff {rule' : Rules ν α} {path : List ν} {base : MergeTree ν α}
    {ys : List α} :
    mergeWith rule path base (items ys) = mergeWith rule' path base (items ys) ↔
      Agree rule rule' path base (items ys) := by
  rw [Agree]
  cases base with
  | items xs =>
    have hxs : xs ++ ys = ys ↔ xs = [] := List.append_left_eq_self
    rw [mergeWith_items, mergeWith_items]
    constructor
    · intro h xs' heq
      obtain rfl := items.inj heq
      split_ifs at h with h1 h2 h2
      · exact .inl (iff_of_true h1 h2)
      · exact .inr (hxs.mp (items.inj h))
      · exact .inr (hxs.mp (items.inj h).symm)
      · exact .inl (iff_of_false h1 h2)
    · intro h
      obtain hboth | rfl := h xs rfl
      · simp only [hboth]
      · rw [List.nil_append, ite_self, ite_self]
  | absent | scalar v | node below => exact iff_of_true rfl fun _ h => by cases h

/-- Two mappings, by what the rules say of them. -/
theorem mergeWith_node_eq_iff {rule' : Rules ν α} {path : List ν} {below upper : ν → MergeTree ν α}
    (ih : ∀ k, mergeWith rule (path ++ [k]) (below k) (upper k) =
        mergeWith rule' (path ++ [k]) (below k) (upper k) ↔
      Agree rule rule' (path ++ [k]) (below k) (upper k)) :
    mergeWith rule path (node below) (node upper) = mergeWith rule' path (node below) (node upper) ↔
      Agree rule rule' path (node below) (node upper) := by
  rw [Agree]
  have hself (r : Rules ν α) (h : r path (node below) (node upper) ≠ .descend) :
      mergeWith r path (node below) (node upper) = node upper := by
    rw [mergeWith_node, if_neg h]
  by_cases h1 : rule path (node below) (node upper) = .descend
  · by_cases h2 : rule' path (node below) (node upper) = .descend
    · -- both merge the children
      rw [mergeWith_node, mergeWith_node, if_pos h1, if_pos h2, node.injEq, funext_iff]
      constructor
      · intro h below' heq
        obtain rfl := node.inj heq
        exact ⟨fun _ _ k => (ih k).mp (h k), fun hne => absurd h2 hne, fun hne => absurd h1 hne⟩
      · exact fun h k => (ih k).mpr ((h below rfl).1 h1 h2 k)
    · -- only the first merges them
      rw [hself rule' h2, mergeWith_eq_over_iff]
      constructor
      · intro h below' heq
        obtain rfl := node.inj heq
        exact ⟨fun _ hd => absurd hd h2, fun _ => h, fun hne => absurd h1 hne⟩
      · exact fun h => (h below rfl).2.1 h2
  · by_cases h2 : rule' path (node below) (node upper) = .descend
    · -- only the second merges them
      rw [hself rule h1, eq_comm, mergeWith_eq_over_iff]
      constructor
      · intro h below' heq
        obtain rfl := node.inj heq
        exact ⟨fun hd => absurd hd h1, fun hne => absurd h2 hne, fun _ => h⟩
      · exact fun h => (h below rfl).2.2 h1
    · -- both replace
      rw [hself rule h1, hself rule' h2]
      refine iff_of_true rfl fun below' heq => ?_
      obtain rfl := node.inj heq
      exact ⟨fun hd => absurd hd h1, fun _ => mergeWith_eq_over_iff.mp (hself rule h1),
        fun _ => mergeWith_eq_over_iff.mp (hself rule' h2)⟩

/-- **Two rules come to the same tree exactly when they agree.** -/
theorem mergeWith_eq_iff {rule' : Rules ν α} : ∀ {path : List ν} {base upper : MergeTree ν α},
    mergeWith rule path base upper = mergeWith rule' path base upper ↔
      Agree rule rule' path base upper := by
  intro path base upper
  -- down the upper tree, whose mappings the merge follows
  induction upper generalizing path base with
  | absent =>
    rw [mergeWith_absent, mergeWith_absent]
    exact iff_of_true rfl trivial
  | scalar v =>
    rw [mergeWith_scalar, mergeWith_scalar]
    exact iff_of_true rfl trivial
  | items ys => exact mergeWith_items_eq_iff
  | node upper ih =>
    cases base with
    | node below => exact mergeWith_node_eq_iff fun k => ih k
    | absent | scalar v | items xs =>
      rw [Agree]
      exact iff_of_true rfl fun _ h => by cases h

end MergeTree
