/-
Entries of a list by their keys, each key in the order it was first seen.

A list of entries stands for a hash map beside a vector: the entry of a key is updated in its
place, or added at the end.

* **`keys_updateEntry`** — the keys stay as they are, with the new one at the end;
* **`sum_updateEntry`** — a sum over the entries grows by what one update adds;
* **`sum_by_key`** — a sum over all items is the sum over the keys of what has each key.
-/
import Mathlib.Algebra.BigOperators.Group.List.Basic
import Mathlib.Tactic.Common

/-- Update the entry of a key, or add one at the end: `entry(key).or_insert_with(…)`. -/
def updateEntry {α κ : Type} [DecidableEq κ] (key : α → κ) (k : κ) (new : α) (update : α → α) :
    List α → List α
  | [] => [update new]
  | x :: xs => if key x = k then update x :: xs else x :: updateEntry key k new update xs

section
variable {α κ γ M : Type} [DecidableEq κ] {key : α → κ} {k : κ} {new : α} {update : α → α}

/-- What an update leaves as it is stays, and is that of the new entry at the end. -/
theorem map_updateEntry {g : α → γ} (hkeep : ∀ a, g (update a) = g a) : ∀ l : List α,
    (updateEntry key k new update l).map g =
      if k ∈ l.map key then l.map g else l.map g ++ [g new]
  | [] => by simp [updateEntry, hkeep]
  | x :: xs => by
    rw [updateEntry]
    by_cases hx : key x = k
    · simp [hx, hkeep]
    · have hk : k ∈ (x :: xs).map key ↔ k ∈ xs.map key := by
        rw [List.map_cons, List.mem_cons, or_iff_right (Ne.symm hx)]
      rw [if_neg hx, List.map_cons, map_updateEntry hkeep xs]
      split_ifs with hin hin' hin'
      · rfl
      · exact absurd (hk.mpr hin) hin'
      · exact absurd (hk.mp hin') hin
      · rfl

/-- **The keys**: a new one comes at the end. -/
theorem keys_updateEntry (hnew : key new = k) (hkeep : ∀ a, key (update a) = key a)
    (l : List α) : (updateEntry key k new update l).map key =
      if k ∈ l.map key then l.map key else l.map key ++ [k] := by
  rw [map_updateEntry hkeep, hnew]

theorem nodup_updateEntry (hnew : key new = k) (hkeep : ∀ a, key (update a) = key a)
    {l : List α} (h : (l.map key).Nodup) : ((updateEntry key k new update l).map key).Nodup := by
  rw [keys_updateEntry hnew hkeep]
  split_ifs with hk
  · exact h
  · exact List.nodup_append.mpr ⟨h, List.pairwise_singleton _ k, by
      rintro _ hl _ hk' rfl
      exact hk (List.mem_singleton.mp hk' ▸ hl)⟩

theorem mem_keys_updateEntry (hnew : key new = k) (hkeep : ∀ a, key (update a) = key a)
    {l : List α} {k' : κ} :
    k' ∈ (updateEntry key k new update l).map key ↔ k' ∈ l.map key ∨ k' = k := by
  rw [keys_updateEntry hnew hkeep]
  split_ifs with hk
  · refine ⟨.inl, ?_⟩
    rintro (h | rfl)
    · exact h
    · exact hk
  · rw [List.mem_append, List.mem_singleton]

/-- An entry is of another key, or was updated. -/
theorem mem_updateEntry {a : α} : ∀ {l : List α}, (l.map key).Nodup →
    a ∈ updateEntry key k new update l →
      (a ∈ l ∧ key a ≠ k) ∨ (∃ b ∈ l, key b = k ∧ a = update b) ∨
        k ∉ l.map key ∧ a = update new
  | [], _, h => .inr (.inr ⟨List.not_mem_nil, List.mem_singleton.mp h⟩)
  | x :: xs, hnodup, h => by
    obtain ⟨hfresh, hnodup⟩ := List.nodup_cons.mp hnodup
    rw [updateEntry] at h
    split_ifs at h with hx
    · obtain rfl | ha := List.mem_cons.mp h
      · exact .inr (.inl ⟨x, List.mem_cons_self, hx, rfl⟩)
      · refine .inl ⟨List.mem_cons_of_mem x ha, fun hk => hfresh ?_⟩
        rw [hx, ← hk]
        exact List.mem_map_of_mem ha
    · obtain rfl | ha := List.mem_cons.mp h
      · exact .inl ⟨List.mem_cons_self, hx⟩
      · obtain ⟨ha, hk⟩ | ⟨b, hb, hupdate⟩ | ⟨hk, hupdate⟩ := mem_updateEntry hnodup ha
        · exact .inl ⟨List.mem_cons_of_mem x ha, hk⟩
        · exact .inr (.inl ⟨b, List.mem_cons_of_mem x hb, hupdate⟩)
        · refine .inr (.inr ⟨fun hmem => ?_, hupdate⟩)
          obtain heq | hmem := List.mem_cons.mp hmem
          · exact hx heq.symm
          · exact hk hmem

/-- What every entry has, and an update keeps. -/
theorem forall_updateEntry {P : α → Prop} (hnew : P (update new))
    (hupdate : ∀ a, P a → P (update a)) : ∀ {l : List α}, (∀ a ∈ l, P a) →
    ∀ a ∈ updateEntry key k new update l, P a
  | [], _ => List.forall_mem_singleton.mpr hnew
  | x :: xs, h => by
    obtain ⟨hx, hxs⟩ := List.forall_mem_cons.mp h
    rw [updateEntry]
    split_ifs
    · exact List.forall_mem_cons.mpr ⟨hupdate x hx, hxs⟩
    · exact List.forall_mem_cons.mpr ⟨hx, forall_updateEntry hnew hupdate hxs⟩

/-- **A sum over the entries** grows by what one update adds. -/
theorem sum_updateEntry [AddCommMonoid M] {m : α → M} {d : M} (hnew : m new = 0)
    (hadd : ∀ a, m (update a) = m a + d) : ∀ l : List α,
    ((updateEntry key k new update l).map m).sum = (l.map m).sum + d
  | [] => by simp [updateEntry, hadd, hnew]
  | x :: xs => by
    rw [updateEntry]
    split_ifs with hx
    · rw [List.map_cons, List.sum_cons, List.map_cons, List.sum_cons, hadd, add_right_comm]
    · rw [List.map_cons, List.sum_cons, List.map_cons, List.sum_cons, sum_updateEntry hnew hadd,
        add_assoc]

/-- **A sum over all items** is the sum over the keys of what has each key. -/
theorem sum_by_key [AddCommMonoid M] {ι : Type} {keyOf : ι → κ} {keys : List κ}
    (hnodup : keys.Nodup) (f : ι → M) : ∀ items : List ι, (∀ x ∈ items, keyOf x ∈ keys) →
    (keys.map fun k => ((items.filter (keyOf · = k)).map f).sum).sum = (items.map f).sum
  | [], _ => by simp
  | x :: items, hkeys => by
    obtain ⟨hx, hitems⟩ := List.forall_mem_cons.mp hkeys
    have hrest := sum_by_key hnodup f items hitems
    -- the first item is counted at its key, and nowhere else
    have hone : ∀ keys : List κ, keys.Nodup →
        (keys.map fun k => (((x :: items).filter (keyOf · = k)).map f).sum).sum =
          (if keyOf x ∈ keys then f x else 0) +
            (keys.map fun k => ((items.filter (keyOf · = k)).map f).sum).sum := by
      intro keys hnodup
      induction keys with
      | nil => simp
      | cons k keys ih =>
        obtain ⟨hfresh, hnodup⟩ := List.nodup_cons.mp hnodup
        rw [List.map_cons, List.sum_cons, ih hnodup, List.map_cons, List.sum_cons]
        by_cases hk : keyOf x = k
        · subst hk
          rw [List.filter_cons_of_pos (by simp), List.map_cons, List.sum_cons, if_neg hfresh,
            if_pos List.mem_cons_self, zero_add, add_assoc]
        · have hmem : keyOf x ∈ k :: keys ↔ keyOf x ∈ keys := by
            rw [List.mem_cons, or_iff_right hk]
          rw [List.filter_cons_of_neg (by simpa using hk)]
          simp only [hmem]
          rw [add_left_comm]
    rw [hone keys hnodup, if_pos hx, hrest, List.map_cons, List.sum_cons]

/-! ### Pairs -/

/-- What is found under a key is what stands there, where each key comes once. -/
theorem lookup_eq_some_iff_mem {pairs : List (κ × γ)} (hnodup : (pairs.map Prod.fst).Nodup)
    {c : γ} : pairs.lookup k = some c ↔ (k, c) ∈ pairs := by
  rw [List.lookup_eq_some_iff]
  constructor
  · rintro ⟨before, after, rfl, -⟩
    simp
  · intro hmem
    obtain ⟨before, after, rfl⟩ := List.append_of_mem hmem
    refine ⟨before, after, rfl, fun x hx => bne_iff_ne.mpr fun heq => ?_⟩
    rw [List.map_append, List.map_cons] at hnodup
    exact (List.nodup_append.mp hnodup).2.2 _ (List.mem_map_of_mem hx) _ (.head _) heq.symm

/-- Looked up by all their keys, pairs are all found. -/
theorem filterMap_lookup_perm {keys : List κ} {pairs : List (κ × γ)} (hkeys : keys.Nodup)
    (hnodup : (pairs.map Prod.fst).Nodup) (hall : ∀ x ∈ pairs, x.1 ∈ keys) :
    (keys.filterMap fun k => pairs.lookup k).Perm (pairs.map Prod.snd) := by
  have hpairs : (keys.filterMap fun k => (pairs.lookup k).map (k, ·)).Perm pairs := by
    refine (List.perm_ext_iff_of_nodup ?_ ?_).mpr ?_
    · refine List.Pairwise.filterMap _ ?_ hkeys
      rintro k k' hne x hx _ hx' rfl
      obtain ⟨_, -, rfl⟩ := Option.map_eq_some_iff.mp hx
      obtain ⟨_, -, heq⟩ := Option.map_eq_some_iff.mp hx'
      exact hne (congrArg Prod.fst heq).symm
    · exact List.Pairwise.of_map Prod.fst (fun _ _ h heq => h (congrArg Prod.fst heq)) hnodup
    · rintro ⟨k, c⟩
      rw [List.mem_filterMap]
      constructor
      · rintro ⟨k', -, hx⟩
        obtain ⟨c', hc', heq⟩ := Option.map_eq_some_iff.mp hx
        obtain ⟨rfl, rfl⟩ := Prod.mk.inj heq
        exact (lookup_eq_some_iff_mem hnodup).mp hc'
      · intro hmem
        exact ⟨k, hall _ hmem, by rw [(lookup_eq_some_iff_mem hnodup).mpr hmem]; rfl⟩
  have hvalues := hpairs.map Prod.snd
  rw [List.map_filterMap] at hvalues
  refine (List.Perm.of_eq (List.filterMap_congr fun k _ => ?_)).trans hvalues
  rw [Option.map_map]
  exact Option.map_id'.symm

end
