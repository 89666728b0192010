/-
Reordering of object members, and the key-sorted form that decides it.

Two documents that differ only in the order of object members, at any depth, ask for
the same thing.  `Reorder` states this as the least equivalence that swaps members and
looks inside arrays and objects; `sortKeys` is the normal form a canonical serialiser
computes:

* **`reorder_sortKeys`** — a document is a reordering of its key-sorted form;
* **`Reorder.sortKeys_eq`** — reorderings have one key-sorted form, as soon as member
  names are distinct;
* **`sortKeys_eq_iff`** — so the form decides `Reorder`.

Distinctness of member names is a property of the document, `distinct`, carried by the
subtype `Document`: a map cannot hold one name twice.
-/
import Domarinn.Json

namespace Json

/-! ### Distinct member names -/

mutual

/-- No object inside the document has two members of one name. -/
def distinct : Json → Bool
  | arr items => distinctItems items
  | obj members => decide (members.map Prod.fst).Nodup && distinctMembers members
  | _ => true

/-- Every item is `distinct`. -/
def distinctItems : List Json → Bool
  | [] => true
  | x :: xs => distinct x && distinctItems xs

/-- Every value is `distinct`. -/
def distinctMembers : List (String × Json) → Bool
  | [] => true
  | (_, v) :: ms => distinct v && distinctMembers ms

end

theorem distinctItems_iff {xs : List Json} :
    distinctItems xs = true ↔ ∀ x ∈ xs, distinct x = true := by
  induction xs with
  | nil => simp [distinctItems]
  | cons x xs ih => simp [distinctItems, ih]

theorem distinctMembers_iff {ms : List (String × Json)} :
    distinctMembers ms = true ↔ ∀ m ∈ ms, distinct m.2 = true := by
  induction ms with
  | nil => simp [distinctMembers]
  | cons m ms ih =>
    obtain ⟨k, v⟩ := m
    rw [distinctMembers, Bool.and_eq_true, ih, List.forall_mem_cons]

theorem distinct_arr {xs : List Json} :
    distinct (arr xs) = true ↔ ∀ x ∈ xs, distinct x = true := by
  rw [distinct, distinctItems_iff]

theorem distinct_obj {ms : List (String × Json)} :
    distinct (obj ms) = true ↔ (ms.map Prod.fst).Nodup ∧ ∀ m ∈ ms, distinct m.2 = true := by
  rw [distinct, Bool.and_eq_true, decide_eq_true_iff, distinctMembers_iff]

/-! ### Reordering -/

/-- Equality up to the order of object members at every depth. -/
inductive Reorder : Json → Json → Prop where
  | refl (v : Json) : Reorder v v
  | trans {a b c : Json} : Reorder a b → Reorder b c → Reorder a c
  | perm {ms ns : List (String × Json)} : ms.Perm ns → Reorder (obj ms) (obj ns)
  | item {v w : Json} (pre post : List Json) : Reorder v w →
      Reorder (arr (pre ++ v :: post)) (arr (pre ++ w :: post))
  | member {v w : Json} (k : String) (pre post : List (String × Json)) : Reorder v w →
      Reorder (obj (pre ++ (k, v) :: post)) (obj (pre ++ (k, w) :: post))

theorem Reorder.symm {a b : Json} (h : Reorder a b) : Reorder b a := by
  induction h with
  | refl v => exact .refl v
  | trans _ _ ih₁ ih₂ => exact .trans ih₂ ih₁
  | perm hp => exact .perm hp.symm
  | item pre post _ ih => exact .item pre post ih
  | member k pre post _ ih => exact .member k pre post ih

/-- Reordering every item of an array reorders the array. -/
theorem reorder_arr_map {f : Json → Json} : ∀ (xs pre : List Json),
    (∀ x ∈ xs, Reorder x (f x)) → Reorder (arr (pre ++ xs)) (arr (pre ++ xs.map f)) := by
  intro xs
  induction xs with
  | nil =>
    intro pre _
    exact .refl _
  | cons x xs ih =>
    intro pre h
    refine .trans (.item pre xs (h x (by simp))) ?_
    have := ih (pre ++ [f x]) fun y hy => h y (by simp [hy])
    simpa using this

/-- Reordering every value of an object reorders the object. -/
theorem reorder_obj_map {f : Json → Json} : ∀ (ms pre : List (String × Json)),
    (∀ m ∈ ms, Reorder m.2 (f m.2)) →
      Reorder (obj (pre ++ ms)) (obj (pre ++ ms.map fun m => (m.1, f m.2))) := by
  intro ms
  induction ms with
  | nil =>
    intro pre _
    exact .refl _
  | cons m ms ih =>
    obtain ⟨k, v⟩ := m
    intro pre h
    refine .trans (.member k pre ms (h (k, v) (by simp))) ?_
    have := ih (pre ++ [(k, f v)]) fun n hn => h n (by simp [hn])
    simpa using this

theorem Reorder.distinct {a b : Json} (h : Reorder a b) : a.distinct = true → b.distinct = true := by
  -- a permutation keeps the names; below a member or an item the induction applies
  induction h with
  | refl v => exact id
  | trans _ _ ih₁ ih₂ => exact fun ha => ih₂ (ih₁ ha)
  | perm hp =>
    rw [distinct_obj, distinct_obj]
    rintro ⟨hnodup, hvals⟩
    exact ⟨(hp.map Prod.fst).nodup_iff.mp hnodup, fun m hm => hvals m (hp.mem_iff.mpr hm)⟩
  | item pre post _ ih =>
    rw [distinct_arr, distinct_arr]
    intro hx x hm
    rcases List.mem_append.mp hm with hm | hm
    · exact hx x (by simp [hm])
    · rcases List.mem_cons.mp hm with rfl | hm
      · exact ih (hx _ (by simp))
      · exact hx x (by simp [hm])
  | member k pre post _ ih =>
    rw [distinct_obj, distinct_obj]
    rintro ⟨hnodup, hvals⟩
    refine ⟨by simpa using hnodup, fun m hm => ?_⟩
    rcases List.mem_append.mp hm with hm | hm
    · exact hvals m (by simp [hm])
    · rcases List.mem_cons.mp hm with rfl | hm
      · exact ih (hvals (k, _) (by simp))
      · exact hvals m (by simp [hm])

/-! ### The key-sorted form -/

/-- Members in the order of their names. -/
def sortMembersByKey (ms : List (String × Json)) : List (String × Json) :=
  ms.insertionSort fun a b => a.1 ≤ b.1

mutual

/-- Every object's members in the order of their names. -/
def sortKeys : Json → Json
  | null => null
  | bool b => bool b
  | num n => num n
  | str s => str s
  | arr items => arr (sortKeysItems items)
  | obj members => obj (sortMembersByKey (sortKeysMembers members))

/-- `sortKeys` of every item. -/
def sortKeysItems : List Json → List Json
  | [] => []
  | x :: xs => sortKeys x :: sortKeysItems xs

/-- `sortKeys` of every value. -/
def sortKeysMembers : List (String × Json) → List (String × Json)
  | [] => []
  | (k, v) :: ms => (k, sortKeys v) :: sortKeysMembers ms

end

theorem sortKeysItems_eq (xs : List Json) : sortKeysItems xs = xs.map sortKeys := by
  induction xs with
  | nil => rfl
  | cons x xs ih => rw [sortKeysItems, ih, List.map_cons]

theorem sortKeysMembers_eq (ms : List (String × Json)) :
    sortKeysMembers ms = ms.map fun m => (m.1, sortKeys m.2) := by
  induction ms with
  | nil => rfl
  | cons m ms ih => rw [sortKeysMembers, ih, List.map_cons]

theorem sortKeys_arr (xs : List Json) : sortKeys (arr xs) = arr (xs.map sortKeys) := by
  rw [sortKeys, sortKeysItems_eq]

theorem sortKeys_obj (ms : List (String × Json)) :
    sortKeys (obj ms) = obj (sortMembersByKey (ms.map fun m => (m.1, sortKeys m.2))) := by
  rw [sortKeys, sortKeysMembers_eq]

theorem perm_sortMembersByKey (ms : List (String × Json)) : (sortMembersByKey ms).Perm ms :=
  List.perm_insertionSort _ ms

/-- Objects with the same members, named distinctly, sort to the same list. -/
theorem sortMembersByKey_eq_of_perm {ms ns : List (String × Json)} (hp : ms.Perm ns)
    (hnodup : (ms.map Prod.fst).Nodup) : sortMembersByKey ms = sortMembersByKey ns := by
  have : Std.Total fun a b : String × Json => a.1 ≤ b.1 := ⟨fun a b => String.le_total a.1 b.1⟩
  have : IsTrans (String × Json) fun a b => a.1 ≤ b.1 := ⟨fun _ _ _ => String.le_trans⟩
  refine List.Perm.eq_of_pairwise (fun a b ha hb hab hba => ?_)
    (List.pairwise_insertionSort _ ms) (List.pairwise_insertionSort _ ns)
    ((perm_sortMembersByKey ms).trans (hp.trans (perm_sortMembersByKey ns).symm))
  -- one name belongs to one member
  have ha' : a ∈ ms := (perm_sortMembersByKey ms).mem_iff.mp ha
  have hb' : b ∈ ms := hp.mem_iff.mpr ((perm_sortMembersByKey ns).mem_iff.mp hb)
  exact List.inj_on_of_nodup_map hnodup ha' hb' (String.le_antisymm hab hba)

/-- **A document is a reordering of its key-sorted form.** -/
theorem reorder_sortKeys (v : Json) : Reorder v (sortKeys v) := by
  induction v with
  | arr xs ih =>
    rw [sortKeys_arr]
    exact reorder_arr_map xs [] ih
  | obj ms ih =>
    rw [sortKeys_obj]
    exact .trans (reorder_obj_map ms [] ih) (.perm (perm_sortMembersByKey _).symm)
  | _ => exact .refl _

/-- **Reorderings have one key-sorted form.** -/
theorem Reorder.sortKeys_eq {a b : Json} (h : Reorder a b) :
    a.distinct = true → sortKeys a = sortKeys b := by
  induction h with
  | refl v => exact fun _ => rfl
  | trans h₁ _ ih₁ ih₂ => exact fun ha => (ih₁ ha).trans (ih₂ (h₁.distinct ha))
  | perm hp =>
    intro hd
    rw [sortKeys_obj, sortKeys_obj]
    rw [sortMembersByKey_eq_of_perm (hp.map _)
      (by simpa [Function.comp_def] using (distinct_obj.mp hd).1)]
  | item pre post _ ih =>
    intro hd
    rw [sortKeys_arr, sortKeys_arr, List.map_append, List.map_append, List.map_cons,
      List.map_cons, ih (distinct_arr.mp hd _ (by simp))]
  | member k pre post _ ih =>
    intro hd
    rw [sortKeys_obj, sortKeys_obj, List.map_append, List.map_append, List.map_cons,
      List.map_cons, ih ((distinct_obj.mp hd).2 (k, _) (by simp))]

/-- **The key-sorted form decides reordering.** -/
theorem sortKeys_eq_iff {a b : Json} (ha : a.distinct = true) :
    sortKeys a = sortKeys b ↔ Reorder a b := by
  constructor
  · intro h
    exact .trans (reorder_sortKeys a) (h ▸ (reorder_sortKeys b).symm)
  · intro h
    exact h.sortKeys_eq ha

end Json

/-- A document as a map-based library holds it: member names are distinct. -/
def Document : Type := {v : Json // v.distinct = true}

namespace Document

/-- Two documents are one up to the order of their members. -/
def Reorder (a b : Document) : Prop := Json.Reorder a.1 b.1

end Document
