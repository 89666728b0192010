/-
Canonical JSON: the serialiser that every cache key and digest hashes over.

`canonicalJson` is `canonical_json` of `cache.rs`: no insignificant whitespace, and the
members of every object in the order of their names.  The source walks a sorted list of
names and looks each one up; with one member per name that is writing the members in
the order of their names.

* **`writeCanonical_eq`** — it writes the compact text of the key-sorted document;
* **`canonicalJson_eq_iff`** — so two documents have one canonical text exactly when
  they are reorderings of each other.
-/
import Domarinn.JsonReorder

namespace Json

/-- Pieces of text with a comma between every two. -/
def joinComma : List (List Char) → List Char
  | [] => []
  | [t] => t
  | t :: u :: ts => t ++ ',' :: joinComma (u :: ts)

mutual

/-- `write_canonical`: the text it appends for one value. -/
def writeCanonical : Json → List Char
  | null => ['n', 'u', 'l', 'l']
  | bool b => if b then ['t', 'r', 'u', 'e'] else ['f', 'a', 'l', 's', 'e']
  | num n => renderNumber n
  | str s => renderString s
  | arr items => '[' :: (joinComma (writeCanonicalItems items) ++ [']'])
  | obj members =>
    let sorted := (writeCanonicalMembers members).insertionSort fun a b => a.1 ≤ b.1
    '{' :: (joinComma (sorted.map fun m => renderString m.1 ++ ':' :: m.2) ++ ['}'])

/-- The texts of the items of an array. -/
def writeCanonicalItems : List Json → List (List Char)
  | [] => []
  | x :: xs => writeCanonical x :: writeCanonicalItems xs

/-- The names of the members of an object, with the texts of their values. -/
def writeCanonicalMembers : List (String × Json) → List (String × List Char)
  | [] => []
  | (k, v) :: ms => (k, writeCanonical v) :: writeCanonicalMembers ms

end

theorem writeCanonicalItems_eq (xs : List Json) :
    writeCanonicalItems xs = xs.map writeCanonical := by
  induction xs with
  | nil => rfl
  | cons x xs ih => rw [writeCanonicalItems, ih, List.map_cons]

theorem writeCanonicalMembers_eq (ms : List (String × Json)) :
    writeCanonicalMembers ms = ms.map fun m => (m.1, writeCanonical m.2) := by
  induction ms with
  | nil => rfl
  | cons m ms ih => rw [writeCanonicalMembers, ih, List.map_cons]

/-! ### The compact text of the key-sorted document -/

theorem renderItems_eq_joinComma : ∀ (xs : List Json),
    renderItems true xs = joinComma (xs.map render) := by
  have htail : ∀ (x : Json) (xs : List Json),
      render x ++ renderItems false xs = joinComma ((x :: xs).map render) := by
    intro x xs
    induction xs generalizing x with
    | nil => simp [renderItems, joinComma]
    | cons y ys ih =>
      rw [List.map_cons, List.map_cons, joinComma, ← List.map_cons, ← ih y]
      simp [renderItems]
  intro xs
  rcases xs with _ | ⟨x, xs⟩
  · rfl
  · rw [← htail x xs]
    simp [renderItems]

theorem renderMembers_eq_joinComma : ∀ (ms : List (String × Json)),
    renderMembers true ms =
      joinComma (ms.map fun m => renderString m.1 ++ ':' :: render m.2) := by
  have htail : ∀ (m : String × Json) (ms : List (String × Json)),
      renderString m.1 ++ ':' :: render m.2 ++ renderMembers false ms =
        joinComma ((m :: ms).map fun m => renderString m.1 ++ ':' :: render m.2) := by
    intro m ms
    induction ms generalizing m with
    | nil => simp [renderMembers, joinComma]
    | cons n ns ih =>
      have := ih n
      rw [List.map_cons] at this
      rw [List.map_cons, List.map_cons, joinComma, ← this]
      simp [renderMembers]
  intro ms
  rcases ms with _ | ⟨m, ms⟩
  · rfl
  · rw [← htail m ms]
    simp [renderMembers]

/-- Sorting pairs by name commutes with a map that keeps the names. -/
theorem insertionSort_map_snd {α β : Type} (f : α → β) (ms : List (String × α)) :
    (ms.map fun m => (m.1, f m.2)).insertionSort (fun a b => a.1 ≤ b.1) =
      (ms.insertionSort fun a b => a.1 ≤ b.1).map fun m => (m.1, f m.2) := by
  have h := List.map_insertionSort (fun a b : String × α => a.1 ≤ b.1)
    (fun a b : String × β => a.1 ≤ b.1) (fun m => (m.1, f m.2)) ms fun _ _ _ _ => Iff.rfl
  exact h.symm

/-- **`write_canonical` writes the compact text of the key-sorted document.** -/
theorem writeCanonical_eq (v : Json) : writeCanonical v = render (sortKeys v) := by
  induction v with
  | bool b => cases b <;> rfl
  | arr xs ih =>
    rw [writeCanonical, sortKeys_arr, render, renderItems_eq_joinComma, writeCanonicalItems_eq,
      List.map_map, List.map_congr_left ih]
    rfl
  | obj ms ih =>
    have hmap : (ms.map fun m => (m.1, writeCanonical m.2)) =
        (ms.map fun m => (m.1, sortKeys m.2)).map fun m => (m.1, render m.2) := by
      rw [List.map_map]
      exact List.map_congr_left fun m hm => by rw [ih m hm]; rfl
    rw [writeCanonical, sortKeys_obj, render, renderMembers_eq_joinComma,
      writeCanonicalMembers_eq, hmap, insertionSort_map_snd, sortMembersByKey]
    simp only [List.map_map]
    rfl
  | _ => rfl

/-- `canonical_json`. -/
def canonicalJson (v : Json) : String := String.ofList (writeCanonical v)

/-- Canonical texts agree exactly when the key-sorted documents do. -/
theorem canonicalJson_inj {a b : Json} :
    canonicalJson a = canonicalJson b ↔ sortKeys a = sortKeys b := by
  rw [canonicalJson, canonicalJson, String.ofList_inj, writeCanonical_eq, writeCanonical_eq,
    render_inj]

/-- **Two documents have one canonical text exactly when they are reorderings.** -/
theorem canonicalJson_eq_iff {a b : Json} (ha : a.distinct = true) :
    canonicalJson a = canonicalJson b ↔ Reorder a b := by
  rw [canonicalJson_inj, sortKeys_eq_iff ha]

end Json
