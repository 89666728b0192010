/-
How often a pattern occurs in a text.

* **`occurrences_append_cons`** — at a character that the pattern does not have, a text can be
  taken apart;
* **`occurrences_flatMap`** — a text whose other characters are escaped has the pattern as often
  as the text itself.
-/
import Mathlib.Data.List.DropRight
import Mathlib.Tactic.Common

/-- How often a pattern occurs, overlaps included. -/
def occurrences {α : Type} [DecidableEq α] (p : List α) : List α → ℕ
  | [] => 0
  | c :: text => (if p <+: c :: text then 1 else 0) + occurrences p text

section
variable {α : Type} {p q a b : List α} {c m : α}

/-- A prefix ends before a character that it does not have. -/
theorem prefix_append_cons_iff (hc : c ∉ p) : p <+: a ++ c :: b ↔ p <+: a := by
  refine ⟨fun ⟨t, ht⟩ => ?_, fun h => h.trans (List.prefix_append a _)⟩
  obtain ⟨x, rfl, hx⟩ | ⟨x, rfl, -⟩ := List.append_eq_append_iff.mp ht
  · exact List.prefix_append p x
  · cases x with
    | nil => simp
    | cons d x =>
      have hd : d = c := by simp_all
      exact absurd (hd ▸ by simp : c ∈ a ++ d :: x) hc

/-- A pattern without the character of the escapes is no part of one. -/
theorem prefix_of_flatMap {f : α → List α} {s : α} (hf : ∀ c, f c = [c] ∨ ∃ e, f c = s :: e) :
    ∀ {p text : List α}, s ∉ p → p <+: text.flatMap f → p <+: text
  | [], text, _, _ => List.nil_prefix
  | x :: p, [], _, h => absurd h (by simp)
  | x :: p, c :: text, hs, h => by
    obtain ⟨hx, hs⟩ := not_or.mp (mt List.mem_cons.mpr hs)
    rw [List.flatMap_cons] at h
    obtain hplain | ⟨e, hescape⟩ := hf c
    · rw [hplain, List.singleton_append, List.cons_prefix_cons] at h
      exact List.cons_prefix_cons.mpr ⟨h.1, prefix_of_flatMap hf hs h.2⟩
    · rw [hescape, List.cons_append, List.cons_prefix_cons] at h
      exact absurd h.1.symm hx

variable [DecidableEq α]

/-- **At a character that the pattern does not have**, a text can be taken apart. -/
theorem occurrences_append_cons (hp : p ≠ []) (hc : c ∉ p) :
    occurrences p (a ++ c :: b) = occurrences p a + occurrences p b := by
  induction a with
  | nil =>
    have hno : ¬ p <+: [] ++ c :: b := by
      rw [prefix_append_cons_iff hc, List.prefix_nil]
      exact hp
    rw [List.nil_append] at hno ⊢
    rw [occurrences, occurrences, if_neg hno]
  | cons x a ih =>
    have hsame : p <+: (x :: a) ++ c :: b ↔ p <+: x :: a := prefix_append_cons_iff hc
    rw [List.cons_append] at hsame
    rw [List.cons_append, occurrences, occurrences, ih, if_congr hsame rfl rfl, Nat.add_assoc]

theorem occurrences_cons_of_notMem (hp : p ≠ []) (hc : c ∉ p) :
    occurrences p (c :: b) = occurrences p b := by
  have h := occurrences_append_cons (a := []) (b := b) hp hc
  rwa [List.nil_append, occurrences, Nat.zero_add] at h

/-- Two texts of which the second begins with such a character. -/
theorem occurrences_append_of_head (hp : p ≠ []) (hb : ∀ c ∈ b.head?, c ∉ p) :
    occurrences p (a ++ b) = occurrences p a + occurrences p b := by
  cases b with
  | nil => rw [List.append_nil, occurrences, Nat.add_zero]
  | cons c b =>
    have hc : c ∉ p := hb c rfl
    rw [occurrences_append_cons hp hc, occurrences_cons_of_notMem hp hc]

/-- A text that does not have the first character of the pattern. -/
theorem occurrences_append_of_notMem (ha : m ∉ a) :
    occurrences (m :: q) (a ++ b) = occurrences (m :: q) b := by
  induction a with
  | nil => rfl
  | cons x a ih =>
    obtain ⟨hx, ha⟩ := not_or.mp (mt List.mem_cons.mpr ha)
    have hno : ¬ m :: q <+: x :: (a ++ b) := fun h => hx (List.cons_prefix_cons.mp h).1
    rw [List.cons_append, occurrences, if_neg hno, Nat.zero_add, ih ha]

theorem occurrences_eq_zero (ha : m ∉ a) : occurrences (m :: q) a = 0 := by
  have h := occurrences_append_of_notMem (q := q) (b := []) ha
  rwa [List.append_nil] at h

/-- What is put behind a text, where the pattern has none of its characters. -/
theorem occurrences_append_of_disjoint (hb : ∀ c ∈ b, c ∉ m :: q) :
    occurrences (m :: q) (a ++ b) = occurrences (m :: q) a := by
  cases b with
  | nil => rw [List.append_nil]
  | cons c b =>
    have hrest : m ∉ b := fun hm => hb m (List.mem_cons_of_mem c hm) List.mem_cons_self
    rw [occurrences_append_cons (List.cons_ne_nil m q) (hb c List.mem_cons_self),
      occurrences_eq_zero hrest, Nat.add_zero]

/-- What the last characters of a text are, where the pattern does not have them. -/
theorem occurrences_rdropWhile {f : α → Bool} (hf : ∀ c ∈ m :: q, f c = false) (text : List α) :
    occurrences (m :: q) (text.rdropWhile f) = occurrences (m :: q) text := by
  have hsplit : text.rdropWhile f ++ text.rtakeWhile f = text := by
    rw [List.rdropWhile, List.rtakeWhile, ← List.reverse_append, List.takeWhile_append_dropWhile,
      List.reverse_reverse]
  conv_rhs => rw [← hsplit]
  refine (occurrences_append_of_disjoint fun c hc hcp => ?_).symm
  have htrue := List.mem_rtakeWhile_imp hc
  rw [hf c hcp] at htrue
  cases htrue

/-! ### Escapes -/

section
variable {f : α → List α} {s : α}

/-- An escape may take an occurrence away, and adds none. -/
theorem occurrences_flatMap_le (hf : ∀ c, f c = [c] ∨ ∃ e, f c = s :: e ∧ m ∉ e)
    (hs : s ∉ m :: q) : ∀ text : List α,
    occurrences (m :: q) (text.flatMap f) ≤ occurrences (m :: q) text
  | [] => le_rfl
  | c :: text => by
    have hf' : ∀ c, f c = [c] ∨ ∃ e, f c = s :: e := fun c =>
      (hf c).imp_right fun ⟨e, he, _⟩ => ⟨e, he⟩
    have hrest := occurrences_flatMap_le hf hs text
    obtain hplain | ⟨e, hescape, hm⟩ := hf c
    · have himp : m :: q <+: c :: text.flatMap f → m :: q <+: c :: text := fun h => by
        refine prefix_of_flatMap hf' hs ?_
        rwa [List.flatMap_cons, hplain]
      rw [List.flatMap_cons, hplain, List.singleton_append, occurrences, occurrences]
      split_ifs with h h'
      · omega
      · exact absurd (himp h) h'
      · omega
      · omega
    · have hskip : m ∉ s :: e := fun h => (List.mem_cons.mp h).elim
        (fun heq => hs (heq ▸ List.mem_cons_self)) hm
      rw [List.flatMap_cons, hescape, occurrences_append_of_notMem hskip, occurrences]
      omega

/-- **Escapes of other characters** leave the occurrences as they are. -/
theorem occurrences_flatMap (hf : ∀ c, f c = [c] ∨ ∃ e, f c = s :: e ∧ m ∉ e)
    (hs : s ∉ m :: q) (hplain : ∀ c ∈ m :: q, f c = [c]) (text : List α) :
    occurrences (m :: q) (text.flatMap f) = occurrences (m :: q) text := by
  refine le_antisymm (occurrences_flatMap_le hf hs text) ?_
  have hself : ∀ p : List α, (∀ c ∈ p, f c = [c]) → p.flatMap f = p := by
    intro p hp
    rw [List.flatMap_congr hp, List.flatMap_singleton']
  induction text with
  | nil => exact le_rfl
  | cons c text ih =>
    rw [occurrences]
    split_ifs with h
    · -- the characters of the pattern stand for themselves
      obtain ⟨rfl, t, rfl⟩ := List.cons_prefix_cons.mp h
      have hprefix : m :: q <+: m :: (q ++ t).flatMap f := by
        rw [List.flatMap_append, hself q fun c hc => hplain c (List.mem_cons_of_mem m hc)]
        exact List.prefix_append (m :: q) _
      rw [List.flatMap_cons, hplain m List.mem_cons_self, List.singleton_append, occurrences,
        if_pos hprefix]
      omega
    · rw [List.flatMap_cons, Nat.zero_add]
      refine ih.trans ?_
      obtain hc | ⟨e, hescape, hm⟩ := hf c
      · rw [hc, List.singleton_append, occurrences]
        omega
      · have hskip : m ∉ s :: e := fun h => (List.mem_cons.mp h).elim
          (fun heq => hs (heq ▸ List.mem_cons_self)) hm
        rw [hescape, occurrences_append_of_notMem hskip]

end

end
