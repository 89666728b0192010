/-
Numbers as they are written, to any base up to sixteen.

* **`forall_mem_toDigits`** — what holds of every digit holds of every character of a numeral;
* **`toDigits_inj`**, **`toDigits_cons_inj`** — a numeral is of one number, and ends where another
  character stands.
-/
import Mathlib.Data.Nat.Digits.Defs

namespace Numerals

variable {b : ℕ}

/-- What holds of the digits holds throughout a numeral. -/
theorem forall_mem_toDigits {P : Char → Prop} (hb : 1 < b) (h : ∀ d < b, P (Nat.digitChar d))
    (n : ℕ) : ∀ c ∈ Nat.toDigits b n, P c := by
  induction n using Nat.strong_induction_on with
  | _ n ih =>
    rw [Nat.toDigits_eq_if hb]
    split_ifs with hlt
    · exact List.forall_mem_singleton.mpr (h n hlt)
    · refine List.forall_mem_append.mpr ⟨ih (n / b) (Nat.div_lt_self (by omega) hb), ?_⟩
      exact List.forall_mem_singleton.mpr (h _ (Nat.mod_lt n (by omega)))

/-- The number of a digit. -/
def digitVal (c : Char) : ℕ := if c.toNat < 58 then c.toNat - 48 else c.toNat - 87

theorem digitVal_digitChar : ∀ d < 16, digitVal (Nat.digitChar d) = d := by decide

/-- A numeral is read back from the left. -/
theorem foldl_toDigits (hb : 1 < b) (hle : b ≤ 16) (n : ℕ) :
    (Nat.toDigits b n).foldl (fun m c => m * b + digitVal c) 0 = n := by
  induction n using Nat.strong_induction_on with
  | _ n ih =>
    rw [Nat.toDigits_eq_if hb]
    split_ifs with hlt
    · rw [List.foldl_cons, List.foldl_nil, digitVal_digitChar n (by omega), Nat.zero_mul,
        Nat.zero_add]
    · have hmod : n % b < 16 := lt_of_lt_of_le (Nat.mod_lt n (by omega)) hle
      rw [List.foldl_append, ih (n / b) (Nat.div_lt_self (by omega) hb), List.foldl_cons,
        List.foldl_nil, digitVal_digitChar _ hmod, Nat.div_add_mod']

/-- **A numeral is of one number.** -/
theorem toDigits_inj (hb : 1 < b) (hle : b ≤ 16) {n m : ℕ} :
    Nat.toDigits b n = Nat.toDigits b m ↔ n = m := by
  refine ⟨fun h => ?_, fun h => by rw [h]⟩
  rw [← foldl_toDigits hb hle n, h, foldl_toDigits hb hle m]

/-- A numeral ends where a character stands that is no digit. -/
theorem toDigits_cons_inj (hb : 1 < b) (hle : b ≤ 16) {c : Char}
    (hc : ∀ d < b, Nat.digitChar d ≠ c) {n m : ℕ} {r r' : List Char} :
    Nat.toDigits b n ++ c :: r = Nat.toDigits b m ++ c :: r' ↔ n = m ∧ r = r' := by
  have hnumeral : ∀ (k : ℕ) (r : List Char),
      (Nat.toDigits b k ++ c :: r).takeWhile (fun x => decide (x ≠ c)) = Nat.toDigits b k := by
    intro k r
    have hdigits : ∀ x ∈ Nat.toDigits b k, decide (x ≠ c) = true := fun x hx =>
      decide_eq_true (@forall_mem_toDigits b (· ≠ c) hb hc k x hx)
    rw [List.takeWhile_append_of_pos hdigits, List.takeWhile_cons_of_neg (by simp),
      List.append_nil]
  constructor
  · intro h
    have hdigits := congrArg (List.takeWhile fun x => decide (x ≠ c)) h
    rw [hnumeral, hnumeral] at hdigits
    rw [hdigits] at h
    exact ⟨(toDigits_inj hb hle).mp hdigits, (List.cons.inj (List.append_cancel_left h)).2⟩
  · rintro ⟨rfl, rfl⟩
    rfl

end Numerals
