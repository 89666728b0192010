/-
Doubles, as the rational numbers they stand for.

A result is the exact one, rounded to 53 bits with ties to even (`ofRat`); what is too big
becomes infinite.  Signed zeros are one zero.

* **`ofRat_natCast`** — a whole number of at most 53 bits is a double.
-/
import Mathlib.Data.Int.Log
import Mathlib.Data.Rat.Floor
import Mathlib.Tactic

/-- A double. -/
inductive Double where
  | nan
  | infinite (negative : Bool)
  | finite (value : ℚ)
deriving DecidableEq

namespace Double

/-- The integer nearest to `q`, a tie going to the even one. -/
def roundTiesEven (q : ℚ) : ℤ :=
  let n := ⌊q⌋
  if q - n < 1 / 2 then n
  else if 1 / 2 < q - n then n + 1
  else if n % 2 = 0 then n else n + 1

/-- The spacing of the doubles around `q`: 53 bits of precision, and never below the
smallest double. -/
def ulp (q : ℚ) : ℚ := 2 ^ max (Int.log 2 |q| - 52) (-1074)

/-- The double a number is rounded to. -/
def ofRat (q : ℚ) : Double :=
  let value := roundTiesEven (q / ulp q) * ulp q
  if 2 ^ 1024 ≤ |value| then .infinite (decide (q < 0)) else .finite value

/-- Multiplication by a positive constant. -/
def scale : Double → ℚ → Double
  | nan, _ => nan
  | infinite negative, _ => infinite negative
  | finite value, c => ofRat (value * c)

/-- `.round().max(0.0) as u128`: halves go away from zero, and the cast saturates. -/
def toU128 : Double → ℕ
  | nan | infinite true => 0
  | infinite false => 2 ^ 128 - 1
  | finite value => min ⌊value + 1 / 2⌋.toNat (2 ^ 128 - 1)

theorem roundTiesEven_intCast (n : ℤ) : roundTiesEven n = n := by
  simp [roundTiesEven]

/-- A whole number of at most 53 bits is a double. -/
theorem ofRat_natCast {n : ℕ} (h : n < 2 ^ 53) : ofRat n = .finite n := by
  have hlog : Int.log 2 |(n : ℚ)| ≤ 52 := by
    rw [Nat.abs_cast, Int.log_natCast]
    rcases Nat.eq_zero_or_pos n with rfl | hn
    · simp
    · exact_mod_cast Nat.lt_succ_iff.mp (Nat.log_lt_of_lt_pow hn.ne' h)
  have hlog0 : 0 ≤ Int.log 2 |(n : ℚ)| := by
    rw [Nat.abs_cast, Int.log_natCast]
    exact Int.natCast_nonneg _
  -- the spacing is `2 ^ -k`, so `n` is a whole number of them
  obtain ⟨k, hk⟩ : ∃ k : ℕ, ulp n = ((2 : ℚ) ^ k)⁻¹ := by
    refine ⟨(52 - Int.log 2 |(n : ℚ)|).toNat, ?_⟩
    rw [ulp, max_eq_left (by omega), ← zpow_natCast, ← zpow_neg]
    congr 1
    omega
  have hdiv : (n : ℚ) / ulp n = ((n * 2 ^ k : ℕ) : ℤ) := by
    rw [hk, div_inv_eq_mul]
    push_cast
    ring
  have hvalue : (roundTiesEven ((n : ℚ) / ulp n) : ℚ) * ulp n = n := by
    rw [hdiv, roundTiesEven_intCast, hk]
    push_cast
    field_simp
  have hsmall : ¬ (2 : ℚ) ^ 1024 ≤ |(n : ℚ)| := by
    rw [Nat.abs_cast, not_le]
    exact_mod_cast h.trans (Nat.pow_lt_pow_right one_lt_two (by norm_num))
  simp only [ofRat, hvalue, if_neg hsmall]

end Double
