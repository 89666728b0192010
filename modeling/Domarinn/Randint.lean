/-
`randint`: a whole number between two bounds, drawn from a seed.

The span of the bounds is computed in signed arithmetic.  A development build stops with a panic
at a result that does not fit its type, and a release build wraps it.

* **`randint_sound_iff`** — every draw is exact just where the bounds lie less than `2 ^ 63` apart;
* **`full_range_panics`** — the full range is drawn by no build;
* **`draw_release`** — any other range is drawn by a release build, which wraps twice.
-/
import Mathlib.Data.Int.ModEq

/-! ### Machine arithmetic -/

inductive Build where
  | dev
  | release
deriving DecidableEq

inductive Panic where
  | overflow
  | remainderByZero
deriving DecidableEq

/-- The result of an operator, where its exact result fits the type or does not. -/
def Build.arith {α : Type} (fits : Bool) (wrapped : α) : Build → Except Panic α
  | dev => if fits then .ok wrapped else .error .overflow
  | release => .ok wrapped

/-- `-` on `i64`. -/
def Build.subI64 (build : Build) (x y : Int64) : Except Panic Int64 :=
  build.arith ((x - y).toInt == x.toInt - y.toInt) (x - y)

/-- `+` on `i64`. -/
def Build.addI64 (build : Build) (x y : Int64) : Except Panic Int64 :=
  build.arith ((x + y).toInt == x.toInt + y.toInt) (x + y)

/-- `+` on `u64`. -/
def Build.addU64 (build : Build) (x y : UInt64) : Except Panic UInt64 :=
  build.arith ((x + y).toNat == x.toNat + y.toNat) (x + y)

/-- `%` on `u64`, which every build checks. -/
def remU64 (x y : UInt64) : Except Panic UInt64 :=
  if y = 0 then .error .remainderByZero else .ok (x % y)

/-! ### The function -/

/-- How a seed is hashed: its text as JSON, and `blake3`. -/
structure SeedHashing (V : Type) where
  canonical : V → String
  blake3 : List UInt8 → Vector UInt8 32

variable {V : Type}

/-- `seed_hash`. -/
def SeedHashing.seedHash (hashing : SeedHashing V) (seed : V) : Vector UInt8 32 :=
  hashing.blake3 (hashing.canonical seed).toByteArray.toList

/-- `from_le_bytes`. -/
def fromLeBytes (bytes : List UInt8) : UInt64 :=
  bytes.foldr (fun b n => n * 256 + b.toUInt64) 0

/-- `seed_u64`. -/
def SeedHashing.seedU64 (hashing : SeedHashing V) (seed : V) : UInt64 :=
  fromLeBytes ((hashing.seedHash seed).toList.take 8)

/-- The number that a hash draws. -/
def draw (build : Build) (low high : Int64) (hash : UInt64) : Except Panic Int64 := do
  let span ← build.addU64 (← build.subI64 high low).toUInt64 1
  let offset := (← remU64 hash span).toInt64
  build.addI64 low offset

/-- What a template function ends with where it does not return. -/
inductive CallFault where
  | invalidOperation (message : String)
  | panic (p : Panic)
deriving DecidableEq

/-- `randint`. -/
def randint (build : Build) (hashing : SeedHashing V) (low high : Int64) (seed : Option V) :
    Except CallFault Int64 :=
  match seed with
  | none => .error (.invalidOperation ("randint(low, high, seed) requires an explicit seed " ++
      "so renders stay reproducible"))
  | some seed =>
    if high < low then
      .error (.invalidOperation s!"randint: high ({high}) must be >= low ({low})")
    else
      match draw build low high (hashing.seedU64 seed) with
      | .error p => .error (.panic p)
      | .ok value => .ok value

/-! ### What is drawn -/

section
variable {low high : Int64}

theorem toNat_toUInt64_eq (x : Int64) : (x.toUInt64.toNat : ℤ) = x.toInt % 2 ^ 64 := by
  have hlt := x.toUInt64.toNat_lt
  rw [← Int64.toNat_toBitVec] at hlt ⊢
  rw [← Int64.toInt_toBitVec, BitVec.toInt_eq_toNat_bmod, Int.bmod_eq_emod]
  split_ifs <;> omega

theorem toInt_toInt64_eq (x : UInt64) : x.toInt64.toInt = (x.toNat : ℤ).bmod (2 ^ 64) := by
  rw [← Int64.toInt_toBitVec, BitVec.toInt_eq_toNat_bmod]
  rfl

theorem bmod_self_of_range {n : ℤ} (hle : -2 ^ 63 ≤ n) (hlt : n < 2 ^ 63) :
    n.bmod (2 ^ 64) = n := by
  rw [Int.bmod_eq_emod]
  split_ifs <;> omega

theorem toInt_sub_eq_iff (h : low ≤ high) :
    (high - low).toInt = high.toInt - low.toInt ↔ high.toInt - low.toInt < 2 ^ 63 := by
  rw [Int64.le_iff_toInt_le] at h
  rw [Int64.toInt_sub, Int.bmod_eq_emod]
  have := low.le_toInt
  have := high.toInt_lt
  split_ifs <;> omega

/-- The distance of the bounds survives the subtraction, read without a sign. -/
theorem toNat_toUInt64_sub (h : low ≤ high) :
    ((high - low).toUInt64.toNat : ℤ) = high.toInt - low.toInt := by
  rw [Int64.le_iff_toInt_le] at h
  rw [toNat_toUInt64_eq, Int64.toInt_sub, Int.bmod_eq_emod]
  have := low.le_toInt
  have := high.toInt_lt
  split_ifs <;> omega

/-- The span, which is zero for the full range. -/
def spanOf (low high : Int64) : UInt64 := (high - low).toUInt64 + 1

theorem toNat_spanOf (h : low ≤ high) (hfull : high.toInt - low.toInt + 1 < 2 ^ 64) :
    ((spanOf low high).toNat : ℤ) = high.toInt - low.toInt + 1 := by
  have hsub := toNat_toUInt64_sub h
  have hone : (1 : UInt64).toNat = 1 := rfl
  rw [spanOf, UInt64.toNat_add, hone]
  omega

/-- The value that the wrapped steps end with. -/
def drawn (low high : Int64) (hash : UInt64) : Int64 := low + (hash % spanOf low high).toInt64

theorem rem_lt (h : low ≤ high) (hfull : high.toInt - low.toInt + 1 < 2 ^ 64) (hash : UInt64) :
    ((hash % spanOf low high).toNat : ℤ) =
      (hash.toNat : ℤ) % (high.toInt - low.toInt + 1) := by
  rw [UInt64.toNat_mod, Int.natCast_mod, toNat_spanOf h hfull]

theorem toInt_drawn (h : low ≤ high) (hfull : high.toInt - low.toInt + 1 < 2 ^ 64)
    (hash : UInt64) :
    (drawn low high hash).toInt =
      low.toInt + (hash.toNat : ℤ) % (high.toInt - low.toInt + 1) := by
  rw [Int64.le_iff_toInt_le] at h
  have hnonneg := Int.emod_nonneg (hash.toNat : ℤ)
    (show high.toInt - low.toInt + 1 ≠ 0 by omega)
  have hlt := Int.emod_lt_of_pos (hash.toNat : ℤ)
    (show 0 < high.toInt - low.toInt + 1 by omega)
  have := low.le_toInt
  have := high.toInt_lt
  rw [drawn, Int64.toInt_add, toInt_toInt64_eq, Int.add_bmod_bmod,
    rem_lt (Int64.le_iff_toInt_le.mpr h) hfull]
  exact bmod_self_of_range (by omega) (by omega)

theorem spanOf_ne_zero (h : low ≤ high) (hfull : high.toInt - low.toInt + 1 < 2 ^ 64) :
    spanOf low high ≠ 0 := by
  intro hzero
  have hspan := toNat_spanOf h hfull
  rw [hzero] at hspan
  have hzero : (0 : UInt64).toNat = 0 := rfl
  rw [Int64.le_iff_toInt_le] at h
  omega

/-- **A release build draws from every range but the full one**, whatever wraps on the way. -/
theorem draw_release (h : low ≤ high) (hfull : high.toInt - low.toInt + 1 < 2 ^ 64)
    (hash : UInt64) : draw .release low high hash = .ok (drawn low high hash) := by
  have hrem : remU64 hash (spanOf low high) = .ok (hash % spanOf low high) :=
    if_neg (spanOf_ne_zero h hfull)
  calc draw .release low high hash
      = (remU64 hash (spanOf low high)).bind fun rem => .ok (low + rem.toInt64) := rfl
    _ = .ok (drawn low high hash) := by rw [hrem]; rfl

/-- A development build draws where the bounds are close enough. -/
theorem draw_dev (h : low ≤ high) (hclose : high.toInt - low.toInt < 2 ^ 63) (hash : UInt64) :
    draw .dev low high hash = .ok (drawn low high hash) := by
  have hfull : high.toInt - low.toInt + 1 < 2 ^ 64 := by omega
  have hrange := Int64.le_iff_toInt_le.mp h
  have hone : (1 : UInt64).toNat = 1 := rfl
  have hsub : Build.dev.subI64 high low = .ok (high - low) := by
    rw [Build.subI64, Build.arith, if_pos (beq_iff_eq.mpr ((toInt_sub_eq_iff h).mpr hclose))]
  have hadd : Build.dev.addU64 (high - low).toUInt64 1 = .ok (spanOf low high) := by
    refine if_pos (beq_iff_eq.mpr ?_)
    have hdistance := toNat_toUInt64_sub h
    rw [UInt64.toNat_add, hone]
    omega
  have hrem : remU64 hash (spanOf low high) = .ok (hash % spanOf low high) :=
    if_neg (spanOf_ne_zero h hfull)
  -- the remainder is below the span, and so has no sign
  have hoffset : (hash % spanOf low high).toInt64.toInt =
      (hash.toNat : ℤ) % (high.toInt - low.toInt + 1) := by
    have hnonneg := Int.emod_nonneg (hash.toNat : ℤ)
      (show high.toInt - low.toInt + 1 ≠ 0 by omega)
    have hlt := Int.emod_lt_of_pos (hash.toNat : ℤ)
      (show 0 < high.toInt - low.toInt + 1 by omega)
    rw [toInt_toInt64_eq, rem_lt h hfull]
    exact bmod_self_of_range (by omega) (by omega)
  have hvalue : Build.dev.addI64 low (hash % spanOf low high).toInt64 =
      .ok (drawn low high hash) := by
    refine if_pos (beq_iff_eq.mpr ?_)
    rw [hoffset]
    exact toInt_drawn h hfull hash
  simp only [draw, hsub, hadd, hrem, hvalue, bind, Except.bind]

/-- Beyond that it stops at the subtraction. -/
theorem draw_dev_overflow (h : low ≤ high) (hfar : 2 ^ 63 ≤ high.toInt - low.toInt)
    (hash : UInt64) : draw .dev low high hash = .error .overflow := by
  have hsub : Build.dev.subI64 high low = .error .overflow := by
    refine if_neg ?_
    rw [beq_iff_eq, toInt_sub_eq_iff h]
    omega
  simp only [draw, hsub, bind, Except.bind]

theorem drawn_mem (h : low ≤ high) (hfull : high.toInt - low.toInt + 1 < 2 ^ 64) (hash : UInt64) :
    low ≤ drawn low high hash ∧ drawn low high hash ≤ high := by
  have hrange := Int64.le_iff_toInt_le.mp h
  have hnonneg := Int.emod_nonneg (hash.toNat : ℤ)
    (show high.toInt - low.toInt + 1 ≠ 0 by omega)
  have hlt := Int.emod_lt_of_pos (hash.toNat : ℤ)
    (show 0 < high.toInt - low.toInt + 1 by omega)
  rw [Int64.le_iff_toInt_le, Int64.le_iff_toInt_le, toInt_drawn h hfull]
  omega

/-- The hash that draws a value is its distance from the lower bound. -/
theorem drawn_surjective (h : low ≤ high) (hfull : high.toInt - low.toInt + 1 < 2 ^ 64)
    {value : Int64} (hlow : low ≤ value) (hhigh : value ≤ high) :
    drawn low high (value - low).toUInt64 = value := by
  have hdistance := toNat_toUInt64_sub hlow
  have hle := Int64.le_iff_toInt_le.mp hhigh
  have hge := Int64.le_iff_toInt_le.mp hlow
  rw [← Int64.toInt_inj, toInt_drawn h hfull, hdistance,
    Int.emod_eq_of_lt (by omega) (by omega)]
  omega

end

/-! ### Where every draw is exact -/

/-- Every seed draws the exact value, by every build, a value between the bounds; and some hash
draws each of those. -/
def Sound (low high : Int64) : Prop :=
  (∀ (build : Build) (V : Type) (hashing : SeedHashing V) (seed : V), ∃ value,
    randint build hashing low high (some seed) = .ok value ∧
      value.toInt = low.toInt +
        ((hashing.seedU64 seed).toNat : ℤ) % (high.toInt - low.toInt + 1) ∧
      low ≤ value ∧ value ≤ high) ∧
  ∀ (build : Build) (value : Int64), low ≤ value → value ≤ high →
    ∃ hash, draw build low high hash = .ok value

section
variable {low high : Int64}

theorem randint_of_draw {build : Build} {hashing : SeedHashing V} {seed : V} {value : Int64}
    (h : low ≤ high) (hdraw : draw build low high (hashing.seedU64 seed) = .ok value) :
    randint build hashing low high (some seed) = .ok value := by
  rw [randint, if_neg (Int64.not_lt.mpr h), hdraw]

/-- A build draws what is drawn, where the bounds are close. -/
theorem draw_of_close (h : low ≤ high) (hclose : high.toInt - low.toInt < 2 ^ 63) (build : Build)
    (hash : UInt64) : draw build low high hash = .ok (drawn low high hash) := by
  cases build with
  | dev => exact draw_dev h hclose hash
  | release => exact draw_release h (by omega) hash

/-- **Every draw is exact and in range where the bounds lie less than `2 ^ 63` apart**, and only
there. -/
theorem randint_sound_iff (low high : Int64) (h : low ≤ high) :
    Sound low high ↔ high.toInt - low.toInt < 2 ^ 63 := by
  constructor
  · rintro ⟨-, hdraw⟩
    by_contra hfar
    obtain ⟨hash, hhash⟩ := hdraw .dev low (Int64.le_refl low) h
    rw [draw_dev_overflow h (by omega)] at hhash
    cases hhash
  · intro hclose
    have hfull : high.toInt - low.toInt + 1 < 2 ^ 64 := by omega
    refine ⟨fun build V hashing seed => ?_, fun build value hlow hhigh => ?_⟩
    · exact ⟨drawn low high (hashing.seedU64 seed),
        randint_of_draw h (draw_of_close h hclose build _), toInt_drawn h hfull _,
        drawn_mem h hfull _⟩
    · refine ⟨(value - low).toUInt64, ?_⟩
      rw [draw_of_close h hclose, drawn_surjective h hfull hlow hhigh]

/-- The values of a die. -/
theorem die_sound : (1 : Int64) ≤ 6 ∧ Sound 1 6 :=
  ⟨by decide, (randint_sound_iff 1 6 (by decide)).mpr (by decide)⟩

/-- A hashing under which every seed is zero. -/
def zeroHashing : SeedHashing ℕ where
  canonical := fun n => toString n
  blake3 := fun _ => Vector.replicate 32 0

/-- **No build draws from the full range**: the subtraction overflows, or wraps until the span is
zero. -/
theorem full_range_panics :
    ¬ Sound Int64.minValue Int64.maxValue ∧
    randint .dev zeroHashing Int64.minValue Int64.maxValue (some 7) =
      .error (.panic .overflow) ∧
    randint .release zeroHashing Int64.minValue Int64.maxValue (some 7) =
      .error (.panic .remainderByZero) := by
  refine ⟨?_, by decide +kernel, by decide +kernel⟩
  rintro ⟨hvalues, -⟩
  obtain ⟨value, hvalue, -⟩ := hvalues .dev ℕ zeroHashing 7
  have hpanic : randint .dev zeroHashing Int64.minValue Int64.maxValue (some 7) =
      .error (.panic .overflow) := by decide +kernel
  rw [hpanic] at hvalue
  cases hvalue

end
