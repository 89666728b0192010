/-
What a provider call costs.

Prices are doubles, in dollars per million tokens; costs are whole micro-dollars.  A price
is turned into an integer once, by `microPerMtok`, and the rest is integer arithmetic in
`u128`, which wraps in a release build.

* **`costOf_eq_foldlM`** — the five components of a usage are charged one after the other;
* **`costOf_isSome_iff`** — there is a cost exactly when every component with tokens has a
  price;
* **`costOf_exact_iff`** — exactly when a cost is what its documentation says: the products
  fit, and rounding up is rounding half up.
-/
import Mathlib.Data.List.TakeWhile
import Mathlib.Algebra.BigOperators.Group.List.Basic
import Mathlib.Algebra.Order.BigOperators.Group.List
import Domarinn.Double
import Domarinn.Types

/-! ### Money -/

/-- The largest `u64`. -/
def u64Max : ℕ := 2 ^ 64 - 1

/-- An amount of money, in millionths of a dollar. -/
@[ext] structure MicroUsd where
  micros : ℕ
  fits : micros ≤ u64Max
deriving DecidableEq

namespace MicroUsd

def zero : MicroUsd := ⟨0, Nat.zero_le _⟩

/-- `MicroUsd::saturating_add`. -/
def saturatingAdd (a b : MicroUsd) : MicroUsd :=
  ⟨min (a.micros + b.micros) u64Max, min_le_right _ _⟩

/-- `MicroUsd::to_usd`. -/
def toUsd (a : MicroUsd) : ℚ := a.micros / 1000000

/-- `MicroUsd::from_usd`: rounded half up, and at most what a `u64` holds. -/
def fromUsd (usd : ℚ) : MicroUsd :=
  if usd ≤ 0 then zero else ⟨min ⌊usd * 1000000 + 1 / 2⌋.toNat u64Max, min_le_right _ _⟩

instance : Zero MicroUsd := ⟨zero⟩

instance : Add MicroUsd := ⟨saturatingAdd⟩

theorem micros_zero : (0 : MicroUsd).micros = 0 := rfl

theorem micros_add (a b : MicroUsd) : (a + b).micros = min (a.micros + b.micros) u64Max := rfl

/-- Amounts add up in any order: the sum stops at the largest one. -/
instance : AddCommMonoid MicroUsd where
  add_assoc a b c := by
    ext
    simp only [micros_add]
    omega
  zero_add a := by
    ext
    have h := a.fits
    simp only [micros_add, micros_zero]
    omega
  add_zero a := by
    ext
    have h := a.fits
    simp only [micros_add, micros_zero]
    omega
  add_comm a b := by
    ext
    simp only [micros_add]
    omega
  nsmul := nsmulRec

theorem saturatingAdd_eq (a b : MicroUsd) : a.saturatingAdd b = a + b := rfl

theorem micros_sum (amounts : List MicroUsd) :
    amounts.sum.micros = min (amounts.map micros).sum u64Max := by
  induction amounts with
  | nil => rfl
  | cons a amounts ih =>
    rw [List.sum_cons, List.map_cons, List.sum_cons, micros_add, ih]
    omega

theorem toUsd_zero {a : MicroUsd} (h : a.micros = 0) : a.toUsd = 0 := by
  rw [toUsd, h, Nat.cast_zero, zero_div]

theorem toUsd_le {a b : MicroUsd} (h : a.micros ≤ b.micros) : a.toUsd ≤ b.toUsd := by
  rw [toUsd, toUsd]
  have h' : (a.micros : ℚ) ≤ b.micros := Nat.cast_le.mpr h
  linarith

end MicroUsd

/-! ### Charging -/

/-- Prices in dollars per million tokens. -/
structure ModelRate where
  input : Double
  output : Double
  cacheRead : Option Double
  cacheWrite5m : Option Double
  cacheWrite1h : Option Double
deriving DecidableEq

namespace Pricing

/-- `micro_per_mtok`: a price in dollars, as micro-dollars per million tokens. -/
def microPerMtok (usdPerMtok : Double) : ℕ := (usdPerMtok.scale 1000000).toU128

/-- `component`: the micro-dollars of `tokens` at a price, rounded up. -/
def component (tokens : ℕ) (usdPerMtok : Option Double) : Option MicroUsd := do
  let rate ← usdPerMtok
  if tokens = 0 then
    return 0
  -- a product that does not fit in a `u128` wraps in a release build
  let product := tokens * microPerMtok rate % 2 ^ 128
  return ⟨min ((product + 999999) / 1000000) u64Max, min_le_right _ _⟩

/-- The tokens of a cache write that live for an hour: at most all of them. -/
def longWrite (usage : TokenUsage) (write : ℕ) : ℕ :=
  min (usage.cacheWrite1hTokens.getD 0) write

/-- `cost_of`: the cost of `usage`, or nothing when a reported component has no price. -/
def costOf (usage : TokenUsage) (rate : ModelRate) : Option MicroUsd := do
  let total ← component usage.inputTokens (some rate.input)
  let total ← (component usage.outputTokens (some rate.output)).map total.saturatingAdd
  let total ← match usage.cacheReadTokens.filter (0 < ·) with
    | some read => (component read rate.cacheRead).map total.saturatingAdd
    | none => some total
  match usage.cacheWriteTokens.filter (0 < ·) with
  | some write =>
    let long := longWrite usage write
    let short := write - long
    let total ← if 0 < short then
        (component short rate.cacheWrite5m).map total.saturatingAdd
      else some total
    if 0 < long then (component long rate.cacheWrite1h).map total.saturatingAdd
    else some total
  | none => some total

/-! ### The five components -/

/-- The tokens of a usage by what they are billed as, each with its price. -/
def components (usage : TokenUsage) (rate : ModelRate) : List (ℕ × Option Double) :=
  let write := usage.cacheWriteTokens.getD 0
  let long := longWrite usage write
  [(usage.inputTokens, some rate.input), (usage.outputTokens, some rate.output),
    (usage.cacheReadTokens.getD 0, rate.cacheRead),
    (write - long, rate.cacheWrite5m), (long, rate.cacheWrite1h)]

/-- Charge one component; one without tokens is passed over, priced or not. -/
def charge (total : MicroUsd) (c : ℕ × Option Double) : Option MicroUsd :=
  if c.1 = 0 then some total else (component c.1 c.2).map (total + ·)

@[simp] theorem component_zero (r : Double) : component 0 (some r) = some 0 := rfl

theorem charge_priced (total : MicroUsd) (tokens : ℕ) (r : Double) :
    charge total (tokens, some r) =
      (component tokens (some r)).map total.saturatingAdd := by
  unfold charge
  split_ifs with h
  · rw [show tokens = 0 from h, component_zero, Option.map_some, MicroUsd.saturatingAdd_eq,
      add_zero]
  · rfl

theorem charge_positive (total : MicroUsd) (tokens : ℕ) (r : Option Double) :
    charge total (tokens, r) =
      if 0 < tokens then (component tokens r).map total.saturatingAdd else some total := by
  unfold charge
  rcases Nat.eq_zero_or_pos tokens with rfl | hn
  · rfl
  · rw [if_neg hn.ne', if_pos hn]
    rfl

/-- A count that is reported and not zero is charged; otherwise it counts as zero. -/
theorem charge_reported (total : MicroUsd) (tokens : Option ℕ) (r : Option Double) :
    charge total (tokens.getD 0, r) =
      match tokens.filter (0 < ·) with
      | some n => (component n r).map total.saturatingAdd
      | none => some total := by
  rw [charge_positive]
  rcases tokens with _ | n
  · rfl
  · by_cases hn : 0 < n <;> simp [Option.filter, hn]

/-- The two halves of a cache write. -/
theorem charge_writes (total : MicroUsd) (usage : TokenUsage) (rate : ModelRate) :
    ((charge total (usage.cacheWriteTokens.getD 0 -
          longWrite usage (usage.cacheWriteTokens.getD 0), rate.cacheWrite5m)).bind fun total =>
        charge total (longWrite usage (usage.cacheWriteTokens.getD 0), rate.cacheWrite1h)) =
      match usage.cacheWriteTokens.filter (0 < ·) with
      | some write =>
        (if 0 < write - longWrite usage write then
            (component (write - longWrite usage write) rate.cacheWrite5m).map
              total.saturatingAdd
          else some total).bind fun total =>
        if 0 < longWrite usage write then
          (component (longWrite usage write) rate.cacheWrite1h).map total.saturatingAdd
        else some total
      | none => some total := by
  simp only [charge_positive]
  rcases usage.cacheWriteTokens with _ | write
  · simp [longWrite]
  · by_cases hn : 0 < write
    · simp [Option.filter, hn]
    · have hzero : write = 0 := by omega
      simp [Option.filter, hzero, longWrite]

/-- **The cost is the components of the usage, charged one after the other.** -/
theorem costOf_eq_foldlM (usage : TokenUsage) (rate : ModelRate) :
    costOf usage rate = (components usage rate).foldlM charge 0 := by
  have hfirst : charge 0 (usage.inputTokens, some rate.input) =
      component usage.inputTokens (some rate.input) := by
    rw [charge_priced, show (0 : MicroUsd).saturatingAdd = id from funext zero_add,
      Option.map_id, id]
  simp only [components, List.foldlM_cons, List.foldlM_nil, bind_pure, hfirst]
  unfold costOf
  refine congrArg (Option.bind _) (funext fun input => ?_)
  rw [charge_priced]
  refine congrArg (Option.bind _) (funext fun output => ?_)
  rw [charge_reported]
  have hwrites := fun total => charge_writes total usage rate
  -- the two cache components are charged only when they were reported
  cases usage.cacheReadTokens.filter (0 < ·) with
  | none =>
    refine Eq.trans ?_ (hwrites output).symm
    cases usage.cacheWriteTokens.filter (0 < ·) with
    | none => rfl
    | some write => dsimp only; split_ifs <;> rfl
  | some read =>
    refine congrArg (Option.bind _) (funext fun total => ?_)
    refine Eq.trans ?_ (hwrites total).symm
    cases usage.cacheWriteTokens.filter (0 < ·) with
    | none => rfl
    | some write => dsimp only; split_ifs <;> rfl

/-! ### What a cost should be -/

/-- The amount of a component before it is rounded, in millionths of a micro-dollar. -/
def amount (c : ℕ × Option Double) : ℕ := c.1 * (c.2.map microPerMtok).getD 0

/-- Half up to a whole micro-dollar. -/
def halfUp (amount : ℕ) : ℕ := (amount + 500000) / 1000000

/-- Every component with tokens has a price. -/
def Priced (usage : TokenUsage) (rate : ModelRate) : Prop :=
  ∀ c ∈ components usage rate, c.1 ≠ 0 → c.2.isSome

/-- The amounts that are computed: up to the first component with tokens but no price. -/
def computed (usage : TokenUsage) (rate : ModelRate) : List ℕ :=
  ((components usage rate).takeWhile fun c => c.1 = 0 || c.2.isSome).map amount

/-- What the documentation promises of a cost. -/
structure ExactPricing (usage : TokenUsage) (rate : ModelRate) : Prop where
  priced : (costOf usage rate).isSome ↔ Priced usage rate
  split : ∀ write, longWrite usage write ≤ write
  counted : ((components usage rate).map Prod.fst).sum =
    usage.inputTokens + usage.outputTokens + usage.cacheReadTokens.getD 0 +
      usage.cacheWriteTokens.getD 0
  fits : ∀ a ∈ computed usage rate, a < 2 ^ 128
  total : ∀ total, costOf usage rate = some total →
    total.micros =
      min (((components usage rate).map fun c => halfUp (amount c)).sum) u64Max

/-- What a component adds to the total. -/
def charged (c : ℕ × Option Double) : MicroUsd := (component c.1 c.2).getD 0

/-- Charging succeeds when every component with tokens has a price, and then adds them up.
By induction on the components, with the total so far. -/
theorem foldlM_charge : ∀ (cs : List (ℕ × Option Double)) (total : MicroUsd),
    cs.foldlM charge total =
      if ∀ c ∈ cs, c.1 ≠ 0 → c.2.isSome then some (total + (cs.map charged).sum)
      else none := by
  intro cs
  induction cs with
  | nil => simp
  | cons c cs ih =>
    intro total
    obtain ⟨n, r⟩ := c
    rw [List.foldlM_cons, List.map_cons, List.sum_cons]
    rcases r with _ | r
    · rcases Nat.eq_zero_or_pos n with rfl | hn
      · -- nothing to charge, and no price needed
        have hzero : charged (0, (none : Option Double)) = 0 := rfl
        rw [hzero, zero_add]
        refine (ih total).trans ?_
        simp only [List.forall_mem_cons, ne_eq, not_true_eq_false, false_implies, true_and]
      · have hunpriced : ¬ ∀ c ∈ (n, (none : Option Double)) :: cs, c.1 ≠ 0 → c.2.isSome :=
          fun h => by simpa using h _ List.mem_cons_self hn.ne'
        rw [if_neg hunpriced, charge, if_neg hn.ne']
        rfl
    -- a price is there: the component is added and the rest charged on top
    · obtain ⟨paid, hpaid⟩ : ∃ paid, component n (some r) = some paid := by
        unfold component
        by_cases hn : n = 0 <;> simp [hn]
      have hcharged : charged (n, some r) = paid := by rw [charged, hpaid, Option.getD_some]
      rw [charge_priced, hpaid, hcharged, ← add_assoc]
      refine (ih (total + paid)).trans ?_
      simp only [List.forall_mem_cons, Option.isSome_some, implies_true, true_and]

/-- **A cost is given exactly when every component with tokens has a price.** -/
theorem costOf_isSome_iff (usage : TokenUsage) (rate : ModelRate) :
    (costOf usage rate).isSome ↔ Priced usage rate := by
  rw [costOf_eq_foldlM, foldlM_charge, Priced]
  split_ifs with h
  · exact iff_of_true rfl h
  · exact iff_of_false (by simp) h

/-- The long half of a write is part of it, so the two halves are the write. -/
theorem components_counted (usage : TokenUsage) (rate : ModelRate) :
    ((components usage rate).map Prod.fst).sum =
      usage.inputTokens + usage.outputTokens + usage.cacheReadTokens.getD 0 +
        usage.cacheWriteTokens.getD 0 := by
  simp only [components, longWrite, List.map_cons, List.map_nil, List.sum_cons, List.sum_nil]
  omega

/-! ### Rounding -/

/-- Rounding `a` up is rounding it half up. -/
def RoundsHalfUp (a : ℕ) : Prop := a % 1000000 = 0 ∨ 500000 ≤ a % 1000000

theorem ceil_eq_halfUp_iff (a : ℕ) : (a + 999999) / 1000000 = halfUp a ↔ RoundsHalfUp a := by
  unfold halfUp RoundsHalfUp
  omega

theorem halfUp_le_ceil (a : ℕ) : halfUp a ≤ (a + 999999) / 1000000 := by
  unfold halfUp
  omega

/-- A component adds its amount rounded up, when the product fits. -/
theorem micros_charged {c : ℕ × Option Double} (h : amount c < 2 ^ 128) :
    (charged c).micros = min ((amount c + 999999) / 1000000) u64Max := by
  obtain ⟨n, r⟩ := c
  rcases r with _ | r
  · simp [charged, component, amount, MicroUsd.micros_zero]
  · rcases Nat.eq_zero_or_pos n with rfl | hn
    · simp [charged, component, amount, MicroUsd.micros_zero]
    · simp only [amount, Option.map_some, Option.getD_some] at h ⊢
      have hmod : n * microPerMtok r % 2 ^ 128 = n * microPerMtok r := Nat.mod_eq_of_lt h
      simp only [charged, component, Option.bind_eq_bind, Option.bind_some, if_neg hn.ne', hmod]
      rfl

/-- Stopping each part at the top changes nothing when the sum stops there. -/
theorem min_sum_min {ι : Type} (f : ι → ℕ) (top : ℕ) : ∀ l : List ι,
    min (l.map fun x => min (f x) top).sum top = min (l.map f).sum top := by
  intro l
  induction l with
  | nil => rfl
  | cons x l ih =>
    simp only [List.map_cons, List.sum_cons]
    omega

/-- Two sums, one of them at least the other part by part, stop at the top together
exactly when all parts agree or the smaller one is already there. -/
theorem min_sum_eq_iff {ι : Type} {f g : ι → ℕ} {top : ℕ} : ∀ l : List ι,
    (∀ x ∈ l, f x ≤ g x) →
    (min (l.map g).sum top = min (l.map f).sum top ↔
      (∀ x ∈ l, g x = f x) ∨ top ≤ (l.map f).sum) := by
  intro l hle
  have hsum : (l.map f).sum ≤ (l.map g).sum := List.sum_le_sum hle
  -- below the ceiling the sums agree only when every term does
  have heq : (l.map g).sum = (l.map f).sum ↔ ∀ x ∈ l, g x = f x := by
    constructor
    · intro h
      induction l with
      | nil => simp
      | cons x l ih =>
        have hx := hle x List.mem_cons_self
        have hl : ∀ y ∈ l, f y ≤ g y := fun y hy => hle y (List.mem_cons_of_mem _ hy)
        have hrest : (l.map f).sum ≤ (l.map g).sum := List.sum_le_sum hl
        simp only [List.map_cons, List.sum_cons] at h
        have hx' : g x = f x := by omega
        have hl' := ih hl hrest (by omega)
        simpa [hx'] using hl'
    · intro h
      rw [List.map_congr_left h]
  rw [← heq]
  omega

/-- When every component with tokens has a price, every amount is computed. -/
theorem computed_of_priced {usage : TokenUsage} {rate : ModelRate} (h : Priced usage rate) :
    computed usage rate = (components usage rate).map amount := by
  rw [computed, List.takeWhile_eq_self_iff.mpr]
  intro c hc
  by_cases hn : c.1 = 0
  · simp [hn]
  · simp [hn, h c hc hn]

/-- The total of a priced usage whose products fit: the amounts, rounded up. -/
theorem costOf_priced {usage : TokenUsage} {rate : ModelRate} (h : Priced usage rate)
    (hfits : ∀ a ∈ computed usage rate, a < 2 ^ 128) :
    ∃ total, costOf usage rate = some total ∧
      total.micros = min (((components usage rate).map fun c =>
        (amount c + 999999) / 1000000).sum) u64Max := by
  rw [computed_of_priced h] at hfits
  refine ⟨_, (costOf_eq_foldlM usage rate).trans
    ((foldlM_charge _ 0).trans (if_pos h)), ?_⟩
  rw [zero_add, MicroUsd.micros_sum, List.map_map, ← min_sum_min fun c => _ / _]
  congr 2
  refine List.map_congr_left fun c hc => ?_
  exact micros_charged (hfits _ (List.mem_map_of_mem hc))

/-- **When a cost is exact**: no product reaches `2 ^ 128`, and unless some component with
tokens has no price, rounding every amount up is rounding it half up, or the amounts
already sum to the largest cost. -/
theorem costOf_exact_iff (usage : TokenUsage) (rate : ModelRate) :
    ExactPricing usage rate ↔
      (∀ a ∈ computed usage rate, a < 2 ^ 128) ∧
        (Priced usage rate → (∀ a ∈ computed usage rate, RoundsHalfUp a) ∨
          u64Max ≤ ((computed usage rate).map halfUp).sum) := by
  have hround : Priced usage rate → (∀ a ∈ computed usage rate, a < 2 ^ 128) →
      ((∀ total, costOf usage rate = some total → total.micros =
          min (((components usage rate).map fun c => halfUp (amount c)).sum) u64Max) ↔
        (∀ a ∈ computed usage rate, RoundsHalfUp a) ∨
          u64Max ≤ ((computed usage rate).map halfUp).sum) := by
    -- with a price for every component the total is the saturated sum of the
    -- rounded amounts, so exactness is a question about the rounding alone
    intro hp hfits
    obtain ⟨total, htotal, hmicros⟩ := costOf_priced hp hfits
    rw [computed_of_priced hp, List.map_map, List.forall_mem_map, htotal]
    simp only [Option.some.injEq, forall_eq', hmicros, ← ceil_eq_halfUp_iff]
    exact min_sum_eq_iff _ fun c _ => halfUp_le_ceil _
  constructor
  · intro h
    exact ⟨h.fits, fun hp => (hround hp h.fits).mp h.total⟩
  · rintro ⟨hfits, hrounds⟩
    refine ⟨costOf_isSome_iff usage rate, fun write => min_le_right _ _,
      components_counted usage rate, hfits, fun total htotal => ?_⟩
    have hp : Priced usage rate := (costOf_isSome_iff usage rate).mp (by simp [htotal])
    exact (hround hp hfits).mpr (hrounds hp) total htotal

/-! ### A quarter of a micro-dollar -/

/-- A price of a whole number of micro-dollars per million tokens is that number. -/
theorem microPerMtok_whole {value : ℚ} {n : ℕ} (hn : n < 2 ^ 53) (h : value * 1000000 = n) :
    microPerMtok (.finite value) = n := by
  have hfloor : ⌊(n : ℚ) + 1 / 2⌋ = n := by
    rw [Int.floor_eq_iff]
    constructor <;> push_cast <;> linarith
  rw [microPerMtok, Double.scale, h, Double.ofRat_natCast hn, Double.toU128, hfloor,
    Int.toNat_natCast, min_eq_left]
  omega

/-- One input token. -/
def oneToken : TokenUsage := ⟨1, 0, none, none, none⟩

/-- A quarter of a dollar per million tokens. -/
def quarter : Double := .finite (1 / 4)

/-- The same price for every kind of token. -/
def quarterSheet : ModelRate :=
  ⟨quarter, quarter, some quarter, some quarter, some quarter⟩

/-- **A quarter of a micro-dollar costs one micro-dollar**: half up it would be none. -/
theorem oneToken_rounds_up : ¬ ExactPricing oneToken quarterSheet := by
  intro h
  have hmicro : microPerMtok quarter = 250000 :=
    microPerMtok_whole (n := 250000) (by norm_num) (by norm_num)
  have hcomponents : (components oneToken quarterSheet).map amount =
      [250000, 0, 0, 0, 0] := by
    simp [components, amount, longWrite, oneToken, quarterSheet, hmicro]
  have hpriced : Priced oneToken quarterSheet := by
    simp [Priced, components, longWrite, oneToken, quarterSheet]
  have hfits : ∀ a ∈ computed oneToken quarterSheet, a < 2 ^ 128 := by
    rw [computed_of_priced hpriced, hcomponents]
    simp
  obtain ⟨total, htotal, hmicros⟩ := costOf_priced hpriced hfits
  have hspec := h.total total htotal
  rw [← Function.comp_def, ← List.map_map, hcomponents] at hspec
  rw [← Function.comp_def (fun a => (a + 999999) / 1000000), ← List.map_map,
    hcomponents] at hmicros
  rw [hspec] at hmicros
  revert hmicros
  decide

end Pricing
