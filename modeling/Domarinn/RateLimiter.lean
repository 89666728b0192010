/-
A run's rate limiter: calls are handed slots an interval apart.

The limiter keeps the instant the next caller may proceed at.  Taking the lock reads the
clock and reserves a slot in one step; waiting for the slot and proceeding come later, and
a waiting caller may be cancelled.  `LimiterStep` is one step of any of the tasks that
share the limiter, or of the clock, so its executions are all their interleavings.

* **`Paced.count_le`** — how many members of a list that keeps an interval fall into a
  window;
* **`LimiterReach.paced`** — in every execution the slots are handed out as they should be;
* **`LimiterReach.admitted_after`** — and nobody proceeds before his slot.
-/
import Domarinn.Double
import Domarinn.Types

/-! ### Lists that keep an interval -/

section
variable {interval : ℕ}

/-- The newest first: each member is at least `interval` after the one before it. -/
def Paced (interval : ℕ) (times : List ℕ) : Prop :=
  times.Pairwise fun later earlier => earlier + interval ≤ later

/-- A time an interval after the newest member can be put in front. -/
theorem Paced.cons {t last : ℕ} {times : List ℕ} (h : Paced interval (last :: times))
    (ht : last + interval ≤ t) : Paced interval (t :: last :: times) := by
  refine List.pairwise_cons.mpr ⟨fun u hu => ?_, h⟩
  rcases List.mem_cons.mp hu with rfl | hu
  · exact ht
  · have := List.rel_of_pairwise_cons h hu
    omega

/-- The newest member of a list from `start` on leaves room for an interval for each of
the others. -/
theorem Paced.room {start : ℕ} : ∀ {times : List ℕ} {newest : ℕ},
    Paced interval (newest :: times) → (∀ t ∈ newest :: times, start ≤ t) →
      start + times.length * interval ≤ newest := by
  intro times
  induction times with
  | nil => simp
  | cons last times ih =>
    intro newest h hfrom
    have hlast := ih (List.Pairwise.of_cons h) fun t ht => hfrom t (List.mem_cons_of_mem _ ht)
    have hstep := List.rel_of_pairwise_cons h (List.mem_cons_self (a := last) (l := times))
    rw [List.length_cons, Nat.succ_mul]
    omega

/-- The members of `times` from `start` to `start + width`. -/
def inWindow (times : List ℕ) (start width : ℕ) : List ℕ :=
  times.filter fun t => start ≤ t && t ≤ start + width

/-- **All but one of the members in a window take an interval of its width each.** -/
theorem Paced.window {times : List ℕ} (h : Paced interval times) (start width : ℕ) :
    ((inWindow times start width).length - 1) * interval ≤ width := by
  have hpaced : Paced interval (inWindow times start width) := List.Pairwise.filter _ h
  have hin : ∀ t ∈ inWindow times start width, start ≤ t ∧ t ≤ start + width := by
    intro t ht
    simpa using (List.mem_filter.mp ht).2
  cases hw : inWindow times start width with
  | nil => simp
  | cons newest rest =>
    rw [hw] at hpaced hin
    have hroom := hpaced.room fun t ht => (hin t ht).1
    have hnewest := (hin newest List.mem_cons_self).2
    rw [List.length_cons, Nat.add_sub_cancel]
    omega

/-- **A window holds at most one member more than it holds intervals.** -/
theorem Paced.count_le {times : List ℕ} (h : Paced interval times) (hpos : 0 < interval)
    (start width : ℕ) : (inWindow times start width).length ≤ width / interval + 1 := by
  have := (Nat.le_div_iff_mul_le hpos).mpr (h.window start width)
  omega

end

/-! ### The limiter -/

/-- `MAX_INTERVAL`: a day. -/
def maxInterval : Duration := 24 * 60 * 60 * 1000000000

/-- The part of a limiter that does not change. -/
structure RateLimiter where
  interval : Duration
  capped : interval ≤ maxInterval

/-- `Duration::try_from_secs_f64`: to the nearest nanosecond, within the `u64` seconds. -/
def durationOfSecs : Double → Option Duration
  | .finite secs =>
    if secs < 0 then none
    else
      let nanos := (Double.roundTiesEven (secs * 1000000000)).toNat
      if nanos < 2 ^ 64 * 1000000000 then some nanos else none
  | _ => none

/-- `RateLimiter::per_second`. -/
def RateLimiter.perSecond : Double → Option RateLimiter
  | .finite rps =>
    if 0 < rps then
      some ⟨min ((durationOfSecs (Double.ofRat (1 / rps))).getD maxInterval) maxInterval,
        min_le_right _ _⟩
    else none
  | _ => none

/-- A limiter is built for the positive, finite rates. -/
theorem RateLimiter.perSecond_isSome {rps : Double} :
    (RateLimiter.perSecond rps).isSome ↔ ∃ v, rps = .finite v ∧ 0 < v := by
  cases rps with
  | nan => simp [RateLimiter.perSecond]
  | infinite negative => simp [RateLimiter.perSecond]
  | finite v => by_cases hv : 0 < v <;> simp [RateLimiter.perSecond, hv]

/-- The slot of a caller that takes the lock at `now`. -/
def slotAt (next : Option ℕ) (now : ℕ) : ℕ :=
  match next with
  | some n => if now < n then n else now
  | none => now

theorem slotAt_eq_max (n now : ℕ) : slotAt (some n) now = max n now := by
  change (if now < n then n else now) = max n now
  split_ifs <;> omega

/-- A slot that was handed out, and when its caller arrived. -/
structure Grant where
  arrival : ℕ
  slot : ℕ
deriving DecidableEq

/-- The clock, the limiter's state, the slots handed out so far with the newest first, the
callers that wait for theirs, and the slots whose callers proceeded, with the time. -/
structure LimiterState where
  clock : ℕ
  next : Option ℕ
  grants : List Grant
  waiting : List Grant
  admitted : List (Grant × ℕ)

/-- A limiter that nobody called, at any time. -/
def LimiterState.start (clock : ℕ) : LimiterState := ⟨clock, none, [], [], []⟩

/-- Take the lock: read the clock, and reserve the slot. -/
def LimiterState.reserve (l : RateLimiter) (s : LimiterState) : LimiterState :=
  let slot := slotAt s.next s.clock
  { s with
    next := some (slot + l.interval)
    grants := ⟨s.clock, slot⟩ :: s.grants
    waiting := ⟨s.clock, slot⟩ :: s.waiting }

/-- One step of the clock, or of a task that shares the limiter. -/
inductive LimiterStep (l : RateLimiter) : LimiterState → LimiterState → Prop where
  | tick (s : LimiterState) (d : ℕ) : LimiterStep l s { s with clock := s.clock + d }
  | reserve (s : LimiterState) : LimiterStep l s (s.reserve l)
  | proceed (s : LimiterState) (g : Grant) (hwaits : g ∈ s.waiting) (hslot : g.slot ≤ s.clock) :
      LimiterStep l s
        { s with waiting := s.waiting.erase g, admitted := (g, s.clock) :: s.admitted }
  | cancel (s : LimiterState) (g : Grant) (hwaits : g ∈ s.waiting) :
      LimiterStep l s { s with waiting := s.waiting.erase g }

/-- The states a limiter can reach. -/
inductive LimiterReach (l : RateLimiter) : LimiterState → Prop where
  | start (clock : ℕ) : LimiterReach l (.start clock)
  | step {s s' : LimiterState} (h : LimiterReach l s) (hs : LimiterStep l s s') :
      LimiterReach l s'

/-! ### What holds in every execution -/

/-- How the slots are handed out: a slot is the arrival of its caller, or an interval after
the slot before it, whichever is later. -/
inductive Granted (interval : Duration) : List Grant → Prop where
  | nil : Granted interval []
  | first (t : ℕ) : Granted interval [⟨t, t⟩]
  | later {last : Grant} {grants : List Grant} (h : Granted interval (last :: grants)) (t : ℕ)
      (hafter : last.arrival ≤ t) :
      Granted interval (⟨t, max (last.slot + interval) t⟩ :: last :: grants)

/-- What a state of the limiter keeps. -/
structure LimiterInv (l : RateLimiter) (s : LimiterState) : Prop where
  granted : Granted l.interval s.grants
  next : s.next = s.grants.head?.map fun g => g.slot + l.interval
  past : ∀ g ∈ s.grants, g.arrival ≤ s.clock
  waiting : ∀ g ∈ s.waiting, g ∈ s.grants
  admitted : ∀ a ∈ s.admitted, a.1 ∈ s.grants ∧ a.1.slot ≤ a.2

/-- Taking the lock hands out the slot that is due. -/
theorem LimiterInv.reserve {l : RateLimiter} {s : LimiterState} (h : LimiterInv l s) :
    LimiterInv l (s.reserve l) := by
  have hgranted : Granted l.interval (⟨s.clock, slotAt s.next s.clock⟩ :: s.grants) := by
    have hg := h.granted
    rw [h.next]
    cases hl : s.grants with
    | nil => exact .first s.clock
    | cons last grants =>
      rw [hl] at hg
      rw [List.head?_cons, Option.map_some, slotAt_eq_max]
      exact hg.later _ (h.past last (hl ▸ List.mem_cons_self))
  refine ⟨hgranted, rfl, fun g hg => ?_, fun g hg => ?_, fun a ha => ?_⟩
  · rcases List.mem_cons.mp hg with rfl | hg
    · exact le_refl _
    · exact h.past g hg
  · rcases List.mem_cons.mp hg with rfl | hg
    · exact List.mem_cons_self
    · exact List.mem_cons_of_mem _ (h.waiting g hg)
  · exact ⟨List.mem_cons_of_mem _ (h.admitted a ha).1, (h.admitted a ha).2⟩

/-- Every step keeps the invariant: only the lock changes what is handed out. -/
theorem LimiterInv.step {l : RateLimiter} {s s' : LimiterState} (h : LimiterInv l s)
    (hs : LimiterStep l s s') : LimiterInv l s' := by
  cases hs with
  | tick d =>
    exact ⟨h.granted, h.next, fun g hg => (h.past g hg).trans (Nat.le_add_right _ _),
      h.waiting, h.admitted⟩
  | reserve => exact h.reserve
  | proceed g hwaits hslot =>
    refine ⟨h.granted, h.next, h.past, fun g' hg' => h.waiting g' (List.mem_of_mem_erase hg'),
      fun a ha => ?_⟩
    rcases List.mem_cons.mp ha with rfl | ha
    · exact ⟨h.waiting g hwaits, hslot⟩
    · exact h.admitted a ha
  | cancel g hwaits =>
    exact ⟨h.granted, h.next, h.past, fun g' hg' => h.waiting g' (List.mem_of_mem_erase hg'),
      h.admitted⟩

theorem LimiterReach.inv {l : RateLimiter} {s : LimiterState} (h : LimiterReach l s) :
    LimiterInv l s := by
  induction h with
  | start clock => exact ⟨.nil, rfl, by simp [LimiterState.start], by simp [LimiterState.start],
      by simp [LimiterState.start]⟩
  | step _ hs ih => exact ih.step hs

/-! ### Spacing -/

/-- The slots a limiter hands out, the newest first, are spaced: none is before its
caller's arrival, consecutive ones are an interval apart, the first and any that finds the
limiter idle is not delayed, and no window holds more of them than it has room for. -/
structure SpacesCalls (interval : Duration) (grants : List Grant) : Prop where
  notEarly : ∀ g ∈ grants, g.arrival ≤ g.slot
  spaced : grants.IsChain fun later earlier => earlier.slot + interval ≤ later.slot
  first : ∀ g ∈ grants.getLast?, g.slot = g.arrival
  idle : grants.IsChain fun later earlier =>
    earlier.slot + interval ≤ later.arrival → later.slot = later.arrival
  window : ∀ start width,
    ((inWindow (grants.map Grant.slot) start width).length - 1) * interval ≤ width
  noBurst : 0 < interval → ∀ start width,
    (inWindow (grants.map Grant.slot) start width).length ≤ width / interval + 1

theorem Granted.paced {interval : Duration} {grants : List Grant} (h : Granted interval grants) :
    Paced interval (grants.map Grant.slot) := by
  induction h with
  | nil => exact .nil
  | first t => exact List.pairwise_singleton _ _
  | later _ t _ ih => exact ih.cons (le_max_left _ _)

theorem Granted.notEarly {interval : Duration} {grants : List Grant}
    (h : Granted interval grants) : ∀ g ∈ grants, g.arrival ≤ g.slot := by
  induction h with
  | nil => simp
  | first t => simp
  | later _ t _ ih => exact List.forall_mem_cons.mpr ⟨le_max_right _ _, ih⟩

theorem Granted.first_slot {interval : Duration} {grants : List Grant}
    (h : Granted interval grants) : ∀ g ∈ grants.getLast?, g.slot = g.arrival := by
  induction h with
  | nil => simp
  | first t => simp
  | later _ t _ ih => simpa [List.getLast?_cons] using ih

theorem Granted.spaced {interval : Duration} {grants : List Grant} (h : Granted interval grants) :
    grants.IsChain fun later earlier => earlier.slot + interval ≤ later.slot := by
  induction h with
  | nil => exact .nil
  | first t => exact .singleton _
  | later _ t _ ih => exact List.isChain_cons_cons.mpr ⟨le_max_left _ _, ih⟩

theorem Granted.idle {interval : Duration} {grants : List Grant} (h : Granted interval grants) :
    grants.IsChain fun later earlier =>
      earlier.slot + interval ≤ later.arrival → later.slot = later.arrival := by
  induction h with
  | nil => exact .nil
  | first t => exact .singleton _
  | later _ t _ ih => exact List.isChain_cons_cons.mpr ⟨fun hidle => max_eq_right hidle, ih⟩

/-- **The limiter spaces its calls**, in every execution. -/
theorem LimiterReach.spacesCalls {l : RateLimiter} {s : LimiterState} (h : LimiterReach l s) :
    SpacesCalls l.interval s.grants := by
  have hg := h.inv.granted
  exact ⟨hg.notEarly, hg.spaced, hg.first_slot, hg.idle, hg.paced.window, hg.paced.count_le⟩

/-- Two a second. -/
def twoPerSecond : RateLimiter := ⟨500000000, by decide⟩

/-- Two callers at once: the second waits for half a second. -/
theorem spacesCalls_twoPerSecond : SpacesCalls 500000000 [⟨7, 500000007⟩, ⟨7, 7⟩] :=
  LimiterReach.spacesCalls (l := twoPerSecond)
    (.step (.step (.start 7) (.reserve _)) (.reserve _))

/-- **Nobody proceeds before his slot**, so no earlier than he arrived. -/
theorem LimiterReach.admitted_after {l : RateLimiter} {s : LimiterState} (h : LimiterReach l s) :
    ∀ a ∈ s.admitted, a.1.slot ≤ a.2 ∧ a.1.arrival ≤ a.2 := by
  intro a ha
  obtain ⟨hmem, hslot⟩ := h.inv.admitted a ha
  exact ⟨hslot, (h.inv.granted.notEarly _ hmem).trans hslot⟩

/-- **Callers may arrive at any times**, each no earlier than the one before. -/
theorem LimiterReach.exists_arrivals (l : RateLimiter) : ∀ times : List ℕ,
    times.Pairwise (· ≥ ·) → ∃ s, LimiterReach l s ∧ s.grants.map Grant.arrival = times ∧
      s.clock = times.headD 0 := by
  intro times
  induction times with
  | nil => exact fun _ => ⟨_, .start 0, rfl, rfl⟩
  | cons t times ih =>
    intro h
    obtain ⟨s, hreach, hmap, hclock⟩ := ih (List.Pairwise.of_cons h)
    have hle : s.clock ≤ t := by
      rw [hclock]
      cases times with
      | nil => exact Nat.zero_le _
      | cons u times => exact List.rel_of_pairwise_cons h List.mem_cons_self
    -- let the time pass, then take the lock
    refine ⟨_, (hreach.step (.tick s (t - s.clock))).step (.reserve _), ?_, ?_⟩
    · change (s.clock + (t - s.clock)) :: s.grants.map Grant.arrival = t :: times
      rw [hmap, Nat.add_sub_cancel' hle]
    · exact Nat.add_sub_cancel' hle
