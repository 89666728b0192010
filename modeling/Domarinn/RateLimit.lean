/-
The token buckets of a limiter, one for each key, and no more of them than the limiter tracks.

A caller reads the clock before it waits for the lock, so the times of the takes come in any
order.  The key of a caller is from the network: when there is no room for a new one, the buckets
that are full again are dropped, and then the fullest of the others.

* **`evict_drops_fullest`** — a bucket that is dropped is as full as any that is kept;
* **`granted_eq`** — the takes on a key that is not evicted are those of one bucket;
* **`token_buckets_bounded`** — the limiter over whole runs: the size of the map, evictions, a
  take after the wait that was asked for, and the rate where the times of a key are in order;
* **`clock_back_overgrants`** — two callers that read the clock a second before the others.
-/
import Domarinn.RefillBucket
import Mathlib.Algebra.Order.Floor.Ring
import Mathlib.Data.List.AList
import Mathlib.Data.List.Sort
import Mathlib.Data.Rat.Floor

/-- `select_nth_unstable_by`, with the greatest first: what comes before and after the position,
where nothing else is promised about the order. -/
structure NthSelection where
  select : ℕ → List (ℚ × String) → List (ℚ × String)
  perm : ∀ n levels, (select n levels).Perm levels
  before : ∀ n levels x, (select n levels)[n]? = some x →
    ∀ a ∈ (select n levels).take n, x.1 ≤ a.1
  after : ∀ n levels x, (select n levels)[n]? = some x →
    ∀ b ∈ (select n levels).drop (n + 1), b.1 ≤ x.1

/-! ### The buckets -/

abbrev Bucket : Type := Refill.Bucket ℚ

/-- `HashMap<String, Bucket>`. -/
abbrev BucketMap : Type := AList fun _ : String => Bucket

/-- `retain`. -/
def BucketMap.retain (buckets : BucketMap) (keep : Bucket → Bool) : BucketMap where
  entries := buckets.entries.filter fun e => keep e.2
  nodupKeys := buckets.nodupKeys.sublist (List.filter_sublist)

def BucketMap.size (buckets : BucketMap) : ℕ := buckets.keys.length

structure TokenBuckets where
  buckets : BucketMap
  capacity : ℚ
  refillPerSec : ℚ
  maxTracked : ℕ
  one_le_capacity : 1 ≤ capacity
  refill_pos : 0 < refillPerSec
  tracked_pos : 1 ≤ maxTracked

def TokenBuckets.new (perMinute burst maxTracked : ℕ) : TokenBuckets where
  buckets := ∅
  capacity := (max burst 1 : ℕ)
  refillPerSec := (max perMinute 1 : ℕ) / 60
  maxTracked := max maxTracked 1
  one_le_capacity := Nat.one_le_cast.mpr (le_max_right _ _)
  refill_pos := div_pos (Nat.cast_pos.mpr (by omega)) (by norm_num)
  tracked_pos := le_max_right _ _

/-- `f64::EPSILON`. -/
def epsilon : ℚ := 1 / 2 ^ 52

/-- `saturating_duration_since`. -/
def saturatingSince (now last : ℚ) : ℚ := max (now - last) 0

def refilled (tokens last now perSec capacity : ℚ) : ℚ :=
  min (tokens + saturatingSince now last * perSec) capacity

/-- How many slots a sweep leaves free: a tenth of the bound, at least one. -/
def evictionBatch (maxTracked : ℕ) : ℕ := max (maxTracked / 10) 1

/-- Drop the `count` fullest buckets. -/
def evictFullest (selection : NthSelection) (buckets : BucketMap) (count : ℕ)
    (now refill capacity : ℚ) : BucketMap :=
  let batch := min count buckets.size
  if batch = 0 then buckets
  else
    let levels := buckets.entries.map fun e =>
      (refilled e.2.tokens e.2.last now refill capacity, e.1)
    let doomed := ((selection.select (batch - 1) levels).take batch).map Prod.snd
    doomed.foldl (fun rest key => rest.erase key) buckets

/-- A take that came to the lock: its key, the time that its caller read, and how the fullest are
found should there have to be room. -/
structure Take where
  key : String
  now : ℚ
  selection : NthSelection

namespace TokenBuckets

/-- The buckets that are not full again. -/
def draining (b : TokenBuckets) (now : ℚ) : BucketMap :=
  b.buckets.retain fun x =>
    decide (refilled x.tokens x.last now b.refillPerSec b.capacity < b.capacity - epsilon)

/-- The sweep that makes room. -/
def sweep (b : TokenBuckets) (t : Take) : BucketMap :=
  let draining := b.draining t.now
  let target := b.maxTracked - evictionBatch b.maxTracked
  if target < draining.size then
    evictFullest t.selection draining (draining.size - target) t.now b.refillPerSec b.capacity
  else draining

/-- The buckets that a take finds. -/
def swept (b : TokenBuckets) (t : Take) : BucketMap :=
  if b.maxTracked ≤ b.buckets.size ∧ t.key ∉ b.buckets then b.sweep t else b.buckets

/-- `take`: one token for a key, or how long to wait for one. -/
def take (b : TokenBuckets) (t : Take) : Except ℚ Unit × TokenBuckets :=
  let buckets := b.swept t
  let bucket := (buckets.lookup t.key).getD ⟨b.capacity, t.now⟩
  let tokens := refilled bucket.tokens bucket.last t.now b.refillPerSec b.capacity
  if 1 ≤ tokens then
    (.ok (), { b with buckets := buckets.insert t.key ⟨tokens - 1, t.now⟩ })
  else
    (.error (max ⌈(1 - tokens) / b.refillPerSec⌉ 1),
      { b with buckets := buckets.insert t.key ⟨tokens, t.now⟩ })

/-! ### Runs -/

/-- The buckets after takes, in the order in which they had the lock. -/
def after (b : TokenBuckets) (takes : List Take) : TokenBuckets :=
  takes.foldl (fun b t => (b.take t).2) b

/-- How many of the takes on a key are granted. -/
def granted (key : String) : TokenBuckets → List Take → ℕ
  | _, [] => 0
  | b, t :: takes =>
    (if t.key = key ∧ (b.take t).1 = .ok () then 1 else 0) + granted key (b.take t).2 takes

/-- No take drops the bucket of this key. -/
def NeverEvicted (key : String) : TokenBuckets → List Take → Prop
  | _, [] => True
  | b, t :: takes =>
    (key ∈ b.buckets → key ∈ (b.take t).2.buckets) ∧ NeverEvicted key (b.take t).2 takes

/-- How full a bucket is. -/
def level (b : TokenBuckets) (x : Bucket) (now : ℚ) : ℚ :=
  refilled x.tokens x.last now b.refillPerSec b.capacity

end TokenBuckets

/-- The times at which a key was used. -/
def timesOf (key : String) (takes : List Take) : List ℚ :=
  (takes.filter (·.key = key)).map Take.now

/-- A limiter over every run. -/
structure LimiterBounded (limiter : TokenBuckets) : Prop where
  /-- Takes on a key that is not evicted, at times in order, within an interval. -/
  rate : ∀ (front takes : List Take) (key : String) (lo hi : ℚ), lo ≤ hi →
    TokenBuckets.NeverEvicted key (limiter.after front) takes →
    (timesOf key takes).Pairwise (· ≤ ·) → (∀ now ∈ timesOf key takes, lo ≤ now ∧ now ≤ hi) →
      (TokenBuckets.granted key (limiter.after front) takes : ℚ) ≤
        limiter.capacity + limiter.refillPerSec * (hi - lo)
  /-- After the wait that was asked for, a take succeeds. -/
  retry : ∀ (front between : List Take) (t t' : Take) (wait : ℚ),
    ((limiter.after front).take t).1 = .error wait → (∀ x ∈ between, x.key ≠ t.key) →
    t'.key = t.key → t.now + wait ≤ t'.now →
      ((limiter.after (front ++ t :: between)).take t').1 = .ok ()
  /-- The map never holds more keys than are tracked. -/
  size : ∀ takes : List Take, (limiter.after takes).buckets.size ≤ limiter.maxTracked
  /-- No bucket is dropped while a fuller one is kept. -/
  fullest : ∀ (front : List Take) (t : Take),
    ∀ dropped ∈ (limiter.after front).buckets.entries,
    ∀ kept ∈ (limiter.after front).buckets.entries,
      dropped.1 ∉ ((limiter.after front).take t).2.buckets →
      kept.1 ∈ ((limiter.after front).take t).2.buckets →
        limiter.level kept.2 t.now ≤ limiter.level dropped.2 t.now

/-! ### Making room -/

section
variable {buckets : BucketMap} {selection : NthSelection}

@[simp] theorem mem_retain {keep : Bucket → Bool} {e : Sigma fun _ : String => Bucket} :
    e ∈ (buckets.retain keep).entries ↔ e ∈ buckets.entries ∧ keep e.2 = true :=
  List.mem_filter

theorem size_retain_le (keep : Bucket → Bool) : (buckets.retain keep).size ≤ buckets.size :=
  (List.filter_sublist.map _).length_le

/-- The key of an entry is in the map. -/
theorem key_mem_of_mem {e : Sigma fun _ : String => Bucket} (h : e ∈ buckets.entries) :
    e.1 ∈ buckets := List.mem_keys_of_mem h

theorem mem_foldl_erase {key : String} : ∀ {doomed : List String} {buckets : BucketMap},
    key ∈ doomed.foldl (fun rest key => rest.erase key) buckets ↔ key ∉ doomed ∧ key ∈ buckets
  | [], buckets => by simp
  | doom :: doomed, buckets => by
    rw [List.foldl_cons, mem_foldl_erase, AList.mem_erase, List.mem_cons]
    tauto

/-- Dropping keys leaves the other buckets as they are. -/
theorem entries_foldl_erase : ∀ {doomed : List String} {buckets : BucketMap},
    (doomed.foldl (fun rest key => rest.erase key) buckets).entries ⊆ buckets.entries
  | [], _ => List.Subset.refl _
  | doom :: doomed, buckets => by
    rw [List.foldl_cons]
    exact List.Subset.trans (@entries_foldl_erase doomed (buckets.erase doom))
      (List.kerase_sublist doom buckets.entries).subset

/-- Each key that is dropped makes a place. -/
theorem size_foldl_erase : ∀ {doomed : List String} {buckets : BucketMap}, doomed.Nodup →
    (∀ key ∈ doomed, key ∈ buckets) →
    (doomed.foldl (fun rest key => rest.erase key) buckets).size + doomed.length = buckets.size
  | [], _, _, _ => rfl
  | doom :: doomed, buckets, hnodup, hmem => by
    obtain ⟨hfresh, hnodup⟩ := List.nodup_cons.mp hnodup
    obtain ⟨hdoom, hmem⟩ := List.forall_mem_cons.mp hmem
    have hrest := @size_foldl_erase doomed (buckets.erase doom) hnodup fun key hkey =>
      AList.mem_erase.mpr ⟨fun heq => hfresh (heq ▸ hkey), hmem key hkey⟩
    have hone : BucketMap.size (buckets.erase doom) + 1 = buckets.size := by
      have hpos : 0 < buckets.keys.length := List.length_pos_of_mem hdoom
      rw [BucketMap.size, BucketMap.size, AList.keys_erase, List.length_erase_of_mem hdoom]
      omega
    rw [List.foldl_cons, List.length_cons]
    omega

/-- The levels of the buckets, and the part of them that is dropped. -/
theorem evictFullest_eq (selection : NthSelection) (buckets : BucketMap) (count : ℕ)
    (now refill capacity : ℚ) :
    ∃ doomed : List String, evictFullest selection buckets count now refill capacity =
        doomed.foldl (fun rest key => rest.erase key) buckets ∧
      doomed.Nodup ∧ doomed.length = min count buckets.size ∧
      (∀ key ∈ doomed, key ∈ buckets) ∧
      ∀ dropped ∈ buckets.entries, ∀ kept ∈ buckets.entries, dropped.1 ∈ doomed →
        kept.1 ∉ doomed →
        refilled kept.2.tokens kept.2.last now refill capacity ≤
          refilled dropped.2.tokens dropped.2.last now refill capacity := by
  set batch := min count buckets.size with hbatch
  set levels : List (ℚ × String) := buckets.entries.map fun e =>
    (refilled e.2.tokens e.2.last now refill capacity, e.1) with hlevels
  by_cases hzero : batch = 0
  · refine ⟨[], ?_, List.nodup_nil, hzero.symm, by simp, by simp⟩
    rw [evictFullest, if_pos (hbatch ▸ hzero)]
    rfl
  set sorted := selection.select (batch - 1) levels with hsorted
  have hperm : sorted.Perm levels := selection.perm _ _
  have hlength : sorted.length = buckets.size := by
    rw [hperm.length_eq, hlevels, List.length_map]
    exact (List.length_map _).symm
  have hle : batch ≤ sorted.length := hlength ▸ min_le_right _ _
  have hkeys : levels.map Prod.snd = buckets.keys := by
    rw [hlevels, List.map_map]
    rfl
  have hsortedKeys : (sorted.map Prod.snd).Perm buckets.keys := hkeys ▸ hperm.map Prod.snd
  have hnodup : (sorted.map Prod.snd).Nodup := hsortedKeys.nodup_iff.mpr buckets.keys_nodup
  refine ⟨(sorted.take batch).map Prod.snd, ?_, ?_, ?_, ?_, ?_⟩
  · rw [evictFullest, if_neg (hbatch ▸ hzero)]
  · exact hnodup.sublist ((List.take_sublist _ _).map _)
  · rw [List.length_map, List.length_take, Nat.min_eq_left hle]
  · intro key hkey
    exact hsortedKeys.mem_iff.mp ((List.take_sublist _ _).map _ |>.subset hkey)
  · intro dropped hdropped kept hkept hdoomed hnot
    have hin : ∀ e ∈ buckets.entries,
        (refilled e.2.tokens e.2.last now refill capacity, e.1) ∈ sorted := fun e he =>
      hperm.mem_iff.mpr (List.mem_map_of_mem he)
    -- the entries are where their keys are
    have htaken : (refilled dropped.2.tokens dropped.2.last now refill capacity, dropped.1) ∈
        sorted.take batch := by
      obtain ⟨x, hx, hkey⟩ := List.mem_map.mp hdoomed
      have heq := List.inj_on_of_nodup_map hnodup (List.mem_of_mem_take hx) (hin dropped hdropped)
        hkey
      exact heq ▸ hx
    have hleft : (refilled kept.2.tokens kept.2.last now refill capacity, kept.1) ∈
        sorted.drop batch := by
      have hmem := hin kept hkept
      rw [← List.take_append_drop batch sorted] at hmem
      exact (List.mem_append.mp hmem).resolve_left fun h => hnot (List.mem_map_of_mem h)
    have hnth : sorted[batch - 1]? = some sorted[batch - 1] :=
      List.getElem?_eq_getElem (by omega)
    have hsucc : batch - 1 + 1 = batch := by omega
    refine (selection.after _ levels _ hnth _ (hsucc.symm ▸ hleft)).trans ?_
    rw [← hsucc, List.take_succ_eq_append_getElem (by omega)] at htaken
    obtain htaken | htaken := List.mem_append.mp htaken
    · have hbefore := selection.before _ levels _ hnth _ htaken
      exact hbefore
    · exact (congrArg Prod.fst (List.mem_singleton.mp htaken)).ge

end

section
variable {b : TokenBuckets} {t : Take}

/-- A batch is no more than the bound. -/
theorem evictionBatch_spec {maxTracked : ℕ} (h : 1 ≤ maxTracked) :
    1 ≤ evictionBatch maxTracked ∧ evictionBatch maxTracked ≤ maxTracked := by
  rw [evictionBatch]
  omega

/-- What a sweep does: it leaves free places, takes away only whole buckets, and the fullest. -/
structure Roomed (b : TokenBuckets) (t : Take) (rest : BucketMap) : Prop where
  subset : rest.entries ⊆ b.buckets.entries
  size : rest.size < b.maxTracked
  fullest : ∀ dropped ∈ b.buckets.entries, ∀ kept ∈ b.buckets.entries,
    dropped.1 ∉ rest → kept.1 ∈ rest → b.level kept.2 t.now ≤ b.level dropped.2 t.now

/-- An entry of a map is the entry of its key. -/
theorem entry_of_key {buckets rest : BucketMap} (hsub : rest.entries ⊆ buckets.entries)
    {e : Sigma fun _ : String => Bucket} (he : e ∈ buckets.entries) (hkey : e.1 ∈ rest) :
    e ∈ rest.entries := by
  obtain ⟨x, hx⟩ := List.exists_of_mem_keys (AList.mem_keys.mp hkey)
  have heq := buckets.nodupKeys.eq_of_fst_eq (hsub hx) he rfl
  exact heq ▸ hx

/-- **A bucket that is dropped is as full as any that is kept.** -/
theorem evict_drops_fullest (b : TokenBuckets) (t : Take) : Roomed b t (b.sweep t) := by
  obtain ⟨hbatch, hbound⟩ := evictionBatch_spec b.tracked_pos
  have hdraining : ∀ dropped ∈ b.buckets.entries, ∀ kept ∈ b.buckets.entries,
      dropped ∉ (b.draining t.now).entries → kept ∈ (b.draining t.now).entries →
        b.level kept.2 t.now ≤ b.level dropped.2 t.now := by
    intro dropped hdropped kept _ hnot hkept
    rw [TokenBuckets.draining, mem_retain, decide_eq_true_eq] at hnot hkept
    exact hkept.2.le.trans (not_lt.mp fun hlt => hnot ⟨hdropped, hlt⟩)
  have hsub : (b.draining t.now).entries ⊆ b.buckets.entries := List.filter_subset_self _
  rw [TokenBuckets.sweep]
  split_ifs with hmany
  · obtain ⟨doomed, heq, hnodup, hlength, hmem, hfullest⟩ := evictFullest_eq t.selection
      (b.draining t.now) ((b.draining t.now).size - (b.maxTracked - evictionBatch b.maxTracked))
      t.now b.refillPerSec b.capacity
    rw [heq]
    refine ⟨List.Subset.trans entries_foldl_erase hsub, ?_, ?_⟩
    · have hsize := size_foldl_erase hnodup hmem
      rw [hlength, Nat.min_eq_left (Nat.sub_le _ _)] at hsize
      omega
    · intro dropped hdropped kept hkept hnot hin
      rw [mem_foldl_erase, not_and'] at hnot
      obtain ⟨hspared, hin⟩ := mem_foldl_erase.mp hin
      have hkept' := entry_of_key hsub hkept hin
      by_cases hidle : dropped ∈ (b.draining t.now).entries
      · exact hfullest dropped hidle kept hkept'
          (not_not.mp (hnot (key_mem_of_mem hidle))) hspared
      · exact hdraining dropped hdropped kept hkept hidle hkept'
  · refine ⟨hsub, by omega, fun dropped hdropped kept hkept hnot hin => ?_⟩
    exact hdraining dropped hdropped kept hkept (fun h => hnot (key_mem_of_mem h))
      (entry_of_key hsub hkept hin)

/-! ### One take -/

theorem size_insert_le (key : String) (x : Bucket) (buckets : BucketMap) :
    BucketMap.size (buckets.insert key x) ≤ buckets.size + 1 := by
  rw [BucketMap.size, AList.keys_insert, List.length_cons]
  exact Nat.succ_le_succ (List.length_erase_le)

theorem size_insert_of_mem {key : String} {buckets : BucketMap} (h : key ∈ buckets)
    (x : Bucket) : BucketMap.size (buckets.insert key x) = buckets.size := by
  have hpos : 0 < buckets.keys.length := List.length_pos_of_mem h
  rw [BucketMap.size, AList.keys_insert, List.length_cons, List.length_erase_of_mem h,
    BucketMap.size]
  omega

/-- What a take finds: every bucket, or what a sweep left where its key is new. -/
theorem swept_cases (b : TokenBuckets) (t : Take) :
    b.swept t = b.buckets ∧ (b.buckets.size < b.maxTracked ∨ t.key ∈ b.buckets) ∨
      t.key ∉ b.buckets ∧ Roomed b t (b.swept t) := by
  rw [TokenBuckets.swept]
  split_ifs with hfull
  · exact .inr ⟨hfull.2, evict_drops_fullest b t⟩
  · refine .inl ⟨rfl, ?_⟩
    rw [not_and_or, not_le, not_not] at hfull
    exact hfull

/-- A take is one use of the bucket of its key, which is full where there is none. -/
theorem take_eq (b : TokenBuckets) (t : Take) :
    (b.take t).2 =
        { b with
          buckets := (b.swept t).insert t.key (Refill.spend b.refillPerSec b.capacity
            (((b.swept t).lookup t.key).getD ⟨b.capacity, t.now⟩) t.now).2 } ∧
      ((b.take t).1 = .ok () ↔ 1 ≤ Refill.level b.refillPerSec b.capacity
        (((b.swept t).lookup t.key).getD ⟨b.capacity, t.now⟩) t.now) := by
  set x := ((b.swept t).lookup t.key).getD ⟨b.capacity, t.now⟩ with hx
  have hlevel : refilled x.tokens x.last t.now b.refillPerSec b.capacity =
      Refill.level b.refillPerSec b.capacity x t.now := rfl
  rw [TokenBuckets.take, ← hx, Refill.spend]
  simp only [hlevel]
  split_ifs with hone
  · exact ⟨rfl, iff_of_true rfl hone⟩
  · exact ⟨rfl, iff_of_false (by simp) hone⟩

/-! ### Runs -/

/-- The bucket of a key, full where there is none. -/
def TokenBuckets.standing (b : TokenBuckets) (key : String) : Bucket :=
  (b.buckets.lookup key).getD ⟨b.capacity, 0⟩

/-- What holds of a limiter in use. -/
structure TokenBuckets.Sound (b : TokenBuckets) : Prop where
  nonneg : ∀ e ∈ b.buckets.entries, 0 ≤ e.2.tokens
  size : b.buckets.size ≤ b.maxTracked

theorem TokenBuckets.capacity_nonneg (b : TokenBuckets) : 0 ≤ b.capacity :=
  zero_le_one.trans b.one_le_capacity

theorem TokenBuckets.Sound.standing (h : b.Sound) (key : String) :
    0 ≤ (b.standing key).tokens := by
  rw [TokenBuckets.standing]
  cases hkey : b.buckets.lookup key with
  | none => exact b.capacity_nonneg
  | some x => exact h.nonneg ⟨key, x⟩ (AList.mem_lookup_iff.mp hkey)

theorem swept_subset : (b.swept t).entries ⊆ b.buckets.entries := by
  obtain ⟨heq, -⟩ | ⟨-, hswept⟩ := swept_cases b t
  · rw [heq]
    exact List.Subset.refl _
  · exact hswept.subset

/-- **One take keeps what holds.** -/
theorem take_sound (h : b.Sound) : (b.take t).2.Sound := by
  rw [(take_eq b t).1]
  constructor
  · intro e he
    rw [AList.entries_insert] at he
    obtain rfl | he := List.mem_cons.mp he
    · refine Refill.spend_nonneg b.refill_pos.le b.capacity_nonneg ?_
      cases hkey : (b.swept t).lookup t.key with
      | none => exact b.capacity_nonneg
      | some x => exact h.nonneg ⟨t.key, x⟩ (swept_subset (AList.mem_lookup_iff.mp hkey))
    · exact h.nonneg e (swept_subset ((List.kerase_sublist _ _).subset he))
  · obtain ⟨heq, hroom⟩ | ⟨-, hswept⟩ := swept_cases b t
    · rw [heq]
      obtain hroom | hkey := hroom
      · exact (size_insert_le _ _ _).trans hroom
      · exact (size_insert_of_mem hkey _).le.trans h.size
    · exact (size_insert_le _ _ _).trans hswept.size

/-- A take does not change the limits. -/
theorem take_limits (b : TokenBuckets) (t : Take) : (b.take t).2.capacity = b.capacity ∧
    (b.take t).2.refillPerSec = b.refillPerSec ∧ (b.take t).2.maxTracked = b.maxTracked := by
  rw [(take_eq b t).1]
  exact ⟨rfl, rfl, rfl⟩

theorem after_limits (takes : List Take) : ∀ b : TokenBuckets,
    (b.after takes).capacity = b.capacity ∧ (b.after takes).refillPerSec = b.refillPerSec ∧
      (b.after takes).maxTracked = b.maxTracked := by
  induction takes with
  | nil => exact fun b => ⟨rfl, rfl, rfl⟩
  | cons t takes ih =>
    intro b
    obtain ⟨hcapacity, hrefill, htracked⟩ := ih (b.take t).2
    obtain ⟨hcapacity', hrefill', htracked'⟩ := take_limits b t
    exact ⟨hcapacity.trans hcapacity', hrefill.trans hrefill', htracked.trans htracked'⟩

theorem after_sound (takes : List Take) :
    ∀ {b : TokenBuckets}, b.Sound → (b.after takes).Sound := by
  induction takes with
  | nil => exact fun h => h
  | cons t takes ih => exact fun h => ih (take_sound h)

/-- A map that lost whole buckets only has the others as they were. -/
theorem lookup_of_subset {buckets rest : BucketMap} (hsub : rest.entries ⊆ buckets.entries)
    (key : String) : rest.lookup key = none ∨ rest.lookup key = buckets.lookup key := by
  cases hkey : rest.lookup key with
  | none => exact .inl rfl
  | some x =>
    exact .inr (AList.mem_lookup_iff.mpr (hsub (AList.mem_lookup_iff.mp hkey))).symm

/-- A take on another key leaves this one's bucket, or drops it. -/
theorem take_other {key : String} (hne : key ≠ t.key) :
    (b.take t).2.buckets.lookup key = none ∨
      (b.take t).2.buckets.lookup key = b.buckets.lookup key := by
  rw [(take_eq b t).1]
  show AList.lookup key ((b.swept t).insert t.key _) = none ∨
    AList.lookup key ((b.swept t).insert t.key _) = _
  rw [AList.lookup_insert_ne hne]
  exact lookup_of_subset swept_subset key

/-- A take on another key that does not drop this one's bucket leaves it. -/
theorem standing_other {key : String} (hne : key ≠ t.key)
    (hkept : key ∈ b.buckets → key ∈ (b.take t).2.buckets) :
    (b.take t).2.standing key = b.standing key := by
  rw [TokenBuckets.standing, TokenBuckets.standing, (take_limits b t).1]
  obtain hnone | heq := take_other (b := b) (t := t) hne
  · have habsent : b.buckets.lookup key = none :=
      AList.lookup_eq_none.mpr fun h => AList.lookup_eq_none.mp hnone (hkept h)
    rw [hnone, habsent]
  · rw [heq]

/-- A sweep for a new key has no bucket of that key to drop. -/
theorem lookup_swept (b : TokenBuckets) (t : Take) :
    (b.swept t).lookup t.key = b.buckets.lookup t.key := by
  obtain ⟨heq, -⟩ | ⟨hnew, hswept⟩ := swept_cases b t
  · rw [heq]
  · rw [AList.lookup_eq_none.mpr hnew]
    exact (lookup_of_subset hswept.subset t.key).elim id fun h =>
      h.trans (AList.lookup_eq_none.mpr hnew)

/-- A full bucket is full, whenever it was last used. -/
theorem level_standing (b : TokenBuckets) (t : Take) :
    Refill.level b.refillPerSec b.capacity
        ((b.buckets.lookup t.key).getD ⟨b.capacity, t.now⟩) t.now =
      Refill.level b.refillPerSec b.capacity (b.standing t.key) t.now := by
  rw [TokenBuckets.standing]
  cases b.buckets.lookup t.key with
  | none =>
    have hfull : ∀ last, Refill.level b.refillPerSec b.capacity ⟨b.capacity, last⟩ t.now =
        b.capacity := fun last => Refill.level_full b.refill_pos.le le_rfl
    exact (hfull t.now).trans (hfull 0).symm
  | some x => rfl

/-- **A take is one use of the standing bucket of its key.** -/
theorem take_standing (b : TokenBuckets) (t : Take) :
    ((b.take t).1 = .ok () ↔
        (Refill.spend b.refillPerSec b.capacity (b.standing t.key) t.now).1 = true) ∧
      (b.take t).2.standing t.key =
        (Refill.spend b.refillPerSec b.capacity (b.standing t.key) t.now).2 := by
  obtain ⟨hnext, hgranted⟩ := take_eq b t
  rw [lookup_swept] at hnext hgranted
  have hlevel := level_standing b t
  constructor
  · rw [hgranted, hlevel, Refill.spend]
    split_ifs with hone
    · exact iff_of_true hone rfl
    · exact iff_of_false hone (by simp)
  · rw [hnext, TokenBuckets.standing, AList.lookup_insert, Option.getD_some, Refill.spend,
      Refill.spend, hlevel]

theorem timesOf_cons_of_eq {key : String} {takes : List Take} (h : t.key = key) :
    timesOf key (t :: takes) = t.now :: timesOf key takes := by
  rw [timesOf, List.filter_cons_of_pos (by simpa using h), List.map_cons, timesOf]

theorem timesOf_cons_of_ne {key : String} {takes : List Take} (h : t.key ≠ key) :
    timesOf key (t :: takes) = timesOf key takes := by
  rw [timesOf, List.filter_cons_of_neg (by simpa using h), timesOf]

/-- **The takes on a key that is not evicted are those of one bucket.** -/
theorem granted_eq (key : String) (takes : List Take) : ∀ b : TokenBuckets,
    TokenBuckets.NeverEvicted key b takes → TokenBuckets.granted key b takes =
      Refill.granted b.refillPerSec b.capacity (b.standing key) (timesOf key takes) := by
  induction takes with
  | nil => exact fun _ _ => rfl
  | cons t takes ih =>
    intro b hkept
    obtain ⟨hcapacity, hrefill, -⟩ := take_limits b t
    have hrest := ih (b.take t).2 hkept.2
    rw [hcapacity, hrefill] at hrest
    rw [TokenBuckets.granted, hrest]
    by_cases hkey : t.key = key
    · obtain ⟨hgranted, hnext⟩ := take_standing b t
      rw [hkey] at hgranted hnext
      rw [timesOf_cons_of_eq hkey, Refill.granted, hnext]
      congr 1
      by_cases hone : (Refill.spend b.refillPerSec b.capacity (b.standing key) t.now).1 = true
      · rw [if_pos ⟨hkey, hgranted.mpr hone⟩, hone]
        rfl
      · rw [if_neg fun h => hone (hgranted.mp h.2), Bool.eq_false_iff.mpr hone]
        rfl
    · rw [timesOf_cons_of_ne hkey, if_neg fun h => hkey h.1, Nat.zero_add,
        standing_other (Ne.symm hkey) hkept.1]

theorem after_append (b : TokenBuckets) (front back : List Take) :
    b.after (front ++ back) = (b.after front).after back := List.foldl_append

/-- Takes on other keys leave a bucket, or drop it. -/
theorem lookup_after_others {key : String} (takes : List Take) : ∀ b : TokenBuckets,
    (∀ t ∈ takes, t.key ≠ key) → (b.after takes).buckets.lookup key = none ∨
      (b.after takes).buckets.lookup key = b.buckets.lookup key := by
  induction takes with
  | nil => exact fun _ _ => .inr rfl
  | cons t takes ih =>
    intro b hothers
    obtain ⟨hne, hothers⟩ := List.forall_mem_cons.mp hothers
    obtain hnone | heq := ih (b.take t).2 hothers
    · exact .inl hnone
    · obtain hdropped | hleft := take_other (b := b) hne.symm
      · exact .inl (heq.trans hdropped)
      · exact .inr (heq.trans hleft)

/-- **After the wait that was asked for, a take succeeds**, whatever other keys did. -/
theorem retry_succeeds {t' : Take} {wait : ℚ} (between : List Take)
    (hwait : (b.take t).1 = .error wait) (hothers : ∀ x ∈ between, x.key ≠ t.key)
    (hkey : t'.key = t.key) (hlater : t.now + wait ≤ t'.now) :
    (((b.take t).2.after between).take t').1 = .ok () := by
  obtain ⟨hcapacity, hrefill, -⟩ := after_limits between (b.take t).2
  obtain ⟨hcapacity', hrefill', -⟩ := take_limits b t
  rw [(take_eq _ t').2, lookup_swept, hkey, hcapacity, hrefill, hcapacity', hrefill']
  obtain hnone | hleft := lookup_after_others between (b.take t).2 hothers
  · -- a bucket that was dropped is full
    have hfull : Refill.level b.refillPerSec b.capacity ⟨b.capacity, t'.now⟩ t'.now = b.capacity :=
      Refill.level_full b.refill_pos.le le_rfl
    rw [hnone, Option.getD_none, hfull]
    exact b.one_le_capacity
  · set x := ((b.swept t).lookup t.key).getD ⟨b.capacity, t.now⟩ with hx
    set tokens := refilled x.tokens x.last t.now b.refillPerSec b.capacity with htokens
    have htake : ¬ 1 ≤ tokens ∧ wait = max (⌈(1 - tokens) / b.refillPerSec⌉ : ℚ) 1 ∧
        (b.take t).2.buckets.lookup t.key = some ⟨tokens, t.now⟩ := by
      rw [TokenBuckets.take] at hwait ⊢
      simp only [← hx, ← htokens] at hwait ⊢
      split_ifs at hwait ⊢ with hone
      refine ⟨hone, (Except.error.inj hwait).symm, AList.lookup_insert _⟩
    obtain ⟨hless, rfl, hlookup⟩ := htake
    rw [hleft, hlookup, Option.getD_some]
    refine Refill.one_le_level b.refill_pos b.one_le_capacity ?_ (not_le.mp hless).le
    calc (1 - tokens) / b.refillPerSec
        ≤ (⌈(1 - tokens) / b.refillPerSec⌉ : ℚ) := Int.le_ceil _
      _ ≤ max (⌈(1 - tokens) / b.refillPerSec⌉ : ℚ) 1 := le_max_left _ _
      _ ≤ t'.now - t.now := le_sub_iff_add_le'.mpr hlater
end

/-! ### The limiter -/

theorem new_sound (perMinute burst maxTracked : ℕ) :
    (TokenBuckets.new perMinute burst maxTracked).Sound where
  nonneg _ he := absurd he List.not_mem_nil
  size := Nat.zero_le _

/-- **The limiter over every run**; the rate, where the times of a key come in order. -/
theorem token_buckets_bounded (perMinute burst maxTracked : ℕ) :
    LimiterBounded (TokenBuckets.new perMinute burst maxTracked) := by
  set limiter := TokenBuckets.new perMinute burst maxTracked with hlimiter
  have hsound : ∀ takes, (limiter.after takes).Sound := fun takes =>
    after_sound takes (new_sound perMinute burst maxTracked)
  constructor
  · intro front takes key lo hi hspan hkept hordered hbetween
    obtain ⟨hcapacity, hrefill, -⟩ := after_limits front limiter
    rw [granted_eq key takes _ hkept, hcapacity, hrefill]
    exact Refill.granted_le_span limiter.refill_pos.le limiter.capacity_nonneg
      ((hsound front).standing key) hspan hordered hbetween
  · intro front between t t' wait hwait hothers hkey hlater
    rw [after_append]
    exact retry_succeeds between hwait hothers hkey hlater
  · intro takes
    exact (hsound takes).size.trans (after_limits takes limiter).2.2.le
  · intro front t dropped hdropped kept hkept hnot hin
    obtain ⟨hcapacity, hrefill, -⟩ := after_limits front limiter
    have hlevel : ∀ x now, (limiter.after front).level x now = limiter.level x now := by
      intro x now
      rw [TokenBuckets.level, TokenBuckets.level, hcapacity, hrefill]
    rw [(take_eq _ t).1] at hnot hin
    have hnot' := mt (AList.mem_insert _).mpr hnot
    obtain ⟨hne, hgone⟩ := not_or.mp hnot'
    obtain ⟨heq, -⟩ | ⟨hnew, hswept⟩ := swept_cases (limiter.after front) t
    · rw [heq] at hgone
      exact absurd (key_mem_of_mem hdropped) hgone
    · have hstays : kept.1 ∈ (limiter.after front).swept t :=
        ((AList.mem_insert _).mp hin).resolve_left fun h => hnew (h ▸ key_mem_of_mem hkept)
      rw [← hlevel, ← hlevel]
      exact hswept.fullest dropped hdropped kept hkept hgone hstays

/-! ### A clock that is read before the lock -/

/-- In a list in order, what comes before a position and after it. -/
theorem pairwise_around {α : Type*} {le : α → α → Prop} {l : List α} (h : l.Pairwise le) {n : ℕ}
    {x : α} (hx : l[n]? = some x) : (∀ a ∈ l.take n, le a x) ∧ ∀ b ∈ l.drop (n + 1), le x b := by
  obtain ⟨hn, rfl⟩ := List.getElem?_eq_some_iff.mp hx
  have hsplit : l = l.take n ++ l[n] :: l.drop (n + 1) := by
    rw [← List.drop_eq_getElem_cons hn, List.take_append_drop]
  rw [hsplit] at h
  obtain ⟨-, hback, hacross⟩ := List.pairwise_append.mp h
  exact ⟨fun a ha => hacross a ha _ List.mem_cons_self, (List.pairwise_cons.mp hback).1⟩

theorem pairwise_fullest (levels : List (ℚ × String)) :
    (levels.insertionSort fun a b => b.1 ≤ a.1).Pairwise fun a b => b.1 ≤ a.1 := by
  have : Std.Total fun a b : ℚ × String => b.1 ≤ a.1 := ⟨fun a b => le_total b.1 a.1⟩
  have : IsTrans (ℚ × String) fun a b => b.1 ≤ a.1 := ⟨fun _ _ _ hab hbc => hbc.trans hab⟩
  exact List.pairwise_insertionSort _ levels

/-- The fullest, found by sorting. -/
def sortedSelection : NthSelection where
  select _ levels := levels.insertionSort fun a b => b.1 ≤ a.1
  perm _ levels := List.perm_insertionSort _ levels
  before _ levels _ hx := (pairwise_around (pairwise_fullest levels) hx).1
  after _ levels _ hx := (pairwise_around (pairwise_fullest levels) hx).2

/-- A key that no other comes between is not evicted. -/
theorem neverEvicted_of_only {key : String} (takes : List Take) : ∀ b : TokenBuckets,
    (∀ t ∈ takes, t.key = key) → TokenBuckets.NeverEvicted key b takes := by
  induction takes with
  | nil => exact fun _ _ => trivial
  | cons t takes ih =>
    intro b hkeys
    obtain ⟨hkey, hkeys⟩ := List.forall_mem_cons.mp hkeys
    refine ⟨fun _ => ?_, ih _ hkeys⟩
    rw [(take_eq b t).1]
    exact (AList.mem_insert _).mpr (.inl hkey.symm)

/-- Takes on one key, by callers that read these times. -/
def takesAt (times : List ℚ) : List Take := times.map fun now => ⟨"k", now, sortedSelection⟩

/-- **The clock goes back between takes**, and the same second refills the bucket twice. -/
theorem clock_back_overgrants :
    TokenBuckets.NeverEvicted "k" (TokenBuckets.new 60 1 16) (takesAt [1, 0, 1, 0, 1]) ∧
      (∀ now ∈ timesOf "k" (takesAt [1, 0, 1, 0, 1]), 0 ≤ now ∧ now ≤ 1) ∧
      ¬ (TokenBuckets.granted "k" (TokenBuckets.new 60 1 16) (takesAt [1, 0, 1, 0, 1]) : ℚ) ≤
        (TokenBuckets.new 60 1 16).capacity +
          (TokenBuckets.new 60 1 16).refillPerSec * (1 - 0) := by
  have hgranted : TokenBuckets.granted "k" (TokenBuckets.new 60 1 16)
      (takesAt [1, 0, 1, 0, 1]) = 3 := by
    decide +kernel
  refine ⟨?_, ?_, ?_⟩
  · refine neverEvicted_of_only _ _ fun t ht => ?_
    obtain ⟨now, -, rfl⟩ := List.mem_map.mp ht
    rfl
  · decide +kernel
  · rw [hgranted]
    norm_num [TokenBuckets.new]
