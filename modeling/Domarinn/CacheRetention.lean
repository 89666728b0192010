/-
The configured limits of the server's cache: a number of days and a number of bytes.

Once an hour the limits are applied, and then the entries that came back empty for a reason that
is configured to be swept are deleted.  A prune request that names nothing applies the limits
too, and one that names anything applies only that.

The limits are unsigned 64-bit numbers, and a prune takes signed ones: a limit of `2 ^ 63` or
more becomes negative, and then every entry is old, or every size too large.

* **`limits_honoured_iff`** — the limits are honoured where both are below `2 ^ 63`;
* **`forever_lost`** — the largest limits delete an entry that was just stored.
-/
import Domarinn.CachePruned
import Domarinn.Pieces

open Sql CacheTables

/-! ### The limits and the requests -/

/-- `CacheLimits`, of which the size of one entry does not matter here. -/
structure CacheLimits where
  maxBytes : ℕ
  maxAgeDays : ℕ
  maxBytes_lt : maxBytes < 2 ^ 64
  maxAgeDays_lt : maxAgeDays < 2 ^ 64

/-- A filter that names nothing: `CachePruneFilter::default`. -/
def noPruneFilter : CachePruneFilter := ⟨none, none, [], none, none, none⟩

/-- The filter that applies the limits. -/
def CacheLimits.filter (limits : CacheLimits) : CachePruneFilter :=
  { noPruneFilter with
    olderThanDays := some (asI64 limits.maxAgeDays)
    targetBytes := some (asI64 limits.maxBytes) }

/-- `spawn_cache_retention`: the prunes of one hour, each a transaction of its own. -/
def retentionPrunes (limits : CacheLimits) (sweepEmptyReason : List String) :
    List CachePruneFilter :=
  limits.filter ::
    if sweepEmptyReason.isEmpty then []
    else [{ noPruneFilter with emptyReason := sweepEmptyReason }]

/-- The parameters of a prune request. -/
structure PruneQuery where
  olderThanDays : Option ℤ
  newerThanDays : Option ℤ
  emptyReason : Option String
  model : Option String
  kind : Option String
  targetBytes : Option ℤ

/-- A request without any parameter. -/
def PruneQuery.bare : PruneQuery := ⟨none, none, none, none, none, none⟩

/-- `split_csv`. -/
def splitCsv (raw : Option String) : List String :=
  ((raw.toList.flatMap fun value => value.toList.splitOn ',').map
    (Pieces.trim isWhitespace)).filterMap fun part =>
      if part.isEmpty then none else some (String.ofList part)

/-- `named_a_predicate`. -/
def PruneQuery.namedAPredicate (q : PruneQuery) : Bool :=
  q.olderThanDays.isSome || q.newerThanDays.isSome || q.emptyReason.isSome || q.model.isSome ||
    q.kind.isSome || q.targetBytes.isSome

/-- The filter of a request, or why it is refused. -/
def PruneQuery.filter (limits : CacheLimits) (q : PruneQuery) : Except String CachePruneFilter :=
  if q.olderThanDays.any (· < 0) then .error "older_than_days must not be negative"
  else if q.newerThanDays.any (· < 0) then .error "newer_than_days must not be negative"
  else if ! q.namedAPredicate then .ok limits.filter
  else .ok
    { olderThanDays := q.olderThanDays
      newerThanDays := q.newerThanDays
      emptyReason := splitCsv q.emptyReason
      model := q.model
      kind := q.kind
      targetBytes := q.targetBytes }

/-- `cache_prune`, the handler: the tables, and how many entries were deleted. -/
def pruneRequest (limits : CacheLimits) (q : PruneQuery) (t : CacheTables) (now : ℤ)
    (order : AccessOrder) : Except String (CacheTables × ℕ) :=
  (q.filter limits).map fun f => t.cachePrune f now order.list

/-! ### Limits that are honoured -/

/-- What an entry of a cache can say of its size and its time. -/
def Measured (t : CacheTables) : Prop := ∀ e ∈ t.entries, -2 ^ 63 ≤ e.createdAt ∧ 0 ≤ e.size

/-- An entry was stored more than the configured number of days ago. -/
def CacheLimits.IsOld (limits : CacheLimits) (now : ℤ) (e : CacheRow) : Prop :=
  e.createdAt < now - limits.maxAgeDays * 86400000

/-- A cache holds more than the configured number of bytes. -/
def CacheLimits.Exceeded (limits : CacheLimits) (t : CacheTables) : Prop :=
  limits.maxBytes < (t.entries.map CacheRow.size).sum

/-- An entry that a prune deleted was old, or one of too many and accessed no later than any that
was kept. -/
def CacheLimits.Allow (limits : CacheLimits) (now : ℤ) (t t' : CacheTables) (e : CacheRow) : Prop :=
  limits.IsOld now e ∨
    limits.Exceeded t ∧ ∀ kept ∈ t'.entries, e.lastAccessAt ≤ kept.lastAccessAt

/-- The limits are honoured, whatever the cache holds and whenever they are applied. -/
structure LimitsHonoured (limits : CacheLimits) : Prop where
  /-- By each prune of an hourly pass; what is swept has a reason that is configured. -/
  hourly : ∀ sweep, ∀ f ∈ retentionPrunes limits sweep, ∀ t, Measured t →
    ∀ now (order : AccessOrder), ∀ e ∈ t.entries,
      e ∉ (t.cachePrune f now order.list).1.entries →
      (∃ reason ∈ sweep, e.columns.emptyReason = some reason) ∨
        limits.Allow now t (t.cachePrune f now order.list).1 e
  /-- By a request without parameters. -/
  bare : ∀ t, Measured t → ∀ now (order : AccessOrder), ∃ t' pruned,
    pruneRequest limits .bare t now order = .ok (t', pruned) ∧
      ∀ e ∈ t.entries, e ∉ t'.entries → limits.Allow now t t' e
  /-- A request that names a parameter is not about them. -/
  named : ∀ q : PruneQuery, q.namedAPredicate = true →
    (∀ limits', q.filter limits' = q.filter limits) ∧ ∀ f, q.filter limits = .ok f →
      f.olderThanDays = q.olderThanDays ∧ f.newerThanDays = q.newerThanDays ∧
        f.targetBytes = q.targetBytes

/-! ### Limits in range -/

section
variable {limits : CacheLimits} {t : CacheTables} {now : ℤ} {order : AccessOrder}

theorem lt_of_lt_cutoffMs {days created : ℤ} (hlo : -2 ^ 63 ≤ created)
    (h : created < cutoffMs now days) : created < now - days * 86400000 := by
  rw [cutoffMs, lt_max_iff] at h
  exact h.elim (fun h => absurd hlo (not_le.mpr h)) fun h => h.trans_le (min_le_left _ _)

/-- The cache holds no more after the predicates than before. -/
theorem sum_unmatched_le (ht : Measured t) (f : CachePruneFilter) :
    ((t.unmatched f now).entries.map CacheRow.size).sum ≤ (t.entries.map CacheRow.size).sum := by
  obtain ⟨p, -, heq⟩ := pruneMatching_eq t f now
  have hsub : (t.unmatched f now).entries.Sublist t.entries := by
    rw [unmatched, heq]
    exact List.filter_sublist
  refine (hsub.map CacheRow.size).sum_le_sum fun size hsize => ?_
  obtain ⟨e, he, rfl⟩ := List.mem_map.mp hsize
  exact (ht e he).2

/-- An entry that is evicted was accessed no later than any that is kept. -/
theorem evicted_le_kept {rows evicted : List CacheRow}
    (hsorted : rows.Pairwise fun e e' => e.lastAccessAt ≤ e'.lastAccessAt)
    (hinitial : evicted <+: rows) {e kept : CacheRow} (he : e ∈ evicted) (hkept : kept ∈ rows)
    (hnot : kept ∉ evicted) : e.lastAccessAt ≤ kept.lastAccessAt := by
  obtain ⟨rest, rfl⟩ := hinitial
  exact (List.pairwise_append.mp hsorted).2.2 e he kept
    ((List.mem_append.mp hkept).resolve_left hnot)

/-- Limits below `2 ^ 63` are applied as they are. -/
theorem limits_allow (hdays : limits.maxAgeDays < 2 ^ 63) (hbytes : limits.maxBytes < 2 ^ 63)
    (ht : Measured t) {e : CacheRow} (he : e ∈ t.entries)
    (hgone : e ∉ (t.cachePrune limits.filter now order.list).1.entries) :
    limits.Allow now t (t.cachePrune limits.filter now order.list).1 e := by
  obtain ⟨evicted, h⟩ := cache_prune_exact t limits.filter now order
  have hshortest := h.targeted (asI64 limits.maxBytes) rfl
  obtain hmatches | hevicted := (h.deleted e he).mp hgone
  · have hold := hmatches.2.older (asI64 limits.maxAgeDays) rfl
    rw [asI64_of_lt hdays] at hold
    exact .inl (lt_of_lt_cutoffMs (ht e he).1 hold)
  · refine .inr ⟨?_, fun kept hkept => ?_⟩
    · -- nothing is evicted from a cache that is small enough
      by_contra hle
      have hunder := h.under (asI64 limits.maxBytes) rfl (by
        rw [asI64_of_lt hbytes]
        exact (sum_unmatched_le ht limits.filter).trans (not_lt.mp hle))
      rw [hunder] at hevicted
      cases hevicted
    · have hin : kept ∈ t.entries := by
        rw [h.kept, CacheTables.mem_deleteWhere] at hkept
        exact hkept.1
      have hnot := not_or.mp (mt (h.deleted kept hin).mpr (not_not.mpr hkept))
      refine evicted_le_kept (order.sorted _) hshortest.isPrefix hevicted ?_ hnot.2
      exact (order.perm _).mem_iff.mpr (mem_unmatched.mpr ⟨hin, hnot.1⟩)

/-- What a sweep deletes has one of its reasons. -/
theorem sweep_reason {sweep : List String} (hsweep : sweep ≠ []) {e : CacheRow}
    (he : e ∈ t.entries)
    (hgone : e ∉ (t.cachePrune { noPruneFilter with emptyReason := sweep } now
      order.list).1.entries) :
    ∃ reason ∈ sweep, e.columns.emptyReason = some reason := by
  obtain ⟨evicted, h⟩ := cache_prune_exact t { noPruneFilter with emptyReason := sweep } now order
  obtain hmatches | hevicted := (h.deleted e he).mp hgone
  · exact hmatches.2.reason hsweep
  · rw [h.untargeted rfl] at hevicted
    cases hevicted

end

/-- A request that names a parameter is answered without the limits. -/
theorem filter_limits {q : PruneQuery} (hnamed : q.namedAPredicate = true)
    (limits limits' : CacheLimits) : q.filter limits = q.filter limits' := by
  simp only [PruneQuery.filter, hnamed, Bool.not_true, Bool.false_eq_true, if_false]

/-- Its days and its target are those of the request. -/
theorem filter_named {q : PruneQuery} (hnamed : q.namedAPredicate = true) {limits : CacheLimits}
    {f : CachePruneFilter} (h : q.filter limits = .ok f) :
    f.olderThanDays = q.olderThanDays ∧ f.newerThanDays = q.newerThanDays ∧
      f.targetBytes = q.targetBytes := by
  rw [PruneQuery.filter, hnamed] at h
  split_ifs at h with holder hnewer himpossible
  · cases himpossible
  · obtain rfl := Except.ok.inj h
    exact ⟨rfl, rfl, rfl⟩

/-! ### Limits out of range -/

/-- An entry that has just been stored. -/
def storedJustNow : CacheRow :=
  { newRow 1 "k" [] none 0 with size := 0 }

def freshCache : CacheTables := ⟨[storedJustNow], [], 0, 0, by decide, by decide, by decide⟩

theorem freshCache_measured : Measured freshCache := by
  intro e he
  obtain rfl := List.mem_singleton.mp he
  exact ⟨by decide, le_rfl⟩

section
variable {limits : CacheLimits} {order : AccessOrder}

theorem freshCache_not_allowed (limits : CacheLimits) (t' : CacheTables) :
    ¬ limits.Allow 0 freshCache t' storedJustNow := by
  have hdays := Int.natCast_nonneg limits.maxAgeDays
  have hbytes := Int.natCast_nonneg limits.maxBytes
  rintro (hold | ⟨hexceeded, -⟩)
  · have hold : (0 : ℤ) < 0 - limits.maxAgeDays * 86400000 := hold
    omega
  · have hexceeded : (limits.maxBytes : ℤ) < 0 := hexceeded
    omega

/-- A number of days that wraps around makes every entry old. -/
theorem days_lost (h : 2 ^ 63 ≤ limits.maxAgeDays) :
    storedJustNow ∉ (freshCache.cachePrune limits.filter 0 order.list).1.entries := by
  have hneg := asI64_neg h limits.maxAgeDays_lt
  obtain ⟨evicted, hexact⟩ := cache_prune_exact freshCache limits.filter 0 order
  refine (hexact.deleted _ List.mem_cons_self).mpr (.inl ⟨.inl (Option.some_ne_none _), ?_⟩)
  refine ⟨fun days hdays => ?_, fun _ h => absurd h.symm (Option.some_ne_none _),
    fun h => absurd rfl h, fun _ h => absurd h.symm (Option.some_ne_none _),
    fun _ h => absurd h.symm (Option.some_ne_none _)⟩
  obtain rfl := Option.some.inj hdays
  show 0 < cutoffMs 0 (asI64 limits.maxAgeDays)
  rw [cutoffMs, lt_max_iff, lt_min_iff]
  exact .inr ⟨by omega, by decide⟩

/-- A number of bytes that wraps around makes every cache too large. -/
theorem bytes_lost (h : 2 ^ 63 ≤ limits.maxBytes) :
    storedJustNow ∉ (freshCache.cachePrune limits.filter 0 order.list).1.entries := by
  have hneg := asI64_neg h limits.maxBytes_lt
  obtain ⟨evicted, hexact⟩ := cache_prune_exact freshCache limits.filter 0 order
  have hshortest := hexact.targeted (asI64 limits.maxBytes) rfl
  -- whichever entries are left have no size, so that no prefix reaches the target
  have hzero : ∀ e ∈ (freshCache.unmatched limits.filter 0).entries, e.size = 0 := by
    intro e he
    obtain rfl := List.mem_singleton.mp (mem_unmatched.mp he).1
    rfl
  have hsum : ∀ rows : List CacheRow, (∀ e ∈ rows, e.size = 0) → (rows.map CacheRow.size).sum = 0 :=
    fun rows hrows => List.sum_eq_zero (List.forall_mem_map.mpr hrows)
  refine (hexact.deleted _ List.mem_cons_self).mpr (or_iff_not_imp_left.mpr fun hnot => ?_)
  have hleft : storedJustNow ∈ (freshCache.unmatched limits.filter 0).entries :=
    mem_unmatched.mpr ⟨List.mem_cons_self, hnot⟩
  obtain hreached | hall := hshortest.reaches
  · have hevicted : ∀ e ∈ evicted, e.size = 0 := fun e he =>
      hzero e ((order.perm _).mem_iff.mp (hshortest.isPrefix.subset he))
    rw [hsum _ hzero, hsum _ hevicted] at hreached
    omega
  · rw [hall]
    exact (order.perm _).mem_iff.mpr hleft

end

/-- **The limits are honoured** where both are below `2 ^ 63`. -/
theorem limits_honoured_iff (limits : CacheLimits) :
    LimitsHonoured limits ↔ limits.maxAgeDays < 2 ^ 63 ∧ limits.maxBytes < 2 ^ 63 := by
  constructor
  · intro h
    have hkept : storedJustNow ∈
        (freshCache.cachePrune limits.filter 0 AccessOrder.stable.list).1.entries := by
      by_contra hgone
      obtain ⟨_, hswept, -⟩ | hallowed := h.hourly [] limits.filter List.mem_cons_self freshCache
        freshCache_measured 0 .stable storedJustNow List.mem_cons_self hgone
      · cases hswept
      · exact freshCache_not_allowed limits _ hallowed
    exact ⟨lt_of_not_ge fun hdays => days_lost hdays hkept,
      lt_of_not_ge fun hbytes => bytes_lost hbytes hkept⟩
  · rintro ⟨hdays, hbytes⟩
    exact {
      hourly := by
        intro sweep f hf t ht now order e he hgone
        obtain rfl | hf := List.mem_cons.mp hf
        · exact .inr (limits_allow hdays hbytes ht he hgone)
        · cases sweep with
          | nil => cases hf
          | cons reason sweep =>
            obtain rfl := List.mem_singleton.mp hf
            exact .inl (sweep_reason (List.cons_ne_nil _ _) he hgone)
      bare := fun t ht now order =>
        ⟨_, _, rfl, fun e he hgone => limits_allow hdays hbytes ht he hgone⟩
      named := fun q hnamed => ⟨fun limits' => filter_limits hnamed limits' limits,
        fun f => filter_named hnamed⟩ }

/-- The largest numbers: keep everything, for ever. -/
def forever : CacheLimits := ⟨2 ^ 64 - 1, 2 ^ 64 - 1, by decide, by decide⟩

/-- An entry that has just been stored is deleted as too old. -/
theorem forever_lost : ¬ LimitsHonoured forever := by
  intro h
  obtain ⟨_, hswept, -⟩ | hallowed := h.hourly [] forever.filter List.mem_cons_self freshCache
    freshCache_measured 0 .stable storedJustNow List.mem_cons_self (days_lost (by decide))
  · cases hswept
  · exact freshCache_not_allowed forever _ hallowed
