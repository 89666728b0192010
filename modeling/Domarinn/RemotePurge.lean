/-
Purging the cache of a server.

The filter travels as the parameters of a query: ages as days, the reasons in one parameter with
commas between them.  The server splits that parameter again, without the blanks around a part,
and compares what is left with the reasons in its column, which are clamped.  On a local disk the
same filter is compared as it is, both sides clamped.

* **`ofPairs_queryPairs`** — the parameters are read as they were written;
* **`splitCsv_joined`** — the reasons arrive as their parts;
* **`remote_same_iff`** — both tiers select the same entries just where those parts are the reasons;
* **`blank_reason_widens`** — a blank reason deletes entries that have none.
-/
import Domarinn.CacheRetention
import Domarinn.Cursors
import Domarinn.Purge

open Sql CacheTables

/-! ### The request -/

/-- Nanoseconds in a day, and in a millisecond. -/
def dayNanos : ℤ := 86400000000000

def milliNanos : ℤ := 1000000

/-- `num_days`. -/
def numDays (d : ℤ) : ℤ := d.tdiv dayNanos

namespace PurgeFilter

/-- The reasons in one parameter, if there are any. -/
def joinedReasons (filter : PurgeFilter) : Option String :=
  if filter.emptyReason.isEmpty then none
  else some (String.ofList ([','].intercalate (filter.emptyReason.map fun r => r.value.toList)))

/-- The parameters of the query: a predicate that is not set has none. -/
def queryPairs (filter : PurgeFilter) : List (String × String) :=
  (filter.olderThan.toList.map fun d => ("older_than_days", toString (numDays d))) ++
  (filter.newerThan.toList.map fun d => ("newer_than_days", toString (numDays d))) ++
  (filter.joinedReasons.toList.map fun joined => ("empty_reason", joined)) ++
  (filter.model.toList.map fun model => ("model", model)) ++
  (filter.kind.toList.map fun kind => ("kind", kind))

/-- The query that is sent; a filter that names a predicate is not sent without one. -/
def remoteQuery (filter : PurgeFilter) : Except String (List (String × String)) :=
  if filter.isDefault then .ok []
  else if filter.queryPairs.isEmpty then
    .error ("cache prune: filter named a predicate but produced no query params; refusing to " ++
      "send a bare prune, which would apply the server's full retention policy instead")
  else .ok filter.queryPairs

end PurgeFilter

/-! ### The response -/

/-- The parameters that a prune has. -/
def pruneParameters : List String :=
  ["older_than_days", "newer_than_days", "empty_reason", "model", "kind", "target_bytes"]

/-- A number among the parameters, if it is one. -/
def dayParameter (pairs : List (String × String)) (name : String) : Option (Option ℤ) :=
  match pairs.lookup name with
  | none => some none
  | some raw => (parseI64 raw).map fun n => some n.1

/-- `PruneQuery`, read from its parameters: none is unknown, and none is given twice. -/
def PruneQuery.ofPairs (pairs : List (String × String)) : Option PruneQuery :=
  if (pairs.map Prod.fst).all (pruneParameters.contains ·) ∧ (pairs.map Prod.fst).Nodup then do
    let olderThanDays ← dayParameter pairs "older_than_days"
    let newerThanDays ← dayParameter pairs "newer_than_days"
    let targetBytes ← dayParameter pairs "target_bytes"
    return {
      olderThanDays
      newerThanDays
      emptyReason := pairs.lookup "empty_reason"
      model := pairs.lookup "model"
      kind := pairs.lookup "kind"
      targetBytes }
  else none

/-- `RemoteHttpCache::purge`, answered by the server: its tables, and how many entries it
deleted. -/
def remotePurge (limits : CacheLimits) (filter : PurgeFilter) (t : CacheTables) (now : ℤ)
    (order : AccessOrder) : Option (CacheTables × ℕ) := do
  let pairs ← filter.remoteQuery.toOption
  let q ← PruneQuery.ofPairs pairs
  (pruneRequest limits q t now order).toOption

/-! ### What both tiers are asked -/

/-- The age windows are whole numbers of days, of a size that a duration has. -/
def WholeDays (filter : PurgeFilter) : Prop :=
  ∀ d, d ∈ filter.olderThan ∨ d ∈ filter.newerThan →
    ∃ days : ℕ, d = days * dayNanos ∧ d ≤ (2 ^ 63 - 1) * milliNanos

/-- The tests that a disk makes of a file and the entry in it, at a time that is given in
milliseconds. -/
def DiskAccepts (now : ℤ) (filter : PurgeFilter) (entry : CacheEntry) (created : ℤ) : Prop :=
  ∃ older newer, purgeCutoff (now * milliNanos) filter.olderThan = some older ∧
    purgeCutoff (now * milliNanos) filter.newerThan = some newer ∧
      matchesAge older newer (some (created * milliNanos)) = true ∧
        filter.matchesEntry entry = true

/-- The row of an entry: stored at this time, with the columns of its body. -/
structure RowOfEntry (entry : StoredEntry) (created : ℤ) (row : CacheRow) : Prop where
  createdAt : row.createdAt = created
  columns : row.columns = (EntryIndex.ofEntry entry).toIndexColumns

/-- Both tiers select the same entries. -/
def SameSelection (limits : CacheLimits) (filter : PurgeFilter) (now : ℤ) : Prop :=
  ∀ entry created row, InUtc (created * milliNanos) → RowOfEntry entry created row →
    ∀ t : CacheTables, row ∈ t.entries → ∀ order, ∃ t' pruned,
      remotePurge limits filter t now order = some (t', pruned) ∧
        (row ∉ t'.entries ↔ DiskAccepts now filter entry.toCacheEntry created)

/-! ### The parameters arrive -/

section
variable {filter : PurgeFilter}

/-- A parameter of another name is not found. -/
theorem lookup_parameter {α : Type} (o : Option α) (f : α → String) (name name' : String) :
    (o.toList.map fun v => (name, f v)).lookup name' =
      if name' = name then o.map f else none := by
  cases o with
  | none => simp
  | some v =>
    rw [Option.toList_some, List.map_singleton, List.lookup_singleton]
    simp only [beq_iff_eq, Option.map_some]

theorem lookup_text (o : Option String) (name name' : String) :
    (o.toList.map fun v => (name, v)).lookup name' = if name' = name then o else none := by
  have h := lookup_parameter o id name name'
  rwa [Option.map_id] at h

theorem queryPairs_names (filter : PurgeFilter) :
    (filter.queryPairs.map Prod.fst).Sublist
      ["older_than_days", "newer_than_days", "empty_reason", "model", "kind"] := by
  have hsegment : ∀ {α : Type} (o : Option α) (f : α → String) (name : String),
      ((o.toList.map fun v => (name, f v)).map Prod.fst).Sublist [name] := by
    intro α o f name
    cases o with
    | none => exact List.nil_sublist _
    | some v => exact List.Sublist.refl _
  rw [PurgeFilter.queryPairs, List.map_append, List.map_append, List.map_append, List.map_append]
  exact ((((hsegment _ _ _).append (hsegment _ _ _)).append (hsegment _ _ _)).append
    (hsegment _ _ _)).append (hsegment _ _ _)

/-- The value of a parameter is that of the predicate. -/
theorem lookup_queryPairs (filter : PurgeFilter) (name : String) :
    filter.queryPairs.lookup name =
      ((((if name = "older_than_days" then filter.olderThan.map fun d => toString (numDays d)
        else none).or
      (if name = "newer_than_days" then filter.newerThan.map fun d => toString (numDays d)
        else none)).or
      (if name = "empty_reason" then filter.joinedReasons else none)).or
      (if name = "model" then filter.model else none)).or
      (if name = "kind" then filter.kind else none) := by
  simp only [PurgeFilter.queryPairs, List.lookup_append, lookup_parameter, lookup_text]

/-- Days that were written are read. -/
theorem parseI64_numDays {d : ℤ} {days : ℕ} (hd : d = days * dayNanos)
    (hle : d ≤ (2 ^ 63 - 1) * milliNanos) :
    ∃ n, parseI64 (toString (numDays d)) = some n ∧ n.1 = numDays d ∧ numDays d = days := by
  have hdays : numDays d = days := by
    rw [numDays, hd]
    exact Int.mul_tdiv_cancel _ (by decide)
  have hrange : -2 ^ 63 ≤ numDays d ∧ numDays d < 2 ^ 63 := by
    rw [hdays]
    rw [hd, dayNanos, milliNanos] at hle
    omega
  exact ⟨⟨numDays d, hrange⟩, parseI64_toString ⟨numDays d, hrange⟩, rfl, hdays⟩

/-- **The parameters are read as they were written.** -/
theorem ofPairs_queryPairs (hdays : WholeDays filter) :
    PruneQuery.ofPairs filter.queryPairs = some
      { olderThanDays := filter.olderThan.map numDays
        newerThanDays := filter.newerThan.map numDays
        emptyReason := filter.joinedReasons
        model := filter.model
        kind := filter.kind
        targetBytes := none } := by
  have hnames := queryPairs_names filter
  have hknown : (filter.queryPairs.map Prod.fst).all (pruneParameters.contains ·) = true := by
    refine List.all_eq_true.mpr fun name hname => ?_
    have hall : (["older_than_days", "newer_than_days", "empty_reason", "model", "kind"].all
        (pruneParameters.contains ·)) = true := by decide
    exact List.all_eq_true.mp hall name (hnames.subset hname)
  have honce : (filter.queryPairs.map Prod.fst).Nodup := hnames.nodup (by decide)
  have hread : ∀ (name : String) (window : Option ℤ),
      (∀ d ∈ window, d ∈ filter.olderThan ∨ d ∈ filter.newerThan) →
      filter.queryPairs.lookup name = (window.map fun d => toString (numDays d)) →
      dayParameter filter.queryPairs name = some (window.map numDays) := by
    intro name window hwindow hlookup
    cases window with
    | none =>
      rw [dayParameter, hlookup]
      rfl
    | some d =>
      obtain ⟨days, hd, hle⟩ := hdays d (hwindow d rfl)
      obtain ⟨n, hparse, hn, -⟩ := parseI64_numDays hd hle
      rw [dayParameter, hlookup]
      simp only [Option.map_some, hparse, hn]
  have holder := hread "older_than_days" filter.olderThan (fun _ => .inl)
    (by rw [lookup_queryPairs]; simp)
  have hnewer := hread "newer_than_days" filter.newerThan (fun _ => .inr)
    (by rw [lookup_queryPairs]; simp)
  have htarget := hread "target_bytes" none (fun _ h => by cases h)
    (by rw [lookup_queryPairs]; simp)
  have hreason : filter.queryPairs.lookup "empty_reason" = filter.joinedReasons := by
    rw [lookup_queryPairs]
    simp
  have hmodel : filter.queryPairs.lookup "model" = filter.model := by
    rw [lookup_queryPairs]
    simp
  have hkind : filter.queryPairs.lookup "kind" = filter.kind := by
    rw [lookup_queryPairs]
    simp
  rw [PruneQuery.ofPairs, if_pos ⟨hknown, honce⟩, holder, hnewer, htarget, hreason, hmodel, hkind]
  rfl

/-! ### The reasons arrive as their parts -/

/-- What stands between the commas of the reasons, without the blanks around it. -/
def PurgeFilter.reasonParts (filter : PurgeFilter) : List String :=
  filter.emptyReason.flatMap fun reason => splitCsv (some reason.value)

theorem splitCsv_some (value : String) : splitCsv (some value) =
    ((value.toList.splitOn ',').map (Pieces.trim isWhitespace)).filterMap fun part =>
      if part.isEmpty then none else some (String.ofList part) := by
  rw [splitCsv, Option.toList_some, List.flatMap_cons, List.flatMap_nil, List.append_nil]

/-- **The reasons arrive as their parts.** -/
theorem splitCsv_joined (filter : PurgeFilter) :
    splitCsv filter.joinedReasons = filter.reasonParts := by
  rw [PurgeFilter.joinedReasons, PurgeFilter.reasonParts]
  cases hreasons : filter.emptyReason with
  | nil => rfl
  | cons reason reasons =>
    have hne : (reason :: reasons).map (fun r => r.value.toList) ≠ [] := by simp
    rw [if_neg (by simp), splitCsv_some, String.toList_ofList, Pieces.splitOn_join hne,
      List.flatMap_map, List.map_flatMap, List.filterMap_flatMap]
    simp only [splitCsv_some]

/-- A filter that names a predicate is sent with a parameter. -/
theorem remoteQuery_eq (h : filter.isDefault = false) :
    filter.remoteQuery = .ok filter.queryPairs := by
  have hpairs : filter.queryPairs.isEmpty = false := by
    refine List.isEmpty_eq_false_iff.mpr fun hnil => ?_
    simp only [PurgeFilter.queryPairs, List.append_eq_nil_iff, List.map_eq_nil_iff,
      Option.toList_eq_nil_iff] at hnil
    obtain ⟨⟨⟨⟨holder, hnewer⟩, hjoined⟩, hmodel⟩, hkind⟩ := hnil
    have hreasons : filter.emptyReason.isEmpty = true := by
      by_contra hne
      rw [PurgeFilter.joinedReasons, if_neg hne] at hjoined
      cases hjoined
    rw [PurgeFilter.isDefault, holder, hnewer, hreasons, hmodel, hkind] at h
    cases h
  rw [PurgeFilter.remoteQuery, h, hpairs]
  rfl

/-- The filter that arrives. -/
def PurgeFilter.arrived (filter : PurgeFilter) : CachePruneFilter where
  olderThanDays := filter.olderThan.map numDays
  newerThanDays := filter.newerThan.map numDays
  emptyReason := filter.reasonParts
  model := filter.model
  kind := filter.kind
  targetBytes := none

theorem arrived_nonneg (hdays : WholeDays filter) (window : Option ℤ)
    (hwindow : ∀ d ∈ window, d ∈ filter.olderThan ∨ d ∈ filter.newerThan) :
    (window.map numDays).any (· < 0) = false := by
  cases window with
  | none => rfl
  | some d =>
    obtain ⟨days, hd, hle⟩ := hdays d (hwindow d rfl)
    obtain ⟨_, _, _, hnum⟩ := parseI64_numDays hd hle
    rw [Option.map_some, Option.any_some, hnum]
    exact decide_eq_false (Int.not_lt.mpr (Int.natCast_nonneg days))

/-- **The server prunes by the filter that arrives.** -/
theorem remotePurge_eq (hdefault : filter.isDefault = false) (hdays : WholeDays filter)
    (limits : CacheLimits) (t : CacheTables) (now : ℤ) (order : AccessOrder) :
    remotePurge limits filter t now order = some (t.cachePrune filter.arrived now order.list) := by
  set q : PruneQuery := ⟨filter.olderThan.map numDays, filter.newerThan.map numDays,
    filter.joinedReasons, filter.model, filter.kind, none⟩ with hq
  have hnamed : q.namedAPredicate = true := by
    rw [PruneQuery.namedAPredicate, hq]
    rw [PurgeFilter.isDefault] at hdefault
    by_contra hnone
    simp only [Bool.or_eq_true, not_or, Option.isSome_map, Bool.not_eq_true,
      Option.isSome_eq_false_iff, Option.isNone_iff_eq_none] at hnone
    obtain ⟨⟨⟨⟨⟨holder, hnewer⟩, hjoined⟩, hmodel⟩, hkind⟩, -⟩ := hnone
    have hreasons : filter.emptyReason.isEmpty = true := by
      by_contra hne
      rw [PurgeFilter.joinedReasons, if_neg hne] at hjoined
      cases hjoined
    rw [holder, hnewer, hreasons, hmodel, hkind] at hdefault
    cases hdefault
  have hfilter : q.filter limits = .ok filter.arrived := by
    rw [PruneQuery.filter, if_neg, if_neg, hnamed, if_neg (by simp)]
    · rw [PurgeFilter.arrived, ← splitCsv_joined]
    · rw [hq, arrived_nonneg hdays _ fun _ => .inr]
      exact Bool.false_ne_true
    · rw [hq, arrived_nonneg hdays _ fun _ => .inl]
      exact Bool.false_ne_true
  simp only [remotePurge, remoteQuery_eq hdefault, Except.toOption, Option.bind_eq_bind,
    Option.bind_some, ofPairs_queryPairs hdays, ← hq, pruneRequest, hfilter, Except.map]

/-- What it deletes matches the filter that arrives. -/
theorem remotePurge_deletes (hdefault : filter.isDefault = false) (hdays : WholeDays filter)
    (limits : CacheLimits) {t : CacheTables} {row : CacheRow} (hrow : row ∈ t.entries) (now : ℤ)
    (order : AccessOrder) : ∃ t' pruned,
      remotePurge limits filter t now order = some (t', pruned) ∧
        (row ∉ t'.entries ↔ filter.arrived.Matches now row) := by
  obtain ⟨evicted, hexact⟩ := cache_prune_exact t filter.arrived now order
  refine ⟨(t.cachePrune filter.arrived now order.list).1,
    (t.cachePrune filter.arrived now order.list).2,
    remotePurge_eq hdefault hdays limits t now order, ?_⟩
  rw [hexact.deleted row hrow, hexact.untargeted rfl]
  exact or_iff_left List.not_mem_nil

end

/-! ### Where the selections are the same -/

/-- A reason as it is stored. -/
def Storable (reason : String) : Prop := (EmptyReason.mk reason).clamped = reason

namespace PurgeFilter

/-- A time in the age windows. -/
def InWindow (filter : PurgeFilter) (now created : ℤ) : Prop :=
  (∀ d ∈ filter.olderThan, created * milliNanos < now * milliNanos - d) ∧
    ∀ d ∈ filter.newerThan, now * milliNanos - d ≤ created * milliNanos

/-- The start of the windows is a time that can be represented. -/
def Reachable (filter : PurgeFilter) (now : ℤ) : Prop :=
  ∀ d ∈ filter.newerThan, InUtc (now * milliNanos - d)

/-- Of what can be stored, the parts of the reasons are the reasons, clamped. -/
def ReasonsSurvive (filter : PurgeFilter) : Prop :=
  ∀ reason, Storable reason →
    (reason ∈ filter.reasonParts ↔ ∃ want ∈ filter.emptyReason, want.clamped = reason)

/-- The filter says the same on its way: no time is in its windows; or they start at a time, and
the reasons survive; or they start at none, and no part of the reasons can be stored. -/
def Travels (filter : PurgeFilter) (now : ℤ) : Prop :=
  (∀ created, InUtc (created * milliNanos) → ¬ filter.InWindow now created) ∨
  (filter.Reachable now ∧ filter.ReasonsSurvive) ∨
  (¬ filter.Reachable now ∧ filter.reasonParts ≠ [] ∧
    ∀ part ∈ filter.reasonParts, ¬ Storable part)

end PurgeFilter

section
variable {filter : PurgeFilter} {now created : ℤ}

theorem storable_clamped (reason : EmptyReason) : Storable reason.clamped := by
  have hkept : ((reason.value.toList.filter fun c => !isControl c).take clampMax).filter
      (fun c => !isControl c) = (reason.value.toList.filter fun c => !isControl c).take clampMax :=
    List.filter_eq_self.mpr fun c hc => (List.mem_filter.mp (List.mem_of_mem_take hc)).2
  rw [Storable, EmptyReason.clamped, EmptyReason.clamped, String.toList_ofList, hkept,
    List.take_take, Nat.min_self]

/-- What the disk accepts. -/
theorem diskAccepts_iff (hdays : WholeDays filter) (hnow : InUtc (now * milliNanos))
    (hcreated : InUtc (created * milliNanos)) (entry : CacheEntry) :
    DiskAccepts now filter entry created ↔
      filter.InWindow now created ∧ filter.Reachable now ∧ filter.matchesEntry entry = true := by
  have hcutoff : ∀ d, (∃ days : ℕ, d = days * dayNanos ∧ d ≤ (2 ^ 63 - 1) * milliNanos) →
      created * milliNanos < now * milliNanos - d → InUtc (now * milliNanos - d) := by
    rintro d ⟨days, rfl, -⟩ hlt
    have hpos : 0 ≤ (days : ℤ) * dayNanos := mul_nonneg (Int.natCast_nonneg days) (by decide)
    exact ⟨hcreated.1.trans hlt.le, (sub_le_self _ hpos).trans hnow.2⟩
  constructor
  · rintro ⟨older, newer, holder, hnewer, hage, hentry⟩
    rw [purgeCutoff_eq_some holder, purgeCutoff_eq_some hnewer, matchesAge_eq,
      PurgeFilter.agePredicates, List.all_append, Bool.and_eq_true, List.all_map, List.all_map,
      List.all_eq_true, List.all_eq_true] at hage
    refine ⟨⟨fun d hd => ?_, fun d hd => ?_⟩, fun d hd => ?_, hentry⟩
    · exact of_decide_eq_true (hage.1 d (Option.mem_toList.mpr hd))
    · exact of_decide_eq_true (hage.2 d (Option.mem_toList.mpr hd))
    · by_contra hout
      rw [Option.mem_def.mp hd, purgeCutoff, if_neg hout] at hnewer
      cases hnewer
  · rintro ⟨⟨hold, hnew⟩, hreach, hentry⟩
    have holder : purgeCutoff (now * milliNanos) filter.olderThan =
        some (filter.olderThan.map (now * milliNanos - ·)) := by
      cases hd : filter.olderThan with
      | none => rfl
      | some d =>
        rw [purgeCutoff, if_pos (hcutoff d (hdays d (.inl hd)) (hold d hd)), Option.map_some]
    have hnewer : purgeCutoff (now * milliNanos) filter.newerThan =
        some (filter.newerThan.map (now * milliNanos - ·)) := by
      cases hd : filter.newerThan with
      | none => rfl
      | some d => rw [purgeCutoff, if_pos (hreach d hd), Option.map_some]
    refine ⟨_, _, holder, hnewer, ?_, hentry⟩
    rw [matchesAge_eq, PurgeFilter.agePredicates, List.all_append, Bool.and_eq_true, List.all_map,
      List.all_map, List.all_eq_true, List.all_eq_true]
    exact ⟨fun d hd => decide_eq_true (hold d (Option.mem_toList.mp hd)),
      fun d hd => decide_eq_true (hnew d (Option.mem_toList.mp hd))⟩

/-- A cutoff in days is one in nanoseconds. -/
theorem lt_cutoffMs_iff (hnow : InUtc (now * milliNanos)) (hcreated : InUtc (created * milliNanos))
    {d : ℤ} {days : ℕ} (hd : d = days * dayNanos) (hle : d ≤ (2 ^ 63 - 1) * milliNanos) :
    created < cutoffMs now (numDays d) ↔ created * milliNanos < now * milliNanos - d := by
  obtain ⟨_, _, _, hnum⟩ := parseI64_numDays hd hle
  rw [hnum, hd, cutoffMs]
  simp only [InUtc, minUtc, maxUtc, milliNanos, dayNanos] at *
  omega

/-- What the server deletes. -/
theorem arrived_matches_iff (hdays : WholeDays filter) (hnow : InUtc (now * milliNanos))
    (hcreated : InUtc (created * milliNanos)) {entry : StoredEntry} {row : CacheRow}
    (hrow : RowOfEntry entry created row) :
    filter.arrived.Matches now row ↔ filter.arrived.NamesPredicate ∧ filter.InWindow now created ∧
      (filter.reasonParts ≠ [] → ∃ found, entry.emptyReason = some found ∧
        found.clamped ∈ filter.reasonParts) ∧
      (∀ model ∈ filter.model, entry.model = some model) ∧
      ∀ kind ∈ filter.kind, entry.inferredKind = some kind := by
  have hreason : (∃ reason ∈ filter.reasonParts, row.columns.emptyReason = some reason) ↔
      ∃ found, entry.emptyReason = some found ∧ found.clamped ∈ filter.reasonParts := by
    rw [hrow.columns]
    simp only [EntryIndex.ofEntry, Option.map_eq_some_iff]
    constructor
    · rintro ⟨_, hmem, found, hfound, rfl⟩
      exact ⟨found, hfound, hmem⟩
    · rintro ⟨found, hfound, hmem⟩
      exact ⟨_, hmem, found, hfound, rfl⟩
  have holder : ∀ d ∈ filter.olderThan, (row.createdAt < cutoffMs now (numDays d) ↔
      created * milliNanos < now * milliNanos - d) := fun d hd => by
    obtain ⟨days, heq, hle⟩ := hdays d (.inl hd)
    rw [hrow.createdAt, lt_cutoffMs_iff hnow hcreated heq hle]
  have hnewer : ∀ d ∈ filter.newerThan, (cutoffMs now (numDays d) ≤ row.createdAt ↔
      now * milliNanos - d ≤ created * milliNanos) := fun d hd => by
    obtain ⟨days, heq, hle⟩ := hdays d (.inr hd)
    rw [hrow.createdAt, ← not_lt, lt_cutoffMs_iff hnow hcreated heq hle, not_lt]
  have hcolumns := hrow.columns
  refine and_congr_right fun _ => ?_
  constructor
  · intro h
    refine ⟨⟨fun d hd => (holder d hd).mp (h.older _ (Option.mem_map_of_mem _ hd)),
      fun d hd => (hnewer d hd).mp (h.newer _ (Option.mem_map_of_mem _ hd))⟩,
      fun hne => hreason.mp (h.reason hne), fun model hmodel => ?_, fun kind hkind => ?_⟩
    · have := h.model model hmodel
      rwa [hcolumns] at this
    · have := h.kind kind hkind
      rwa [hcolumns] at this
  · rintro ⟨⟨hold, hnew⟩, hreasons, hmodel, hkind⟩
    refine ⟨fun days hmem => ?_, fun days hmem => ?_, fun hne => hreason.mpr (hreasons hne),
      fun model h => ?_, fun kind h => ?_⟩
    · obtain ⟨d, hd, rfl⟩ := Option.map_eq_some_iff.mp hmem
      exact (holder d hd).mpr (hold d hd)
    · obtain ⟨d, hd, rfl⟩ := Option.map_eq_some_iff.mp hmem
      exact (hnewer d hd).mpr (hnew d hd)
    · rw [hcolumns]
      exact hmodel model h
    · rw [hcolumns]
      exact hkind kind h

/-- What the disk asks of an entry. -/
theorem matchesEntry_iff (entry : CacheEntry) : filter.matchesEntry entry = true ↔
    (filter.emptyReason ≠ [] → ∃ found, entry.emptyReason = some found ∧
      ∃ want ∈ filter.emptyReason, want.clamped = found.clamped) ∧
    (∀ model ∈ filter.model, entry.model = some model) ∧
    ∀ kind ∈ filter.kind, entry.inferredKind = some kind := by
  rw [matchesEntry_eq, PurgeFilter.entryPredicates, List.all_append, List.all_append,
    Bool.and_eq_true, Bool.and_eq_true, and_assoc]
  refine and_congr ?_ (and_congr ?_ ?_)
  · by_cases hreasons : filter.emptyReason = []
    · simp [hreasons]
    · simp [hreasons, Option.any_eq_true]
  · cases filter.model <;> simp
  · cases filter.kind <;> simp

theorem arrived_names_iff : filter.arrived.NamesPredicate ↔
    filter.olderThan ≠ none ∨ filter.newerThan ≠ none ∨ filter.reasonParts ≠ [] ∨
      filter.model ≠ none ∨ filter.kind ≠ none := by
  simp only [CachePruneFilter.NamesPredicate, PurgeFilter.arrived, ne_eq, Option.map_eq_none_iff]

/-- A filter whose reasons all vanish may name nothing any more; any other names something. -/
theorem arrived_names (hdefault : filter.isDefault = false)
    (hparts : filter.emptyReason ≠ [] → filter.reasonParts ≠ []) :
    filter.arrived.NamesPredicate := by
  rw [arrived_names_iff]
  by_contra hnone
  simp only [not_or, not_not, ne_eq] at hnone
  obtain ⟨holder, hnewer, hreason, hmodel, hkind⟩ := hnone
  have hreasons : filter.emptyReason = [] := by
    by_contra hne
    exact hparts hne hreason
  rw [PurgeFilter.isDefault, holder, hnewer, hreasons, hmodel, hkind] at hdefault
  cases hdefault

/-- Reasons that survive are parts. -/
theorem PurgeFilter.ReasonsSurvive.parts_ne (h : filter.ReasonsSurvive)
    (hne : filter.emptyReason ≠ []) : filter.reasonParts ≠ [] := by
  obtain ⟨want, hwant⟩ := List.exists_mem_of_ne_nil _ hne
  exact List.ne_nil_of_mem ((h want.clamped (storable_clamped want)).mpr ⟨want, hwant, rfl⟩)

theorem reasonParts_nil (h : filter.emptyReason = []) : filter.reasonParts = [] := by
  rw [PurgeFilter.reasonParts, h, List.flatMap_nil]

/-- An entry that the filter selects but for its reason. -/
def probe (filter : PurgeFilter) (reason : Option EmptyReason) : StoredEntry where
  toCacheEntry := { CacheEntry.ofOutput (.text "") reason with
    kind := filter.kind.map EntryKind.mk, model := filter.model }
  createdAtMs := 0

theorem probe_model (reason : Option EmptyReason) :
    ∀ model ∈ filter.model, (probe filter reason).model = some model :=
  fun _ h => h

theorem probe_kind (reason : Option EmptyReason) :
    ∀ kind ∈ filter.kind, (probe filter reason).inferredKind = some kind := by
  intro kind h
  have hkind : (probe filter reason).kind = some ⟨kind⟩ := by
    show filter.kind.map EntryKind.mk = some ⟨kind⟩
    rw [Option.mem_def.mp h, Option.map_some]
  rw [CacheEntry.inferredKind, hkind]
  rfl

/-- The row of an entry. -/
def probeRow (entry : StoredEntry) (created : ℤ) : CacheRow :=
  newRow 1 "k" [] (some (EntryIndex.ofEntry entry)) created

theorem probeRow_of (entry : StoredEntry) (created : ℤ) :
    RowOfEntry entry created (probeRow entry created) := ⟨rfl, rfl⟩

/-- **The selections are the same** where the server deletes what the disk accepts. -/
theorem sameSelection_iff (limits : CacheLimits) (hdefault : filter.isDefault = false)
    (hdays : WholeDays filter) : SameSelection limits filter now ↔
      ∀ entry created row, InUtc (created * milliNanos) → RowOfEntry entry created row →
        (filter.arrived.Matches now row ↔ DiskAccepts now filter entry.toCacheEntry created) := by
  constructor
  · intro h entry created row hcreated hrow
    have hself : row ∈ CacheTables.entries ⟨[row], [], 0, 0, List.nodup_singleton _,
        List.nodup_singleton _, List.nodup_nil⟩ := List.mem_singleton_self row
    obtain ⟨t', pruned, hpurge, hsame⟩ := h entry created row hcreated hrow _ hself .stable
    obtain ⟨t'', pruned', hpurge', hdeleted⟩ :=
      remotePurge_deletes hdefault hdays limits hself now .stable
    rw [hpurge] at hpurge'
    cases hpurge'
    exact hdeleted.symm.trans hsame
  · intro h entry created row hcreated hrow t hmem order
    obtain ⟨t', pruned, hpurge, hdeleted⟩ :=
      remotePurge_deletes hdefault hdays limits hmem now order
    exact ⟨t', pruned, hpurge, hdeleted.trans (h entry created row hcreated hrow)⟩

/-- The two tests of a reason, where nothing else keeps an entry. -/
theorem sameSelection_probe (limits : CacheLimits) (hdefault : filter.isDefault = false)
    (hdays : WholeDays filter) (hnow : InUtc (now * milliNanos))
    (hcreated : InUtc (created * milliNanos)) (hwindow : filter.InWindow now created)
    (h : SameSelection limits filter now) (reason : Option EmptyReason) :
    (filter.arrived.NamesPredicate ∧ (filter.reasonParts ≠ [] →
      ∃ found, reason = some found ∧ found.clamped ∈ filter.reasonParts)) ↔
    filter.Reachable now ∧ (filter.emptyReason ≠ [] →
      ∃ found, reason = some found ∧ ∃ want ∈ filter.emptyReason, want.clamped = found.clamped) := by
  have hsame := (sameSelection_iff limits hdefault hdays).mp h (probe filter reason) created _
    hcreated (probeRow_of _ _)
  rw [arrived_matches_iff hdays hnow hcreated (probeRow_of _ _),
    diskAccepts_iff hdays hnow hcreated, matchesEntry_iff] at hsame
  constructor
  · rintro ⟨hnames, hreason⟩
    obtain ⟨-, hreach, hwant, -⟩ :=
      hsame.mp ⟨hnames, hwindow, hreason, probe_model reason, probe_kind reason⟩
    exact ⟨hreach, hwant⟩
  · rintro ⟨hreach, hwant⟩
    obtain ⟨hnames, -, hreason, -⟩ :=
      hsame.mpr ⟨hwindow, hreach, hwant, probe_model reason, probe_kind reason⟩
    exact ⟨hnames, hreason⟩

/-- **Both tiers select the same entries** just where the filter says the same on its way. -/
theorem remote_same_iff (limits : CacheLimits) (filter : PurgeFilter) (now : ℤ)
    (hdefault : filter.isDefault = false) (hdays : WholeDays filter)
    (hnow : InUtc (now * milliNanos)) :
    SameSelection limits filter now ↔ filter.Travels now := by
  constructor
  · intro h
    by_cases hempty : ∀ created, InUtc (created * milliNanos) → ¬ filter.InWindow now created
    · exact .inl hempty
    simp only [not_forall, not_not] at hempty
    obtain ⟨created, hcreated, hwindow⟩ := hempty
    have hprobe := sameSelection_probe limits hdefault hdays hnow hcreated hwindow h
    by_cases hreach : filter.Reachable now
    · refine .inr (.inl ⟨hreach, fun reason hstorable => ?_⟩)
      by_cases hnone : filter.emptyReason = []
      · rw [reasonParts_nil hnone, hnone]
        exact iff_of_false List.not_mem_nil fun ⟨_, hmem, _⟩ => List.not_mem_nil hmem
      -- without a part the server would not look at the reason, and the disk would
      have hparts : filter.reasonParts ≠ [] := by
        intro hnil
        obtain ⟨want, hwant⟩ := List.exists_mem_of_ne_nil _ hnone
        obtain ⟨hnames, -⟩ := (hprobe (some want)).mpr
          ⟨hreach, fun _ => ⟨want, rfl, want, hwant, rfl⟩⟩
        obtain ⟨-, hreason⟩ := (hprobe none).mp ⟨hnames, fun hne => absurd hnil hne⟩
        obtain ⟨_, himpossible, -⟩ := hreason hnone
        cases himpossible
      have hnames := arrived_names hdefault fun _ => hparts
      have hsame := hprobe (some ⟨reason⟩)
      constructor
      · intro hmem
        obtain ⟨-, hwant⟩ := hsame.mp
          ⟨hnames, fun _ => ⟨⟨reason⟩, rfl, by rwa [hstorable]⟩⟩
        obtain ⟨found, hfound, want, hwant, heq⟩ := hwant hnone
        cases hfound
        exact ⟨want, hwant, heq.trans hstorable⟩
      · rintro ⟨want, hwant, heq⟩
        obtain ⟨-, hreason⟩ := hsame.mpr
          ⟨hreach, fun _ => ⟨⟨reason⟩, rfl, want, hwant, heq.trans hstorable.symm⟩⟩
        obtain ⟨found, hfound, hmem⟩ := hreason hparts
        cases hfound
        rwa [hstorable] at hmem
    · refine .inr (.inr ⟨hreach, fun hnil => ?_, fun part hpart hstorable => ?_⟩)
      · have hnewer : filter.newerThan ≠ none := fun hnone =>
          hreach fun d hd => by rw [hnone] at hd; cases hd
        have hnames := arrived_names_iff.mpr (.inr (.inl hnewer))
        exact hreach ((hprobe none).mp ⟨hnames, fun hne => absurd hnil hne⟩).1
      · have hnames := arrived_names hdefault fun _ => List.ne_nil_of_mem hpart
        exact hreach ((hprobe (some ⟨part⟩)).mp
          ⟨hnames, fun _ => ⟨⟨part⟩, rfl, by rwa [hstorable]⟩⟩).1
  · intro h
    refine (sameSelection_iff limits hdefault hdays).mpr fun entry created row hcreated hrow => ?_
    rw [arrived_matches_iff hdays hnow hcreated hrow, diskAccepts_iff hdays hnow hcreated,
      matchesEntry_iff]
    obtain hempty | ⟨hreach, hsurvive⟩ | ⟨hunreach, hparts, hunstorable⟩ := h
    · exact iff_of_false (fun h => hempty created hcreated h.2.1)
        fun h => hempty created hcreated h.1
    · have hnames := arrived_names hdefault hsurvive.parts_ne
      have hreason : (filter.reasonParts ≠ [] → ∃ found, entry.emptyReason = some found ∧
          found.clamped ∈ filter.reasonParts) ↔ (filter.emptyReason ≠ [] →
          ∃ found, entry.emptyReason = some found ∧
            ∃ want ∈ filter.emptyReason, want.clamped = found.clamped) := by
        have hne : filter.reasonParts ≠ [] ↔ filter.emptyReason ≠ [] :=
          ⟨mt reasonParts_nil, hsurvive.parts_ne⟩
        rw [hne]
        exact imp_congr_right fun _ => exists_congr fun found =>
          and_congr_right fun _ => hsurvive _ (storable_clamped found)
      rw [hreason, and_iff_right hnames, and_iff_right hreach]
    · refine iff_of_false ?_ fun h => hunreach h.2.1
      rintro ⟨-, -, hreason, -⟩
      obtain ⟨found, -, hmem⟩ := hreason hparts
      exact hunstorable _ hmem (storable_clamped found)

end

/-! ### A filter that travels, and one that does not -/

/-- Refusals of one model, older than a month. -/
def refusalFilter : PurgeFilter where
  olderThan := some (30 * dayNanos)
  newerThan := none
  emptyReason := [⟨"refusal"⟩]
  model := some "m"
  kind := none

/-- A blank reason, as a script gives it that interpolates a variable. -/
def blankFilter : PurgeFilter where
  olderThan := some (30 * dayNanos)
  newerThan := none
  emptyReason := [⟨" "⟩]
  model := none
  kind := none

theorem wholeDays_thirty {filter : PurgeFilter} (holder : filter.olderThan = some (30 * dayNanos))
    (hnewer : filter.newerThan = none) : WholeDays filter := by
  rintro d (hd | hd)
  · rw [holder] at hd
    cases hd
    exact ⟨30, rfl, by decide⟩
  · rw [hnewer] at hd
    cases hd

theorem refusal_travels : refusalFilter.Travels 0 := by
  have hparts : refusalFilter.reasonParts = ["refusal"] := by decide +kernel
  have hclamped : (EmptyReason.mk "refusal").clamped = "refusal" := by decide +kernel
  refine .inr (.inl ⟨fun d hd => (by cases hd), fun reason _ => ?_⟩)
  rw [hparts]
  simp only [refusalFilter, List.mem_singleton, exists_eq_left, hclamped, eq_comm]

def monthLimits : CacheLimits := ⟨1000000, 30, by decide, by decide⟩

/-- Both tiers remove the same refusals. -/
theorem refusal_same : refusalFilter.isDefault = false ∧
    SameSelection monthLimits refusalFilter 0 :=
  ⟨rfl, (remote_same_iff monthLimits refusalFilter 0 rfl (wholeDays_thirty rfl rfl)
    (by decide)).mpr refusal_travels⟩

/-- An entry that recorded no reason, stored a month and a day ago. -/
def answered : StoredEntry := ⟨CacheEntry.ofOutput (.text "yes") none, 0⟩

def answeredAt : ℤ := -31 * 86400000

def answeredCache : CacheTables where
  entries := [probeRow answered answeredAt]
  fts := []
  hits := 0
  misses := 0
  entryKey := List.nodup_singleton _
  rowidKey := List.nodup_singleton _
  ftsKey := List.nodup_nil

/-- **A blank reason widens the purge of a server**: an entry goes that the disk keeps. -/
theorem blank_reason_widens : blankFilter.isDefault = false ∧ WholeDays blankFilter ∧
    (∃ t' pruned, remotePurge monthLimits blankFilter answeredCache 0 .stable =
      some (t', pruned) ∧ probeRow answered answeredAt ∉ t'.entries) ∧
    ¬ DiskAccepts 0 blankFilter answered.toCacheEntry answeredAt ∧
    ¬ SameSelection monthLimits blankFilter 0 := by
  have hdays : WholeDays blankFilter := wholeDays_thirty rfl rfl
  have hparts : blankFilter.reasonParts = [] := by decide +kernel
  have hnow : InUtc (0 * milliNanos) := by decide
  have hstored : InUtc (answeredAt * milliNanos) := by decide
  have hmem : probeRow answered answeredAt ∈ answeredCache.entries := List.mem_singleton_self _
  have hwindow : blankFilter.InWindow 0 answeredAt := by
    refine ⟨fun d hd => ?_, fun d hd => by cases hd⟩
    cases hd
    decide
  have hmatches : blankFilter.arrived.Matches 0 (probeRow answered answeredAt) := by
    rw [arrived_matches_iff hdays hnow hstored (probeRow_of _ _), arrived_names_iff]
    refine ⟨.inl (Option.some_ne_none _), hwindow, fun hne => absurd hparts hne,
      fun _ h => (by cases h), fun _ h => by cases h⟩
  have hrefused : ¬ DiskAccepts 0 blankFilter answered.toCacheEntry answeredAt := by
    rw [diskAccepts_iff hdays hnow hstored, matchesEntry_iff]
    rintro ⟨-, -, hreason, -⟩
    obtain ⟨_, himpossible, -⟩ := hreason (List.cons_ne_nil _ _)
    cases himpossible
  obtain ⟨t', pruned, hpurge, hdeleted⟩ :=
    remotePurge_deletes rfl hdays monthLimits hmem 0 .stable
  refine ⟨rfl, hdays, ⟨t', pruned, hpurge, hdeleted.mpr hmatches⟩, hrefused, fun hsame => ?_⟩
  exact hrefused (((sameSelection_iff monthLimits rfl hdays).mp hsame _ _ _ hstored
    (probeRow_of _ _)).mp hmatches)
