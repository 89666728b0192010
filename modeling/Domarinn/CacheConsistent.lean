/-
What holds of the cache tables, transaction by transaction.

An indexed row carries the columns of its own body and one search row of its own text.  Only a
row that a build before migration 3 indexed may be otherwise: it stays as that build left it
until the re-index pass reaches it, and for good when this build cannot read its body.

* **`PendingKept`** — a pending row after a transaction is a pending row from before it;
* **`CacheConsistent`** — the rows, one by one, and no search row without an entry;
* **`stampRows_consistent`** — a batch keeps it, when what it holds was derived from the bodies
  that the rows still pending have.
-/
import Domarinn.CacheTable

open CacheTables

/-! ### Pending rows -/

/-- Pending rows are old rows, and as they were. -/
structure PendingKept (t t' : CacheTables) : Prop where
  index : ∀ e ∈ t'.entries, e.indexedAt = none →
    ∃ e₀ ∈ t.entries, e₀.rowid = e.rowid ∧ e₀.body = e.body ∧ e₀.indexedAt = none
  reindex : ∀ e ∈ t'.entries, e.reindexedAt = none →
    ∃ e₀ ∈ t.entries, e₀.rowid = e.rowid ∧ e₀.body = e.body ∧ e₀.reindexedAt = none ∧
      e₀.indexedAt = e.indexedAt ∧ e₀.indexOk = e.indexOk

theorem PendingKept.refl (t : CacheTables) : PendingKept t t :=
  ⟨fun e he h => ⟨e, he, rfl, rfl, h⟩, fun e he h => ⟨e, he, rfl, rfl, h, rfl, rfl⟩⟩

theorem PendingKept.trans {t t' t'' : CacheTables} (h : PendingKept t t')
    (h' : PendingKept t' t'') : PendingKept t t'' := by
  refine ⟨fun e he hnone => ?_, fun e he hnone => ?_⟩
  · obtain ⟨e', he', hrowid', hbody', hnone'⟩ := h'.index e he hnone
    obtain ⟨e₀, he₀, hrowid, hbody, hnone₀⟩ := h.index e' he' hnone'
    exact ⟨e₀, he₀, hrowid.trans hrowid', hbody.trans hbody', hnone₀⟩
  · obtain ⟨e', he', hrowid', hbody', hnone', hindexed', hok'⟩ := h'.reindex e he hnone
    obtain ⟨e₀, he₀, hrowid, hbody, hnone₀, hindexed, hok⟩ := h.reindex e' he' hnone'
    exact ⟨e₀, he₀, hrowid.trans hrowid', hbody.trans hbody', hnone₀, hindexed.trans hindexed',
      hok.trans hok'⟩

/-- An update that makes no row pending. -/
structure KeepsPending (set : RowStatus → RowStatus) : Prop where
  index : ∀ s, (set s).indexedAt = none → s.indexedAt = none
  reindex : ∀ s, (set s).reindexedAt = none →
    s.reindexedAt = none ∧ s.indexedAt = (set s).indexedAt ∧ s.indexOk = (set s).indexOk

section
variable {t : CacheTables} {e : CacheRow} {p : CacheRow → Bool} {set : RowStatus → RowStatus}

/-- The rows after an update. -/
theorem mem_entries_update (h : e ∈ (t.update p set).entries) :
    (e ∈ t.entries ∧ p e = false) ∨
      ∃ e₀ ∈ t.entries, p e₀ = true ∧ e = { e₀ with toRowStatus := set e₀.toRowStatus } := by
  obtain ⟨e₀, he₀, rfl⟩ := List.mem_map.mp h
  by_cases hp : p e₀
  · rw [if_pos hp]
    exact .inr ⟨e₀, he₀, hp, rfl⟩
  · rw [if_neg hp]
    exact .inl ⟨he₀, Bool.eq_false_iff.mpr hp⟩

/-- An update keeps the row ids. -/
theorem exists_entries_update (p : CacheRow → Bool) (set : RowStatus → RowStatus)
    (he : e ∈ t.entries) :
    ∃ e' ∈ (t.update p set).entries, e'.rowid = e.rowid := by
  refine ⟨_, List.mem_map.mpr ⟨e, he, rfl⟩, ?_⟩
  split <;> rfl

theorem pendingKept_update (hset : KeepsPending set) : PendingKept t (t.update p set) := by
  refine ⟨fun e he hnone => ?_, fun e he hnone => ?_⟩
  · obtain ⟨he, -⟩ | ⟨e₀, he₀, -, rfl⟩ := mem_entries_update he
    · exact ⟨e, he, rfl, rfl, hnone⟩
    · exact ⟨e₀, he₀, rfl, rfl, hset.index _ hnone⟩
  · obtain ⟨he, -⟩ | ⟨e₀, he₀, -, rfl⟩ := mem_entries_update he
    · exact ⟨e, he, rfl, rfl, hnone, rfl, rfl⟩
    · obtain ⟨hnone₀, hindexed, hok⟩ := hset.reindex _ hnone
      exact ⟨e₀, he₀, rfl, rfl, hnone₀, hindexed, hok⟩

/-- Fewer rows. -/
theorem pendingKept_subset {t' : CacheTables} (h : ∀ e ∈ t'.entries, e ∈ t.entries) :
    PendingKept t t' :=
  ⟨fun e he hnone => ⟨e, h e he, rfl, rfl, hnone⟩,
    fun e he hnone => ⟨e, h e he, rfl, rfl, hnone, rfl, rfl⟩⟩

theorem mem_entries_deleteWhere : e ∈ (t.deleteWhere p).entries ↔ e ∈ t.entries ∧ p e = false := by
  rw [deleteWhere, List.mem_filter]
  simp

@[simp] theorem entries_insertFts? (rowid : ℤ) (index : Option EntryIndex) :
    (t.insertFts? rowid index).entries = t.entries := by
  cases index <;> rfl

theorem keepsPending_access (now : ℤ) : KeepsPending fun s => { s with lastAccessAt := now } :=
  ⟨fun _ h => h, fun _ h => ⟨h, rfl, rfl⟩⟩

theorem keepsPending_set (pass : IndexPass) (now : ℤ) (index : Option EntryIndex) :
    KeepsPending (pass.set now index) := by
  cases pass with
  | index => exact ⟨fun _ h => (by cases h), fun _ h => (by cases h)⟩
  | reindex => cases index <;> exact ⟨fun _ h => h, fun _ h => (by cases h)⟩

end

/-- What an eviction does: some entries are deleted. -/
theorem evict_cases (target : ℤ) (victims : List CacheRow) :
    ∀ (total : ℤ) (t : CacheTables) (pruned : ℕ) {P : CacheTables → Prop},
      (∀ (t : CacheTables) (p : CacheRow → Bool), P t → P (t.deleteWhere p)) → P t →
        P (evict target victims total t pruned).1 := by
  induction victims with
  | nil => exact fun _ _ _ _ _ ht => ht
  | cons e victims ih =>
    intro total t pruned P hdelete ht
    rw [evict]
    split
    · exact ht
    · exact ih _ _ _ hdelete (hdelete _ _ ht)

/-- What every deletion keeps, a prune keeps. -/
theorem cachePrune_cases {P : CacheTables → Prop}
    (hdelete : ∀ (t : CacheTables) (p : CacheRow → Bool), P t → P (t.deleteWhere p))
    {t : CacheTables} (ht : P t) (filter : CachePruneFilter) (now : ℤ)
    (order : CacheTables → List CacheRow) : P (t.cachePrune filter now order).1 := by
  have hmatching : P (t.pruneMatching (prunePredicate filter now)).1 := by
    rw [pruneMatching]
    split
    · exact ht
    · exact hdelete _ _ ht
  rw [cachePrune]
  cases filter.targetBytes with
  | none => exact hmatching
  | some target => exact evict_cases _ _ _ _ _ hdelete hmatching

/-- What an update of the access time keeps, a read keeps. -/
theorem cacheGet_cases {P : CacheTables → Prop} {t : CacheTables} (key : String) (now : ℤ)
    (hcounters : ∀ (t : CacheTables) (hits misses : ℕ), P t → P { t with hits, misses })
    (haccess : P (t.update (fun e => e.key = key) fun s => { s with lastAccessAt := now }))
    (ht : P t) : P (t.cacheGet key now).1 := by
  rw [cacheGet]
  split
  · exact hcounters _ _ _ haccess
  · exact hcounters _ _ _ ht

/-- What a put does: nothing, or it adds one row and its search row. -/
theorem cachePut_cases {P : CacheTables → Prop} {t : CacheTables}
    {rowid : {r : ℤ // r ∉ t.rowids}} {key : String} {body : List UInt8}
    {index : Option EntryIndex} {now : ℤ} (hexists : key ∈ t.keys → P t)
    (hcreated : ∀ hkey : key ∉ t.keys, P ((t.insertRow (newRow rowid.1 key body index now) hkey
      rowid.2).insertFts? rowid.1 index)) : P (t.cachePut rowid key body index now).1 := by
  rw [cachePut]
  split
  · next hkey => exact hexists hkey
  · next hkey => exact hcreated hkey

section
variable {t : CacheTables} {e : CacheRow}

theorem mem_entries_insertRow {row : CacheRow} {hkey : row.key ∉ t.keys}
    {hrowid : row.rowid ∉ t.rowids} :
    e ∈ (t.insertRow row hkey hrowid).entries ↔ e ∈ t.entries ∨ e = row := by
  rw [insertRow, List.mem_append, List.mem_singleton]

/-! ### Every transaction keeps pending rows -/

theorem pendingKept_get (key : String) (now : ℤ) : PendingKept t (t.cacheGet key now).1 :=
  cacheGet_cases key now (fun _ _ _ h => ⟨h.index, h.reindex⟩)
    (pendingKept_update (keepsPending_access now)) (.refl t)

theorem pendingKept_deleteWhere (p : CacheRow → Bool) : PendingKept t (t.deleteWhere p) :=
  pendingKept_subset fun _ he => (mem_entries_deleteWhere.mp he).1

theorem pendingKept_prune (filter : CachePruneFilter) (now : ℤ)
    (order : CacheTables → List CacheRow) : PendingKept t (t.cachePrune filter now order).1 :=
  cachePrune_cases (fun _ p h => h.trans (pendingKept_deleteWhere p)) (.refl t) filter now order

/-- A put stamps its row. -/
theorem pendingKept_put (rowid : {r : ℤ // r ∉ t.rowids}) (key : String) (body : List UInt8)
    (index : Option EntryIndex) (now : ℤ) :
    PendingKept t (t.cachePut rowid key body index now).1 := by
  refine cachePut_cases (fun _ => .refl t) fun hkey => ?_
  refine ⟨fun e he hnone => ?_, fun e he hnone => ?_⟩
  · rw [entries_insertFts?] at he
    obtain he | rfl := mem_entries_insertRow.mp he
    · exact ⟨e, he, rfl, rfl, hnone⟩
    · cases hnone
  · rw [entries_insertFts?] at he
    obtain he | rfl := mem_entries_insertRow.mp he
    · exact ⟨e, he, rfl, rfl, hnone, rfl, rfl⟩
    · cases hnone

/-- What one row of a batch does: nothing, or it stamps the row and replaces its search row. -/
theorem stampRow_cases {P : CacheTables × ℕ → Prop} {pass : IndexPass} {now : ℤ} {d : Derived}
    (hnone : P (t, 0))
    (hstamped : ∀ e ∈ t.entries, e.rowid = d.rowid → pass.pending e.toRowStatus = true →
      P ((t.update (pass.awaits d.rowid) (pass.set now d.index)).insertFts? d.rowid d.index, 1)) :
    P (t.stampRow pass now d) := by
  rw [stampRow]
  split
  · next hany =>
    obtain ⟨e, he, hawaits⟩ := List.any_eq_true.mp hany
    rw [IndexPass.awaits, Bool.and_eq_true, decide_eq_true_eq] at hawaits
    exact hstamped e he hawaits.1 hawaits.2
  · exact hnone

theorem pendingKept_stampRow (pass : IndexPass) (now : ℤ) (d : Derived) :
    PendingKept t (t.stampRow pass now d).1 := by
  refine stampRow_cases (P := fun r => PendingKept t r.1) (.refl t) fun _ _ _ _ => ?_
  have h : PendingKept t (t.update (pass.awaits d.rowid) (pass.set now d.index)) :=
    pendingKept_update (keepsPending_set pass now d.index)
  refine ⟨fun e he hnone => h.index e ?_ hnone, fun e he hnone => h.reindex e ?_ hnone⟩
  · rwa [entries_insertFts?] at he
  · rwa [entries_insertFts?] at he

theorem pendingKept_stampRows (pass : IndexPass) (now : ℤ) (derived : List Derived) :
    ∀ t : CacheTables, PendingKept t (stampRows pass now derived t).1 := by
  induction derived with
  | nil => exact fun t => .refl t
  | cons d derived ih => exact fun t => (pendingKept_stampRow pass now d).trans (ih _)

end

/-! ### Search rows -/

section
variable {t : CacheTables} {e : CacheRow}

@[simp] theorem searchRows_update (p : CacheRow → Bool) (set : RowStatus → RowStatus) (rowid : ℤ) :
    (t.update p set).searchRows rowid = t.searchRows rowid := rfl

/-- An entry that stays keeps its search row. -/
theorem searchRows_deleteWhere {p : CacheRow → Bool} (he : e ∈ t.entries) (hp : p e = false) :
    (t.deleteWhere p).searchRows e.rowid = t.searchRows e.rowid := by
  rw [searchRows, searchRows, deleteWhere, List.filter_filter]
  refine List.filter_congr fun f hf => ?_
  by_cases hrowid : f.rowid = e.rowid
  · have hany : (t.entries.any fun e' => p e' && decide (e'.rowid = f.rowid)) = false := by
      rw [List.any_eq_false]
      intro e' he' hdeleted
      rw [Bool.and_eq_true, decide_eq_true_eq] at hdeleted
      rw [eq_of_rowid he' he (hdeleted.2.trans hrowid), hp] at hdeleted
      cases hdeleted.1
    rw [hany]
    simp [hrowid]
  · simp [hrowid]

theorem searchRows_insertFts (rowid : ℤ) (index : EntryIndex) :
    (t.insertFts rowid index).searchRows rowid =
      [⟨rowid, index.ftsRequest, index.ftsOutput⟩] := by
  rw [searchRows, insertFts, List.filter_append, List.filter_filter]
  have hold : (t.fts.filter fun f => decide (f.rowid = rowid) && decide (f.rowid ≠ rowid)) = [] := by
    rw [List.filter_eq_nil_iff]
    intro f _ hf
    simp at hf
  rw [hold]
  simp

theorem searchRows_insertFts_of_ne {rowid rowid' : ℤ} (index : EntryIndex) (h : rowid' ≠ rowid) :
    (t.insertFts rowid index).searchRows rowid' = t.searchRows rowid' := by
  rw [searchRows, searchRows, insertFts, List.filter_append, List.filter_filter]
  have hnew : [(⟨rowid, index.ftsRequest, index.ftsOutput⟩ : CacheFtsRow)].filter
      (fun f => decide (f.rowid = rowid')) = [] := by
    simp [Ne.symm h]
  rw [hnew, List.append_nil]
  refine List.filter_congr fun f _ => ?_
  by_cases hf : f.rowid = rowid'
  · simp [hf, h]
  · simp [hf]

theorem searchRows_insertFts? {rowid rowid' : ℤ} (index : Option EntryIndex) (h : rowid' ≠ rowid) :
    (t.insertFts? rowid index).searchRows rowid' = t.searchRows rowid' := by
  cases index with
  | none => rfl
  | some index => exact searchRows_insertFts_of_ne index h

/-- A new search row is of the row id that it was inserted for. -/
theorem mem_fts_insertFts? {rowid : ℤ} {index : Option EntryIndex} {f : CacheFtsRow}
    (h : f ∈ (t.insertFts? rowid index).fts) : f ∈ t.fts ∨ f.rowid = rowid ∧ index.isSome := by
  cases index with
  | none => exact .inl h
  | some index =>
    obtain h | h := List.mem_append.mp h
    · exact .inl (List.mem_of_mem_filter h)
    · rw [List.mem_singleton.mp h]
      exact .inr ⟨rfl, rfl⟩

end

/-! ### Consistent tables -/

section
variable (derive : List UInt8 → Option EntryIndex)

/-- The row carries the columns of its own body, and one search row of its own text. -/
def Described (t : CacheTables) (e : CacheRow) : Prop :=
  ∃ index, derive e.body = some index ∧ e.columns = index.toIndexColumns ∧
    t.searchRows e.rowid = [⟨e.rowid, index.ftsRequest, index.ftsOutput⟩]

/-- A build before migration 3 had indexed the row at the start, and its columns are still that
build's. -/
def OlderBuild (t₀ : CacheTables) (e : CacheRow) : Prop :=
  ∃ e₀ ∈ t₀.entries, e₀.reindexedAt = none ∧ e₀.indexOk = some 1 ∧ e₀.rowid = e.rowid ∧
    e₀.key = e.key ∧ e₀.body = e.body ∧ e₀.columns = e.columns

/-- How far a row got. -/
inductive RowKind (t₀ t : CacheTables) (e : CacheRow) : Prop where
  | unseen (hindexed : e.indexedAt = none) (hreindexed : e.reindexedAt = none)
      (hok : e.indexOk ≠ some 1) (hsearch : t.searchRows e.rowid = [])
  | unreadable (hindexed : e.indexedAt ≠ none) (hok : e.indexOk ≠ some 1)
      (hsearch : t.searchRows e.rowid = [])
  | older (hindexed : e.indexedAt ≠ none) (hreindexed : e.reindexedAt = none)
      (hok : e.indexOk = some 1) (hsearch : (t.searchRows e.rowid).length = 1)
      (holder : OlderBuild t₀ e)
  | kept (hindexed : e.indexedAt ≠ none) (hreindexed : e.reindexedAt ≠ none)
      (hok : e.indexOk = some 1) (hbody : derive e.body = none)
      (hsearch : (t.searchRows e.rowid).length = 1) (holder : OlderBuild t₀ e)
  | described (hindexed : e.indexedAt ≠ none) (hreindexed : e.reindexedAt ≠ none)
      (hok : e.indexOk = some 1) (hdescribed : Described derive t e)

/-- What holds of the tables, in a run from `t₀`. -/
structure CacheConsistent (t₀ t : CacheTables) : Prop where
  rows : ∀ e ∈ t.entries, RowKind derive t₀ t e
  search : ∀ f ∈ t.fts, ∃ e ∈ t.entries, e.rowid = f.rowid

/-- What a batch holds fits the rows that are still pending. -/
def DerivedOk (t : CacheTables) : IndexPass → Derived → Prop
  | .index, d => ∀ e ∈ t.entries, e.rowid = d.rowid → e.indexedAt = none → derive e.body = d.index
  | .reindex, d => ∀ e ∈ t.entries, e.rowid = d.rowid → e.reindexedAt = none →
    e.indexedAt ≠ none ∧ (e.indexOk = some 1 → derive e.body = d.index) ∧
      (d.index ≠ none → e.indexOk = some 1)

end

section
variable {derive : List UInt8 → Option EntryIndex} {t₀ t t' : CacheTables} {e : CacheRow}

theorem DerivedOk.kept {pass : IndexPass} {d : Derived} (h : DerivedOk derive t pass d)
    (hkept : PendingKept t t') : DerivedOk derive t' pass d := by
  cases pass with
  | index =>
    intro e he hrowid hnone
    obtain ⟨e₀, he₀, hrowid₀, hbody, hnone₀⟩ := hkept.index e he hnone
    rw [← hbody]
    exact h e₀ he₀ (hrowid₀.trans hrowid) hnone₀
  | reindex =>
    intro e he hrowid hnone
    obtain ⟨e₀, he₀, hrowid₀, hbody, hnone₀, hindexed, hok⟩ := hkept.reindex e he hnone
    rw [← hbody, ← hindexed, ← hok]
    exact h e₀ he₀ (hrowid₀.trans hrowid) hnone₀

/-- A row does not depend on the other rows, nor on when it was read last. -/
theorem RowKind.move (h : RowKind derive t₀ t e) (now : ℤ)
    (hsearch : t'.searchRows e.rowid = t.searchRows e.rowid) :
    RowKind derive t₀ t' { e with lastAccessAt := now } := by
  cases h with
  | unseen hindexed hreindexed hok hempty =>
    exact .unseen hindexed hreindexed hok (hsearch.trans hempty)
  | unreadable hindexed hok hempty => exact .unreadable hindexed hok (hsearch.trans hempty)
  | older hindexed hreindexed hok hone holder =>
    exact .older hindexed hreindexed hok ((congrArg List.length hsearch).trans hone) holder
  | kept hindexed hreindexed hok hbody hone holder =>
    exact .kept hindexed hreindexed hok hbody ((congrArg List.length hsearch).trans hone) holder
  | described hindexed hreindexed hok hdescribed =>
    obtain ⟨index, hbody, hcolumns, htext⟩ := hdescribed
    exact .described hindexed hreindexed hok ⟨index, hbody, hcolumns, hsearch.trans htext⟩

theorem RowKind.same (h : RowKind derive t₀ t e)
    (hsearch : t'.searchRows e.rowid = t.searchRows e.rowid) : RowKind derive t₀ t' e :=
  h.move e.lastAccessAt hsearch

theorem CacheConsistent.get (h : CacheConsistent derive t₀ t) (key : String) (now : ℤ) :
    CacheConsistent derive t₀ (t.cacheGet key now).1 := by
  refine cacheGet_cases key now (fun _ _ _ h => ⟨fun e he => (h.rows e he).same rfl, h.search⟩) ?_ h
  refine ⟨fun e he => ?_, fun f hf => ?_⟩
  · obtain ⟨he, -⟩ | ⟨e₀, he₀, -, rfl⟩ := mem_entries_update he
    · exact (h.rows e he).same rfl
    · exact (h.rows e₀ he₀).move now rfl
  · obtain ⟨e, he, hrowid⟩ := h.search f hf
    obtain ⟨e', he', hrowid'⟩ := exists_entries_update (fun e => decide (e.key = key))
      (fun s => { s with lastAccessAt := now }) he
    exact ⟨e', he', hrowid'.trans hrowid⟩

theorem CacheConsistent.deleteWhere (h : CacheConsistent derive t₀ t) (p : CacheRow → Bool) :
    CacheConsistent derive t₀ (t.deleteWhere p) := by
  refine ⟨fun e he => ?_, fun f hf => ?_⟩
  · obtain ⟨he, hp⟩ := mem_entries_deleteWhere.mp he
    exact (h.rows e he).same (searchRows_deleteWhere he hp)
  · -- the trigger has deleted the search rows of deleted entries
    obtain ⟨hf, hany⟩ := List.mem_filter.mp hf
    obtain ⟨e, he, hrowid⟩ := h.search f hf
    refine ⟨e, mem_entries_deleteWhere.mpr ⟨he, ?_⟩, hrowid⟩
    rw [Bool.not_eq_true', List.any_eq_false] at hany
    have hkept := hany e he
    simpa [hrowid] using hkept

theorem CacheConsistent.prune (h : CacheConsistent derive t₀ t) (filter : CachePruneFilter)
    (now : ℤ) (order : CacheTables → List CacheRow) :
    CacheConsistent derive t₀ (t.cachePrune filter now order).1 :=
  cachePrune_cases (fun _ p h => h.deleteWhere p) h filter now order

/-- A row id that is free has no search row. -/
theorem CacheConsistent.searchRows_free (h : CacheConsistent derive t₀ t) {rowid : ℤ}
    (hfree : rowid ∉ t.rowids) : t.searchRows rowid = [] := by
  rw [searchRows, List.filter_eq_nil_iff]
  intro f hf hrowid
  obtain ⟨e, he, hsame⟩ := h.search f hf
  exact hfree (List.mem_map.mpr ⟨e, he, hsame.trans (of_decide_eq_true hrowid)⟩)

theorem CacheConsistent.put (h : CacheConsistent derive t₀ t) (rowid : {r : ℤ // r ∉ t.rowids})
    (key : String) (body : List UInt8) (now : ℤ) :
    CacheConsistent derive t₀ (t.cachePut rowid key body (derive body) now).1 := by
  refine cachePut_cases (fun _ => h) fun hkey => ?_
  have hempty : t.searchRows rowid.1 = [] := h.searchRows_free rowid.2
  refine ⟨fun e he => ?_, fun f hf => ?_⟩
  · rw [entries_insertFts?] at he
    obtain he | rfl := mem_entries_insertRow.mp he
    · have hne : e.rowid ≠ rowid.1 := fun hsame => rowid.2 (List.mem_map.mpr ⟨e, he, hsame⟩)
      exact (h.rows e he).same (searchRows_insertFts? _ hne)
    · -- the new row
      cases hindex : derive body with
      | none => exact .unreadable (by simp [newRow, looked]) (by simp [newRow, looked]) hempty
      | some index =>
        exact .described (by simp [newRow, looked]) (by simp [newRow, looked]) rfl
          ⟨index, hindex, rfl, searchRows_insertFts _ _⟩
  · obtain hf | ⟨hrowid, -⟩ := mem_fts_insertFts? hf
    · obtain ⟨e, he, hsame⟩ := h.search f hf
      refine ⟨e, ?_, hsame⟩
      rw [entries_insertFts?]
      exact mem_entries_insertRow.mpr (.inl he)
    · refine ⟨newRow rowid.1 key body (derive body) now, ?_, hrowid.symm⟩
      rw [entries_insertFts?]
      exact mem_entries_insertRow.mpr (.inr rfl)

/-- The row that a pass has stamped. -/
theorem RowKind.stamped (h : RowKind derive t₀ t e) {pass : IndexPass} {now : ℤ} {d : Derived}
    (he : e ∈ t.entries) (hrowid : e.rowid = d.rowid)
    (hpending : pass.pending e.toRowStatus = true) (hd : DerivedOk derive t pass d) :
    RowKind derive t₀
      ((t.update (pass.awaits d.rowid) (pass.set now d.index)).insertFts? d.rowid d.index)
      { e with toRowStatus := pass.set now d.index e.toRowStatus } := by
  cases pass with
  | index =>
    have hnone : e.indexedAt = none := Option.isNone_iff_eq_none.mp hpending
    have hderived := hd e he hrowid hnone
    -- nothing has looked at it, so it has no search row
    have hempty : t.searchRows e.rowid = [] := by
      cases h with
      | unseen _ _ _ hsearch => exact hsearch
      | unreadable hindexed _ _ => exact absurd hnone hindexed
      | older hindexed _ _ _ _ => exact absurd hnone hindexed
      | kept hindexed _ _ _ _ _ => exact absurd hnone hindexed
      | described hindexed _ _ _ => exact absurd hnone hindexed
    cases hindex : d.index with
    | none =>
      exact .unreadable (by simp [IndexPass.set, looked]) (by simp [IndexPass.set, looked]) hempty
    | some index =>
      rw [hindex] at hderived
      refine .described (by simp [IndexPass.set, looked]) (by simp [IndexPass.set, looked]) rfl
        ⟨index, hderived, rfl, ?_⟩
      rw [← hrowid]
      exact searchRows_insertFts _ _
  | reindex =>
    have hnone : e.reindexedAt = none := Option.isNone_iff_eq_none.mp hpending
    obtain ⟨hindexed, hread, hverdict⟩ := hd e he hrowid hnone
    have hstamp : ∀ index, (IndexPass.reindex.set now index e.toRowStatus).reindexedAt ≠ none ∧
        (IndexPass.reindex.set now index e.toRowStatus).indexedAt = e.indexedAt ∧
        (IndexPass.reindex.set now index e.toRowStatus).indexOk = e.indexOk := by
      intro index
      cases index <;> exact ⟨by simp [IndexPass.set], rfl, rfl⟩
    obtain ⟨hreindexed, hindexedAt, hindexOk⟩ := hstamp d.index
    cases h with
    | unseen hunseen _ _ _ => exact absurd hunseen hindexed
    | unreadable _ hok hsearch =>
      have hindex : d.index = none := by
        by_contra hne
        exact hok (hverdict hne)
      refine .unreadable (hindexedAt ▸ hindexed) (hindexOk ▸ hok) ?_
      rw [hindex]
      exact hsearch
    | older _ _ hok hsearch holder =>
      have hderived := hread hok
      cases hindex : d.index with
      | none =>
        rw [hindex] at hderived
        exact .kept hindexed (by simp [IndexPass.set]) hok hderived hsearch holder
      | some index =>
        rw [hindex] at hderived
        refine .described hindexed (by simp [IndexPass.set]) hok ⟨index, hderived, rfl, ?_⟩
        rw [← hrowid]
        exact searchRows_insertFts _ _
    | kept _ hre _ _ _ _ => exact absurd hnone hre
    | described _ hre _ _ => exact absurd hnone hre

theorem CacheConsistent.stampRow (h : CacheConsistent derive t₀ t) {pass : IndexPass} {now : ℤ}
    {d : Derived} (hd : DerivedOk derive t pass d) :
    CacheConsistent derive t₀ (t.stampRow pass now d).1 := by
  refine stampRow_cases (P := fun r => CacheConsistent derive t₀ r.1) h fun e he hrowid hpending => ?_
  -- the rowid is a key, so the stamped row is the pending one
  have hawaits : ∀ e' ∈ t.entries, e'.rowid = d.rowid → e' = e := fun e' he' hrowid' =>
    eq_of_rowid he' he (hrowid'.trans hrowid.symm)
  refine ⟨fun e' he' => ?_, fun f hf => ?_⟩
  · rw [entries_insertFts?] at he'
    obtain ⟨he', hother⟩ | ⟨e₀, he₀, hself, rfl⟩ := mem_entries_update he'
    · have hne : e'.rowid ≠ d.rowid := by
        intro hsame
        rw [hawaits e' he' hsame, IndexPass.awaits, hpending, hrowid] at hother
        simp at hother
      exact (h.rows e' he').same (searchRows_insertFts? _ hne)
    · rw [IndexPass.awaits, Bool.and_eq_true, decide_eq_true_eq] at hself
      obtain rfl := hawaits e₀ he₀ hself.1
      exact (h.rows e₀ he₀).stamped he₀ hrowid hpending hd
  · have hentry : ∀ e' ∈ t.entries, ∃ e'' ∈ ((t.update (pass.awaits d.rowid)
        (pass.set now d.index)).insertFts? d.rowid d.index).entries, e''.rowid = e'.rowid := by
      intro e' he'
      rw [entries_insertFts?]
      exact exists_entries_update _ _ he'
    obtain hf | ⟨hnew, -⟩ := mem_fts_insertFts? hf
    · obtain ⟨e', he', hsame⟩ := h.search f hf
      obtain ⟨e'', he'', hsame'⟩ := hentry e' he'
      exact ⟨e'', he'', hsame'.trans hsame⟩
    · obtain ⟨e'', he'', hsame⟩ := hentry e he
      exact ⟨e'', he'', hsame.trans (hrowid.trans hnew.symm)⟩

/-- **A batch keeps the tables consistent**, when what it holds fits the rows still pending. -/
theorem stampRows_consistent {pass : IndexPass} {now : ℤ} {derived : List Derived} :
    ∀ {t : CacheTables}, CacheConsistent derive t₀ t → (∀ d ∈ derived, DerivedOk derive t pass d) →
      CacheConsistent derive t₀ (stampRows pass now derived t).1 := by
  induction derived with
  | nil => exact fun h _ => h
  | cons d derived ih =>
    intro t h hderived
    refine ih (h.stampRow (hderived d (.head _))) fun d' hd' => ?_
    exact (hderived d' (.tail _ hd')).kept (pendingKept_stampRow pass now d)

end

/-! ### Rows still pending -/

section
variable {derive : List UInt8 → Option EntryIndex} {t : CacheTables} {p : CacheRow → Bool}
  {set : RowStatus → RowStatus}

theorem remaining_update (hset : KeepsPending set) :
    (t.update p set).backfillRemaining ≤ t.backfillRemaining := by
  rw [backfillRemaining, backfillRemaining, update, List.countP_map]
  refine List.countP_mono_left fun e _ hpending => ?_
  rw [Function.comp_apply] at hpending
  split at hpending
  · rw [Bool.or_eq_true, Option.isNone_iff_eq_none, Option.isNone_iff_eq_none] at hpending ⊢
    exact hpending.imp (hset.index _) fun h => (hset.reindex _ h).1
  · exact hpending

theorem remaining_deleteWhere (p : CacheRow → Bool) :
    (t.deleteWhere p).backfillRemaining ≤ t.backfillRemaining :=
  List.filter_sublist.countP_le

@[simp] theorem remaining_insertFts? (rowid : ℤ) (index : Option EntryIndex) :
    (t.insertFts? rowid index).backfillRemaining = t.backfillRemaining := by
  rw [backfillRemaining, backfillRemaining, entries_insertFts?]

theorem remaining_get (key : String) (now : ℤ) :
    (t.cacheGet key now).1.backfillRemaining ≤ t.backfillRemaining :=
  cacheGet_cases (P := fun t' => t'.backfillRemaining ≤ t.backfillRemaining) key now
    (fun _ _ _ h => h) (remaining_update (keepsPending_access now)) le_rfl

theorem remaining_prune (filter : CachePruneFilter) (now : ℤ) (order : CacheTables → List CacheRow) :
    (t.cachePrune filter now order).1.backfillRemaining ≤ t.backfillRemaining :=
  cachePrune_cases (P := fun t' => t'.backfillRemaining ≤ t.backfillRemaining)
    (fun _ p h => (remaining_deleteWhere p).trans h) le_rfl filter now order

/-- A put leaves nothing to stamp. -/
theorem remaining_put (rowid : {r : ℤ // r ∉ t.rowids}) (key : String) (body : List UInt8)
    (index : Option EntryIndex) (now : ℤ) :
    (t.cachePut rowid key body index now).1.backfillRemaining ≤ t.backfillRemaining := by
  refine cachePut_cases (P := fun t' => t'.backfillRemaining ≤ t.backfillRemaining)
    (fun _ => le_rfl) fun hkey => ?_
  rw [remaining_insertFts?]
  show (t.entries ++ [_]).countP _ ≤ _
  rw [List.countP_append]
  exact le_of_eq (Nat.add_zero _)

/-- A stamped row is not pending any more. -/
theorem remaining_stampRow {pass : IndexPass} (now : ℤ) {d : Derived}
    (hd : DerivedOk derive t pass d) :
    (t.stampRow pass now d).2 + (t.stampRow pass now d).1.backfillRemaining ≤
      t.backfillRemaining := by
  refine stampRow_cases (P := fun r => r.2 + r.1.backfillRemaining ≤ t.backfillRemaining)
    (by simp) fun e he hrowid hpending => ?_
  let owed : CacheRow → Bool := fun e => e.indexedAt.isNone || e.reindexedAt.isNone
  have howed : ∀ e ∈ t.entries, pass.awaits d.rowid e = true → owed e = true ∧
      owed { e with toRowStatus := pass.set now d.index e.toRowStatus } = false := by
    intro e he hawaits
    rw [IndexPass.awaits, Bool.and_eq_true, decide_eq_true_eq] at hawaits
    obtain ⟨hrowid, hpending⟩ := hawaits
    cases pass with
    | index => exact ⟨by simp only [owed, Bool.or_eq_true]; exact .inl hpending, rfl⟩
    | reindex =>
      obtain ⟨hindexed, -, -⟩ := hd e he hrowid (Option.isNone_iff_eq_none.mp hpending)
      have hsome : e.indexedAt.isNone = false := by
        rwa [Bool.eq_false_iff, ne_eq, Option.isNone_iff_eq_none]
      refine ⟨by simp only [owed, Bool.or_eq_true]; exact .inr hpending, ?_⟩
      cases d.index <;> exact Bool.or_eq_false_iff.mpr ⟨hsome, rfl⟩
  -- the rows that the pass does not await, and those that it does
  have hafter : ((t.update (pass.awaits d.rowid) (pass.set now d.index)).entries.countP owed) ≤
      t.entries.countP fun e => owed e && !pass.awaits d.rowid e := by
    rw [update, List.countP_map]
    refine List.countP_mono_left fun e he hcounted => ?_
    rw [Function.comp_apply] at hcounted
    split at hcounted
    · next hawaits =>
      rw [(howed e he hawaits).2] at hcounted
      cases hcounted
    · next hawaits => simp [hcounted, hawaits]
  have hbefore : t.entries.countP owed =
      (t.entries.countP fun e => owed e && pass.awaits d.rowid e) +
      t.entries.countP fun e => owed e && !pass.awaits d.rowid e := by
    rw [List.countP_eq_countP_filter_add _ owed (pass.awaits d.rowid), List.countP_filter,
      List.countP_filter]
  have hone : 0 < t.entries.countP fun e => owed e && pass.awaits d.rowid e := by
    refine List.countP_pos_iff.mpr ⟨e, he, ?_⟩
    have hawaits : pass.awaits d.rowid e = true := by
      rw [IndexPass.awaits, hpending, hrowid]
      simp
    rw [Bool.and_eq_true]
    exact ⟨(howed e he hawaits).1, hawaits⟩
  have htotal : t.backfillRemaining = t.entries.countP owed := rfl
  rw [remaining_insertFts?, htotal]
  have hnew : (t.update (pass.awaits d.rowid) (pass.set now d.index)).backfillRemaining =
      (t.update (pass.awaits d.rowid) (pass.set now d.index)).entries.countP owed := rfl
  omega

theorem remaining_stampRows {pass : IndexPass} (now : ℤ) {derived : List Derived} :
    ∀ {t : CacheTables}, (∀ d ∈ derived, DerivedOk derive t pass d) →
      (stampRows pass now derived t).2 + (stampRows pass now derived t).1.backfillRemaining ≤
        t.backfillRemaining := by
  induction derived with
  | nil => exact fun _ => by simp [stampRows]
  | cons d derived ih =>
    intro t h
    have hrow := remaining_stampRow now (h d (.head _))
    have hrest := ih fun d' hd' => (h d' (.tail _ hd')).kept (pendingKept_stampRow pass now d)
    rw [stampRows]
    dsimp only
    omega

/-! ### Bodies -/

/-- What is there after a transaction was there before it, with the same body. -/
def BodiesKept (t t' : CacheTables) : Prop :=
  ∀ e ∈ t'.entries, ∃ e₀ ∈ t.entries, e₀.key = e.key ∧ e₀.body = e.body

theorem BodiesKept.refl (t : CacheTables) : BodiesKept t t := fun e he => ⟨e, he, rfl, rfl⟩

theorem BodiesKept.trans {t t' t'' : CacheTables} (h : BodiesKept t t') (h' : BodiesKept t' t'') :
    BodiesKept t t'' := by
  intro e he
  obtain ⟨e', he', hkey', hbody'⟩ := h' e he
  obtain ⟨e₀, he₀, hkey, hbody⟩ := h e' he'
  exact ⟨e₀, he₀, hkey.trans hkey', hbody.trans hbody'⟩

theorem bodiesKept_update : BodiesKept t (t.update p set) := by
  intro e he
  obtain ⟨he, -⟩ | ⟨e₀, he₀, -, rfl⟩ := mem_entries_update he
  · exact ⟨e, he, rfl, rfl⟩
  · exact ⟨e₀, he₀, rfl, rfl⟩

theorem bodiesKept_deleteWhere (p : CacheRow → Bool) : BodiesKept t (t.deleteWhere p) :=
  fun e he => ⟨e, (mem_entries_deleteWhere.mp he).1, rfl, rfl⟩

theorem bodiesKept_get (key : String) (now : ℤ) : BodiesKept t (t.cacheGet key now).1 :=
  cacheGet_cases (P := BodiesKept t) key now (fun _ _ _ h => h) bodiesKept_update (.refl t)

theorem bodiesKept_prune (filter : CachePruneFilter) (now : ℤ)
    (order : CacheTables → List CacheRow) : BodiesKept t (t.cachePrune filter now order).1 :=
  cachePrune_cases (P := BodiesKept t) (fun _ p h => h.trans (bodiesKept_deleteWhere p)) (.refl t)
    filter now order

theorem bodiesKept_stampRows (pass : IndexPass) (now : ℤ) (derived : List Derived) :
    ∀ t : CacheTables, BodiesKept t (stampRows pass now derived t).1 := by
  induction derived with
  | nil => exact fun t => .refl t
  | cons d derived ih =>
    intro t
    refine BodiesKept.trans ?_ (ih _)
    refine stampRow_cases (P := fun r => BodiesKept t r.1) (.refl t) fun _ _ _ _ => ?_
    intro e he
    rw [entries_insertFts?] at he
    exact bodiesKept_update e he

end
