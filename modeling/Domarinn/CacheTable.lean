/-
The server's cache tables, and what each statement and transaction does to them.

`cache_entries` holds a body for each key, with the columns promoted from it; its search text
is in a table of its own, row for row under the same row id.  Deleting an entry deletes its
search row by a trigger.  A row id is free again once its entry is deleted.

A row knows how far it got: nothing has looked at it (`indexedAt` is NULL), a build before
migration 3 has (`reindexedAt` is NULL), or this one has; and `indexOk` says whether its body
was an entry.
-/
import Domarinn.EntryIndex

open Sql

/-! ### Rows -/

/-- The columns that a later statement may set. -/
structure RowStatus where
  lastAccessAt : ℤ
  indexedAt : Option ℤ
  reindexedAt : Option ℤ
  indexOk : Option ℤ
  columns : IndexColumns
deriving DecidableEq

/-- A row of `cache_entries`. -/
structure CacheRow extends RowStatus where
  rowid : ℤ
  key : String
  body : List UInt8
  size : ℤ
  createdAt : ℤ
deriving DecidableEq

/-- A row of `cache_entries_fts`. -/
structure CacheFtsRow where
  rowid : ℤ
  request : String
  output : String
deriving DecidableEq

/-- The tables, with the keys that the schema declares. -/
structure CacheTables where
  entries : List CacheRow
  fts : List CacheFtsRow
  hits : ℕ
  misses : ℕ
  entryKey : (entries.map CacheRow.key).Nodup
  rowidKey : (entries.map CacheRow.rowid).Nodup
  ftsKey : (fts.map CacheFtsRow.rowid).Nodup

namespace CacheTables

def keys (t : CacheTables) : List String := t.entries.map CacheRow.key

def rowids (t : CacheTables) : List ℤ := t.entries.map CacheRow.rowid

/-- The search rows of a row id. -/
def searchRows (t : CacheTables) (rowid : ℤ) : List CacheFtsRow :=
  t.fts.filter fun f => f.rowid = rowid

/-- The only row of a row id. -/
theorem eq_of_rowid {t : CacheTables} {e e' : CacheRow} (he : e ∈ t.entries) (he' : e' ∈ t.entries)
    (h : e.rowid = e'.rowid) : e = e' :=
  List.inj_on_of_nodup_map t.rowidKey he he' h

/-- The only row of a key. -/
theorem eq_of_key {t : CacheTables} {e e' : CacheRow} (he : e ∈ t.entries) (he' : e' ∈ t.entries)
    (h : e.key = e'.key) : e = e' :=
  List.inj_on_of_nodup_map t.entryKey he he' h

/-! ### Statements -/

/-- `UPDATE cache_entries SET … WHERE …`. -/
def update (t : CacheTables) (p : CacheRow → Bool) (set : RowStatus → RowStatus) : CacheTables :=
  { t with
    entries := t.entries.map fun e => if p e then { e with toRowStatus := set e.toRowStatus } else e
    entryKey := by
      rw [List.map_map]
      convert t.entryKey using 2
      funext e
      simp only [Function.comp_apply]
      split <;> rfl
    rowidKey := by
      rw [List.map_map]
      convert t.rowidKey using 2
      funext e
      simp only [Function.comp_apply]
      split <;> rfl }

/-- `DELETE FROM cache_entries WHERE …`, with the trigger. -/
def deleteWhere (t : CacheTables) (p : CacheRow → Bool) : CacheTables :=
  { t with
    entries := t.entries.filter fun e => !p e
    fts := t.fts.filter fun f => !t.entries.any fun e => p e && e.rowid = f.rowid
    entryKey := t.entryKey.sublist (List.filter_sublist.map _)
    rowidKey := t.rowidKey.sublist (List.filter_sublist.map _)
    ftsKey := t.ftsKey.sublist (List.filter_sublist.map _) }

/-- `INSERT INTO cache_entries`, of a new key under a new row id. -/
def insertRow (t : CacheTables) (row : CacheRow) (hkey : row.key ∉ t.keys)
    (hrowid : row.rowid ∉ t.rowids) : CacheTables :=
  { t with
    entries := t.entries ++ [row]
    entryKey := by
      rw [List.map_append, List.map_singleton]
      exact t.entryKey.append (List.nodup_singleton _) (List.disjoint_singleton.mpr hkey)
    rowidKey := by
      rw [List.map_append, List.map_singleton]
      exact t.rowidKey.append (List.nodup_singleton _) (List.disjoint_singleton.mpr hrowid) }

/-- `insert_fts`: the search row of a row id is replaced. -/
def insertFts (t : CacheTables) (rowid : ℤ) (index : EntryIndex) : CacheTables :=
  { t with
    fts := (t.fts.filter fun f => f.rowid ≠ rowid) ++ [⟨rowid, index.ftsRequest, index.ftsOutput⟩]
    ftsKey := by
      rw [List.map_append, List.map_singleton]
      refine (t.ftsKey.sublist (List.filter_sublist.map _)).append (List.nodup_singleton _) ?_
      refine List.disjoint_singleton.mpr fun hmem => ?_
      obtain ⟨f, hf, hrowid⟩ := List.mem_map.mp hmem
      exact of_decide_eq_true (List.mem_filter.mp hf).2 hrowid }

/-! ### Transactions -/

/-- `cache_get`. -/
def cacheGet (t : CacheTables) (key : String) (now : ℤ) : CacheTables × Option (List UInt8) :=
  match t.entries.find? fun e => e.key = key with
  | some e =>
    ({ t.update (fun e => e.key = key) fun s => { s with lastAccessAt := now } with
        hits := t.hits + 1 }, some e.body)
  | none => ({ t with misses := t.misses + 1 }, none)

/-- `cache_delete_entry`. -/
def cacheDeleteEntry (t : CacheTables) (key : String) : CacheTables × Bool :=
  (t.deleteWhere fun e => e.key = key, t.entries.any fun e => e.key = key)

inductive CachePutOutcome where
  | created
  | exists
deriving DecidableEq

/-- What `cache_put` and the index pass set on a row that they have looked at. -/
def looked (now : ℤ) (index : Option EntryIndex) (s : RowStatus) : RowStatus :=
  { s with
    indexedAt := some now
    reindexedAt := some now
    indexOk := some (if index.isSome then 1 else 0)
    columns := EntryIndex.columns index }

/-- The search row of an entry that has an index. -/
def insertFts? (t : CacheTables) (rowid : ℤ) : Option EntryIndex → CacheTables
  | some index => t.insertFts rowid index
  | none => t

/-- The row that a put inserts. -/
def newRow (rowid : ℤ) (key : String) (body : List UInt8) (index : Option EntryIndex) (now : ℤ) :
    CacheRow :=
  { looked now index ⟨now, none, none, none, .absent⟩ with
    rowid, key, body, size := body.length, createdAt := now }

/-- `cache_put`, given the row id that the database would hand out. -/
def cachePut (t : CacheTables) (rowid : {r : ℤ // r ∉ t.rowids}) (key : String) (body : List UInt8)
    (index : Option EntryIndex) (now : ℤ) : CacheTables × CachePutOutcome :=
  if hkey : key ∈ t.keys then (t, .exists)
  else ((t.insertRow (newRow rowid.1 key body index now) hkey rowid.2).insertFts? rowid.1 index,
    .created)

/-! ### Pruning -/

/-- What a prune may delete. -/
structure CachePruneFilter where
  olderThanDays : Option ℤ
  newerThanDays : Option ℤ
  emptyReason : List String
  model : Option String
  kind : Option String
  targetBytes : Option ℤ

/-- `cutoff_ms`: the time some days ago, or the end of the range. -/
def cutoffMs (now days : ℤ) : ℤ := max (-2 ^ 63) (min (now - days * 86400000) (2 ^ 63 - 1))

/-- `prune_predicate`: no clause for what the filter does not name. -/
def prunePredicate (filter : CachePruneFilter) (now : ℤ) : List (CacheRow → Truth) :=
  (filter.olderThanDays.toList.map fun days e => lt (some e.createdAt) (some (cutoffMs now days))) ++
  (filter.newerThanDays.toList.map fun days e => le (some (cutoffMs now days)) (some e.createdAt)) ++
  (if filter.emptyReason.isEmpty then []
    else [fun e => inRows e.columns.emptyReason (filter.emptyReason.map some)]) ++
  (filter.model.toList.map fun model e => eq e.columns.model (some model)) ++
  (filter.kind.toList.map fun kind e => eq e.columns.kind (some kind))

/-- The eviction loop, over the entries in the order of their last access. -/
def evict (target : ℤ) : List CacheRow → ℤ → CacheTables → ℕ → CacheTables × ℕ
  | [], _, t, pruned => (t, pruned)
  | e :: victims, total, t, pruned =>
    if total ≤ target then (t, pruned)
    else evict target victims (total - e.size) (t.deleteWhere fun e' => e'.key = e.key) (pruned + 1)

/-- The entries that every clause selects; without a clause nothing is deleted. -/
def pruneMatching (t : CacheTables) (clauses : List (CacheRow → Truth)) : CacheTables × ℕ :=
  if clauses.isEmpty then (t, 0)
  else
    let p := fun e => clauses.all fun clause => decide (clause e).IsTrue
    (t.deleteWhere p, t.entries.countP p)

/-- `cache_prune`, given the order in which the database lists what it may evict. -/
def cachePrune (t : CacheTables) (filter : CachePruneFilter) (now : ℤ)
    (order : CacheTables → List CacheRow) : CacheTables × ℕ :=
  let (t, pruned) := t.pruneMatching (prunePredicate filter now)
  match filter.targetBytes with
  | none => (t, pruned)
  | some target => evict target (order t) (t.entries.map CacheRow.size).sum t pruned

/-! ### The two passes -/

/-- A row that a pass has read, and what it found. -/
structure Derived where
  rowid : ℤ
  index : Option EntryIndex

/-- The index pass looks at rows that nothing has looked at; the re-index pass at rows that a
build before migration 3 has. -/
inductive IndexPass where
  | index
  | reindex
deriving DecidableEq

namespace IndexPass

/-- Where a pass has still to stamp a row. -/
def pending : IndexPass → RowStatus → Bool
  | index, s => s.indexedAt.isNone
  | reindex, s => s.reindexedAt.isNone

/-- What a pass sets.  The re-index pass keeps the verdict, and without an index it only
stamps. -/
def set (now : ℤ) : IndexPass → Option EntryIndex → RowStatus → RowStatus
  | index, found, s => looked now found s
  | reindex, some found, s => { s with reindexedAt := some now, columns := found.toIndexColumns }
  | reindex, none, s => { s with reindexedAt := some now }

end IndexPass

/-- The row of this row id, while the pass has still to stamp it. -/
def IndexPass.awaits (pass : IndexPass) (rowid : ℤ) (e : CacheRow) : Bool :=
  decide (e.rowid = rowid) && pass.pending e.toRowStatus

/-- One row of a batch, and whether it was stamped. -/
def stampRow (pass : IndexPass) (now : ℤ) (t : CacheTables) (d : Derived) : CacheTables × ℕ :=
  if t.entries.any (pass.awaits d.rowid) then
    ((t.update (pass.awaits d.rowid) (pass.set now d.index)).insertFts? d.rowid d.index, 1)
  else (t, 0)

/-- `write_batch` and `write_reindex_batch`. -/
def stampRows (pass : IndexPass) (now : ℤ) : List Derived → CacheTables → CacheTables × ℕ
  | [], t => (t, 0)
  | d :: derived, t =>
    let (t, n) := t.stampRow pass now d
    let (t, m) := stampRows pass now derived t
    (t, n + m)

/-- `BackfillRemaining::total`: the rows that the passes have still to stamp. -/
def backfillRemaining (t : CacheTables) : ℕ :=
  t.entries.countP fun e => e.indexedAt.isNone || e.reindexedAt.isNone

end CacheTables
