/-
What a prune of the server's cache deletes.

A filter names predicates, and every entry that satisfies them all is deleted; a target names a
size, and the entries that were least recently accessed are evicted until the rest is no larger.
A filter that names nothing deletes nothing.

* **`CacheTables.evict_eq`** — the loop evicts the shortest prefix that reaches the target;
* **`CacheTables.cache_prune_exact`** — so a prune deletes what it names, and counts it.
-/
import Domarinn.CacheTable
import Domarinn.Query

open Sql

/-! ### The shortest prefix that makes a total small enough -/

section
variable {ρ : Type} (size : ρ → ℤ)

/-- The first rows whose removal brings a total down to the target; all of them if none does. -/
structure ShortestPrefix (target total : ℤ) (rows removed : List ρ) : Prop where
  isPrefix : removed <+: rows
  reaches : total - (removed.map size).sum ≤ target ∨ removed = rows
  shortest : ∀ front, front <+: removed → front ≠ removed →
    target < total - (front.map size).sum

variable {size} {target total : ℤ} {rows removed : List ρ}

/-- Nothing is removed from a total that is small enough. -/
theorem ShortestPrefix.eq_nil (h : ShortestPrefix size target total rows removed)
    (hle : total ≤ target) : removed = [] := by
  by_contra hne
  have hlt := h.shortest [] List.nil_prefix (Ne.symm hne)
  rw [List.map_nil, List.sum_nil, sub_zero] at hlt
  omega

theorem ShortestPrefix.stop (hle : total ≤ target) : ShortestPrefix size target total rows [] where
  isPrefix := List.nil_prefix
  reaches := .inl (by rwa [List.map_nil, List.sum_nil, sub_zero])
  shortest := fun _ hfront hne => absurd (List.prefix_nil.mp hfront) hne

theorem ShortestPrefix.empty : ShortestPrefix size target total [] [] where
  isPrefix := List.nil_prefix
  reaches := .inr rfl
  shortest := fun _ hfront hne => absurd (List.prefix_nil.mp hfront) hne

/-- One more row is removed while the total is too large. -/
theorem ShortestPrefix.cons {row : ρ} (hlt : target < total)
    (h : ShortestPrefix size target (total - size row) rows removed) :
    ShortestPrefix size target total (row :: rows) (row :: removed) where
  isPrefix := List.cons_prefix_cons.mpr ⟨rfl, h.isPrefix⟩
  reaches := by
    rw [List.map_cons, List.sum_cons, ← sub_sub]
    exact h.reaches.imp_right (congrArg _)
  shortest := by
    intro front hfront hne
    cases front with
    | nil => rwa [List.map_nil, List.sum_nil, sub_zero]
    | cons first front =>
      have hfront := List.cons_prefix_cons.mp hfront
      rw [hfront.1] at hne ⊢
      rw [List.map_cons, List.sum_cons, ← sub_sub]
      exact h.shortest front hfront.2 fun heq => hne (congrArg _ heq)

end

namespace CacheTables

/-! ### What a filter names -/

namespace CachePruneFilter

/-- The filter names a predicate. -/
def NamesPredicate (f : CachePruneFilter) : Prop :=
  f.olderThanDays ≠ none ∨ f.newerThanDays ≠ none ∨ f.emptyReason ≠ [] ∨ f.model ≠ none ∨
    f.kind ≠ none

/-- The filter names a predicate or a target: it is not what `is_empty` tells. -/
def NamesSomething (f : CachePruneFilter) : Prop := f.NamesPredicate ∨ f.targetBytes ≠ none

/-- An entry satisfies every predicate that the filter names. -/
structure Satisfied (f : CachePruneFilter) (now : ℤ) (e : CacheRow) : Prop where
  older : ∀ days ∈ f.olderThanDays, e.createdAt < cutoffMs now days
  newer : ∀ days ∈ f.newerThanDays, cutoffMs now days ≤ e.createdAt
  reason : f.emptyReason ≠ [] → ∃ reason ∈ f.emptyReason, e.columns.emptyReason = some reason
  model : ∀ model ∈ f.model, e.columns.model = some model
  kind : ∀ kind ∈ f.kind, e.columns.kind = some kind

/-- The predicates name an entry. -/
def Matches (f : CachePruneFilter) (now : ℤ) (e : CacheRow) : Prop :=
  f.NamesPredicate ∧ f.Satisfied now e

end CachePruneFilter

section
variable {f : CachePruneFilter} {now : ℤ}

theorem prunePredicate_eq_nil : prunePredicate f now = [] ↔ ¬ f.NamesPredicate := by
  simp only [prunePredicate, List.append_eq_nil_iff, List.map_eq_nil_iff, Option.toList_eq_nil_iff,
    CachePruneFilter.NamesPredicate, not_or, not_not, and_assoc]
  refine and_congr_right fun _ => and_congr_right fun _ => and_congr_left fun _ => ?_
  by_cases hreason : f.emptyReason = [] <;> simp [hreason]

theorem isTrue_reasons {e : CacheRow} :
    (inRows e.columns.emptyReason (f.emptyReason.map some)).IsTrue ↔
      ∃ reason ∈ f.emptyReason, e.columns.emptyReason = some reason := by
  cases hrecorded : e.columns.emptyReason with
  | none =>
    -- no reason was recorded, so that it is unknown whether it is one of these
    have hunknown : ∀ rows : List (Option String), ¬ (inRows none rows).IsTrue := by
      intro rows
      induction rows with
      | nil => simp [inRows]
      | cons row rows ih => simpa [inRows] using ih
    refine iff_of_false (hunknown _) ?_
    rintro ⟨reason, -, heq⟩
    exact absurd heq.symm (Option.some_ne_none reason)
  | some recorded =>
    rw [isTrue_inRows]
    simp

theorem forall_prunePredicate {e : CacheRow} :
    (∀ clause ∈ prunePredicate f now, (clause e).IsTrue) ↔ f.Satisfied now e := by
  have hreason : (∀ clause ∈ (if f.emptyReason.isEmpty then []
      else [fun e : CacheRow => inRows e.columns.emptyReason (f.emptyReason.map some)]),
        (clause e).IsTrue) ↔
      (f.emptyReason ≠ [] → ∃ reason ∈ f.emptyReason, e.columns.emptyReason = some reason) := by
    by_cases hempty : f.emptyReason = []
    · simp [hempty]
    · rw [if_neg (by simpa using hempty), List.forall_mem_singleton, isTrue_reasons]
      exact ⟨fun h _ => h, fun h => h hempty⟩
  simp only [prunePredicate, List.forall_mem_append, hreason, List.forall_mem_map,
    Option.mem_toList, isTrue_lt, isTrue_le, isTrue_eq]
  constructor
  · rintro ⟨⟨⟨⟨holder, hnewer⟩, hreason⟩, hmodel⟩, hkind⟩
    exact ⟨holder, hnewer, hreason, fun m hm => (hmodel m hm).2, fun k hk => (hkind k hk).2⟩
  · intro h
    refine ⟨⟨⟨⟨h.older, h.newer⟩, h.reason⟩, fun m hm => ?_⟩, fun k hk => ?_⟩
    · rw [h.model m hm]
      exact ⟨Option.some_ne_none m, rfl⟩
    · rw [h.kind k hk]
      exact ⟨Option.some_ne_none k, rfl⟩

end

/-! ### Deletions -/

section
variable {t : CacheTables} {p q : CacheRow → Bool}

theorem deleteWhere_entries : (t.deleteWhere p).entries = t.entries.filter fun e => !p e := rfl

theorem deleteWhere_fts : (t.deleteWhere p).fts =
    t.fts.filter fun r => !t.entries.any fun e => p e && e.rowid = r.rowid := rfl

theorem eq_of_rows {u : CacheTables} (hentries : t.entries = u.entries) (hfts : t.fts = u.fts)
    (hhits : t.hits = u.hits) (hmisses : t.misses = u.misses) : t = u := by
  cases t
  cases u
  cases hentries
  cases hfts
  cases hhits
  cases hmisses
  rfl

theorem deleteWhere_none (h : ∀ e ∈ t.entries, p e = false) : t.deleteWhere p = t := by
  refine eq_of_rows ?_ ?_ rfl rfl
  · exact List.filter_eq_self.mpr fun e he => by rw [h e he, Bool.not_false]
  · refine List.filter_eq_self.mpr fun r _ => ?_
    rw [Bool.not_eq_true', List.any_eq_false]
    intro e he
    rw [h e he, Bool.false_and]
    exact Bool.false_ne_true

/-- Two deletions are one. -/
theorem deleteWhere_deleteWhere :
    (t.deleteWhere p).deleteWhere q = t.deleteWhere fun e => p e || q e := by
  refine eq_of_rows ?_ ?_ rfl rfl
  · rw [deleteWhere_entries, deleteWhere_entries, deleteWhere_entries, List.filter_filter]
    exact List.filter_congr fun e _ => by rw [Bool.not_or, Bool.and_comm]
  · rw [deleteWhere_fts, deleteWhere_fts, deleteWhere_fts, deleteWhere_entries, List.filter_filter]
    refine List.filter_congr fun r _ => ?_
    rw [Bool.eq_iff_iff]
    simp only [List.any_filter, Bool.and_eq_true, Bool.not_eq_true', List.any_eq_false,
      Bool.or_eq_true]
    constructor
    · rintro ⟨hq, hp⟩ e he ⟨hor, hrowid⟩
      obtain hpe | hqe := hor
      · exact hp e he ⟨hpe, hrowid⟩
      · cases hpe : p e with
        | true => exact hp e he ⟨hpe, hrowid⟩
        | false => exact hq e he ⟨by rw [hpe], hqe, hrowid⟩
    · intro h
      exact ⟨fun e he hq => h e he ⟨.inr hq.2.1, hq.2.2⟩, fun e he hp => h e he ⟨.inl hp.1, hp.2⟩⟩

theorem deleteWhere_congr (h : ∀ e ∈ t.entries, p e = q e) : t.deleteWhere p = t.deleteWhere q := by
  refine eq_of_rows (List.filter_congr fun e he => by rw [h e he]) ?_ rfl rfl
  refine List.filter_congr fun r _ => congrArg not ?_
  rw [Bool.eq_iff_iff, List.any_eq_true, List.any_eq_true]
  exact exists_congr fun e => and_congr_right fun he => by rw [h e he]

/-- The rows of a deletion are those that are left, and those that are not. -/
theorem length_deleteWhere :
    t.entries.countP p + (t.deleteWhere p).entries.length = t.entries.length := by
  have hkept : (t.deleteWhere p).entries.length = t.entries.countP fun e => ¬ p e := by
    rw [deleteWhere_entries, List.countP_eq_length_filter]
    exact congrArg List.length (List.filter_congr fun e _ => by simp)
  rw [hkept]
  exact (List.length_eq_countP_add_countP p).symm

end

/-- One of these entries. -/
def isOneOf (removed : List CacheRow) (e : CacheRow) : Bool :=
  decide (e.key ∈ removed.map CacheRow.key)

/-- **The eviction loop** deletes the shortest prefix that reaches the target, and counts it. -/
theorem evict_eq (target : ℤ) (victims : List CacheRow) :
    ∀ (total : ℤ) (t : CacheTables) (pruned : ℕ), ∃ removed,
      ShortestPrefix CacheRow.size target total victims removed ∧
        evict target victims total t pruned =
          (t.deleteWhere (isOneOf removed), pruned + removed.length) := by
  have hnone : ∀ t : CacheTables, t = t.deleteWhere (isOneOf []) :=
    fun t => (deleteWhere_none fun _ _ => rfl).symm
  induction victims with
  | nil => exact fun total t pruned => ⟨[], .empty, by rw [evict, ← hnone]; rfl⟩
  | cons e victims ih =>
    intro total t pruned
    obtain hle | hlt := le_or_gt total target
    · exact ⟨[], .stop hle, by rw [evict, if_pos hle, ← hnone]; rfl⟩
    · obtain ⟨removed, hshortest, heq⟩ :=
        ih (total - e.size) (t.deleteWhere fun e' => e'.key = e.key) (pruned + 1)
      refine ⟨e :: removed, .cons hlt hshortest, ?_⟩
      rw [evict, if_neg (not_le.mpr hlt), heq, deleteWhere_deleteWhere, List.length_cons,
        Nat.add_assoc, Nat.add_comm 1]
      refine congrArg (·, _) (deleteWhere_congr fun e' _ => ?_)
      simp [isOneOf]

/-- The order in which a database lists the entries: by their last access, and otherwise as it
likes. -/
structure AccessOrder where
  list : CacheTables → List CacheRow
  perm : ∀ t, (list t).Perm t.entries
  sorted : ∀ t, (list t).Pairwise fun e e' => e.lastAccessAt ≤ e'.lastAccessAt

/-- The order of a stable sort. -/
def AccessOrder.stable : AccessOrder where
  list := fun t => orderBy (fun e e' => e.lastAccessAt ≤ e'.lastAccessAt) t.entries
  perm := fun t => List.perm_insertionSort _ t.entries
  sorted := by
    intro t
    have htrans : IsTrans CacheRow fun e e' => e.lastAccessAt ≤ e'.lastAccessAt :=
      ⟨fun _ _ _ => le_trans⟩
    have htotal : Std.Total fun e e' : CacheRow => e.lastAccessAt ≤ e'.lastAccessAt :=
      ⟨fun _ _ => le_total _ _⟩
    exact List.pairwise_insertionSort _ t.entries

/-- What the predicates leave. -/
def unmatched (t : CacheTables) (f : CachePruneFilter) (now : ℤ) : CacheTables :=
  (t.pruneMatching (prunePredicate f now)).1

/-- A prune that evicts these entries deletes exactly what its filter names. -/
structure PruneExact (t : CacheTables) (f : CachePruneFilter) (now : ℤ) (order : AccessOrder)
    (evicted : List CacheRow) : Prop where
  /-- A filter that names nothing deletes nothing. -/
  nothing : ¬ f.NamesSomething → t.cachePrune f now order.list = (t, 0)
  /-- The predicates delete an entry that satisfies every one of them. -/
  predicate : ∀ e ∈ t.entries, e ∉ (t.unmatched f now).entries ↔ f.Matches now e
  /-- An entry that recorded nothing satisfies no predicate about what it recorded. -/
  unrecorded : ∀ e, f.Matches now e → (f.emptyReason ≠ [] → e.columns.emptyReason ≠ none) ∧
    (f.model ≠ none → e.columns.model ≠ none) ∧ (f.kind ≠ none → e.columns.kind ≠ none)
  /-- A day count names the entries before the day, though the day may be out of range. -/
  cutoff : ∀ days created, -2 ^ 63 ≤ created → created < 2 ^ 63 - 1 →
    (created < cutoffMs now days ↔ created < now - days * 86400000)
  /-- A target evicts the shortest prefix of what is left that reaches it. -/
  untargeted : f.targetBytes = none → evicted = []
  targeted : ∀ target ∈ f.targetBytes, ShortestPrefix CacheRow.size target
    ((t.unmatched f now).entries.map CacheRow.size).sum (order.list (t.unmatched f now)) evicted
  under : ∀ target ∈ f.targetBytes,
    ((t.unmatched f now).entries.map CacheRow.size).sum ≤ target → evicted = []
  /-- Nothing else is deleted; the search rows go with their entries. -/
  deleted : ∀ e ∈ t.entries, e ∉ (t.cachePrune f now order.list).1.entries ↔
    f.Matches now e ∨ e ∈ evicted
  kept : (t.cachePrune f now order.list).1 =
    t.deleteWhere fun e => e ∉ (t.cachePrune f now order.list).1.entries
  /-- The count is the number of entries deleted. -/
  count : (t.cachePrune f now order.list).2 + (t.cachePrune f now order.list).1.entries.length =
    t.entries.length

section
variable {t : CacheTables} {f : CachePruneFilter} {now : ℤ}

/-- The predicate step is a deletion, and counts it. -/
theorem pruneMatching_eq (t : CacheTables) (f : CachePruneFilter) (now : ℤ) :
    ∃ p : CacheRow → Bool, (∀ e, p e = true ↔ f.Matches now e) ∧
      t.pruneMatching (prunePredicate f now) = (t.deleteWhere p, t.entries.countP p) := by
  by_cases hnames : f.NamesPredicate
  · have hclauses : ¬ (prunePredicate f now).isEmpty := by
      rw [List.isEmpty_iff, prunePredicate_eq_nil, not_not]
      exact hnames
    refine ⟨_, fun e => ?_, if_neg hclauses⟩
    rw [List.all_eq_true, CachePruneFilter.Matches, and_iff_right hnames, ← forall_prunePredicate]
    exact forall₂_congr fun _ _ => decide_eq_true_iff
  · refine ⟨fun _ => false, fun e => iff_of_false Bool.false_ne_true fun h => hnames h.1, ?_⟩
    have hclauses : (prunePredicate f now).isEmpty :=
      List.isEmpty_iff.mpr (prunePredicate_eq_nil.mpr hnames)
    rw [pruneMatching, if_pos hclauses, deleteWhere_none fun _ _ => rfl]
    simp

theorem mem_deleteWhere {p : CacheRow → Bool} {e : CacheRow} :
    e ∈ (t.deleteWhere p).entries ↔ e ∈ t.entries ∧ p e = false := by
  rw [deleteWhere_entries, List.mem_filter, Bool.not_eq_true']

theorem cutoffMs_lt {days created : ℤ} (hlo : -2 ^ 63 ≤ created) (hhi : created < 2 ^ 63 - 1) :
    created < cutoffMs now days ↔ created < now - days * 86400000 := by
  rw [cutoffMs, lt_max_iff, lt_min_iff]
  exact ⟨fun h => h.elim (fun h => absurd hlo (not_le.mpr h)) And.left, fun h => .inr ⟨h, hhi⟩⟩

theorem mem_unmatched {e : CacheRow} :
    e ∈ (t.unmatched f now).entries ↔ e ∈ t.entries ∧ ¬ f.Matches now e := by
  obtain ⟨p, hp, heq⟩ := pruneMatching_eq t f now
  rw [unmatched, heq, mem_deleteWhere, ← hp, Bool.not_eq_true]

/-- Of the entries of a table, these are told by their keys. -/
theorem isOneOf_iff {removed : List CacheRow} (hsub : ∀ e ∈ removed, e ∈ t.entries) {e : CacheRow}
    (he : e ∈ t.entries) : isOneOf removed e = true ↔ e ∈ removed := by
  rw [isOneOf, decide_eq_true_eq, List.mem_map]
  constructor
  · rintro ⟨e', he', hkey⟩
    exact eq_of_key (hsub e' he') he hkey ▸ he'
  · exact fun h => ⟨e, h, rfl⟩

/-- As many entries are deleted as are evicted: the order lists each once. -/
theorem countP_isOneOf {removed rows : List CacheRow} (hperm : rows.Perm t.entries)
    (hinitial : removed <+: rows) : t.entries.countP (isOneOf removed) = removed.length := by
  obtain ⟨rest, rfl⟩ := hinitial
  have hkeys : ((removed ++ rest).map CacheRow.key).Nodup :=
    ((hperm.map CacheRow.key).nodup_iff).mpr t.entryKey
  rw [List.map_append, List.nodup_append] at hkeys
  have hremoved : removed.countP (isOneOf removed) = removed.length :=
    List.countP_eq_length.mpr fun e he => decide_eq_true (List.mem_map_of_mem he)
  have hrest : rest.countP (isOneOf removed) = 0 := by
    refine List.countP_eq_zero.mpr fun e he h => ?_
    exact hkeys.2.2 e.key (of_decide_eq_true h) e.key (List.mem_map_of_mem he) rfl
  rw [← hperm.countP_eq, List.countP_append, hremoved, hrest, Nat.add_zero]

/-- A prune deletes what the predicates name, and then evicts to the target. -/
theorem cachePrune_eq (t : CacheTables) (f : CachePruneFilter) (now : ℤ) (order : AccessOrder) :
    ∃ evicted, (f.targetBytes = none → evicted = []) ∧
      (∀ target ∈ f.targetBytes, ShortestPrefix CacheRow.size target
        ((t.unmatched f now).entries.map CacheRow.size).sum (order.list (t.unmatched f now))
          evicted) ∧
      t.cachePrune f now order.list = ((t.unmatched f now).deleteWhere (isOneOf evicted),
        (t.pruneMatching (prunePredicate f now)).2 + evicted.length) := by
  rw [cachePrune]
  cases htarget : f.targetBytes with
  | none =>
    refine ⟨[], fun _ => rfl, fun _ h => absurd h.symm (Option.some_ne_none _), ?_⟩
    have hnone : (t.unmatched f now).deleteWhere (isOneOf []) = t.unmatched f now :=
      deleteWhere_none fun _ _ => rfl
    rw [hnone]
    rfl
  | some target =>
    obtain ⟨evicted, hshortest, heq⟩ := evict_eq target (order.list (t.unmatched f now))
      ((t.unmatched f now).entries.map CacheRow.size).sum (t.unmatched f now)
      (t.pruneMatching (prunePredicate f now)).2
    refine ⟨evicted, fun h => absurd h (Option.some_ne_none _), fun target' h => ?_, heq⟩
    rw [← Option.some.inj h]
    exact hshortest

/-- **A prune deletes exactly what its filter names.** -/
theorem cache_prune_exact (t : CacheTables) (f : CachePruneFilter) (now : ℤ) (order : AccessOrder) :
    ∃ evicted, PruneExact t f now order evicted := by
  obtain ⟨evicted, huntargeted, htargeted, heq⟩ := cachePrune_eq t f now order
  obtain ⟨p, hp, hmatching⟩ := pruneMatching_eq t f now
  have hleft : t.unmatched f now = t.deleteWhere p := congrArg Prod.fst hmatching
  have hinitial : evicted <+: order.list (t.unmatched f now) := by
    cases htarget : f.targetBytes with
    | none => exact huntargeted htarget ▸ List.nil_prefix
    | some target => exact (htargeted target htarget).isPrefix
  have hsub : ∀ e ∈ evicted, e ∈ (t.unmatched f now).entries := fun e he =>
    (order.perm _).mem_iff.mp (hinitial.subset he)
  have hmem : ∀ e, e ∈ (t.cachePrune f now order.list).1.entries ↔
      (e ∈ t.entries ∧ ¬ f.Matches now e) ∧ e ∉ evicted := by
    intro e
    rw [heq, mem_deleteWhere, mem_unmatched, ← Bool.not_eq_true]
    refine and_congr_right fun he => not_congr ?_
    exact isOneOf_iff hsub (mem_unmatched.mpr he)
  have hdeleted : ∀ e ∈ t.entries, e ∉ (t.cachePrune f now order.list).1.entries ↔
      f.Matches now e ∨ e ∈ evicted := by
    intro e he
    rw [hmem, and_iff_right he, not_and_or, not_not, not_not]
  refine ⟨evicted, ?_⟩
  exact {
    nothing := by
      intro hnothing
      rw [CachePruneFilter.NamesSomething, not_or, not_not] at hnothing
      have hnone : prunePredicate f now = [] := prunePredicate_eq_nil.mpr hnothing.1
      rw [cachePrune, hnothing.2, hnone]
      rfl
    predicate := by
      intro e he
      rw [mem_unmatched, and_iff_right he, not_not]
    unrecorded := by
      intro e hmatches
      refine ⟨fun hne hnone => ?_, fun hne hnone => ?_, fun hne hnone => ?_⟩
      · obtain ⟨reason, -, heq⟩ := hmatches.2.reason hne
        exact absurd (heq.symm.trans hnone) (Option.some_ne_none reason)
      · obtain ⟨m, hm⟩ := Option.ne_none_iff_exists'.mp hne
        exact absurd ((hmatches.2.model m hm).symm.trans hnone) (Option.some_ne_none m)
      · obtain ⟨k, hk⟩ := Option.ne_none_iff_exists'.mp hne
        exact absurd ((hmatches.2.kind k hk).symm.trans hnone) (Option.some_ne_none k)
    cutoff := fun _ _ => cutoffMs_lt
    untargeted := huntargeted
    targeted := htargeted
    under := fun target htarget hle => (htargeted target htarget).eq_nil hle
    deleted := hdeleted
    kept := by
      have hone : (t.cachePrune f now order.list).1 =
          t.deleteWhere fun e => p e || isOneOf evicted e := by
        rw [heq, hleft, deleteWhere_deleteWhere]
      refine hone.trans (deleteWhere_congr fun e he => ?_)
      rw [Bool.eq_iff_iff, decide_eq_true_eq, hone, mem_deleteWhere, and_iff_right he,
        Bool.not_eq_false]
    count := by
      have hevicted := countP_isOneOf (order.perm (t.unmatched f now)) hinitial
      have hrest := @length_deleteWhere (t.unmatched f now) (isOneOf evicted)
      have hfirst := @length_deleteWhere t p
      rw [heq, hmatching]
      rw [hevicted, hleft] at hrest
      rw [hleft]
      dsimp only
      omega }

end

end CacheTables
