/-
The cached filter of the run list and of the search.

A run is fully cached where none of its calls missed the cache and some hit it; the counts of
older runs are missing, or `-1` where they could not be recovered, and of such a run nothing is
claimed.  `exclude` hides the runs that are fully cached, `only` lists them alone.

* **`cached_filter_partitions`** — a run that `all` lists is listed under one of the two, and
  under `exclude` unless it is known to be fully cached;
* **`isTrue_fullyCached`** — which it is by its two counts alone.
-/
import Domarinn.RunPages
import Domarinn.RunSearch

open Sql Keyset

/-- The filter of the list with another choice of `cached`. -/
def RunListFilter.under (f : RunListFilter) (cached : Option CachedFilter) : RunListFilter :=
  { f with cached := cached }

/-- Nothing is known of the calls of a run: one of its counts is missing, or the sentinel. -/
def RunRow.Unclassified (r : RunRow) : Prop :=
  r.cacheHits = none ∨ r.cacheHits = some (-1) ∨ r.cacheMisses = none ∨ r.cacheMisses = some (-1)

/-- A run is known to be fully cached. -/
def RunRow.replayed (r : RunRow) : Bool := decide r.fullyCached.IsTrue

theorem isTrue_fullyCached {r : RunRow} : r.fullyCached.IsTrue ↔
    r.cacheMisses = some 0 ∧ ∃ hits, r.cacheHits = some hits ∧ 0 < hits := by
  rw [RunRow.fullyCached, Truth.isTrue_and, isTrue_eq, and_congr (and_iff_right_of_imp _) _]
  · intro h
    rw [h]
    exact Option.some_ne_none 0
  · cases r.cacheHits <;> simp [lt]

theorem RunRow.Unclassified.not_replayed {r : RunRow} (h : r.Unclassified) :
    r.replayed = false := by
  refine decide_eq_false fun hcached => ?_
  obtain ⟨hmisses, hits, hhits, hpos⟩ := isTrue_fullyCached.mp hcached
  obtain h | h | h | h := h
  · exact absurd (hhits.symm.trans h) (Option.some_ne_none hits)
  · have : hits = -1 := Option.some.inj (hhits.symm.trans h)
    omega
  · exact absurd (hmisses.symm.trans h) (Option.some_ne_none 0)
  · exact absurd (Option.some.inj (hmisses.symm.trans h)) (by decide)

/-! ### Parts of a list -/

/-- Two choices part a list, by whether a run is known to be fully cached. -/
structure Parts {ρ : Type} (run : ρ → RunRow) (excluded only all : List ρ) : Prop where
  excluded : excluded = all.filter fun row => !(run row).replayed
  only : only = all.filter fun row => (run row).replayed

section
variable {ρ : Type} {run : ρ → RunRow} {excluded only all : List ρ}

theorem Parts.disjoint (h : Parts run excluded only all) : excluded.Disjoint only := by
  intro row hexcluded honly
  rw [h.excluded] at hexcluded
  rw [h.only] at honly
  have hnot := (List.mem_filter.mp hexcluded).2
  rw [(List.mem_filter.mp honly).2] at hnot
  exact absurd hnot (by decide)

theorem Parts.perm (h : Parts run excluded only all) : (excluded ++ only).Perm all := by
  rw [h.excluded, h.only]
  exact List.perm_append_comm.trans (List.filter_append_perm _ all)

theorem Parts.not_hidden (h : Parts run excluded only all) {row : ρ} (hrow : row ∈ all)
    (hunknown : (run row).Unclassified) : row ∈ excluded ∧ row ∉ only := by
  have hnot := hunknown.not_replayed
  rw [h.excluded, h.only, List.mem_filter, List.mem_filter, hnot]
  exact ⟨⟨hrow, rfl⟩, fun h => absurd h.2 (by decide)⟩

/-- What the two clauses select of the rows of a result parts it. -/
theorem parts_of_clauses {result : CachedFilter → List ρ}
    (h : ∀ cached, result cached = (result .all).filter fun row =>
      (allOf (cachedClause cached) (run row)).IsTrue) :
    Parts run (result .exclude) (result .only) (result .all) where
  excluded := by
    rw [h .exclude]
    refine List.filter_congr fun row _ => ?_
    rw [RunRow.replayed, ← decide_not]
    refine decide_eq_decide.mpr ?_
    simp [cachedClause]
  only := by
    rw [h .only]
    refine List.filter_congr fun row _ => decide_eq_decide.mpr ?_
    simp [cachedClause]

end

/-! ### The run list -/

section
variable {f : RunListFilter} {policy : PolicyTables} {t : RunTables}

/-- The list under a choice is what its clause selects of the runs that the rest lists. -/
theorem matching_under (cached : CachedFilter) :
    (f.under (some cached)).matching policy t =
      orderBy newestFirst (select (select t.runs (allOf (f.clauses policy t)))
        (allOf (cachedClause cached))) := by
  rw [← select_append]
  refine congrArg (fun clauses => orderBy newestFirst (select t.runs (allOf clauses))) ?_
  rw [RunListFilter.conditions]
  exact congrArg (f.clauses policy t ++ ·) (List.append_nil _)

theorem matching_parts : Parts id ((f.under (some .exclude)).matching policy t)
    ((f.under (some .only)).matching policy t) ((f.under (some .all)).matching policy t) := by
  refine @parts_of_clauses _ id (fun cached => (f.under (some cached)).matching policy t) ?_
  intro cached
  have hall : ∀ rows : List RunRow, select rows (allOf (cachedClause .all)) = rows := fun rows =>
    List.filter_eq_self.mpr fun _ _ => decide_eq_true (isTrue_allOf.mpr (by simp [cachedClause]))
  rw [matching_under, matching_under, hall, ← orderBy_filter]
  rfl

/-- What is counted as hidden are the runs listed under `only`. -/
theorem cachedHidden_eq (hcached : f.cached = some .exclude) (hcursor : f.cursor = none) :
    f.cachedHidden policy t = some ((f.under (some .only)).matching policy t).length := by
  have hcount : select t.runs (allOf (RunRow.fullyCached :: f.clauses policy t)) =
      select (select t.runs (allOf (f.clauses policy t))) (allOf (cachedClause .only)) := by
    rw [← select_append]
    refine select_congr fun r _ => ?_
    rw [isTrue_allOf, isTrue_allOf, List.forall_mem_cons, List.forall_mem_append, and_comm]
    simp [cachedClause]
  rw [RunListFilter.cachedHidden, if_pos ⟨hcached, hcursor⟩, matching_under, hcount,
    orderBy, (List.perm_insertionSort newestFirst _).length_eq]

end

/-! ### The clauses of the search -/

section
variable {policy : PolicyTables} {vis : RunVisibility} {t : RunTables} {query : List String}

theorem hitClauses_iff (cached : CachedFilter) {r : RunRow} :
    (hitClauses policy vis (some cached) r).IsTrue ↔
      (hitClauses policy vis (some .all) r).IsTrue ∧ (allOf (cachedClause cached) r).IsTrue := by
  have hclauses : ∀ c : CachedFilter, (some c).toList.flatMap cachedClause = cachedClause c :=
    fun c => List.append_nil _
  rw [hitClauses, hitClauses, hclauses, hclauses, Truth.isTrue_and, Truth.isTrue_and]
  simp [cachedClause]

theorem runMatches_filter (engine : FtsEngine RunFtsRow) (cached : CachedFilter) :
    runMatches engine policy vis t query (some cached) =
      (runMatches engine policy vis t query (some .all)).filter fun row =>
        (allOf (cachedClause cached) row.2).IsTrue := by
  refine join_and fun x r => ?_
  simp only [Truth.isTrue_and, hitClauses_iff cached, decide_eq_true_eq, and_assoc]

theorem caseMatches_filter (engine : FtsEngine CaseFtsRow) (cached : CachedFilter) :
    caseMatches engine policy vis t query (some cached) =
      (caseMatches engine policy vis t query (some .all)).filter fun row =>
        (allOf (cachedClause cached) row.2.2).IsTrue := by
  have hruns : join t.cases t.runs (fun c r => (eq (some r.id) (some c.runId)).and
      (hitClauses policy vis (some cached) r)) =
        (join t.cases t.runs fun c r => (eq (some r.id) (some c.runId)).and
          (hitClauses policy vis (some .all) r)).filter fun row =>
            (allOf (cachedClause cached) row.2).IsTrue := by
    refine join_and fun c r => ?_
    simp only [Truth.isTrue_and, hitClauses_iff cached, decide_eq_true_eq, and_assoc]
  rw [caseMatches, caseMatches, hruns]
  exact join_filter

end

/-! ### The partition -/

/-- The choices of the cached filter in the list of these tables and in the search. -/
structure CachedPartition (f : RunListFilter) (policy : PolicyTables) : Prop where
  /-- The list under each choice. -/
  list : ∀ t, Parts id ((f.under (some .exclude)).matching policy t)
    ((f.under (some .only)).matching policy t) ((f.under (some .all)).matching policy t)
  /-- No run is listed under both. -/
  disjoint : ∀ t, ((f.under (some .exclude)).matching policy t).Disjoint
    ((f.under (some .only)).matching policy t)
  /-- Together they list what `all` lists, each run as often. -/
  together : ∀ t, ((f.under (some .exclude)).matching policy t ++
    (f.under (some .only)).matching policy t).Perm ((f.under (some .all)).matching policy t)
  /-- A request without the filter lists them all. -/
  unset : ∀ t, (f.under none).matching policy t = (f.under (some .all)).matching policy t
  /-- The first page under `exclude` says how many runs are listed under `only`. -/
  hidden : ∀ t, f.cursor = none → ((f.under (some .exclude)).query policy t).cachedHidden =
    some ((f.under (some .only)).matching policy t).length
  /-- A run of which nothing is known is never hidden. -/
  unclassified : ∀ t, ∀ r ∈ (f.under (some .all)).matching policy t, r.Unclassified →
    r ∈ (f.under (some .exclude)).matching policy t ∧
      r ∉ (f.under (some .only)).matching policy t
  /-- The pages under each choice end, and return its list. -/
  pages : 1 ≤ f.limit → ∀ (db : RunsDb) (cached : Option CachedFilter),
    ∃ n, Ended ((f.under cached).walk (.replicate n (policy, db))) ∧
      returned ((f.under cached).walk (.replicate n (policy, db))) =
        ((f.under cached).matching policy db.1).map (RunRow.listed db.1)
  /-- The search parts the runs and the cases that it finds in the same way. -/
  runHits : ∀ t engine query, Parts Prod.snd
    (runMatches engine policy f.visibility t query (some .exclude))
    (runMatches engine policy f.visibility t query (some .only))
    (runMatches engine policy f.visibility t query (some .all))
  caseHits : ∀ t engine query, Parts (fun row => row.2.2)
    (caseMatches engine policy f.visibility t query (some .exclude))
    (caseMatches engine policy f.visibility t query (some .only))
    (caseMatches engine policy f.visibility t query (some .all))

/-- **The cached filter parts the runs**: `exclude` and `only` list them all, and none twice. -/
theorem cached_filter_partitions (f : RunListFilter) (policy : PolicyTables) :
    CachedPartition f policy where
  list := fun _ => matching_parts
  disjoint := fun _ => matching_parts.disjoint
  together := fun _ => matching_parts.perm
  unset := fun _ => rfl
  hidden := fun _ hcursor => cachedHidden_eq rfl hcursor
  unclassified := fun _ _ hr hunknown => matching_parts.not_hidden hr hunknown
  pages := fun hlimit db cached =>
    (@run_list_exact (f.under cached) hlimit).unchanging policy db
  runHits := fun _ engine _ => parts_of_clauses fun cached => runMatches_filter engine cached
  caseHits := fun _ engine _ => parts_of_clauses fun cached => caseMatches_filter engine cached
