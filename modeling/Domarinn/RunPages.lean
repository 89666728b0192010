/-
The run list, page by page.

A page of runs ends at the creation time and the id of its last run, and the next page takes
the runs that come after in the order of the list.  Runs are uploaded and deleted between
pages, and a deleted run can be uploaded again under its id.

* **`RunListFilter.page_eq`** — a page of the list is a page of the runs that match;
* **`run_list_exact`** — the pages of an unchanging list return it; while the list changes no
  stored run comes twice, and none that stays is passed over;
* **`reuploaded_run_comes_twice`** — a run that is uploaded again as an older one does come
  a second time.
-/
import Domarinn.Ingest
import Domarinn.Keyset
import Domarinn.RunReads
import Mathlib.Data.String.Basic

open Sql Keyset

/-! ### Pages of runs -/

/-- `list_runs` under the cursor of a request; one that cannot be read counts as none. -/
def RunListFilter.page (f : RunListFilter) (s : PolicyTables × RunsDb) (cursor : Option String) :
    Page RunListItem String :=
  let page := { f with cursor := cursor.bind decodeCursor }.query s.1 s.2.1
  ⟨page.runs, page.nextCursor⟩

/-- The clauses of the filter, with the cached filter. -/
def RunListFilter.conditions (f : RunListFilter) (policy : PolicyTables) (t : RunTables) :
    List (RunRow → Truth) :=
  f.clauses policy t ++ f.cached.toList.flatMap cachedClause

/-- The runs that match, newest first. -/
def RunListFilter.matching (f : RunListFilter) (policy : PolicyTables) (t : RunTables) :
    List RunRow :=
  orderBy newestFirst (select t.runs (allOf (f.conditions policy t)))

/-- The same, of one of the states that the database is found in. -/
def RunListFilter.matchingIn (f : RunListFilter) (s : PolicyTables × RunsDb) : List RunRow :=
  f.matching s.1 s.2.1

/-- The place of a run in the list: its creation time and its id, the greatest first. -/
def Newer (a b : I64 × String) : Prop := b.1 < a.1 ∨ (b.1 = a.1 ∧ b.2 < a.2)

def RunRow.place (r : RunRow) : I64 × String := (r.createdAt, r.id)

def RunListItem.place (item : RunListItem) : I64 × String := (item.createdAt, item.id)

/-- One run comes before another in the list. -/
def RunRow.Before (a b : RunRow) : Prop := Newer a.place b.place

/-- A run comes after the cursor. -/
def RunRow.isAfter (cursor : String) (r : RunRow) : Bool :=
  decide (allOf (clauseFor (decodeCursor cursor) afterCursor) r).IsTrue

/-- The cursor that a run leaves. -/
def RunRow.cursor (r : RunRow) : String := encodeCursor r.createdAt.1 r.id

/-- What is listed of a run, under the tables that it is listed from. -/
def RunRow.listed (t : RunTables) (r : RunRow) : RunListItem := r.toDto (loadRunTags t r.id)

/-! ### The order of the list -/

instance : IsStrictOrder RunRow RunRow.Before where
  irrefl := by
    rintro a (h | ⟨-, h⟩)
    · exact lt_irrefl _ h
    · exact lt_irrefl _ h
  trans := by
    rintro a b c (hab | ⟨hab, hid⟩) (hbc | ⟨hbc, hid'⟩)
    · exact .inl (hbc.trans hab)
    · exact .inl (hbc ▸ hab)
    · exact .inl (hab ▸ hbc)
    · exact .inr ⟨hbc.trans hab, hid'.trans hid⟩

instance : IsTrans RunRow newestFirst where
  trans := by
    rintro a b c (hab | ⟨hab, hid⟩) (hbc | ⟨hbc, hid'⟩)
    · exact .inl (hbc.trans hab)
    · exact .inl (hbc ▸ hab)
    · exact .inl (hab ▸ hbc)
    · exact .inr ⟨hbc.trans hab, hid'.trans hid⟩

instance : Std.Total newestFirst where
  total := by
    intro a b
    obtain h | h | h := lt_trichotomy a.createdAt b.createdAt
    · exact .inr (.inl h)
    · obtain hid | hid := le_total a.id b.id
      · exact .inr (.inr ⟨h, hid⟩)
      · exact .inl (.inr ⟨h.symm, hid⟩)
    · exact .inl (.inl h)

theorem afterCursor_isTrue {c : I64 × String} {r : RunRow} :
    (afterCursor c r).IsTrue ↔ r.createdAt < c.1 ∨ (r.createdAt = c.1 ∧ r.id < c.2) := by
  simp [afterCursor]

/-- After the cursor of a run come the runs after it in the list. -/
theorem isAfter_cursor {r x : RunRow} : x.isAfter r.cursor = true ↔ r.Before x := by
  rw [RunRow.isAfter, RunRow.cursor, decodeCursor_encodeCursor, decide_eq_true_eq, isTrue_allOf,
    forall_mem_clauseFor]
  simp [afterCursor_isTrue, RunRow.Before, Newer, RunRow.place]

/-- What does not come before a run that is after a cursor is after it too. -/
theorem isAfter_mono {cursor : String} {r x : RunRow} (hr : r.isAfter cursor = true)
    (hx : newestFirst r x) : x.isAfter cursor = true := by
  rw [RunRow.isAfter, decide_eq_true_eq, isTrue_allOf, forall_mem_clauseFor] at hr ⊢
  intro c hc
  have hrc := afterCursor_isTrue.mp (hr c hc)
  refine afterCursor_isTrue.mpr ?_
  obtain hlt | ⟨heq, hid⟩ := hx
  · refine .inl ?_
    obtain hrc | ⟨hrc, -⟩ := hrc
    · exact hlt.trans hrc
    · exact hrc ▸ hlt
  · rw [heq]
    exact hrc.imp_right fun ⟨hrc, hrid⟩ => ⟨hrc, hid.trans_lt hrid⟩

theorem RunRow.Before.newestFirst {a b : RunRow} (h : a.Before b) : newestFirst a b :=
  h.imp_right fun ⟨heq, hlt⟩ => ⟨heq, hlt.le⟩

section
variable {f : RunListFilter} {policy : PolicyTables}

theorem mem_matching {t : RunTables} {r : RunRow} : r ∈ f.matching policy t ↔
    r ∈ t.runs ∧ ∀ clause ∈ f.conditions policy t, (clause r).IsTrue := by
  rw [RunListFilter.matching, mem_orderBy, mem_select, isTrue_allOf]

/-- The list is in order, without repetitions: an id is the key of a run. -/
theorem matching_pairwise (db : RunsDb) : (f.matching policy db.1).Pairwise RunRow.Before := by
  have hids : ((f.matching policy db.1).map RunRow.id).Nodup :=
    (((List.perm_insertionSort newestFirst _).map RunRow.id).nodup_iff).mpr
      (db.2.runKey.sublist (List.filter_sublist.map _))
  have hordered : (f.matching policy db.1).Pairwise newestFirst :=
    List.pairwise_insertionSort newestFirst _
  refine hordered.imp₂ ?_ (List.pairwise_map.mp hids)
  rintro a b (hlt | ⟨heq, hle⟩) hne
  · exact .inl hlt
  · exact .inr ⟨heq, lt_of_le_of_ne hle (Ne.symm hne)⟩

/-! ### A page is a page of the runs that match -/

variable (hlimit : 1 ≤ f.limit)
include hlimit

/-- The rows read for a page: what is left of the list, up to one row more than the page. -/
theorem rows_eq {t : RunTables} {cursor : Option String} :
    ({ f with cursor := cursor.bind decodeCursor } : RunListFilter).rows policy t =
      (left RunRow.isAfter (f.matching policy t) cursor).take (f.limit.toNat + 1) := by
  have hleft : orderBy newestFirst (select t.runs (allOf
      (f.conditions policy t ++ clauseFor (cursor.bind decodeCursor) afterCursor))) =
        left RunRow.isAfter (f.matching policy t) cursor := by
    rw [select_append, select, orderBy_filter, ← RunListFilter.matching]
    cases cursor with
    | none => exact List.filter_eq_self.mpr fun r _ => decide_eq_true (isTrue_allOf.mpr (by simp))
    | some c => rfl
  have hnonneg : ¬ f.limit + 1 < 0 := by omega
  have hnat : (f.limit + 1).toNat = f.limit.toNat + 1 := by omega
  rw [RunListFilter.rows, Sql.limit, if_neg hnonneg, hnat, ← hleft]
  rfl

/-- **A page of the list** is a page of the runs that match. -/
theorem RunListFilter.page_eq (s : PolicyTables × RunsDb) (cursor : Option String) :
    (f.page s cursor).rows = (fetch RunRow.cursor RunRow.isAfter f.limit.toNat f.matchingIn s
        cursor).rows.map (RunRow.listed s.2.1) ∧
      (f.page s cursor).next =
        (fetch RunRow.cursor RunRow.isAfter f.limit.toNat f.matchingIn s cursor).next := by
  have hrows : ({ f with cursor := cursor.bind decodeCursor } : RunListFilter).rows s.1 s.2.1 =
      (left RunRow.isAfter (f.matching s.1 s.2.1) cursor).take (f.limit.toNat + 1) :=
    rows_eq hlimit
  have hpage : fetch RunRow.cursor RunRow.isAfter f.limit.toNat f.matchingIn s cursor =
      pageOf RunRow.cursor f.limit.toNat
        (left RunRow.isAfter (f.matching s.1 s.2.1) cursor) := rfl
  rw [hpage, RunListFilter.page, RunListFilter.query]
  simp only [hrows]
  generalize left RunRow.isAfter (f.matching s.1 s.2.1) cursor = rest
  obtain ⟨hfull, htake, hle⟩ | ⟨hfull, htake, hlt⟩ := take_row_more (by omega : 0 ≤ f.limit) rest
  · -- everything that is left fits, so the row more is not there
    rw [pageOf_last hle, if_neg hfull, if_neg hfull, htake]
    exact ⟨rfl, rfl⟩
  · have hdrop : (rest.take (f.limit.toNat + 1)).dropLast = rest.take f.limit.toNat := by
      rw [← htake, List.dropLast_eq_take]
      refine congrArg (fun n => (rest.take (f.limit.toNat + 1)).take n) ?_
      rw [List.length_take]
      omega
    have hne : rest.take f.limit.toNat ≠ [] := by
      rw [Ne, List.take_eq_nil_iff]
      rintro (h | rfl)
      · omega
      · exact absurd hlt (Nat.not_lt_zero _)
    have hanchor := List.getLast?_eq_some_getLast hne
    rw [if_pos hfull, if_pos hfull, hdrop, pageOf, if_pos hlt, hanchor]
    exact ⟨rfl, rfl⟩

/-! ### The whole list -/

/-- The pages that follow the first, over these states of the database. -/
def RunListFilter.walk (f : RunListFilter) (states : List (PolicyTables × RunsDb)) :
    List (Page RunListItem String) := follow f.page none states

/-- What the pages return is listed from runs that match. -/
theorem mem_walk {states : List (PolicyTables × RunsDb)} {item : RunListItem}
    (h : item ∈ returned (f.walk states)) :
    ∃ s ∈ states, ∃ r ∈ f.matchingIn s, item = r.listed s.2.1 := by
  obtain ⟨s, hs, cursor, hitem⟩ := mem_returned_follow h
  rw [(f.page_eq hlimit s cursor).1] at hitem
  obtain ⟨r, hr, rfl⟩ := List.mem_map.mp hitem
  exact ⟨s, hs, r, (mem_left.mp (List.mem_of_mem_take hr)).1, rfl⟩

/-- The pages go through the list: what they return are its places, in order. -/
theorem walk_places (states : List (PolicyTables × RunsDb)) :
    (returned (f.walk states)).map RunListItem.place =
        (returned (follow (fetch RunRow.cursor RunRow.isAfter f.limit.toNat f.matchingIn) none
          states)).map RunRow.place ∧
      (Ended (f.walk states) ↔ Ended (follow (fetch RunRow.cursor RunRow.isAfter f.limit.toNat
        f.matchingIn) none states)) := by
  refine follow_map (fun s _ c => (f.page_eq hlimit s c).2) (fun s _ c => ?_) none
  rw [(f.page_eq hlimit s c).1, List.map_map]
  rfl

theorem walk_ordered (states : List (PolicyTables × RunsDb)) :
    ((returned (f.walk states)).map RunListItem.place).Pairwise Newer := by
  have hpos : 0 < f.limit.toNat := by omega
  have hafter : ∀ r x : RunRow, x.isAfter r.cursor = true ↔ r.Before x := fun _ _ => isAfter_cursor
  have hmono : ∀ (c : String) (r x : RunRow), r.isAfter c = true → r.Before x →
      x.isAfter c = true := fun _ _ _ hr hx => isAfter_mono hr hx.newestFirst
  have hlist : ∀ s : PolicyTables × RunsDb, (f.matchingIn s).Pairwise RunRow.Before :=
    fun s => matching_pairwise s.2
  rw [(walk_places hlimit states).1, List.pairwise_map]
  exact (follow_increasing hpos hafter hmono hlist states none).2

/-- Pages of one state of the database. -/
theorem walk_same (policy : PolicyTables) (db : RunsDb) (n : ℕ) :
    returned (f.walk (.replicate n (policy, db))) =
        (returned (follow (fetch RunRow.cursor RunRow.isAfter f.limit.toNat
          fun _ => f.matching policy db.1) none (.replicate n (policy, db)))).map
            (RunRow.listed db.1) ∧
      (Ended (f.walk (.replicate n (policy, db))) ↔
        Ended (follow (fetch RunRow.cursor RunRow.isAfter f.limit.toNat
          fun _ => f.matching policy db.1) none (.replicate n (policy, db)))) := by
  have hsame : ∀ s ∈ List.replicate n (policy, db), s = (policy, db) :=
    fun s hs => List.eq_of_mem_replicate hs
  rw [← List.map_id (returned (f.walk _))]
  refine follow_map (fun s hs c => ?_) (fun s hs c => ?_) none
  · rw [hsame s hs]
    exact (f.page_eq hlimit (policy, db) c).2
  · rw [hsame s hs, List.map_id]
    exact (f.page_eq hlimit (policy, db) c).1

/-- The list and its pages, over any states of the database. -/
structure RunListExact (f : RunListFilter) : Prop where
  /-- The list: the runs that match, each once, by descending creation time and id. -/
  list : ∀ policy (db : RunsDb), ((f.matching policy db.1).map RunRow.place).Pairwise Newer ∧
    ∀ r, r ∈ f.matching policy db.1 ↔
      r ∈ db.1.runs ∧ ∀ clause ∈ f.conditions policy db.1, (clause r).IsTrue
  /-- The pages of an unchanging list end, and return it. -/
  unchanging : ∀ policy (db : RunsDb), ∃ n, Ended (f.walk (.replicate n (policy, db))) ∧
    returned (f.walk (.replicate n (policy, db))) =
      (f.matching policy db.1).map (RunRow.listed db.1)
  /-- Whatever is uploaded and deleted between pages, the list goes on in order. -/
  once : ∀ states, ((returned (f.walk states)).map RunListItem.place).Pairwise Newer
  /-- So an id comes again only where a run is stored under it with an earlier creation time. -/
  again : ∀ states, (returned (f.walk states)).Pairwise fun a b => a.id = b.id →
    ∃ s ∈ states, ∃ s' ∈ states, ∃ r ∈ s.2.1.runs, ∃ r' ∈ s'.2.1.runs,
      r.id = a.id ∧ r'.id = a.id ∧ r'.createdAt < r.createdAt
  /-- No run that matches throughout is passed over. -/
  stays : ∀ states r, (∀ s ∈ states, r ∈ f.matchingIn s) → Ended (f.walk states) →
    ∃ s ∈ states, r.listed s.2.1 ∈ returned (f.walk states)
  /-- What was encoded is decoded. -/
  cursor : ∀ createdAt id, decodeCursor (encodeCursor createdAt.1 id) = some (createdAt, id)

/-- **The pages of the run list are exact.** -/
theorem run_list_exact : RunListExact f where
  list := fun policy db => ⟨List.pairwise_map.mpr (matching_pairwise db), fun _ => mem_matching⟩
  unchanging := by
    intro policy db
    have hpos : 0 < f.limit.toNat := by omega
    have hcuts : Cuts RunRow.cursor RunRow.isAfter f.limit.toNat (f.matching policy db.1) :=
      cuts_of_pairwise (fun _ _ => isAfter_cursor) (matching_pairwise db)
    obtain ⟨hreturned, hended⟩ := follow_exact hpos hcuts (policy, db)
      ((f.matching policy db.1).length + 1) [] (f.matching policy db.1) none rfl
      (Nat.dvd_zero _) rfl (Nat.lt_succ_self _)
    obtain ⟨hitems, hends⟩ := walk_same hlimit policy db ((f.matching policy db.1).length + 1)
    exact ⟨_, hends.mpr hended, by rw [hitems, hreturned]⟩
  once := walk_ordered hlimit
  again := by
    intro states
    refine (List.pairwise_map.mp (walk_ordered hlimit states)).imp_of_mem ?_
    rintro a b ha hb hbefore hid
    obtain ⟨s, hs, r, hr, rfl⟩ := mem_walk hlimit ha
    obtain ⟨s', hs', r', hr', rfl⟩ := mem_walk hlimit hb
    refine ⟨s, hs, s', hs', r, (mem_matching.mp hr).1, r', (mem_matching.mp hr').1, rfl, hid.symm,
      ?_⟩
    obtain hlt | ⟨-, hlt⟩ := hbefore
    · exact hlt
    · exact absurd hid.symm hlt.ne
  stays := by
    intro states r hr hended
    have hpos : 0 < f.limit.toNat := by omega
    have hafter : ∀ r x : RunRow, x.isAfter r.cursor = true ↔ r.Before x :=
      fun _ _ => isAfter_cursor
    have hlist : ∀ s : PolicyTables × RunsDb, (f.matchingIn s).Pairwise RunRow.Before :=
      fun s => matching_pairwise s.2
    obtain ⟨hplaces, hends⟩ := walk_places hlimit states
    have hmem : r.place ∈ (returned (f.walk states)).map RunListItem.place := by
      rw [hplaces]
      exact List.mem_map_of_mem
        (mem_follow hpos hafter hlist states none hr (by simp) (hends.mp hended))
    obtain ⟨item, hitem, hplace⟩ := List.mem_map.mp hmem
    obtain ⟨s, hs, r', hr', rfl⟩ := mem_walk hlimit hitem
    -- an id is the key of a run
    have heq : r' = r := List.inj_on_of_nodup_map s.2.2.runKey (mem_matching.mp hr').1
      (mem_matching.mp (hr s hs)).1 (congrArg Prod.snd hplace)
    exact ⟨s, hs, heq ▸ hitem⟩
  cursor := decodeCursor_encodeCursor

end

/-- Every run, one to a page. -/
def oneByOne : RunListFilter where
  visibility := .full
  project := none
  suite := none
  tag := none
  branch := none
  sinceMs := none
  untilMs := none
  status := none
  cached := none
  origin := none
  actor := none
  limit := 1
  cursor := none

theorem oneByOne_exact : RunListExact oneByOne := run_list_exact (by decide)

/-! ### A run that is uploaded again -/

/-- The database after an upload. -/
def RunsDb.upload (db : RunsDb) (p : PreparedRun) : RunsDb :=
  ⟨(ingestRun db.1 p Ingest.epoch).1, ingestRun_wellFormed db.2 p Ingest.epoch⟩

/-- The database without a run. -/
def RunsDb.delete (db : RunsDb) (id : String) : RunsDb :=
  ⟨db.1.deleteRun id, deleteRun_wellFormed db.2 id⟩

/-- A run of an empty suite. -/
def runAt (id : String) (createdAt : I64) : PreparedRun :=
  { Ingest.bareUpload with row := { Ingest.bareUpload.row with id, createdAt } }

theorem restrictionKey_nil : (([] : List RestrictionRow).map RestrictionRow.key).Nodup :=
  List.nodup_nil

theorem grantKey_nil : (([] : List GrantRow).map GrantRow.key).Nodup := List.nodup_nil

/-- Nothing is restricted. -/
def noPolicy : PolicyTables := ⟨[], [], restrictionKey_nil, grantKey_nil⟩

/-- Two runs; the newer one is then deleted, and uploaded again as an older one. -/
def twoRuns : RunsDb :=
  (Ingest.emptyRuns.upload (runAt "r0" Ingest.epoch)).upload (runAt "r1" ⟨2, by decide⟩)

def reuploaded : RunsDb := (twoRuns.delete "r1").upload (runAt "r1" ⟨1, by decide⟩)

/-- **A run that is uploaded again as an older one comes a second time.** -/
theorem reuploaded_run_comes_twice :
    (returned (oneByOne.walk [(noPolicy, twoRuns), (noPolicy, reuploaded)])).map RunListItem.id =
      ["r1", "r1"] := by
  have hfirst : (oneByOne.page (noPolicy, twoRuns) none).rows.map RunListItem.id = ["r1"] ∧
      (oneByOne.page (noPolicy, twoRuns) none).next = some (encodeCursor 2 "r1") := ⟨rfl, rfl⟩
  -- the run comes after the cursor that it left, as an older one
  have hcursor : decodeCursor (encodeCursor 2 "r1") = some (⟨2, by decide⟩, "r1") :=
    decodeCursor_encodeCursor ⟨2, by decide⟩ "r1"
  have hsecond : (oneByOne.page (noPolicy, reuploaded) (some (encodeCursor 2 "r1"))).rows.map
      RunListItem.id = ["r1"] := by
    rw [RunListFilter.page, Option.bind_some, hcursor]
    rfl
  rw [RunListFilter.walk, follow_more hfirst.2, returned_cons, List.map_append, hfirst.1, follow,
    returned_cons, List.map_append, hsecond]
  cases (oneByOne.page (noPolicy, reuploaded) (some (encodeCursor 2 "r1"))).next <;> rfl
