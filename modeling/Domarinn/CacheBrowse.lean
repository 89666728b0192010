/-
Browsing the cache: the list of its entries, page by page, as SQLite answers it.

The list is in the order of a column, entries of one value in the order of their keys, and a
page ends at the value and the key of its last entry.  The value is read off the row; for the
sum of the tokens it is added up once more, in 64 bits, where the database goes over to a
double when a sum does not fit.

* **`listEntries_page_eq`** — a page of the list is a page of the entries that match;
* **`browse_exact_iff`** — the pages return the list exactly when no sum that wraps moves the
  end of a page;
* **`sums_keep_ends`** — so they do where the sums of the entries listed fit 64 bits;
* **`wrapped_sum_loses_entry`** — the largest count and one more token, and the entry after.
-/
import Domarinn.CacheTable
import Domarinn.Cursors
import Domarinn.Double
import Domarinn.Keyset
import Domarinn.RunSearch
import Mathlib.Data.String.Basic
import Mathlib.Data.Sum.Order

open Sql Keyset

/-! ### The query -/

inductive CacheSort where
  | created
  | lastAccess
  | size
  | cost
  | kind
  | model
  | tokens
  | key
deriving DecidableEq

inductive SortOrder where
  | asc
  | desc
deriving DecidableEq

structure CacheListFilter where
  kind : Option String
  model : Option String
  emptyReason : Option String
  q : Option String
  since : Option ℤ
  «until» : Option ℤ
  minCostMicrousd : Option ℤ
  maxCostMicrousd : Option ℤ
  sort : CacheSort
  order : SortOrder
  limit : ℤ
  cursor : Option (CursorValue × String)

structure CacheEntryListItem where
  key : String
  size : ℤ
  createdAt : ℤ
  lastAccessAt : Option ℤ
  entryCreatedAt : Option ℤ
  indexed : Bool
  parseable : Option Bool
  kind : Option String
  model : Option String
  costUsd : Option ℚ
  inputTokens : Option ℤ
  outputTokens : Option ℤ
  requestSummary : Option String
  outputPreview : Option String
  emptyReason : Option String

structure CacheEntryListResponse where
  entries : List CacheEntryListItem
  nextCursor : Option String
  truncated : Bool

/-- A value that the database compares: numbers as numbers, and before every text. -/
abbrev SqlValue : Type := ℚ ⊕ₗ String

def SqlValue.num (q : ℚ) : SqlValue := toLex (.inl q)

def SqlValue.text (t : String) : SqlValue := toLex (.inr t)

/-- The double nearest to a number far below the greatest. -/
def nearestDouble (q : ℚ) : ℚ := Double.roundTiesEven (q / Double.ulp q) * Double.ulp q

/-- `a + b`, which is a double where it is no 64-bit number. -/
def sqlAdd (a b : ℤ) : ℚ :=
  if -2 ^ 63 ≤ a + b ∧ a + b < 2 ^ 63 then (a + b : ℤ)
  else nearestDouble (nearestDouble a + nearestDouble b)

/-- `CacheSort::column`: the column that the list is in order of. -/
def CacheSort.column (e : CacheRow) : CacheSort → Option SqlValue
  | .created => some (.num e.createdAt)
  | .lastAccess => some (.num e.lastAccessAt)
  | .size => some (.num e.size)
  | .cost => e.columns.costMicrousd.map fun (cost : ℤ) => .num cost
  | .kind => e.columns.kind.map .text
  | .model => e.columns.model.map .text
  | .tokens => do
    let input ← e.columns.inputTokens
    let output ← e.columns.outputTokens
    return .num (sqlAdd input output)
  | .key => some (.text e.key)

def CacheSort.requiresNonNull : CacheSort → Bool
  | .cost | .kind | .model | .tokens => true
  | _ => false

/-- A text column that may not be NULL. -/
def textColumn (name : String) : Option String → Except String CursorValue
  | some t => .ok (.text t)
  | none => .error (name ++ " is NULL")

/-- `sort_value`: the same value, off the row. -/
def CacheSort.sortValue (e : CacheRow) : CacheSort → Except String CursorValue
  | .created => .ok (.int e.createdAt)
  | .lastAccess => .ok (.int e.lastAccessAt)
  | .size => .ok (.int e.size)
  | .cost => .ok (.int (e.columns.costMicrousd.getD 0))
  | .kind => textColumn "kind" e.columns.kind
  | .model => textColumn "model" e.columns.model
  | .tokens => .ok (.int
      (wrappingAdd (e.columns.inputTokens.getD 0) (e.columns.outputTokens.getD 0)))
  | .key => .ok (.text e.key)

/-- A cursor's value, as an argument of the statement. -/
def CursorValue.toSql : CursorValue → SqlValue
  | .int v => .num v
  | .text t => .text t

/-- `cache_query`: the runs of letters and digits. -/
def cacheQuery (isAlphanumeric : Char → Bool) (input : String) : Option (List String) :=
  let tokens := (input.toList.splitOnP fun c => !isAlphanumeric c).filter (· ≠ [])
  if tokens.isEmpty then none else some (tokens.map String.ofList)

/-- The engine of the search box, and what counts as a letter or a digit. -/
structure CacheSearch where
  isAlphanumeric : Char → Bool
  engine : FtsEngine CacheFtsRow

/-- `kind=unindexed`, `kind=unparseable`, or a kind. -/
def kindClause (kind : String) (e : CacheRow) : Truth :=
  if kind = "unindexed" then isNull e.indexedAt
  else if kind = "unparseable" then eq e.indexOk (some 0)
  else eq e.columns.kind (some kind)

/-- The clauses of the search box; none where it holds nothing to search for. -/
def CacheListFilter.searchClauses (f : CacheListFilter) (search : CacheSearch)
    (t : CacheTables) : Option (List (CacheRow → Truth)) :=
  match f.q with
  | none => some []
  | some q => (cacheQuery search.isAlphanumeric q).map fun tokens =>
      [fun e => inRows (some e.rowid) ((select t.fts fun x =>
        .ofBool (search.engine.isMatch tokens x)).map fun x => some x.rowid)]

/-- The other clauses of the filter. -/
def CacheListFilter.clauses (f : CacheListFilter) : List (CacheRow → Truth) :=
  List.flatten
    [clauseFor f.kind kindClause,
      clauseFor f.model fun model e => eq e.columns.model (some model),
      clauseFor f.emptyReason fun reason e => eq e.columns.emptyReason (some reason),
      clauseFor f.since fun since e => le (some since) (some e.createdAt),
      clauseFor f.«until» fun until_ e => le (some e.createdAt) (some until_),
      clauseFor f.minCostMicrousd fun min e => le (some min) e.columns.costMicrousd,
      clauseFor f.maxCostMicrousd fun max e => le e.columns.costMicrousd (some max)]

/-- A column that may be NULL is not the order of a row where it is. -/
def CacheListFilter.nonNull (f : CacheListFilter) : List (CacheRow → Truth) :=
  if f.sort.requiresNonNull then [fun e => (isNull (f.sort.column e)).not] else []

/-- `<` or `>`. -/
def SortOrder.comparison {α : Type} [LT α] [DecidableLT α] (order : SortOrder)
    (a b : Option α) : Truth :=
  match order with
  | .desc => lt a b
  | .asc => lt b a

/-- The clause of a cursor. -/
def CacheListFilter.afterEntry (f : CacheListFilter) (cursor : CursorValue × String)
    (e : CacheRow) : Truth :=
  (f.order.comparison (f.sort.column e) (some cursor.1.toSql)).or
    ((eq (f.sort.column e) (some cursor.1.toSql)).and
      (f.order.comparison (some e.key) (some cursor.2)))

/-- Where an entry stands in the list: its value, NULL the least, and its key. -/
abbrev Place : Type := WithBot SqlValue ×ₗ String

def CacheSort.place (sort : CacheSort) (e : CacheRow) : Place :=
  toLex ((sort.column e : WithBot SqlValue), e.key)

/-- `ORDER BY column, key`, both in the one direction. -/
def SortOrder.Orders (order : SortOrder) (a b : Place) : Prop :=
  match order with
  | .asc => a ≤ b
  | .desc => b ≤ a

instance (order : SortOrder) : DecidableRel order.Orders := fun a b =>
  match order with
  | .asc => inferInstanceAs (Decidable (a ≤ b))
  | .desc => inferInstanceAs (Decidable (b ≤ a))

/-- `row_to_item`. -/
def CacheRow.toItem (e : CacheRow) : CacheEntryListItem where
  key := e.key
  size := e.size
  createdAt := e.createdAt
  lastAccessAt := some e.lastAccessAt
  entryCreatedAt := e.columns.entryCreatedAt
  indexed := e.indexedAt.isSome
  parseable := e.indexOk.map (· ≠ 0)
  kind := e.columns.kind
  model := e.columns.model
  costUsd := fromMicrousd e.columns.costMicrousd
  inputTokens := e.columns.inputTokens
  outputTokens := e.columns.outputTokens
  requestSummary := e.columns.requestSummary
  outputPreview := e.columns.outputPreview
  emptyReason := e.columns.emptyReason

/-- The response from the rows that were read, one of them more than the page. -/
def CacheListFilter.respond (f : CacheListFilter) (rows : List CacheRow) :
    Except String CacheEntryListResponse := do
  let fetched ← rows.mapM fun e => (f.sort.sortValue e).map fun value => (e, value)
  let page := if f.limit < fetched.length then fetched.take f.limit.toNat else fetched
  return {
    entries := page.map fun row => row.1.toItem
    nextCursor := if f.limit < fetched.length then
        page.getLast?.map fun row => encodeEntryCursor row.2 row.1.key
      else none
    truncated := false }

/-- `list_entries`. -/
def listEntries (search : CacheSearch) (t : CacheTables) (f : CacheListFilter) :
    Except String CacheEntryListResponse :=
  match f.searchClauses search t with
  | none => .ok ⟨[], none, false⟩
  | some found => f.respond (Sql.limit (f.limit + 1)
      (orderBy (fun a b => f.order.Orders (f.sort.place a) (f.sort.place b))
        (select t.entries (allOf (f.clauses ++ found ++ f.nonNull ++
          clauseFor f.cursor f.afterEntry)))))

/-! ### The list and its pages -/

/-- What the integer columns of a row can hold. -/
structure CacheRow.Fits (e : CacheRow) : Prop where
  createdAt : FitsI64 e.createdAt
  lastAccessAt : FitsI64 e.lastAccessAt
  size : FitsI64 e.size
  cost : ∀ n ∈ e.columns.costMicrousd, FitsI64 n
  input : ∀ n ∈ e.columns.inputTokens, FitsI64 n
  output : ∀ n ∈ e.columns.outputTokens, FitsI64 n

/-- The tables as they are stored. -/
abbrev StoredCache := {t : CacheTables // ∀ e ∈ t.entries, e.Fits}

/-- The entries that match and have a value, in order. -/
def CacheListFilter.matching (f : CacheListFilter) (search : CacheSearch) (t : CacheTables) :
    List CacheRow :=
  match f.searchClauses search t with
  | none => []
  | some found => orderBy (fun a b => f.order.Orders (f.sort.place a) (f.sort.place b))
      (select t.entries (allOf (f.clauses ++ found ++ f.nonNull)))

/-- `cache_list_entries` under the cursor of a request; one that cannot be read counts as
none. -/
def CacheListFilter.page (f : CacheListFilter) (search : CacheSearch) (t : CacheTables) (_ : Unit)
    (cursor : Option String) : Page CacheEntryListItem String :=
  match listEntries search t { f with cursor := cursor.bind decodeEntryCursor } with
  | .ok response => ⟨response.entries, response.nextCursor⟩
  | .error _ => ⟨[], none⟩

/-- One place comes before another. -/
def SortOrder.Precedes (order : SortOrder) (a b : Place) : Prop :=
  match order with
  | .asc => a < b
  | .desc => b < a

instance (order : SortOrder) : DecidableRel order.Precedes := fun a b =>
  match order with
  | .asc => inferInstanceAs (Decidable (a < b))
  | .desc => inferInstanceAs (Decidable (b < a))

/-- An entry with both counts, at the sum of them in 64 bits. -/
def CacheRow.wrappedPlace (e : CacheRow) : Place :=
  toLex (((SqlValue.num (wrappingAdd (e.columns.inputTokens.getD 0)
    (e.columns.outputTokens.getD 0)) : SqlValue) : WithBot SqlValue), e.key)

/-- Where a page ends, the sum in 64 bits does not go before the last entry of the page, and
still goes before the next one. -/
def CacheListFilter.SumsKeepEnds (f : CacheListFilter) (search : CacheSearch) (t : CacheTables) :
    Prop :=
  f.sort = .tokens → ∀ front a b back, f.matching search t = front ++ a :: b :: back →
    f.limit.toNat ∣ front.length + 1 →
      ¬ f.order.Precedes a.wrappedPlace (f.sort.place a) ∧
        f.order.Precedes a.wrappedPlace (f.sort.place b)

/-- The list, its pages and their cursors. -/
structure BrowseExact (f : CacheListFilter) (search : CacheSearch) (t : CacheTables) : Prop where
  /-- The list: the entries that match and have a value, each once, in order. -/
  list : ((f.matching search t).map f.sort.place).Pairwise f.order.Precedes ∧
    ∀ e, e ∈ f.matching search t ↔ e ∈ t.entries ∧ (f.sort.column e).isSome = true ∧
      ∃ found ∈ f.searchClauses search t, ∀ clause ∈ f.clauses ++ found, (clause e).IsTrue
  /-- No request fails. -/
  answered : ∀ cursor, ∃ response, listEntries search t { f with cursor } = .ok response
  /-- The pages, followed from the first, end, and return the list. -/
  pages : ∃ n, Ended (follow (f.page search t) none (.replicate n ())) ∧
    returned (follow (f.page search t) none (.replicate n ())) =
      (f.matching search t).map CacheRow.toItem
  /-- What was encoded is decoded, numbers as numbers and texts as texts. -/
  cursor : ∀ v : CursorValue, v.Fits → ∀ key,
    decodeEntryCursor (encodeEntryCursor v key) = some (v, key)

/-! ### Places and cursors -/

section
variable {order : SortOrder}

instance : IsStrictOrder Place order.Precedes where
  irrefl := by
    cases order <;> exact fun a => lt_irrefl a
  trans := by
    cases order with
    | asc => exact fun _ _ _ => lt_trans
    | desc => exact fun _ _ _ hab hbc => hbc.trans hab

instance : Std.Total order.Orders where
  total := by
    cases order with
    | asc => exact fun a b => le_total a b
    | desc => exact fun a b => le_total b a

instance : IsTrans Place order.Orders where
  trans := by
    cases order with
    | asc => exact fun _ _ _ => le_trans
    | desc => exact fun _ _ _ hab hbc => hbc.trans hab

theorem precedes_of_orders {a b : Place} (h : order.Orders a b) (hne : a ≠ b) :
    order.Precedes a b := by
  cases order with
  | asc => exact lt_of_le_of_ne h hne
  | desc => exact lt_of_le_of_ne h hne.symm

theorem precedes_orders {a b : Place} (h : order.Precedes a b) : order.Orders a b := by
  cases order with
  | asc => exact le_of_lt h
  | desc => exact le_of_lt h

theorem precedes_trans_orders {a b c : Place} (hab : order.Precedes a b) (hbc : order.Orders b c) :
    order.Precedes a c := by
  cases order with
  | asc => exact lt_of_lt_of_le hab hbc
  | desc => exact lt_of_le_of_lt hbc hab

end

/-- The place that a cursor names. -/
def CursorValue.placeOf (v : CursorValue) (key : String) : Place :=
  toLex ((v.toSql : WithBot SqlValue), key)

/-- An entry comes after a cursor; after one that cannot be read, every entry does. -/
def CacheListFilter.isAfter (f : CacheListFilter) (cursor : String) (e : CacheRow) : Bool :=
  match decodeEntryCursor cursor with
  | none => true
  | some (v, key) => decide (f.order.Precedes (v.placeOf key) (f.sort.place e))

/-- The value that a row's cursor carries. -/
def CacheSort.cursorValue (sort : CacheSort) (e : CacheRow) : CursorValue :=
  match sort.sortValue e with
  | .ok v => v
  | .error _ => .int 0

/-- The cursor that an entry leaves. -/
def CacheSort.cursorOf (sort : CacheSort) (e : CacheRow) : String :=
  encodeEntryCursor (sort.cursorValue e) e.key

section
variable {f : CacheListFilter} {search : CacheSearch} {t : CacheTables} {e : CacheRow}

/-- The clause of a cursor compares places, where the row has a value. -/
theorem afterEntry_isTrue {c : CursorValue × String} (h : (f.sort.column e).isSome = true) :
    (f.afterEntry c e).IsTrue ↔ f.order.Precedes (c.1.placeOf c.2) (f.sort.place e) := by
  obtain ⟨x, hx⟩ := Option.isSome_iff_exists.mp h
  have hplace : f.sort.place e = toLex ((x : WithBot SqlValue), e.key) := by
    rw [CacheSort.place, hx]
    rfl
  rw [CacheListFilter.afterEntry, hx, hplace, CursorValue.placeOf]
  cases f.order with
  | asc =>
    simp [SortOrder.comparison, SortOrder.Precedes, Prod.Lex.toLex_lt_toLex, eq_comm (a := x)]
  | desc => simp [SortOrder.comparison, SortOrder.Precedes, Prod.Lex.toLex_lt_toLex]

/-- Rows come after a cursor with the rows before them. -/
theorem browse_isAfter_mono (cursor : String) (a b : CacheRow) (ha : f.isAfter cursor a = true)
    (hab : f.order.Orders (f.sort.place a) (f.sort.place b)) : f.isAfter cursor b = true := by
  rw [CacheListFilter.isAfter] at ha ⊢
  cases hread : decodeEntryCursor cursor with
  | none => rfl
  | some c =>
    rw [hread] at ha
    exact decide_eq_true (precedes_trans_orders (of_decide_eq_true ha) hab)

theorem nonNull_isTrue :
    (∀ clause ∈ f.nonNull, (clause e).IsTrue) ↔ (f.sort.column e).isSome = true := by
  rw [CacheListFilter.nonNull]
  split_ifs with hnull
  · rw [List.forall_mem_singleton, Truth.isTrue_not, isFalse_isNull, Option.isSome_iff_ne_none]
  · -- the other columns are never NULL
    refine iff_of_true (by simp) ?_
    cases hs : f.sort <;> first | rfl | exact absurd (by rw [hs]; rfl) hnull

theorem mem_matching_entries : e ∈ f.matching search t ↔
    e ∈ t.entries ∧ (f.sort.column e).isSome = true ∧
      ∃ found ∈ f.searchClauses search t, ∀ clause ∈ f.clauses ++ found, (clause e).IsTrue := by
  rw [CacheListFilter.matching]
  cases f.searchClauses search t with
  | none => simp
  | some found =>
    simp only [mem_orderBy, mem_select, isTrue_allOf, List.forall_mem_append, nonNull_isTrue,
      Option.mem_some_iff, exists_eq_left']
    tauto

/-- A row that is listed has the value of its cursor. -/
theorem sortValue_ok (h : (f.sort.column e).isSome = true) :
    f.sort.sortValue e = .ok (f.sort.cursorValue e) := by
  rw [CacheSort.cursorValue]
  cases hs : f.sort with
  | kind =>
    rw [hs] at h
    obtain ⟨k, hk⟩ := Option.isSome_iff_exists.mp (by simpa [CacheSort.column] using h :
      e.columns.kind.isSome = true)
    rw [CacheSort.sortValue, hk]
    rfl
  | model =>
    rw [hs] at h
    obtain ⟨k, hk⟩ := Option.isSome_iff_exists.mp (by simpa [CacheSort.column] using h :
      e.columns.model.isSome = true)
    rw [CacheSort.sortValue, hk]
    rfl
  | _ => rfl

end

/-! ### A page is a page of the list -/

/-- Reading the values of rows that all have one. -/
theorem mapM_read {α β : Type} {read : α → Except String β} {value : α → β} :
    ∀ {rows : List α}, (∀ r ∈ rows, read r = .ok (value r)) →
      (rows.mapM fun r => (read r).map fun v => (r, v)) = .ok (rows.map fun r => (r, value r))
  | [], _ => rfl
  | r :: rows, h => by
    obtain ⟨hr, hrows⟩ := List.forall_mem_cons.mp h
    rw [List.mapM_cons, mapM_read hrows, hr]
    rfl

section
variable {f : CacheListFilter} {search : CacheSearch} {t : CacheTables}

/-- The rows that a page is made from: what is left of the list. -/
theorem browse_rows {found : List (CacheRow → Truth)}
    (hfound : f.searchClauses search t = some found) (cursor : Option String) :
    orderBy (fun a b => f.order.Orders (f.sort.place a) (f.sort.place b))
      (select t.entries (allOf (f.clauses ++ found ++ f.nonNull ++
        clauseFor (cursor.bind decodeEntryCursor) f.afterEntry))) =
      left f.isAfter (f.matching search t) cursor := by
  have : Std.Total fun a b => f.order.Orders (f.sort.place a) (f.sort.place b) :=
    ⟨fun a b => Std.Total.total (f.sort.place a) (f.sort.place b)⟩
  have : IsTrans CacheRow fun a b => f.order.Orders (f.sort.place a) (f.sort.place b) :=
    ⟨fun _ _ _ => Trans.trans⟩
  have hmatching : f.matching search t = orderBy (fun a b => f.order.Orders (f.sort.place a)
      (f.sort.place b)) (select t.entries (allOf (f.clauses ++ found ++ f.nonNull))) := by
    rw [CacheListFilter.matching, hfound]
  rw [select_append, select, orderBy_filter, ← hmatching]
  cases cursor with
  | none =>
    exact List.filter_eq_self.mpr fun e _ => decide_eq_true (isTrue_allOf.mpr (by simp))
  | some c =>
    refine List.filter_congr fun e he => ?_
    rw [Bool.eq_iff_iff, decide_eq_true_eq, isTrue_allOf, forall_mem_clauseFor, Option.bind_some,
      CacheListFilter.isAfter]
    cases decodeEntryCursor c with
    | none => simp
    | some c =>
      rw [decide_eq_true_eq, ← afterEntry_isTrue (mem_matching_entries.mp he).2.1]
      simp

/-- The response cuts its rows to a page. -/
theorem respond_eq (hlimit : 1 ≤ f.limit) {rest : List CacheRow}
    (hvalue : ∀ e ∈ rest, (f.sort.column e).isSome = true) :
    f.respond (rest.take (f.limit.toNat + 1)) =
      .ok ⟨(pageOf f.sort.cursorOf f.limit.toNat rest).rows.map CacheRow.toItem,
        (pageOf f.sort.cursorOf f.limit.toNat rest).next, false⟩ := by
  have hread := mapM_read fun e he => sortValue_ok (hvalue e (List.mem_of_mem_take
    (show e ∈ rest.take (f.limit.toNat + 1) from he)))
  rw [CacheListFilter.respond, hread]
  obtain ⟨hfull, htake, hle⟩ | ⟨hfull, htake, hlt⟩ := take_row_more (by omega : 0 ≤ f.limit) rest
  · -- everything that is left fits, so the row more is not there
    rw [htake] at hfull ⊢
    rw [pageOf_last hle]
    simp [hfull]
  · rw [pageOf, if_pos hlt]
    simp only [Except.bind, bind, List.length_map, if_pos hfull, ← List.map_take, htake,
      List.map_map, List.getLast?_map, Option.map_map]
    rfl

/-- **A page of the list** is a page of the entries that match. -/
theorem listEntries_page_eq (hlimit : 1 ≤ f.limit) (cursor : Option String) :
    listEntries search t { f with cursor := cursor.bind decodeEntryCursor } =
      .ok ⟨(fetch f.sort.cursorOf f.isAfter f.limit.toNat (fun _ : Unit => f.matching search t) ()
          cursor).rows.map CacheRow.toItem,
        (fetch f.sort.cursorOf f.isAfter f.limit.toNat (fun _ : Unit => f.matching search t) ()
          cursor).next, false⟩ := by
  have hsearch : CacheListFilter.searchClauses { f with cursor := cursor.bind decodeEntryCursor }
      search t = f.searchClauses search t := rfl
  rw [listEntries, hsearch]
  cases hfound : f.searchClauses search t with
  | none =>
    have hnone : f.matching search t = [] := by rw [CacheListFilter.matching, hfound]
    have hleft : left f.isAfter (f.matching search t) cursor = [] := by
      rw [hnone]
      cases cursor <;> rfl
    rw [fetch, hleft, pageOf_last (Nat.zero_le _)]
    rfl
  | some found =>
    have hnonneg : ¬ f.limit + 1 < 0 := by omega
    have hnat : (f.limit + 1).toNat = f.limit.toNat + 1 := by omega
    have hvalue : ∀ e ∈ left f.isAfter (f.matching search t) cursor,
        (f.sort.column e).isSome = true := fun e he =>
      (mem_matching_entries.mp (mem_left.mp he).1).2.1
    show f.respond (Sql.limit (f.limit + 1) (orderBy _ (select t.entries (allOf (f.clauses ++ found
      ++ f.nonNull ++ clauseFor (cursor.bind decodeEntryCursor) f.afterEntry))))) = _
    rw [browse_rows hfound cursor, Sql.limit, if_neg hnonneg, hnat, respond_eq hlimit hvalue]
    rfl

/-- No request fails: every row that is read has a value. -/
theorem listEntries_answers (cursor : Option (CursorValue × String)) :
    ∃ response, listEntries search t { f with cursor } = .ok response := by
  have hsearch : ({ f with cursor } : CacheListFilter).searchClauses search t =
      f.searchClauses search t := rfl
  rw [listEntries, hsearch]
  cases f.searchClauses search t with
  | none => exact ⟨_, rfl⟩
  | some found =>
    set rows := Sql.limit (f.limit + 1)
      (orderBy (fun a b => f.order.Orders (f.sort.place a) (f.sort.place b))
        (select t.entries (allOf (f.clauses ++ found ++ f.nonNull ++
          clauseFor cursor f.afterEntry)))) with hrows
    have hread : ∀ e ∈ rows, f.sort.sortValue e = .ok (f.sort.cursorValue e) := by
      intro e he
      have hclauses := isTrue_allOf.mp (mem_select.mp (mem_orderBy.mp (mem_of_mem_limit he))).2
      refine sortValue_ok (nonNull_isTrue.mp fun clause hclause => hclauses clause ?_)
      exact List.mem_append_left _ (List.mem_append_right _ hclause)
    show ∃ response, f.respond rows = .ok response
    rw [CacheListFilter.respond, mapM_read hread]
    exact ⟨_, rfl⟩

/-- The list is in order, without repetitions: a key is the key of one entry. -/
theorem matching_precedes (f : CacheListFilter) (search : CacheSearch) (t : CacheTables) :
    (f.matching search t).Pairwise fun a b =>
      f.order.Precedes (f.sort.place a) (f.sort.place b) := by
  have : Std.Total fun a b => f.order.Orders (f.sort.place a) (f.sort.place b) :=
    ⟨fun a b => Std.Total.total (f.sort.place a) (f.sort.place b)⟩
  have : IsTrans CacheRow fun a b => f.order.Orders (f.sort.place a) (f.sort.place b) :=
    ⟨fun _ _ _ => Trans.trans⟩
  rw [CacheListFilter.matching]
  cases f.searchClauses search t with
  | none => exact List.Pairwise.nil
  | some found =>
    set rows := select t.entries (allOf (f.clauses ++ found ++ f.nonNull)) with hrows
    have hkeys : ((orderBy (fun a b => f.order.Orders (f.sort.place a) (f.sort.place b)) rows).map
        CacheRow.key).Nodup :=
      ((List.perm_insertionSort _ rows).map CacheRow.key).nodup_iff.mpr
        (t.entryKey.sublist (List.filter_sublist.map _))
    have hordered : (orderBy (fun a b => f.order.Orders (f.sort.place a) (f.sort.place b))
        rows).Pairwise fun a b => f.order.Orders (f.sort.place a) (f.sort.place b) :=
      List.pairwise_insertionSort _ rows
    refine hordered.imp₂ (fun a b hab hne => precedes_of_orders hab fun hplace => hne ?_)
      (List.pairwise_map.mp hkeys)
    exact congrArg Prod.snd hplace

theorem matching_nodup : (f.matching search t).Nodup := by
  refine List.Pairwise.imp (fun {a b} hab => ?_) (matching_precedes f search t)
  rintro rfl
  exact Std.Irrefl.irrefl _ hab

/-! ### Where pages end -/

variable {e : CacheRow}

theorem CacheRow.Fits.cursorValue (h : e.Fits) (sort : CacheSort) : (sort.cursorValue e).Fits := by
  have hzero : FitsI64 0 := ⟨by decide, by decide⟩
  cases sort with
  | created => exact h.createdAt
  | lastAccess => exact h.lastAccessAt
  | size => exact h.size
  | cost =>
    show FitsI64 (e.columns.costMicrousd.getD 0)
    cases hcost : e.columns.costMicrousd with
    | none => exact hzero
    | some n => exact h.cost n hcost
  | kind =>
    rw [CacheSort.cursorValue, CacheSort.sortValue]
    cases e.columns.kind with
    | none => exact hzero
    | some k => trivial
  | model =>
    rw [CacheSort.cursorValue, CacheSort.sortValue]
    cases e.columns.model with
    | none => exact hzero
    | some m => trivial
  | tokens =>
    exact ⟨Int.le_bmod (by decide), Int.bmod_lt (by decide)⟩
  | key => trivial

/-- The cursor of an entry compares with the place that it names. -/
theorem isAfter_cursorOf (h : e.Fits) (x : CacheRow) : f.isAfter (f.sort.cursorOf e) x =
    decide (f.order.Precedes ((f.sort.cursorValue e).placeOf e.key) (f.sort.place x)) := by
  rw [CacheListFilter.isAfter, CacheSort.cursorOf,
    decodeEntryCursor_encodeEntryCursor (h.cursorValue f.sort)]

/-- Off the row comes the value that the list is in order of, unless it is a sum. -/
theorem placeOf_cursorValue (hsort : f.sort ≠ .tokens) (h : (f.sort.column e).isSome = true) :
    (f.sort.cursorValue e).placeOf e.key = f.sort.place e := by
  have hvalue : ∀ sort : CacheSort, sort ≠ .tokens → (sort.column e).isSome = true →
      some (sort.cursorValue e).toSql = sort.column e := by
    intro sort hsort h
    cases sort with
    | tokens => exact absurd rfl hsort
    | cost =>
      obtain ⟨n, hn⟩ := Option.isSome_iff_exists.mp (Option.isSome_map.symm.trans h)
      rw [CacheSort.cursorValue, CacheSort.sortValue, CacheSort.column, hn]
      rfl
    | kind =>
      obtain ⟨k, hk⟩ := Option.isSome_iff_exists.mp (Option.isSome_map.symm.trans h)
      rw [CacheSort.cursorValue, CacheSort.sortValue, CacheSort.column, hk]
      rfl
    | model =>
      obtain ⟨m, hm⟩ := Option.isSome_iff_exists.mp (Option.isSome_map.symm.trans h)
      rw [CacheSort.cursorValue, CacheSort.sortValue, CacheSort.column, hm]
      rfl
    | _ => rfl
  rw [CacheSort.place, ← hvalue f.sort hsort h]
  rfl

theorem placeOf_tokens (hsort : f.sort = .tokens) :
    (f.sort.cursorValue e).placeOf e.key = e.wrappedPlace := by
  rw [hsort]
  rfl

/-- Pages are cut right exactly when no sum that wraps moves the end of one. -/
theorem browse_cuts_iff (hfits : ∀ e ∈ t.entries, e.Fits) :
    Cuts f.sort.cursorOf f.isAfter f.limit.toNat (f.matching search t) ↔
      f.SumsKeepEnds search t := by
  have hordered : (f.matching search t).Pairwise fun a b =>
      f.order.Orders (f.sort.place a) (f.sort.place b) :=
    (matching_precedes f search t).imp precedes_orders
  rw [cuts_iff_ends matching_nodup hordered browse_isAfter_mono, CacheListFilter.SumsKeepEnds]
  have hends : ∀ front a b back, f.matching search t = front ++ a :: b :: back →
      (f.isAfter (f.sort.cursorOf a) a = false ∧ f.isAfter (f.sort.cursorOf a) b = true ↔
        ¬ f.order.Precedes ((f.sort.cursorValue a).placeOf a.key) (f.sort.place a) ∧
          f.order.Precedes ((f.sort.cursorValue a).placeOf a.key) (f.sort.place b)) := by
    intro front a b back hsplit
    have ha : a ∈ f.matching search t := hsplit ▸ by simp
    have hfit := hfits a (mem_matching_entries.mp ha).1
    rw [isAfter_cursorOf hfit, isAfter_cursorOf hfit, decide_eq_false_iff_not, decide_eq_true_eq]
  by_cases hsort : f.sort = .tokens
  · simp only [hsort, true_imp_iff]
    refine forall₄_congr fun front a b back => forall_congr' fun hsplit => ?_
    have hwrapped := hends front a b back hsplit
    rw [placeOf_tokens hsort, hsort] at hwrapped
    rw [← hwrapped]
  · -- the value of any other column is the one the list is in order of
    refine iff_of_true (fun front a b back hsplit _ => ?_) (fun h => absurd h hsort)
    have ha : a ∈ f.matching search t := hsplit ▸ by simp
    have hab := matching_precedes f search t
    rw [hsplit] at hab
    have hrest := (List.pairwise_cons.mp (List.pairwise_append.mp hab).2.1).1
    rw [hends front a b back hsplit, placeOf_cursorValue hsort (mem_matching_entries.mp ha).2.1]
    exact ⟨Std.Irrefl.irrefl _, hrest b List.mem_cons_self⟩

/-- The pages of an unchanging table, as pages of its list. -/
theorem browse_follow (search : CacheSearch) (t : CacheTables) (hlimit : 1 ≤ f.limit) (n : ℕ) :
    returned (follow (f.page search t) none (.replicate n ())) =
        (returned (follow (fetch f.sort.cursorOf f.isAfter f.limit.toNat
          fun _ => f.matching search t) none (.replicate n ()))).map CacheRow.toItem ∧
      (Ended (follow (f.page search t) none (.replicate n ())) ↔
        Ended (follow (fetch f.sort.cursorOf f.isAfter f.limit.toNat
          fun _ => f.matching search t) none (.replicate n ()))) := by
  rw [← List.map_id (returned (follow (f.page search t) none _))]
  refine follow_map (fun u _ c => ?_) (fun u _ c => ?_) none
  · rw [CacheListFilter.page, listEntries_page_eq hlimit]
  · rw [CacheListFilter.page, listEntries_page_eq hlimit, List.map_id]

/-- Entries of one table with the same keys are the same. -/
theorem eq_of_keys : ∀ {rows rows' : List CacheRow}, (∀ e ∈ rows, e ∈ t.entries) →
    (∀ e ∈ rows', e ∈ t.entries) → rows.map CacheRow.key = rows'.map CacheRow.key → rows = rows'
  | [], [], _, _, _ => rfl
  | [], _ :: _, _, _, h => by cases h
  | _ :: _, [], _, _, h => by cases h
  | e :: rows, e' :: rows', hrows, hrows', h => by
    obtain ⟨hkey, hkeys⟩ := List.cons.inj h
    obtain ⟨he, hrows⟩ := List.forall_mem_cons.mp hrows
    obtain ⟨he', hrows'⟩ := List.forall_mem_cons.mp hrows'
    rw [t.eq_of_key he he' hkey, eq_of_keys hrows hrows' hkeys]

end

/-- Pages that return the list are cut right. -/
theorem BrowseExact.cuts {f : CacheListFilter} {search : CacheSearch} {t : CacheTables}
    (hlimit : 1 ≤ f.limit) (h : BrowseExact f search t) :
    Cuts f.sort.cursorOf f.isAfter f.limit.toNat (f.matching search t) := by
  have hpos : 0 < f.limit.toNat := by omega
  obtain ⟨n, -, hreturned⟩ := h.pages
  rw [(browse_follow search t hlimit n).1] at hreturned
  have hmem : ∀ e ∈ f.matching search t, e ∈ t.entries := fun e he =>
    (mem_matching_entries.mp he).1
  -- an item shows the key of its entry
  have hrows : returned (follow (fetch f.sort.cursorOf f.isAfter f.limit.toNat
      fun _ => f.matching search t) none (.replicate n ())) = f.matching search t := by
    refine eq_of_keys (fun e he => ?_) hmem ?_
    · obtain ⟨_, _, c, hpage⟩ := mem_returned_follow he
      exact hmem e (mem_left.mp (List.mem_of_mem_take hpage)).1
    · have hkeys := congrArg (List.map CacheEntryListItem.key) hreturned
      rwa [List.map_map, List.map_map] at hkeys
  have hordered : (f.matching search t).Pairwise fun a b =>
      f.order.Orders (f.sort.place a) (f.sort.place b) :=
    (matching_precedes f search t).imp precedes_orders
  exact cuts_of_returned hpos matching_nodup
    (fun e _ => filter_suffix (browse_isAfter_mono (f.sort.cursorOf e)) hordered) () n
    (f.matching search t) none (List.suffix_refl _) rfl hrows

/-- **The pages return the list exactly when no sum that wraps moves the end of a page.** -/
theorem browse_exact_iff (f : CacheListFilter) (search : CacheSearch) (db : StoredCache)
    (hlimit : 1 ≤ f.limit) : BrowseExact f search db.1 ↔ f.SumsKeepEnds search db.1 := by
  have hpos : 0 < f.limit.toNat := by omega
  rw [← browse_cuts_iff db.2]
  refine ⟨fun h => h.cuts hlimit, fun hcuts => ?_⟩
  obtain ⟨hreturned, hended⟩ := follow_exact hpos hcuts ()
    ((f.matching search db.1).length + 1) [] (f.matching search db.1) none rfl
    (Nat.dvd_zero _) rfl (Nat.lt_succ_self _)
  obtain ⟨hitems, hends⟩ := browse_follow search db.1 hlimit
    ((f.matching search db.1).length + 1)
  exact
    { list := ⟨List.pairwise_map.mpr (matching_precedes f search db.1),
        fun _ => mem_matching_entries⟩
      answered := listEntries_answers
      pages := ⟨_, hends.mpr hended, by rw [hitems, hreturned]⟩
      cursor := fun v hv key => decodeEntryCursor_encodeEntryCursor hv key }

/-- A sum that fits 64 bits is the same in both. -/
theorem wrappingAdd_eq {a b : ℤ} (h : FitsI64 (a + b)) : sqlAdd a b = wrappingAdd a b := by
  have hwrap : wrappingAdd a b = a + b := by
    have hlo : -(((2 ^ 64 : ℕ) : ℤ) / 2) ≤ a + b := h.1
    have hhi : a + b < (((2 ^ 64 : ℕ) : ℤ) + 1) / 2 := h.2
    exact Int.bmod_eq_of_le hlo hhi
  have hfits : -2 ^ 63 ≤ a + b ∧ a + b < 2 ^ 63 := h
  rw [sqlAdd, if_pos hfits, hwrap]

/-- Sums that fit 64 bits move no page. -/
theorem sums_keep_ends (f : CacheListFilter) (search : CacheSearch) (t : CacheTables)
    (hsums : ∀ e ∈ f.matching search t, ∀ input ∈ e.columns.inputTokens,
      ∀ output ∈ e.columns.outputTokens, FitsI64 (input + output)) :
    f.SumsKeepEnds search t := by
  intro hsort front a b back hsplit _
  have ha : a ∈ f.matching search t := hsplit ▸ by simp
  have hplace : a.wrappedPlace = f.sort.place a := by
    have hvalue := (mem_matching_entries.mp ha).2.1
    rw [CacheSort.place, CacheRow.wrappedPlace]
    rw [hsort] at hvalue ⊢
    have hfit := hsums a ha
    cases hin : a.columns.inputTokens with
    | none =>
      rw [CacheSort.column, hin] at hvalue
      cases hvalue
    | some input =>
      cases hout : a.columns.outputTokens with
      | none =>
        rw [CacheSort.column, hin, hout] at hvalue
        cases hvalue
      | some output =>
        have hsum := wrappingAdd_eq (hfit input hin output hout)
        rw [CacheSort.column, hin, hout, Option.getD_some, Option.getD_some, ← hsum]
        rfl
  have hordered := matching_precedes f search t
  rw [hsplit] at hordered
  rw [hplace]
  exact ⟨Std.Irrefl.irrefl _,
    (List.pairwise_cons.mp (List.pairwise_append.mp hordered).2.1).1 b List.mem_cons_self⟩

/-! ### A sum that wraps -/

/-- An entry with these counts. -/
def countedEntry (rowid : ℤ) (key : String) (input output : ℤ) : CacheRow where
  rowid := rowid
  key := key
  body := []
  size := 0
  createdAt := 0
  lastAccessAt := 0
  indexedAt := some 0
  reindexedAt := some 0
  indexOk := some 1
  columns := { IndexColumns.absent with inputTokens := some input, outputTokens := some output }

/-- The largest count with one more token, and an entry without tokens. -/
def hugeSum : StoredCache where
  val :=
    { entries := [countedEntry 1 "k1" (2 ^ 63 - 1) 1, countedEntry 2 "k0" 0 0]
      fts := []
      hits := 0
      misses := 0
      entryKey := by decide
      rowidKey := by decide
      ftsKey := List.nodup_nil }
  property := by
    have hcounted : ∀ rowid key input output, FitsI64 input → FitsI64 output →
        (countedEntry rowid key input output).Fits := by
      intro rowid key input output hin hout
      have hzero : FitsI64 0 := ⟨by decide, by decide⟩
      refine ⟨hzero, hzero, hzero, ?_, ?_, ?_⟩
      · rintro n ⟨⟩
      · rintro n ⟨⟩
        exact hin
      · rintro n ⟨⟩
        exact hout
    rintro e (_ | ⟨_, (_ | ⟨_, ⟨⟩⟩)⟩)
    · exact hcounted _ _ _ _ ⟨by decide, by decide⟩ ⟨by decide, by decide⟩
    · exact hcounted _ _ _ _ ⟨by decide, by decide⟩ ⟨by decide, by decide⟩

/-- The entries with the most tokens first, one to a page. -/
def mostTokens : CacheListFilter where
  kind := none
  model := none
  emptyReason := none
  q := none
  since := none
  «until» := none
  minCostMicrousd := none
  maxCostMicrousd := none
  sort := .tokens
  order := .desc
  limit := 1
  cursor := none

/-- A search box that is not used. -/
def noSearch : CacheSearch := ⟨Char.isAlphanum, ⟨fun _ _ => false, fun _ _ => "", fun _ _ _ => 0⟩⟩

theorem mostTokens_matching (n : ℤ) :
    ({ mostTokens with limit := n } : CacheListFilter).matching noSearch hugeSum.1 =
      [countedEntry 1 "k1" (2 ^ 63 - 1) 1, countedEntry 2 "k0" 0 0] := by
  show mostTokens.matching noSearch hugeSum.1 = _
  decide +kernel

/-- On one page, both are listed. -/
theorem hugeSum_on_one_page : BrowseExact { mostTokens with limit := 2 } noSearch hugeSum.1 := by
  refine (browse_exact_iff _ noSearch hugeSum (by decide)).mpr ?_
  intro _ front a b back hsplit hdvd
  rw [mostTokens_matching] at hsplit
  have hlength := congrArg List.length hsplit
  simp only [List.length_append, List.length_cons, List.length_nil] at hlength
  have hfront : front.length = 0 := by omega
  rw [hfront] at hdvd
  exact absurd hdvd (by decide)

/-- **A sum that wraps loses the entries after it.** -/
theorem wrapped_sum_loses_entry : ¬ BrowseExact mostTokens noSearch hugeSum.1 := by
  intro h
  have hcuts := h.cuts (by decide) [] (countedEntry 1 "k1" (2 ^ 63 - 1) 1)
    [countedEntry 2 "k0" 0 0] (mostTokens_matching 1) (by simp) (by decide)
  have hleft : mostTokens.isAfter (mostTokens.sort.cursorOf (countedEntry 1 "k1" (2 ^ 63 - 1) 1))
      (countedEntry 2 "k0" 0 0) = true := by
    have hmem : countedEntry 2 "k0" 0 0 ∈ [countedEntry 2 "k0" 0 0] := List.mem_cons_self
    rw [← hcuts] at hmem
    exact (List.mem_filter.mp hmem).2
  rw [isAfter_cursorOf (hugeSum.2 _ List.mem_cons_self)] at hleft
  exact absurd hleft (by decide +kernel)
