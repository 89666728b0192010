/-
Browsing a directory of cache files, a snapshot of it at a time.

There is no index here: the rows of a snapshot are filtered and sorted in memory, and the cursor
of a page is found again by the position of its key.  Between two pages the snapshot may be
another one.

* **`localPage_eq`** — a page is a page of what comes after the row of its cursor;
* **`page_restarts`** — where no row has the key of the cursor, that is everything;
* **`local_browse_sound`** — no entry comes twice with its sort value unchanged, in every walk on
  which the entry of each cursor is still listed, where it was or further on; an unchanged
  snapshot is returned as it is listed, and the pages end;
* **`purged_end_repeats`** — the entry that a page ended at is purged, and the first one comes
  again.
-/
import Domarinn.CacheBrowse

open Sql Keyset

/-! ### The list -/

/-- `Row`: what is kept of an entry file. -/
structure LocalRow where
  item : CacheEntryListItem
  /-- Millis, for sorting. -/
  createdMs : ℤ
  costMicrousd : Option ℤ
  /-- Lowercased, for the search. -/
  haystack : String

structure LocalSnapshot where
  rows : List LocalRow
  truncated : Bool

/-- The filter of a request, with the text that it searches for in lower case. -/
def CacheListFilter.admits (f : CacheListFilter) (needle : Option String) (row : LocalRow) :
    Bool :=
  (match f.kind with
    | none => true
    | some kind =>
      -- a row exists only once its body has been read
      if kind = "unindexed" then false
      else if kind = "unparseable" then row.item.parseable == some false
      else row.item.kind == some kind) &&
  f.model.all (fun model => row.item.model == some model) &&
  f.emptyReason.all (fun reason => row.item.emptyReason == some reason) &&
  f.since.all (fun since => !decide (row.createdMs < since)) &&
  f.«until».all (fun until_ => !decide (until_ < row.createdMs)) &&
  f.minCostMicrousd.all (fun min => !row.costMicrousd.all (· < min)) &&
  f.maxCostMicrousd.all (fun max => !row.costMicrousd.all (max < ·)) &&
  needle.all (fun needle => decide (needle.toList <:+: row.haystack.toList))

/-- Sorts over a nullable value exclude the rows where it is unknown. -/
def CacheSort.known (row : LocalRow) : CacheSort → Bool
  | .cost => row.costMicrousd.isSome
  | .kind => row.item.kind.isSome
  | .model => row.item.model.isSome
  | .tokens => row.item.inputTokens.isSome && row.item.outputTokens.isSome
  | .created | .lastAccess | .size | .key => true

/-- `sort_value` of a file; there is no access time. -/
def CacheSort.localValue (row : LocalRow) : CacheSort → CursorValue
  | .size => .int row.item.size
  | .cost => .int (row.costMicrousd.getD 0)
  | .created | .lastAccess => .int row.createdMs
  | .kind => .text (row.item.kind.getD "")
  | .model => .text (row.item.model.getD "")
  | .tokens => .int (wrappingAdd (row.item.inputTokens.getD 0) (row.item.outputTokens.getD 0))
  | .key => .text row.item.key

/-- Where a row stands in the list: at its value, and its key. -/
def CacheSort.localPlace (sort : CacheSort) (row : LocalRow) : Place :=
  (sort.localValue row).placeOf row.item.key

section
variable (toLowercase : String → String) (f : CacheListFilter) (s : LocalSnapshot)

/-- `matched`: the rows that match and have a value, in order. -/
def CacheListFilter.matched : List LocalRow :=
  orderBy (fun a b => f.order.Orders (f.sort.localPlace a) (f.sort.localPlace b))
    ((s.rows.filter (f.admits (f.q.map toLowercase))).filter (f.sort.known ·))

/-- `start`: after the first row with the key of the cursor, whatever its value. -/
def CacheListFilter.start : ℕ :=
  match f.cursor.bind fun cursor =>
      (f.matched toLowercase s).findIdx? fun row => row.item.key == cursor.2 with
  | some index => index + 1
  | none => 0

def CacheListFilter.window : List LocalRow :=
  ((f.matched toLowercase s).drop (f.start toLowercase s)).take f.limit.toNat

/-- The cursor of a file; its value is not read again. -/
def endCursor (row : LocalRow) : String := encodeEntryCursor (.int 0) row.item.key

def CacheListFilter.nextCursor : Option String :=
  (f.matched toLowercase s)[f.start toLowercase s + (f.window toLowercase s).length]?.bind
    fun _ => (f.window toLowercase s).getLast?.map endCursor

/-- `LocalTier::list`. -/
def localList : CacheEntryListResponse where
  entries := (f.window toLowercase s).map LocalRow.item
  nextCursor := f.nextCursor toLowercase s
  truncated := s.truncated

/-- The rows of a response and its cursor, under the cursor of a request. -/
def CacheListFilter.localPage (cursor : Option String) : Page LocalRow String where
  rows := CacheListFilter.window toLowercase { f with cursor := cursor.bind decodeEntryCursor } s
  next := CacheListFilter.nextCursor toLowercase
    { f with cursor := cursor.bind decodeEntryCursor } s

/-! ### A walk over snapshots -/

/-- Each key is the key of one row. -/
def LocalSnapshot.KeysOnce : Prop := (s.rows.map fun row => row.item.key).Nodup

/-- The row with this key is listed in the next snapshot too, where it was or further on. -/
def CacheListFilter.KeepsEnd (s' : LocalSnapshot) (key : String) : Prop :=
  ∀ r ∈ f.matched toLowercase s, r.item.key = key →
    ∃ r' ∈ f.matched toLowercase s', r'.item.key = key ∧
      f.order.Orders (f.sort.localPlace r) (f.sort.localPlace r')

/-- Wherever a page ends, the next snapshot keeps the row that it ended at. -/
def CacheListFilter.EndsKept : Option String → List LocalSnapshot → Prop
  | cursor, s :: s' :: snapshots =>
    ∀ next ∈ (f.localPage toLowercase s cursor).next,
      (∀ value key, decodeEntryCursor next = some (value, key) →
        f.KeepsEnd toLowercase s s' key) ∧
      CacheListFilter.EndsKept (some next) (s' :: snapshots)
  | _, _ => True

/-- No entry comes twice with the same sort value. -/
def CacheSort.NoRepeats (sort : CacheSort) (rows : List LocalRow) : Prop :=
  rows.Pairwise fun a b => a.item.key = b.item.key → sort.localValue a ≠ sort.localValue b

/-- Following the cursors from the first page. -/
structure LocalBrowse : Prop where
  /-- Over changing snapshots, nothing that stays is repeated. -/
  changing : ∀ snapshots : List LocalSnapshot, (∀ s ∈ snapshots, s.KeysOnce) →
    f.EndsKept toLowercase none snapshots →
      f.sort.NoRepeats (returned (follow (f.localPage toLowercase) none snapshots))
  /-- An unchanged snapshot is returned as it is listed, and the pages end. -/
  unchanged : ∀ s : LocalSnapshot, s.KeysOnce →
    (∃ n, Ended (follow (f.localPage toLowercase) none (.replicate n s)) ∧
      returned (follow (f.localPage toLowercase) none (.replicate n s)) =
        f.matched toLowercase s) ∧
    (f.matched toLowercase s).Perm
      (s.rows.filter fun row => f.admits (f.q.map toLowercase) row && f.sort.known row)

end

/-! ### A page is a page of the list -/

section
variable {toLowercase : String → String} {f : CacheListFilter} {s : LocalSnapshot}

/-- The response of a request is the page under its cursor. -/
theorem localList_eq (cursor : Option String) :
    localList toLowercase { f with cursor := cursor.bind decodeEntryCursor } s =
      ⟨(f.localPage toLowercase s cursor).rows.map LocalRow.item,
        (f.localPage toLowercase s cursor).next, s.truncated⟩ := rfl

/-- What a cursor leaves: the rows after the first one with its key. -/
def CacheListFilter.leftOf (toLowercase : String → String) (f : CacheListFilter)
    (s : LocalSnapshot) (cursor : Option String) : List LocalRow :=
  (f.matched toLowercase s).drop
    (CacheListFilter.start toLowercase { f with cursor := cursor.bind decodeEntryCursor } s)

/-- **A page is a page of what its cursor leaves.** -/
theorem localPage_eq (cursor : Option String) : f.localPage toLowercase s cursor =
    pageOf endCursor f.limit.toNat (f.leftOf toLowercase s cursor) := by
  set g : CacheListFilter := { f with cursor := cursor.bind decodeEntryCursor } with hg
  have hwindow : g.window toLowercase s =
      (f.leftOf toLowercase s cursor).take f.limit.toNat := rfl
  have hdrop : f.leftOf toLowercase s cursor =
      (g.matched toLowercase s).drop (g.start toLowercase s) := rfl
  have hlength := congrArg List.length hdrop
  rw [List.length_drop] at hlength
  rw [CacheListFilter.localPage, pageOf, ← hg, hwindow, CacheListFilter.nextCursor, hwindow]
  congr 1
  split_ifs with hlt
  · -- there is a row after the page
    rw [List.length_take, Nat.min_eq_left (Nat.le_of_lt hlt),
      List.getElem?_eq_getElem (by omega), Option.bind_some]
  · rw [List.length_take, List.getElem?_eq_none (by omega), Option.bind_none]

theorem leftOf_none : f.leftOf toLowercase s none = f.matched toLowercase s := rfl

theorem start_cursor (cursor : Option (CursorValue × String)) :
    CacheListFilter.start toLowercase { f with cursor } s =
      ((cursor.bind fun cursor => (f.matched toLowercase s).findIdx? fun row =>
        row.item.key == cursor.2).map (· + 1)).getD 0 := by
  have hmatched : CacheListFilter.matched toLowercase { f with cursor } s =
      f.matched toLowercase s := rfl
  rw [CacheListFilter.start, hmatched]
  cases cursor.bind fun cursor =>
    (f.matched toLowercase s).findIdx? fun row => row.item.key == cursor.2 <;> rfl

/-- **Where no row has the key of the cursor, the list starts again.** -/
theorem page_restarts {next : String}
    (h : ∀ value key, decodeEntryCursor next = some (value, key) →
      ∀ r ∈ f.matched toLowercase s, r.item.key ≠ key) :
    f.localPage toLowercase s (some next) = f.localPage toLowercase s none := by
  rw [localPage_eq, localPage_eq, leftOf_none, CacheListFilter.leftOf, start_cursor,
    Option.bind_some]
  cases hread : decodeEntryCursor next with
  | none => rfl
  | some c =>
    obtain ⟨value, key⟩ := c
    have habsent : (f.matched toLowercase s).findIdx? (fun row => row.item.key == key) = none :=
      List.findIdx?_eq_none_iff.mpr fun r hr =>
        beq_eq_false_iff_ne.mpr (h value key hread r hr)
    rw [Option.bind_some, habsent]
    rfl

theorem decode_zero (key : String) :
    decodeEntryCursor (encodeEntryCursor (.int 0) key) = some (.int 0, key) := by
  refine decodeEntryCursor_encodeEntryCursor ?_ key
  exact (⟨by decide, by decide⟩ : FitsI64 0)

/-- After a row with a key of its own come the rows after it. -/
theorem leftOf_end {r : LocalRow} {key : String} {front back : List LocalRow}
    (hkey : r.item.key = key) (hsplit : f.matched toLowercase s = front ++ r :: back)
    (hfresh : ∀ x ∈ front, x.item.key ≠ key) :
    f.leftOf toLowercase s (some (encodeEntryCursor (.int 0) key)) = back := by
  have hread := decode_zero key
  have hindex : (f.matched toLowercase s).findIdx? (fun row => row.item.key == key) =
      some front.length := by
    rw [hsplit, List.findIdx?_append, List.findIdx?_eq_none_iff.mpr fun x hx =>
      beq_eq_false_iff_ne.mpr (hfresh x hx), List.findIdx?_cons, hkey, beq_self_eq_true]
    simp
  rw [CacheListFilter.leftOf, start_cursor, Option.bind_some, hread, Option.bind_some, hindex,
    hsplit, Option.map_some, Option.getD_some, List.append_cons]
  exact List.drop_left' (by simp)

/-! ### The list is in order -/

theorem mem_matched {r : LocalRow} : r ∈ f.matched toLowercase s ↔
    r ∈ s.rows ∧ f.admits (f.q.map toLowercase) r = true ∧ f.sort.known r = true := by
  rw [CacheListFilter.matched, mem_orderBy, List.mem_filter, List.mem_filter, and_assoc]

theorem matched_perm : (f.matched toLowercase s).Perm
    (s.rows.filter fun row => f.admits (f.q.map toLowercase) row && f.sort.known row) := by
  have hfilter : (s.rows.filter (f.admits (f.q.map toLowercase))).filter (f.sort.known ·) =
      s.rows.filter fun row => f.admits (f.q.map toLowercase) row && f.sort.known row := by
    rw [List.filter_filter]
    exact List.filter_congr fun row _ => Bool.and_comm _ _
  rw [CacheListFilter.matched, hfilter]
  exact List.perm_insertionSort _ _

/-- Keys of their own put the rows of a list in strict order. -/
theorem matched_precedes (toLowercase : String → String) (f : CacheListFilter)
    (hkeys : s.KeysOnce) : (f.matched toLowercase s).Pairwise fun a b =>
    f.order.Precedes (f.sort.localPlace a) (f.sort.localPlace b) ∧ a.item.key ≠ b.item.key := by
  have : Std.Total fun a b => f.order.Orders (f.sort.localPlace a) (f.sort.localPlace b) :=
    ⟨fun a b => Std.Total.total (f.sort.localPlace a) (f.sort.localPlace b)⟩
  have : IsTrans LocalRow fun a b => f.order.Orders (f.sort.localPlace a) (f.sort.localPlace b) :=
    ⟨fun _ _ _ => Trans.trans⟩
  have hordered : (f.matched toLowercase s).Pairwise fun a b =>
      f.order.Orders (f.sort.localPlace a) (f.sort.localPlace b) :=
    List.pairwise_insertionSort _ _
  have hdistinct : ((f.matched toLowercase s).map fun row => row.item.key).Nodup :=
    (matched_perm.map fun row => row.item.key).nodup_iff.mpr
      (List.Nodup.sublist (List.filter_sublist.map fun row : LocalRow => row.item.key) hkeys)
  refine hordered.imp₂ (fun a b hab hne => ⟨?_, hne⟩) (List.pairwise_map.mp hdistinct)
  exact precedes_of_orders hab fun hplace => hne (congrArg Prod.snd hplace)

/-- The rows before one do not have its key. -/
theorem front_fresh (hkeys : s.KeysOnce) {front back : List LocalRow} {r : LocalRow}
    (hsplit : f.matched toLowercase s = front ++ r :: back) :
    ∀ x ∈ front, x.item.key ≠ r.item.key := by
  have hpairwise := matched_precedes toLowercase f hkeys
  rw [hsplit] at hpairwise
  exact fun x hx => ((List.pairwise_append.mp hpairwise).2.2 x hx r List.mem_cons_self).2

/-! ### Walks -/

theorem orders_trans_precedes {order : SortOrder} {a b c : Place} (hab : order.Orders a b)
    (hbc : order.Precedes b c) : order.Precedes a c := by
  cases order with
  | asc => exact lt_of_le_of_lt hab hbc
  | desc => exact lt_of_lt_of_le hbc hab

/-- Where the row of a cursor is kept, a page holds only what comes after it. -/
theorem page_after {s' : LocalSnapshot} {r x : LocalRow} (hkeys : s'.KeysOnce)
    (hr : r ∈ f.matched toLowercase s) (hkept : f.KeepsEnd toLowercase s s' r.item.key)
    (hx : x ∈ (f.localPage toLowercase s' (some (endCursor r))).rows) :
    f.order.Precedes (f.sort.localPlace r) (f.sort.localPlace x) := by
  obtain ⟨r', hr', hkey, hplace⟩ := hkept r hr rfl
  obtain ⟨front, back, hsplit⟩ := List.append_of_mem hr'
  rw [localPage_eq, endCursor, leftOf_end hkey hsplit (hkey ▸ front_fresh hkeys hsplit)] at hx
  have hpairwise := matched_precedes toLowercase f hkeys
  rw [hsplit] at hpairwise
  have hlater := (List.pairwise_cons.mp (List.pairwise_append.mp hpairwise).2.1).1 x
    (List.mem_of_mem_take hx)
  exact orders_trans_precedes hplace hlater.1

theorem mem_localPage {cursor : Option String} {x : LocalRow}
    (hx : x ∈ (f.localPage toLowercase s cursor).rows) : x ∈ f.matched toLowercase s := by
  rw [localPage_eq] at hx
  exact List.mem_of_mem_drop (List.mem_of_mem_take hx)

theorem page_precedes (hkeys : s.KeysOnce) (cursor : Option String) :
    (f.localPage toLowercase s cursor).rows.Pairwise fun a b =>
      f.order.Precedes (f.sort.localPlace a) (f.sort.localPlace b) := by
  rw [localPage_eq]
  exact ((matched_precedes toLowercase f hkeys).imp And.left).sublist
    ((List.take_sublist _ _).trans (List.drop_sublist _ _))

theorem localPage_last {cursor : Option String} {r : LocalRow} {next : String}
    (hr : r ∈ (f.localPage toLowercase s cursor).rows.getLast?)
    (hnext : (f.localPage toLowercase s cursor).next = some next) : next = endCursor r := by
  rw [localPage_eq, pageOf] at hr hnext
  split_ifs at hnext
  rw [hr, Option.map_some] at hnext
  exact (Option.some.inj hnext).symm

/-- Snapshots that keep the rows that pages end at move the pages on. -/
theorem movesOn_of_endsKept : ∀ (snapshots : List LocalSnapshot) (cursor : Option String),
    (∀ s ∈ snapshots, s.KeysOnce) → f.EndsKept toLowercase cursor snapshots →
    MovesOn (f.localPage toLowercase)
      (fun a b => f.order.Precedes (f.sort.localPlace a) (f.sort.localPlace b)) cursor snapshots
  | [], _, _, _ => trivial
  | [_], _, _, _ => trivial
  | s :: s' :: snapshots, cursor, hkeys, hkept => by
    intro next hnext
    obtain ⟨hkeep, hrest⟩ := hkept next hnext
    have hkeys' := (List.forall_mem_cons.mp hkeys).2
    refine ⟨fun r hr x hx => ?_, movesOn_of_endsKept (s' :: snapshots) (some next) hkeys' hrest⟩
    obtain rfl := localPage_last hr hnext
    exact page_after (hkeys' s' List.mem_cons_self) (mem_localPage (List.mem_of_getLast? hr))
      (hkeep _ _ (decode_zero r.item.key)) hx

theorem next_of_rows_nil {cursor : Option String}
    (h : (f.localPage toLowercase s cursor).rows = []) :
    (f.localPage toLowercase s cursor).next = none := by
  rw [localPage_eq, pageOf] at h ⊢
  have hrows : (f.leftOf toLowercase s cursor).take f.limit.toNat = [] := h
  simp only [hrows, List.getLast?_nil, Option.map_none, ite_self]

/-- A row that stays as it is keeps its place. -/
theorem keepsEnd_of_mem {s' : LocalSnapshot} {key : String}
    (h : ∀ r ∈ s.rows, r.item.key = key → r ∈ s'.rows) : f.KeepsEnd toLowercase s s' key := by
  intro r hr hkey
  obtain ⟨hrow, hmatches⟩ := mem_matched.mp hr
  exact ⟨r, mem_matched.mpr ⟨h r hrow hkey, hmatches⟩, hkey, Std.Refl.refl _⟩

/-- A sort value at one key makes a place. -/
theorem noRepeats_of_precedes {rows : List LocalRow}
    (h : rows.Pairwise fun a b =>
      f.order.Precedes (f.sort.localPlace a) (f.sort.localPlace b)) : f.sort.NoRepeats rows := by
  refine h.imp fun {a b} hab hkey hvalue => ?_
  have hplace : f.sort.localPlace a = f.sort.localPlace b := by
    rw [CacheSort.localPlace, CacheSort.localPlace, hkey, hvalue]
  rw [hplace] at hab
  exact Std.Irrefl.irrefl _ hab

end

/-- **Browsing the local tier**, in every walk whose snapshots keep the entries that pages end
at. -/
theorem local_browse_sound (toLowercase : String → String) (f : CacheListFilter)
    (hlimit : 1 ≤ f.limit) : LocalBrowse toLowercase f := by
  have : IsTrans LocalRow fun a b =>
      f.order.Precedes (f.sort.localPlace a) (f.sort.localPlace b) := ⟨fun _ _ _ => Trans.trans⟩
  refine ⟨fun snapshots hkeys hkept => ?_, fun s hkeys => ⟨?_, matched_perm⟩⟩
  · exact noRepeats_of_precedes (follow_pairwise snapshots none
      (fun s hs => page_precedes (hkeys s hs)) (fun _ _ _ => next_of_rows_nil)
      (movesOn_of_endsKept snapshots none hkeys hkept)).1
  · have hcut : ∀ front r back, f.matched toLowercase s = front ++ r :: back → back ≠ [] →
        f.limit.toNat ∣ front.length + 1 →
        f.leftOf toLowercase s (some (endCursor r)) = back := fun front r back hsplit _ _ =>
      leftOf_end rfl hsplit (front_fresh hkeys hsplit)
    obtain ⟨hreturned, hended⟩ := follow_left (by omega) localPage_eq hcut
      ((f.matched toLowercase s).length + 1) [] (f.matched toLowercase s) none rfl
      (Nat.dvd_zero _) rfl (Nat.lt_succ_self _)
    exact ⟨_, hended, hreturned⟩

/-! ### An entry that is purged -/

/-- A file with this key. -/
def keyedRow (key : String) : LocalRow where
  item :=
    { key := key
      size := 0
      createdAt := 0
      lastAccessAt := none
      entryCreatedAt := some 0
      indexed := true
      parseable := some true
      kind := none
      model := none
      costUsd := none
      inputTokens := none
      outputTokens := none
      requestSummary := none
      outputPreview := none
      emptyReason := none }
  createdMs := 0
  costMicrousd := none
  haystack := " "

/-- By key, two to a page. -/
def twoByKey : CacheListFilter :=
  { mostTokens with sort := .key, order := .asc, limit := 2 }

/-- Purging another entry moves no page. -/
theorem kept_end_walk : twoByKey.sort.NoRepeats (returned (follow (twoByKey.localPage id) none
    [⟨[keyedRow "a", keyedRow "b", keyedRow "c"], false⟩,
      ⟨[keyedRow "b", keyedRow "c"], false⟩])) := by
  refine (local_browse_sound id twoByKey (by decide)).changing _ ?_ ?_
  · simp [LocalSnapshot.KeysOnce, keyedRow]
  · intro next hnext
    have hread : (twoByKey.localPage id ⟨[keyedRow "a", keyedRow "b", keyedRow "c"], false⟩
        none).next = some (encodeEntryCursor (.int 0) "b") := by
      decide +kernel
    obtain rfl := Option.some.inj (hread.symm.trans hnext)
    refine ⟨fun value key hkey => keepsEnd_of_mem fun r hr hrkey => ?_, trivial⟩
    rw [decode_zero] at hkey
    obtain ⟨-, rfl⟩ := Prod.mk.inj (Option.some.inj hkey)
    simp only [List.mem_cons, List.not_mem_nil, or_false] at hr ⊢
    obtain rfl | hr := hr
    · exact absurd hrkey (by decide)
    · exact hr

/-- **The entry that a page ended at is purged**, and the first one comes again. -/
theorem purged_end_repeats :
    ¬ twoByKey.sort.NoRepeats (returned (follow (twoByKey.localPage id) none
      [⟨[keyedRow "a", keyedRow "b", keyedRow "c"], false⟩,
        ⟨[keyedRow "a", keyedRow "c"], false⟩])) := by
  intro h
  have hkeys : (returned (follow (twoByKey.localPage id) none
      [⟨[keyedRow "a", keyedRow "b", keyedRow "c"], false⟩,
        ⟨[keyedRow "a", keyedRow "c"], false⟩])).map (fun row => row.item.key) =
      ["a", "b", "a", "c"] := by
    decide +kernel
  have hnodup : (["a", "b", "a", "c"] : List String).Nodup := by
    rw [← hkeys]
    refine List.pairwise_map.mpr (h.imp fun {a b} hab hkey => hab hkey ?_)
    exact congrArg CursorValue.text hkey
  exact absurd hnodup (by decide)
