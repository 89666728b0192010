/-
The server cache under interleaving: puts, gets, deletions and prunes, beside the two passes
that index old rows.

A pass reads first and writes later: it lists row ids, reads the bodies one by one, and stamps
what it derived in a transaction of its own.  In between, an entry can be pruned and its row id
given to another.  What protects the other entry is that every put stamps its own row, so that
a row still pending is one that has been there all along.

* **`safe_readBodies`** — what a pass holds fits the rows that are still pending, whatever has
  happened since it read them;
* **`cache_index_sound`** — every indexed row is described by its own body, or is as an older
  build left it; bodies are written once; and the passes come to an end.
-/
import Domarinn.CacheConsistent
import Domarinn.Concurrent
import Mathlib.Algebra.Order.BigOperators.Group.Finset

open CacheTables Program

/-! ### Operations -/

inductive CacheCmd where
  | get (key : String)
  | put (key : String) (body : List UInt8) (index : Option EntryIndex)
  | deleteEntry (key : String)
  | prune (filter : CachePruneFilter)
  | selectUnindexed (batch : ℤ)
  | selectStale (batch : ℤ)
  | selectBody (rowid : ℤ)
  | stamp (pass : IndexPass) (derived : List Derived)

abbrev CacheAnswer : CacheCmd → Type
  | .get _ => Option (List UInt8)
  | .put .. => CachePutOutcome
  | .deleteEntry _ => Bool
  | .prune _ => ℕ
  | .selectUnindexed _ => List ℤ
  | .selectStale _ => List (ℤ × Option ℤ)
  | .selectBody _ => Option (List UInt8)
  | .stamp .. => ℕ

abbrev CacheRes (c : CacheCmd) : Type := Except String (CacheAnswer c)

inductive CacheReply where
  | body (found : Option (List UInt8))
  | put (outcome : CachePutOutcome)
  | removed (any : Bool)
  | pruned (n : ℕ)
  | stamped (n : ℕ)

abbrev CacheRun := Program CacheCmd CacheRes (Except String CacheReply)

/-- One command, and its answer. -/
def answerWith (c : CacheCmd) (reply : CacheAnswer c → CacheReply) : CacheRun :=
  .ask c fun answer => .ret (answer.map reply)

/-- `READ_BYTE_BUDGET`. -/
def readByteBudget : ℕ := 16 * 1024 * 1024

/-- The write phase of a pass; an empty batch needs none. -/
def writeBatch (pass : IndexPass) (derived : List Derived) : CacheRun :=
  if derived.isEmpty then .ret (.ok (.stamped 0))
  else answerWith (.stamp pass derived) .stamped

section
variable (derive : List UInt8 → Option EntryIndex)

/-- The read phase: the body of each candidate, unless its verdict is that it cannot be read,
until the bytes read exhaust the budget. -/
def readBodies (pass : IndexPass) : List (ℤ × Bool) → ℕ → List Derived → CacheRun
  | [], _, out => writeBatch pass out
  | (rowid, false) :: rest, budget, out => readBodies pass rest budget (out ++ [⟨rowid, none⟩])
  | (rowid, true) :: rest, budget, out =>
    .ask (.selectBody rowid) fun answer => match answer with
      | .error e => .ret (.error e)
      | .ok none => readBodies pass rest budget out
      | .ok (some body) =>
        let out := out ++ [⟨rowid, derive body⟩]
        if budget - body.length = 0 then writeBatch pass out
        else readBodies pass rest (budget - body.length) out

/-- `cache_index_batch`. -/
def cacheIndexBatch (batch : ℤ) : CacheRun :=
  .ask (.selectUnindexed batch) fun answer => match answer with
    | .error e => .ret (.error e)
    | .ok rowids => readBodies derive .index (rowids.map fun r => (r, true)) readByteBudget []

/-- `cache_reindex_batch`. -/
def cacheReindexBatch (batch : ℤ) : CacheRun :=
  .ask (.selectStale batch) fun answer => match answer with
    | .error e => .ret (.error e)
    | .ok candidates =>
      readBodies derive .reindex (candidates.map fun c => (c.1, decide (c.2 = some 1)))
        readByteBudget []

inductive CacheOp where
  | get (key : String)
  | put (key : String) (body : List UInt8)
  | deleteEntry (key : String)
  | prune (filter : CachePruneFilter)
  | indexBatch (batch : ℤ)
  | reindexBatch (batch : ℤ)

/-- An operation of the storage. -/
def CacheOp.run : CacheOp → CacheRun
  | .get key => answerWith (.get key) .body
  | .put key body => answerWith (.put key body (derive body)) .put
  | .deleteEntry key => answerWith (.deleteEntry key) .removed
  | .prune filter => answerWith (.prune filter) .pruned
  | .indexBatch batch => cacheIndexBatch derive batch
  | .reindexBatch batch => cacheReindexBatch derive batch

end

/-! ### The database -/

/-- The tables, with what the proofs remember of the past: the bodies put under each key since
it was last absent, and how many rows the passes have stamped. -/
structure CacheDb where
  tables : CacheTables
  puts : String → List (List UInt8)
  stamped : ℕ

namespace CacheDb

/-- A database whose past is not known: what it holds was put. -/
def ofTables (t : CacheTables) : CacheDb where
  tables := t
  puts := fun key => (t.entries.filter fun e => e.key = key).map CacheRow.body
  stamped := 0

/-- The database after a transaction: what is absent now has not been put since. -/
def commit (s : CacheDb) (t : CacheTables) : CacheDb :=
  { s with tables := t, puts := fun key => if key ∈ t.keys then s.puts key else [] }

/-- A put is remembered, whether or not it wins. -/
def remember (s : CacheDb) (key : String) (body : List UInt8) : CacheDb :=
  { s with puts := Function.update s.puts key (s.puts key ++ [body]) }

end CacheDb

/-- `LIMIT`; a negative one is none. -/
def limitRows {α : Type} (batch : ℤ) (rows : List α) : List α :=
  if batch < 0 then rows else rows.take batch.toNat

/-- One command.  A transaction holds the writer from beginning to end; the clock, the row id
of a new entry and the order of entries last accessed at one time are the database's choice. -/
inductive CacheStep (i : ℕ) (s : CacheDb) : (c : CacheCmd) → CacheRes c → CacheDb → Prop where
  | got (key : String) (now : ℤ) :
      CacheStep i s (.get key) (.ok (s.tables.cacheGet key now).2)
        (s.commit (s.tables.cacheGet key now).1)
  | put (key : String) (body : List UInt8) (index : Option EntryIndex) (now : ℤ)
      (rowid : {r : ℤ // r ∉ s.tables.rowids}) :
      CacheStep i s (.put key body index) (.ok (s.tables.cachePut rowid key body index now).2)
        ((s.remember key body).commit (s.tables.cachePut rowid key body index now).1)
  | deleted (key : String) :
      CacheStep i s (.deleteEntry key) (.ok (s.tables.cacheDeleteEntry key).2)
        (s.commit (s.tables.cacheDeleteEntry key).1)
  | pruned (filter : CachePruneFilter) (now : ℤ) (order : CacheTables → List CacheRow)
      (hperm : ∀ t, (order t).Perm t.entries)
      (horder : ∀ t, (order t).Pairwise fun e e' => e.lastAccessAt ≤ e'.lastAccessAt) :
      CacheStep i s (.prune filter) (.ok (s.tables.cachePrune filter now order).2)
        (s.commit (s.tables.cachePrune filter now order).1)
  | selectedUnindexed (batch : ℤ) (order : List CacheRow) (hperm : order.Perm s.tables.entries)
      (horder : order.Pairwise fun e e' => e.rowid ≤ e'.rowid) :
      CacheStep i s (.selectUnindexed batch)
        (.ok (limitRows batch ((order.filter fun e => e.indexedAt.isNone).map CacheRow.rowid))) s
  | selectedStale (batch : ℤ) (order : List CacheRow) (hperm : order.Perm s.tables.entries)
      (horder : order.Pairwise fun e e' => e.rowid ≤ e'.rowid) :
      CacheStep i s (.selectStale batch)
        (.ok (limitRows batch ((order.filter fun e =>
          e.reindexedAt.isNone && e.indexedAt.isSome).map fun e => (e.rowid, e.indexOk)))) s
  | selectedBody (rowid : ℤ) :
      CacheStep i s (.selectBody rowid)
        (.ok ((s.tables.entries.find? fun e => e.rowid = rowid).map CacheRow.body)) s
  | stamped (pass : IndexPass) (derived : List Derived) (now : ℤ) :
      CacheStep i s (.stamp pass derived) (.ok (stampRows pass now derived s.tables).2)
        { s.commit (stampRows pass now derived s.tables).1 with
          stamped := s.stamped + (stampRows pass now derived s.tables).2 }
  | failed (c : CacheCmd) (e : String) : CacheStep i s c (.error e) s

/-- Any number of operations, on any number of servers. -/
def cachePool (derive : List UInt8 → Option EntryIndex) (t : CacheTables) (ops : ℕ → CacheOp) :
    Pool CacheCmd CacheRes CacheDb (Except String CacheReply) :=
  ⟨.ofTables t, fun i => (ops i).run derive⟩

/-! ### What the passes rely on -/

/-- Pending rows are old rows. -/
def PendingRowsKept (_ : ℕ) (s m : CacheDb) : Prop := PendingKept s.tables m.tables

theorem CacheStep.kept {i : ℕ} {s s' : CacheDb} {c : CacheCmd} {r : CacheRes c}
    (h : CacheStep i s c r s') : PendingKept s.tables s'.tables := by
  cases h with
  | got key now => exact pendingKept_get key now
  | put key body index now rowid => exact pendingKept_put rowid key body index now
  | deleted key => exact pendingKept_deleteWhere _
  | pruned filter now order _ _ => exact pendingKept_prune filter now order
  | stamped pass derived now => exact pendingKept_stampRows pass now derived _
  | _ => exact .refl _

section
variable (derive : List UInt8 → Option EntryIndex)

/-- A put brings the index of its body, and a batch what fits the rows still pending. -/
def CommandOk (_ : ℕ) (s : CacheDb) : CacheCmd → Prop
  | .put _ body index => index = derive body
  | .stamp pass derived => ∀ d ∈ derived, DerivedOk derive s.tables pass d
  | _ => True

/-- A candidate is read unless its verdict is that it cannot be. -/
def CandidateOk (t : CacheTables) : IndexPass → ℤ × Bool → Prop
  | .index, c => c.2 = true
  | .reindex, c => ∀ e ∈ t.entries, e.rowid = c.1 → e.reindexedAt = none →
    e.indexedAt ≠ none ∧ (c.2 = true ↔ e.indexOk = some 1)

abbrev SafeCache (i : ℕ) : CacheRun → CacheDb → Prop :=
  Safe CacheStep PendingRowsKept (CommandOk derive) i fun _ _ => True

end

section
variable {derive : List UInt8 → Option EntryIndex} {i : ℕ} {s : CacheDb} {pass : IndexPass}

theorem CandidateOk.kept {t t' : CacheTables} {c : ℤ × Bool} (h : CandidateOk t pass c)
    (hkept : PendingKept t t') : CandidateOk t' pass c := by
  cases pass with
  | index => exact h
  | reindex =>
    intro e he hrowid hnone
    obtain ⟨e₀, he₀, hrowid₀, -, hnone₀, hindexed, hok⟩ := hkept.reindex e he hnone
    rw [← hindexed, ← hok]
    exact h e₀ he₀ (hrowid₀.trans hrowid) hnone₀

/-- A candidate that is not read is only stamped. -/
theorem CandidateOk.unread {t : CacheTables} {rowid : ℤ} (h : CandidateOk t pass (rowid, false)) :
    DerivedOk derive t pass ⟨rowid, none⟩ := by
  cases pass with
  | index => cases h
  | reindex =>
    intro e he hrowid hnone
    obtain ⟨hindexed, hverdict⟩ := h e he hrowid hnone
    have hok : e.indexOk ≠ some 1 := fun hok => by cases hverdict.mpr hok
    exact ⟨hindexed, fun h => absurd h hok, fun h => absurd rfl h⟩

/-- The body that was read is the body of the row, as long as the row is pending. -/
theorem CandidateOk.read {t : CacheTables} {rowid : ℤ} {e₀ : CacheRow}
    (h : CandidateOk t pass (rowid, true)) (he₀ : e₀ ∈ t.entries) (hrowid₀ : e₀.rowid = rowid) :
    DerivedOk derive t pass ⟨rowid, derive e₀.body⟩ := by
  cases pass with
  | index =>
    intro e he hrowid _
    rw [eq_of_rowid he he₀ (hrowid.trans hrowid₀.symm)]
  | reindex =>
    intro e he hrowid hnone
    obtain ⟨hindexed, hverdict⟩ := h e he hrowid hnone
    obtain rfl := eq_of_rowid he he₀ (hrowid.trans hrowid₀.symm)
    exact ⟨hindexed, fun _ => rfl, fun _ => hverdict.mp rfl⟩

theorem safe_answerWith {c : CacheCmd} {reply : CacheAnswer c → CacheReply}
    (hc : ∀ m, CommandOk derive i m c) : SafeCache derive i (answerWith c reply) s :=
  fun m _ => ⟨hc m, fun _ _ _ => trivial⟩

theorem safe_writeBatch {out : List Derived}
    (hout : ∀ d ∈ out, DerivedOk derive s.tables pass d) :
    SafeCache derive i (writeBatch pass out) s := by
  rw [writeBatch]
  split
  · trivial
  · exact fun m hm => ⟨fun d hd => (hout d hd).kept hm, fun _ _ _ => trivial⟩

/-- **The read phase is safe**: by induction on the candidates, what it has read so far fits the
rows that are still pending. -/
theorem safe_readBodies {candidates : List (ℤ × Bool)} :
    ∀ {budget : ℕ} {out : List Derived} {s : CacheDb},
      (∀ c ∈ candidates, CandidateOk s.tables pass c) →
      (∀ d ∈ out, DerivedOk derive s.tables pass d) →
      SafeCache derive i (readBodies derive pass candidates budget out) s := by
  induction candidates with
  | nil => exact fun _ hout => safe_writeBatch hout
  | cons c candidates ih =>
    intro budget out s hcandidates hout
    -- what has been derived stays good while the statement waits
    have hpush : ∀ {m : CacheDb} {d : Derived}, PendingKept s.tables m.tables →
        DerivedOk derive m.tables pass d →
        ∀ d' ∈ out ++ [d], DerivedOk derive m.tables pass d' := by
      intro m d hm hd d' hd'
      obtain hd' | hd' := List.mem_append.mp hd'
      · exact (hout d' hd').kept hm
      · rw [List.mem_singleton.mp hd']
        exact hd
    obtain ⟨rowid, read⟩ := c
    cases read with
    | false =>
      refine ih (fun c hc => hcandidates c (.tail _ hc)) (hpush (.refl _) ?_)
      exact (hcandidates _ (.head _)).unread
    | true =>
      refine fun m hm => ⟨trivial, fun r s' hstep => ?_⟩
      have hrest : ∀ c ∈ candidates, CandidateOk m.tables pass c :=
        fun c hc => (hcandidates c (.tail _ hc)).kept hm
      cases hstep with
      | failed _ e => trivial
      | selectedBody _ =>
        cases hfind : m.tables.entries.find? fun e => e.rowid = rowid with
        | none => exact ih hrest fun d hd => (hout d hd).kept hm
        | some e₀ =>
          have hrowid := List.find?_some hfind
          have hread : DerivedOk derive m.tables pass ⟨rowid, derive e₀.body⟩ :=
            ((hcandidates _ (.head _)).kept hm).read (List.mem_of_find?_eq_some hfind)
              (of_decide_eq_true hrowid)
          dsimp only [Option.map_some]
          split
          · exact safe_writeBatch (hpush hm hread)
          · exact ih hrest (hpush hm hread)

theorem mem_limitRows {α : Type} {batch : ℤ} {rows : List α} {a : α}
    (h : a ∈ limitRows batch rows) : a ∈ rows := by
  rw [limitRows] at h
  split at h
  · exact h
  · exact List.mem_of_mem_take h

theorem safe_indexBatch {batch : ℤ} : SafeCache derive i (cacheIndexBatch derive batch) s := by
  refine fun m _ => ⟨trivial, fun r s' hstep => ?_⟩
  cases hstep with
  | failed _ e => trivial
  | selectedUnindexed _ order _ _ =>
    refine safe_readBodies (fun c hc => ?_) fun _ hd => (by cases hd)
    obtain ⟨rowid, -, rfl⟩ := List.mem_map.mp hc
    rfl

theorem safe_reindexBatch {batch : ℤ} : SafeCache derive i (cacheReindexBatch derive batch) s := by
  refine fun m _ => ⟨trivial, fun r s' hstep => ?_⟩
  cases hstep with
  | failed _ e => trivial
  | selectedStale _ order hperm _ =>
    refine safe_readBodies (fun c hc => ?_) fun _ hd => (by cases hd)
    obtain ⟨candidate, hcandidate, rfl⟩ := List.mem_map.mp hc
    obtain ⟨e₀, he₀, rfl⟩ := List.mem_map.mp (mem_limitRows hcandidate)
    obtain ⟨he₀, hstale⟩ := List.mem_filter.mp he₀
    rw [Bool.and_eq_true] at hstale
    -- the row of this id is the one that was listed
    intro e he hrowid _
    obtain rfl := eq_of_rowid he (hperm.mem_iff.mp he₀) hrowid
    exact ⟨Option.isSome_iff_ne_none.mp hstale.2, decide_eq_true_iff⟩

theorem safe_op (op : CacheOp) : SafeCache derive i (op.run derive) s := by
  cases op with
  | get key => exact safe_answerWith fun _ => trivial
  | put key body => exact safe_answerWith fun _ => rfl
  | deleteEntry key => exact safe_answerWith fun _ => trivial
  | prune filter => exact safe_answerWith fun _ => trivial
  | indexBatch batch => exact safe_indexBatch
  | reindexBatch batch => exact safe_reindexBatch

end

/-! ### Bodies are written once -/

/-- The body of a key is the first that was put since the key was last absent. -/
structure FirstWrite (s : CacheDb) : Prop where
  first : ∀ e ∈ s.tables.entries, (s.puts e.key).head? = some e.body
  absent : ∀ key ∉ s.tables.keys, s.puts key = []

section
variable {s : CacheDb}

theorem commit_puts {t : CacheTables} {e : CacheRow} (he : e ∈ (s.commit t).tables.entries) :
    (s.commit t).puts e.key = s.puts e.key :=
  if_pos (List.mem_map.mpr ⟨e, he, rfl⟩)

theorem commit_absent {t : CacheTables} {key : String} (h : key ∉ t.keys) :
    (s.commit t).puts key = [] :=
  if_neg h

theorem firstWrite_ofTables (t : CacheTables) : FirstWrite (.ofTables t) := by
  refine ⟨fun e he => ?_, fun key hkey => ?_⟩
  · have hself : t.entries.filter (fun e' => e'.key = e.key) ≠ [] := by
      intro hnil
      exact List.filter_eq_nil_iff.mp hnil e he (decide_eq_true rfl)
    obtain ⟨e', rest, hlist⟩ := List.exists_cons_of_ne_nil hself
    have he' : e' ∈ t.entries.filter (fun e' => e'.key = e.key) := by
      rw [hlist]
      exact .head _
    obtain ⟨hmem, hkey⟩ := List.mem_filter.mp he'
    obtain rfl := eq_of_key hmem he (of_decide_eq_true hkey)
    show ((t.entries.filter fun e'' => e''.key = e'.key).map CacheRow.body).head? = _
    rw [hlist]
    rfl
  · show (t.entries.filter fun e => e.key = key).map CacheRow.body = []
    rw [List.map_eq_nil_iff, List.filter_eq_nil_iff]
    exact fun e he hsame => hkey (List.mem_map.mpr ⟨e, he, of_decide_eq_true hsame⟩)

theorem FirstWrite.commit (h : FirstWrite s) {t : CacheTables} (hkept : BodiesKept s.tables t) :
    FirstWrite (s.commit t) := by
  refine ⟨fun e he => ?_, fun key => commit_absent⟩
  obtain ⟨e₀, he₀, hkey, hbody⟩ := hkept e he
  rw [commit_puts he, ← hkey, ← hbody]
  exact h.first e₀ he₀

theorem remember_puts_of_ne {key key' : String} (body : List UInt8) (h : key' ≠ key) :
    (s.remember key body).puts key' = s.puts key' :=
  Function.update_of_ne h ..

theorem remember_puts_self (key : String) (body : List UInt8) :
    (s.remember key body).puts key = s.puts key ++ [body] :=
  Function.update_self ..

/-- A later put does not change which came first. -/
theorem FirstWrite.first_remember (h : FirstWrite s) (key : String) (body : List UInt8)
    (e : CacheRow) (he : e ∈ s.tables.entries) :
    ((s.remember key body).puts e.key).head? = some e.body := by
  have hfirst := h.first e he
  by_cases hkey : e.key = key
  · rw [hkey] at hfirst ⊢
    rw [remember_puts_self, List.head?_append, hfirst]
    rfl
  · rwa [remember_puts_of_ne body hkey]

theorem FirstWrite.put (h : FirstWrite s) (rowid : {r : ℤ // r ∉ s.tables.rowids}) (key : String)
    (body : List UInt8) (index : Option EntryIndex) (now : ℤ) :
    FirstWrite ((s.remember key body).commit (s.tables.cachePut rowid key body index now).1) := by
  refine ⟨fun e he => ?_, fun key => commit_absent⟩
  rw [commit_puts he]
  refine cachePut_cases (P := fun t => e ∈ t.entries →
    ((s.remember key body).puts e.key).head? = some e.body) (fun _ => h.first_remember key body e)
    (fun hkey he => ?_) he
  rw [entries_insertFts?] at he
  obtain he | rfl := mem_entries_insertRow.mp he
  · exact h.first_remember key body e he
  · -- the key was absent, so this put is the first
    show ((s.remember key body).puts key).head? = some body
    rw [remember_puts_self, h.absent key hkey]
    rfl

end

/-! ### Runs -/

/-- What holds of the database in every state reached from `t₀`. -/
structure CacheRunInv (derive : List UInt8 → Option EntryIndex) (t₀ : CacheTables) (s : CacheDb) :
    Prop where
  consistent : CacheConsistent derive t₀ s.tables
  writes : FirstWrite s
  budget : s.stamped + s.tables.backfillRemaining ≤ t₀.backfillRemaining

section
variable {derive : List UInt8 → Option EntryIndex} {t₀ : CacheTables} {s s' : CacheDb} {i : ℕ}

/-- **One command keeps the database as it should be.** -/
theorem CacheRunInv.step (h : CacheRunInv derive t₀ s) {c : CacheCmd} {r : CacheRes c}
    (hc : CommandOk derive i s c) (hstep : CacheStep i s c r s') : CacheRunInv derive t₀ s' := by
  obtain ⟨hconsistent, hwrites, hbudget⟩ := h
  -- a pass counts the rows that it fills in, and no other statement adds one to fill in
  cases hstep with
  | got key now =>
    exact ⟨hconsistent.get key now, hwrites.commit (bodiesKept_get key now),
      (Nat.add_le_add_left (remaining_get key now) _).trans hbudget⟩
  | put key body index now rowid =>
    obtain rfl : index = derive body := hc
    exact ⟨hconsistent.put rowid key body now, hwrites.put rowid key body _ now,
      (Nat.add_le_add_left (remaining_put rowid key body _ now) _).trans hbudget⟩
  | deleted key =>
    exact ⟨hconsistent.deleteWhere _, hwrites.commit (bodiesKept_deleteWhere _),
      (Nat.add_le_add_left (remaining_deleteWhere _) _).trans hbudget⟩
  | pruned filter now order _ _ =>
    exact ⟨hconsistent.prune filter now order, hwrites.commit (bodiesKept_prune filter now order),
      (Nat.add_le_add_left (remaining_prune filter now order) _).trans hbudget⟩
  | stamped pass derived now =>
    have hwritten := hwrites.commit (bodiesKept_stampRows pass now derived s.tables)
    refine ⟨stampRows_consistent hconsistent hc, ⟨hwritten.first, hwritten.absent⟩, ?_⟩
    have hremaining := remaining_stampRows now hc
    show s.stamped + _ + (stampRows pass now derived s.tables).1.backfillRemaining ≤ _
    omega
  | _ => exact ⟨hconsistent, hwrites, hbudget⟩

theorem cacheRunInv (h₀ : CacheConsistent derive t₀ t₀) {ops : ℕ → CacheOp}
    {q : Pool CacheCmd CacheRes CacheDb (Except String CacheReply)}
    (h : Exec CacheStep (cachePool derive t₀ ops) q) :
    CacheRunInv derive t₀ q.state ∧ ∀ i, SafeCache derive i (q.procs i) q.state := by
  -- whether a request is safe does not depend on the invariant, so it comes first
  have hsafe : ∀ {q : Pool CacheCmd CacheRes CacheDb (Except String CacheReply)},
      Exec CacheStep (cachePool derive t₀ ops) q → ∀ i, SafeCache derive i (q.procs i) q.state := by
    intro q h
    have hrefl : ∀ i s, PendingRowsKept i s s := fun _ _ => .refl _
    have htrans : ∀ i s m n, PendingRowsKept i s m → PendingRowsKept i m n →
        PendingRowsKept i s n := fun _ _ _ _ => PendingKept.trans
    refine And.right (h.safe (I := fun _ => True) hrefl htrans (fun _ _ _ _ _ _ => trivial) ?_
      trivial fun i => safe_op (ops i))
    exact fun _ hstep => ⟨trivial, fun _ _ => hstep.kept⟩
  refine ⟨?_, hsafe h⟩
  induction h with
  | refl => exact ⟨h₀, firstWrite_ofTables t₀, le_of_eq (Nat.zero_add _)⟩
  | @step m m' i h hs ih =>
    cases hs with
    | ask r hproc hsem =>
      have hcmd := hsafe h i
      dsimp only at hcmd
      rw [hproc] at hcmd
      exact ih.step (hcmd _ (.refl _)).1 hsem

end

/-! ### The passes come to an end -/

/-- The rows that a process was told it stamped. -/
def stampedBy : CacheRun → ℕ
  | .ret (.ok (.stamped n)) => n
  | _ => 0

/-- The rows that an answer says were stamped. -/
def stampedIn : (c : CacheCmd) → CacheRes c → ℕ
  | .stamp .., .ok n => n
  | _, _ => 0

/-- An operation reports no more rows than its last answer does. -/
def Honest : CacheRun → Prop
  | .ret _ => True
  | .ask c k => ∀ r, Honest (k r) ∧ stampedBy (k r) ≤ stampedIn c r

section
variable {derive : List UInt8 → Option EntryIndex}

theorem honest_writeBatch (pass : IndexPass) (out : List Derived) :
    Honest (writeBatch pass out) ∧ stampedBy (writeBatch pass out) = 0 := by
  rw [writeBatch]
  split
  · exact ⟨trivial, rfl⟩
  · refine ⟨fun r => ⟨trivial, ?_⟩, rfl⟩
    cases r with
    | error e => exact le_rfl
    | ok n => exact le_rfl

theorem honest_readBodies (pass : IndexPass) (candidates : List (ℤ × Bool)) :
    ∀ budget out, Honest (readBodies derive pass candidates budget out) ∧
      stampedBy (readBodies derive pass candidates budget out) = 0 := by
  induction candidates with
  | nil => exact fun _ out => honest_writeBatch pass out
  | cons c candidates ih =>
    intro budget out
    obtain ⟨rowid, read⟩ := c
    cases read with
    | false => exact ih _ _
    | true =>
      refine ⟨fun r => ?_, rfl⟩
      obtain e | _ | body := r
      · exact ⟨trivial, le_rfl⟩
      · exact ⟨(ih _ _).1, (ih _ _).2.le⟩
      · dsimp only
        split
        · exact ⟨(honest_writeBatch pass _).1, (honest_writeBatch pass _).2.le⟩
        · exact ⟨(ih _ _).1, (ih _ _).2.le⟩

theorem honest_op (op : CacheOp) : Honest (op.run derive) ∧ stampedBy (op.run derive) = 0 := by
  have hanswer : ∀ (c : CacheCmd) (reply : CacheAnswer c → CacheReply),
      (∀ r, stampedBy (.ret (.ok (reply r))) = 0) → Honest (answerWith c reply) := by
    intro c reply hreply r
    refine ⟨trivial, ?_⟩
    cases r with
    | error e => exact Nat.zero_le _
    | ok a => exact (hreply a).le.trans (Nat.zero_le _)
  -- the first four answer with no count of stamped rows
  cases op with
  | get key => exact ⟨hanswer _ _ fun _ => rfl, rfl⟩
  | put key body => exact ⟨hanswer _ _ fun _ => rfl, rfl⟩
  | deleteEntry key => exact ⟨hanswer _ _ fun _ => rfl, rfl⟩
  | prune filter => exact ⟨hanswer _ _ fun _ => rfl, rfl⟩
  | indexBatch batch =>
    refine ⟨fun r => ?_, rfl⟩
    cases r with
    | error e => exact ⟨trivial, le_rfl⟩
    | ok rowids => exact ⟨(honest_readBodies _ _ _ _).1, (honest_readBodies _ _ _ _).2.le⟩
  | reindexBatch batch =>
    refine ⟨fun r => ?_, rfl⟩
    cases r with
    | error e => exact ⟨trivial, le_rfl⟩
    | ok candidates => exact ⟨(honest_readBodies _ _ _ _).1, (honest_readBodies _ _ _ _).2.le⟩

/-- What a command adds to the rows stamped. -/
theorem CacheStep.stamped_le {i : ℕ} {s s' : CacheDb} {c : CacheCmd} {r : CacheRes c}
    (h : CacheStep i s c r s') : s.stamped + stampedIn c r ≤ s'.stamped := by
  cases h with
  | stamped pass derived now => exact le_rfl
  | failed _ e => cases c <;> exact le_rfl
  | _ => exact le_rfl

/-- Together the operations report no more rows than were stamped. -/
theorem sum_stampedBy_le {t₀ : CacheTables} {ops : ℕ → CacheOp}
    {q : Pool CacheCmd CacheRes CacheDb (Except String CacheReply)}
    (h : Exec CacheStep (cachePool derive t₀ ops) q) :
    (∀ i, Honest (q.procs i)) ∧
      ∀ is : Finset ℕ, ∑ i ∈ is, stampedBy (q.procs i) ≤ q.state.stamped := by
  -- a stamp is counted in the database before its request can report it
  induction h with
  | refl =>
    refine ⟨fun i => (honest_op (ops i)).1, fun is => ?_⟩
    exact (Finset.sum_eq_zero fun i _ => (honest_op (ops i)).2).le
  | @step m m' i h hs ih =>
    obtain ⟨hhonest, hsum⟩ := ih
    cases hs with
    | @ask s s' procs _ c k r hproc hsem =>
      have hask : Honest (.ask c k) := hproc ▸ hhonest i
      have hstamped := hsem.stamped_le
      refine ⟨fun j => ?_, fun is => ?_⟩
      · by_cases hji : j = i
        · rw [hji]
          dsimp only
          rw [Function.update_self]
          exact (hask r).1
        · dsimp only
          rw [Function.update_of_ne hji]
          exact hhonest j
      · -- the sum over the others, and the one that has stepped
        have hothers : ∑ j ∈ is.erase i, stampedBy (Function.update procs i (k r) j) =
            ∑ j ∈ is.erase i, stampedBy (procs j) := by
          refine Finset.sum_congr rfl fun j hj => ?_
          rw [Function.update_of_ne (Finset.ne_of_mem_erase hj)]
        have hbound : ∑ j ∈ is.erase i, stampedBy (procs j) ≤ s.stamped := hsum _
        by_cases hi : i ∈ is
        · have hsplit := Finset.sum_erase_add is
            (fun j => stampedBy (Function.update procs i (k r) j)) hi
          have hnew := (hask r).2
          rw [hothers, Function.update_self] at hsplit
          dsimp only at hsplit ⊢
          omega
        · rw [Finset.erase_eq_of_notMem hi] at hothers hbound
          dsimp only
          rw [hothers]
          omega

end

/-! ### The claim of the index -/

/-- What the migrations leave: rows that nothing has looked at, and rows that a build before
migration 3 has. -/
structure Migrated (t : CacheTables) : Prop where
  rows : ∀ e ∈ t.entries, e.reindexedAt = none ∧
    ((e.indexedAt = none ∧ e.indexOk = none ∧ t.searchRows e.rowid = []) ∨
      (e.indexedAt ≠ none ∧ e.indexOk = some 0 ∧ t.searchRows e.rowid = []) ∨
      (e.indexedAt ≠ none ∧ e.indexOk = some 1 ∧ (t.searchRows e.rowid).length = 1))
  search : ∀ f ∈ t.fts, ∃ e ∈ t.entries, e.rowid = f.rowid

/-- The cache in a run from the tables `t₀`. -/
structure CacheIndexSound (derive : List UInt8 → Option EntryIndex) (t₀ : CacheTables)
    (q : Pool CacheCmd CacheRes CacheDb (Except String CacheReply)) : Prop where
  /-- The body of a key is the first that was put since the key was last absent. -/
  firstWrite : FirstWrite q.state
  /-- An indexed row is described by its own body, or is as a build before migration 3 left it,
  because no pass has re-derived it yet or its body cannot be read. -/
  indexed : ∀ e ∈ q.state.tables.entries, e.indexOk = some 1 →
    Described derive q.state.tables e ∨
      OlderBuild t₀ e ∧ (e.reindexedAt = none ∨ derive e.body = none) ∧
        (q.state.tables.searchRows e.rowid).length = 1
  /-- Nothing else has search rows. -/
  unlisted : ∀ rowid, (∀ e ∈ q.state.tables.entries, e.rowid = rowid → e.indexOk ≠ some 1) →
    q.state.tables.searchRows rowid = []
  /-- Of all the batches ever, no more answer other than 0 than rows were pending. -/
  ends : ∀ batches : Finset ℕ,
    (∀ i ∈ batches, ∃ n, n ≠ 0 ∧ q.procs i = .ret (.ok (.stamped n))) →
      batches.card ≤ t₀.backfillRemaining

section
variable {derive : List UInt8 → Option EntryIndex} {t₀ t : CacheTables}

theorem Migrated.consistent (h : Migrated t) : CacheConsistent derive t t := by
  refine ⟨fun e he => ?_, h.search⟩
  obtain ⟨hreindexed, ⟨hindexed, hok, hsearch⟩ | ⟨hindexed, hok, hsearch⟩ |
    ⟨hindexed, hok, hsearch⟩⟩ := h.rows e he
  · exact .unseen hindexed hreindexed (by simp [hok]) hsearch
  · exact .unreadable hindexed (by simp [hok]) hsearch
  · exact .older hindexed hreindexed hok hsearch ⟨e, he, hreindexed, hok, rfl, rfl, rfl, rfl⟩

theorem CacheConsistent.indexed (h : CacheConsistent derive t₀ t) {e : CacheRow}
    (he : e ∈ t.entries) (hok : e.indexOk = some 1) :
    Described derive t e ∨ OlderBuild t₀ e ∧ (e.reindexedAt = none ∨ derive e.body = none) ∧
      (t.searchRows e.rowid).length = 1 := by
  cases h.rows e he with
  | unseen _ _ hne _ => exact absurd hok hne
  | unreadable _ hne _ => exact absurd hok hne
  | older _ hreindexed _ hsearch holder => exact .inr ⟨holder, .inl hreindexed, hsearch⟩
  | kept _ _ _ hbody hsearch holder => exact .inr ⟨holder, .inr hbody, hsearch⟩
  | described _ _ _ hdescribed => exact .inl hdescribed

theorem CacheConsistent.unlisted (h : CacheConsistent derive t₀ t) {rowid : ℤ}
    (hnone : ∀ e ∈ t.entries, e.rowid = rowid → e.indexOk ≠ some 1) : t.searchRows rowid = [] := by
  by_cases hentry : ∃ e ∈ t.entries, e.rowid = rowid
  · obtain ⟨e, he, rfl⟩ := hentry
    have hok := hnone e he rfl
    cases h.rows e he with
    | unseen _ _ _ hsearch => exact hsearch
    | unreadable _ _ hsearch => exact hsearch
    | older _ _ hone _ _ => exact absurd hone hok
    | kept _ _ hone _ _ _ => exact absurd hone hok
    | described _ _ hone _ => exact absurd hone hok
  · refine h.searchRows_free fun hmem => ?_
    obtain ⟨e, he, hrowid⟩ := List.mem_map.mp hmem
    exact hentry ⟨e, he, hrowid⟩

end

/-- **The cache is written once and its index describes the right entry**, in every state that
any operations reach on a new or a migrated database. -/
theorem cache_index_sound {parse : List UInt8 → Option StoredEntry} {t₀ : CacheTables}
    {ops : ℕ → CacheOp} {q : Pool CacheCmd CacheRes CacheDb (Except String CacheReply)}
    (h₀ : Migrated t₀) (h : Exec CacheStep (cachePool (EntryIndex.derive parse) t₀ ops) q) :
    CacheIndexSound (EntryIndex.derive parse) t₀ q := by
  have hinv := (cacheRunInv h₀.consistent h).1
  refine ⟨hinv.writes, fun e he => hinv.consistent.indexed he,
    fun rowid => hinv.consistent.unlisted, fun batches hbatches => ?_⟩
  have hsum := (sum_stampedBy_le h).2 batches
  have hone : ∀ i ∈ batches, 1 ≤ stampedBy (q.procs i) := by
    intro i hi
    obtain ⟨n, hn, hret⟩ := hbatches i hi
    rw [hret]
    exact Nat.one_le_iff_ne_zero.mpr hn
  have hbudget := hinv.budget
  calc batches.card = ∑ _i ∈ batches, 1 := Finset.card_eq_sum_ones _
    _ ≤ ∑ i ∈ batches, stampedBy (q.procs i) := Finset.sum_le_sum hone
    _ ≤ q.state.stamped := hsum
    _ ≤ t₀.backfillRemaining := by omega

/-! ### A row of an older build -/

/-- The entry of a refused call. -/
def refusedEntry : StoredEntry :=
  { CacheEntry.ofOutput (.text "") (some .refusal) with createdAtMs := 0 }

/-- Its row, as a build before migration 3 indexed it. -/
def olderRow : CacheRow where
  rowid := 1
  key := "sha256:00"
  body := []
  size := 0
  createdAt := 0
  lastAccessAt := 0
  indexedAt := some 0
  reindexedAt := none
  indexOk := some 1
  columns := { (EntryIndex.ofEntry refusedEntry).toIndexColumns with emptyReason := none }

def olderTables : CacheTables where
  entries := [olderRow]
  fts := [⟨1, "", ""⟩]
  hits := 0
  misses := 0
  entryKey := List.nodup_singleton _
  rowidKey := List.nodup_singleton _
  ftsKey := List.nodup_singleton _

theorem migrated_olderTables : Migrated olderTables where
  rows := by
    intro e he
    rw [List.mem_singleton.mp he]
    exact ⟨rfl, .inr (.inr ⟨nofun, rfl, rfl⟩)⟩
  search := by
    intro f hf
    rw [List.mem_singleton.mp hf]
    exact ⟨olderRow, .head _, rfl⟩

/-- A row that a build before migration 3 has indexed lacks the reason of its entry, until the
re-index pass reaches it. -/
theorem older_row_lacks_reason :
    ¬ ∀ (parse : List UInt8 → Option StoredEntry) (t₀ : CacheTables) (ops : ℕ → CacheOp)
      (q : Pool CacheCmd CacheRes CacheDb (Except String CacheReply)), Migrated t₀ →
      Exec CacheStep (cachePool (EntryIndex.derive parse) t₀ ops) q →
      ∀ e ∈ q.state.tables.entries, e.indexOk = some 1 →
        Described (EntryIndex.derive parse) q.state.tables e := by
  intro h
  obtain ⟨index, hderive, hcolumns, -⟩ := h (fun _ => some refusedEntry) olderTables
    (fun _ => .reindexBatch 200) _ migrated_olderTables .refl olderRow (.head _) rfl
  obtain rfl := Option.some.inj hderive
  have hreason := congrArg IndexColumns.emptyReason hcolumns
  cases hreason

/-- The re-index pass gives the row its reason. -/
theorem reindexed_row_has_reason :
    ∃ q, Exec CacheStep (cachePool (EntryIndex.derive fun _ => some refusedEntry) olderTables
        fun _ => .reindexBatch 200) q ∧
      q.procs 0 = .ret (.ok (.stamped 1)) ∧
      (q.state.tables.entries.map fun e => e.columns.emptyReason) = [some "refusal"] ∧
      CacheIndexSound (EntryIndex.derive fun _ => some refusedEntry) olderTables q := by
  have hstart : Exec CacheStep (cachePool (EntryIndex.derive fun _ => some refusedEntry) olderTables
      fun _ => .reindexBatch 200) _ := .refl
  have hdone := ((hstart.move
    0 (.selectStale 200) (.ok [(1, some 1)]) rfl
      (.selectedStale 200 [olderRow] (.refl _) (List.pairwise_singleton _ _))).move
    0 (.selectBody 1) (.ok (some [])) rfl (.selectedBody 1)).move
    0 (.stamp .reindex [⟨1, some (EntryIndex.ofEntry refusedEntry)⟩]) (.ok 1) rfl
      (.stamped _ _ 1700000000000)
  exact ⟨_, hdone, rfl, by decide, cache_index_sound migrated_olderTables hdone⟩
