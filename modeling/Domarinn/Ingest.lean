/-
Uploads of one run that overlap.

An upload looks for the run and inserts it over seven tables, in one transaction.  On SQLite
transactions come one after the other.  On Postgres, at READ COMMITTED, both of two uploads
can find nothing; the second then waits for the first one's row, and fails on its key when
the first commits.

* **`IngestState.step`** — at any time at most one upload has inserted anything;
* **`ingest_once`** — when no upload inserts a row that was committed since it looked, one
  upload creates the run and every other finds it, and no upload waits for ever;
* **`overlapping_uploads_fail`** — the second of two uploads ends in a storage error.
-/
import Domarinn.RunStore
import Domarinn.UserStore

open Program

namespace Ingest

/-! ### Statements -/

/-- The committed tables, and what each open transaction has inserted. -/
structure Db where
  tables : RunTables
  tx : ℕ → Option (List RunInsert)

/-- What a statement of the connection `i` sees. -/
def Db.view (s : Db) (i : ℕ) : RunTables := ((s.tx i).getD []).foldl RunInsert.apply s.tables

def Db.setTx (s : Db) (i : ℕ) (tx : Option (List RunInsert)) : Db :=
  { s with tx := Function.update s.tx i tx }

/-- Two insertions under one unique key. -/
def SameKey : RunInsert → RunInsert → Prop
  | .run r, .run r' => r.id = r'.id
  | .blob b, .blob b' => b.runId = b'.runId
  | .runTag x, .runTag x' => x = x'
  | .case c, .case c' => c.key = c'.key
  | .caseTag x, .caseTag x' => x = x'
  | _, _ => False

/-- No other transaction has inserted under the key; an insertion waits for one that has. -/
def Db.Free (s : Db) (i : ℕ) (ins : RunInsert) : Prop :=
  ∀ j, j ≠ i → ∀ inserted, s.tx j = some inserted → ∀ c ∈ inserted, ¬ SameKey c ins

inductive Cmd where
  | begin
  | selectHash (id : String)
  | insert (ins : RunInsert)
  | commit
  | rollback

abbrev Answer : Cmd → Type
  | .selectHash _ => Option String
  | _ => Unit

abbrev Res (c : Cmd) : Type := Except String (Answer c)

abbrev Run (α : Type) := Program Cmd Res α

/-- One statement of the connection `i`, on a database that does not fail by itself. -/
inductive DbStep (dialect : Dialect) (i : ℕ) (s : Db) : (c : Cmd) → Res c → Db → Prop where
  | began (hidle : dialect = .sqlite → ∀ j, s.tx j = none) :
      DbStep dialect i s .begin (.ok ()) (s.setTx i (some []))
  | selected (id : String) :
      DbStep dialect i s (.selectHash id)
        (.ok (((s.view i).runs.find? fun r => r.id = id).map RunRow.contentHash)) s
  | inserted {before : List RunInsert} (ins : RunInsert) (htx : s.tx i = some before)
      (hfree : s.Free i ins) (hallowed : ins.Allowed (s.view i)) :
      DbStep dialect i s (.insert ins) (.ok ()) (s.setTx i (some (before ++ [ins])))
  | refused (ins : RunInsert) (e : String) (hfree : s.Free i ins)
      (hconstraint : ¬ ins.Allowed (s.view i)) :
      DbStep dialect i s (.insert ins) (.error e) s
  | committed : DbStep dialect i s .commit (.ok ()) ⟨s.view i, Function.update s.tx i none⟩
  | rolledBack (r : Res .rollback) : DbStep dialect i s .rollback r (s.setTx i none)

/-! ### The upload -/

/-- Return without a commit. -/
def leave (result : Except String IngestOutcome) : Run (Except String IngestOutcome) :=
  .ask .rollback fun _ => .ret result

/-- The insertions, and the commit. -/
def insertAll : List RunInsert → Run (Except String IngestOutcome)
  | [] => .ask .commit fun committed => match committed with
    | .ok () => .ret (.ok .created)
    | .error e => .ret (.error e)
  | ins :: rest => .ask (.insert ins) fun inserted => match inserted with
    | .ok () => insertAll rest
    | .error e => leave (.error e)

/-- The answer to an upload of a stored run. -/
def replyTo (p : PreparedRun) (stored : String) : IngestOutcome :=
  if stored = p.row.contentHash then .existing else .conflict

/-- `insert`, once it has looked for the stored hash. -/
def insertUnlessStored (p : PreparedRun) (now : Sql.I64) :
    Except String (Option String) → Run (Except String IngestOutcome)
  | .error e => leave (.error e)
  | .ok (some stored) => leave (.ok (replyTo p stored))
  | .ok none => insertAll (p.inserts now)

/-- `insert` in its transaction. -/
def lookAndInsert (p : PreparedRun) (now : Sql.I64) : Run (Except String IngestOutcome) :=
  .ask (.selectHash p.row.id) (insertUnlessStored p now)

/-- `insert`. -/
def insert (p : PreparedRun) (now : Sql.I64) : Run (Except String IngestOutcome) :=
  .ask .begin fun began => match began with
    | .ok () => lookAndInsert p now
    | .error e => .ret (.error e)

/-- Uploads of one run, at various times. -/
structure Uploads where
  id : String
  prepared : ℕ → PreparedRun
  now : ℕ → Sql.I64
  same : ∀ i, (prepared i).row.id = id

/-- The insertions of an upload. -/
def Uploads.inserts (u : Uploads) (i : ℕ) : List RunInsert := (u.prepared i).inserts (u.now i)

/-- The tables once the run is stored as this upload brings it. -/
def Uploads.stored (u : Uploads) (t : RunTables) (i : ℕ) : RunTables :=
  (u.inserts i).foldl RunInsert.apply t

/-- Any number of uploads, to any number of servers. -/
def pool (u : Uploads) (t : RunTables) : Pool Cmd Res Db (Except String IngestOutcome) :=
  ⟨⟨t, fun _ => none⟩, fun i => insert (u.prepared i) (u.now i)⟩

/-- The answer when the upload `w` created the run. -/
def Uploads.reply (u : Uploads) (i w : ℕ) : IngestOutcome :=
  replyTo (u.prepared i) (u.prepared w).row.contentHash

/-- The row of a run is inserted only while no row of that id is committed. -/
def NoRowSince (dialect : Dialect) (_ : ℕ) (s : Db) (c : Cmd) (_ : Res c) : Prop :=
  dialect = .sqlite ∨ ∀ row, c = .insert (.run row) → row.id ∉ s.tables.runIds

/-- The database, when the steps meet the condition. -/
abbrev GuardedDb (dialect : Dialect) : Sem Cmd Res Db :=
  Sem.where (DbStep dialect) (NoRowSince dialect)

/-- One upload creates the run, and every other finds it. -/
structure IngestOnce (dialect : Dialect) (u : Uploads) (t : RunTables)
    (q : Pool Cmd Res Db (Except String IngestOutcome)) : Prop where
  /-- Nobody has an answer yet, or one upload created the run as it is stored, and the other
  answers say so. -/
  answers : (q.state.tables = t ∧ ∀ i r, q.procs i ≠ .ret r) ∨
    ∃ w, q.procs w = .ret (.ok .created) ∧ q.state.tables = u.stored t w ∧
      ∀ i r, q.procs i = .ret r → i = w ∨ r = .ok (u.reply i w)
  /-- An upload without an answer can go on, or waits for one that can. -/
  progress : ∀ i, (∀ r, q.procs i ≠ .ret r) →
    ∃ j q', Step (DbStep dialect) q j q' ∧ (j = i ∨ (q.state.tx j).isSome)

/-! ### The stored run -/

section
variable {t : RunTables}

theorem runs_foldl {is : List RunInsert} (h : ∀ row, .run row ∉ is) :
    ∀ t : RunTables, (is.foldl RunInsert.apply t).runs = t.runs := by
  induction is with
  | nil => exact fun _ => rfl
  | cons i is ih =>
    intro t
    rw [List.foldl_cons, ih fun row hrow => h row (.tail _ hrow)]
    cases i with
    | run row => exact absurd (.head _) (h row)
    | _ => rfl

theorem run_notMem_parts (p : PreparedRun) (row : RunRow) : .run row ∉ p.parts := by
  simp [PreparedRun.parts, PreparedCase.inserts]

theorem stored_runs (u : Uploads) (i : ℕ) :
    (u.stored t i).runs = t.runs ++ [{ (u.prepared i).row with uploadedAt := u.now i }] := by
  show RunTables.runs ((u.prepared i).parts.foldl RunInsert.apply _) = _
  rw [runs_foldl (run_notMem_parts _)]
  rfl

theorem mem_stored (u : Uploads) (i : ℕ) : u.id ∈ (u.stored t i).runIds := by
  rw [RunTables.runIds, stored_runs, List.map_append]
  exact List.mem_append_right _ (List.mem_singleton.mpr (u.same i).symm)

/-- Looking for the run finds its hash exactly when it is stored. -/
theorem find_stored (u : Uploads) (hnew : u.id ∉ t.runIds) (i : ℕ) :
    ((u.stored t i).runs.find? fun r => r.id = u.id).map RunRow.contentHash =
      some (u.prepared i).row.contentHash := by
  have hnone : (t.runs.find? fun r => r.id = u.id) = none := by
    refine List.find?_eq_none.mpr fun r hr hid => hnew ?_
    exact List.mem_map.mpr ⟨r, hr, of_decide_eq_true hid⟩
  rw [stored_runs, List.find?_append, hnone]
  simp [u.same i]

theorem find_absent {id : String} (hnew : id ∉ t.runIds) :
    (t.runs.find? fun r => r.id = id).map RunRow.contentHash = none := by
  rw [Option.map_eq_none_iff, List.find?_eq_none]
  exact fun r hr hid => hnew (List.mem_map.mpr ⟨r, hr, of_decide_eq_true hid⟩)

/-- The insertion that comes after a part of them is let through. -/
theorem allowed_after {is js : List RunInsert} {ins : RunInsert} :
    ∀ {t : RunTables}, RunInsert.AllAllowed t (is ++ ins :: js) →
      ins.Allowed (is.foldl RunInsert.apply t) := by
  induction is with
  | nil => exact fun h => h.1
  | cons i is ih => exact fun h => ih h.2

end

/-! ### Phases -/

/-- Where the upload `i` stands, with what its transaction has inserted, when the run is as the
upload `w` stored it, or not stored yet. -/
inductive Phase (dialect : Dialect) (u : Uploads) (i : ℕ) : Option ℕ →
    Run (Except String IngestOutcome) → Option (List RunInsert) → Prop where
  | waiting {w : Option ℕ} : Phase dialect u i w (insert (u.prepared i) (u.now i)) none
  | begun {w : Option ℕ} : Phase dialect u i w (lookAndInsert (u.prepared i) (u.now i)) (some [])
  /-- It found nothing.  On SQLite nothing is still there. -/
  | looked {w : Option ℕ} (habsent : dialect = .sqlite → w = none) :
      Phase dialect u i w (insertAll (u.inserts i)) (some [])
  | writing {before rest : List RunInsert} (hbefore : before ≠ [])
      (hall : before ++ rest = u.inserts i) :
      Phase dialect u i none (insertAll rest) (some before)
  | leaving {w : ℕ} (hw : i ≠ w) : Phase dialect u i (some w) (leave (.ok (u.reply i w))) (some [])
  | created : Phase dialect u i (some i) (.ret (.ok .created)) none
  | answered {w : ℕ} (hw : i ≠ w) : Phase dialect u i (some w) (.ret (.ok (u.reply i w))) none

/-- The state of all uploads, when the run is as `w` stored it. -/
structure IngestState (dialect : Dialect) (u : Uploads) (t : RunTables) (w : Option ℕ)
    (q : Pool Cmd Res Db (Except String IngestOutcome)) : Prop where
  tables : q.state.tables = match w with
    | none => t
    | some w => u.stored t w
  phase : ∀ i, Phase dialect u i w (q.procs i) (q.state.tx i)
  creator : ∀ v, w = some v → q.procs v = .ret (.ok .created)
  /-- On SQLite one transaction is open at a time. -/
  alone : dialect = .sqlite → ∀ i j, (q.state.tx i).isSome → (q.state.tx j).isSome → i = j
  /-- One transaction at a time has inserted anything. -/
  writer : ∀ i j before before', q.state.tx i = some before → q.state.tx j = some before' →
    before ≠ [] → before' ≠ [] → i = j

section
variable {dialect : Dialect} {u : Uploads} {t : RunTables} {w : Option ℕ} {i : ℕ}
  {q q' : Pool Cmd Res Db (Except String IngestOutcome)}

/-- Once the run is stored nobody has inserted anything. -/
theorem Phase.inserted {w : ℕ} {p : Run (Except String IngestOutcome)}
    {before : List RunInsert} (h : Phase dialect u i (some w) p (some before)) : before = [] := by
  cases h with
  | begun => rfl
  | looked _ => rfl
  | leaving _ => rfl

/-- The committed tables have the run exactly when an upload has stored it. -/
theorem IngestState.absent_iff (h : IngestState dialect u t w q) (hnew : u.id ∉ t.runIds) :
    u.id ∉ q.state.tables.runIds ↔ w = none := by
  rw [h.tables]
  cases w with
  | none => exact ⟨fun _ => rfl, fun _ => hnew⟩
  | some v => exact ⟨fun habsent => absurd (mem_stored u v) habsent, fun hnone => nomatch hnone⟩

/-- A property that one process at a time has stays so, when the others keep theirs and `i` has it
only where no other does. -/
theorem unique_update (i : ℕ) {P P' : ℕ → Prop} (h : ∀ j k, P j → P k → j = k)
    (hother : ∀ j, j ≠ i → P' j → P j) (hself : P' i → ∀ j, j ≠ i → ¬ P j) :
    ∀ j k, P' j → P' k → j = k := by
  intro j k hj hk
  by_cases hji : j = i
  · by_cases hki : k = i
    · rw [hji, hki]
    · exact absurd (hother k hki hk) (hself (hji ▸ hj) k hki)
  · by_cases hki : k = i
    · exact absurd (hother j hji hj) (hself (hki ▸ hk) j hji)
    · exact h j k (hother j hji hj) (hother k hki hk)

/-- A step of one upload that stores nothing. -/
theorem IngestState.update (h : IngestState dialect u t w q) {s' : Db}
    {p : Run (Except String IngestOutcome)} {tx : Option (List RunInsert)}
    (htables : s'.tables = q.state.tables) (htx : s'.tx = Function.update q.state.tx i tx)
    (hphase : Phase dialect u i w p tx) (hcreator : w ≠ some i)
    (halone : dialect = .sqlite → tx.isSome → ∀ j, j ≠ i → q.state.tx j = none)
    (hwriter : ∀ before, tx = some before → before ≠ [] →
      ∀ j, j ≠ i → ∀ before', q.state.tx j = some before' → before' = []) :
    IngestState dialect u t w ⟨s', Function.update q.procs i p⟩ := by
  have hself : s'.tx i = tx := by rw [htx, Function.update_self]
  have hother : ∀ j, j ≠ i → s'.tx j = q.state.tx j := by
    intro j hj
    rw [htx, Function.update_of_ne hj]
  refine ⟨htables.trans h.tables, fun j => ?_, fun v hv => ?_, fun hdialect => ?_,
    fun j k before before' hj hk hne hne' => ?_⟩
  · by_cases hji : j = i
    · subst hji
      dsimp only
      rw [Function.update_self, hself]
      exact hphase
    · dsimp only
      rw [Function.update_of_ne hji, hother j hji]
      exact h.phase j
  · have hvi : v ≠ i := by
      rintro rfl
      exact hcreator hv
    exact (Function.update_of_ne hvi ..).trans (h.creator v hv)
  · -- the transaction of `i` is open only when no other is
    refine unique_update i (h.alone hdialect) (fun j hj hopen => ?_) fun hopen j hj => ?_
    · rwa [← hother j hj]
    · rw [halone hdialect (hself ▸ hopen) j hj]
      exact Bool.false_ne_true
  · -- and has inserted only when no other has
    have hone : ∀ j k, (∃ before, s'.tx j = some before ∧ before ≠ []) →
        (∃ before, s'.tx k = some before ∧ before ≠ []) → j = k := by
      refine unique_update i (P := fun j => ∃ before, q.state.tx j = some before ∧ before ≠ [])
        ?_ ?_ ?_
      · rintro j k ⟨before, hj, hne⟩ ⟨before', hk, hne'⟩
        exact h.writer j k before before' hj hk hne hne'
      · rintro j hji ⟨before, hj, hne⟩
        exact ⟨before, (hother j hji).symm.trans hj, hne⟩
      · rintro ⟨before, hj, hne⟩ k hki ⟨before', hk, hne'⟩
        exact hne' (hwriter before (hself.symm.trans hj) hne k hki before' hk)
    exact hone j k ⟨before, hj, hne⟩ ⟨before', hk, hne'⟩

/-- What is open beside an open transaction of `i`: nothing, on SQLite. -/
theorem IngestState.alone_of_open (h : IngestState dialect u t w q)
    (hopen : (q.state.tx i).isSome) (hdialect : dialect = .sqlite) (j : ℕ) (hj : j ≠ i) :
    q.state.tx j = none := by
  by_contra hne
  exact hj (h.alone hdialect j i (Option.isSome_iff_ne_none.mpr hne) hopen)

/-- Whoever writes has the run's row, so nobody else can insert it. -/
theorem IngestState.free_run (h : IngestState dialect u t w q) (row : RunRow)
    (hrow : row.id = u.id) (hfree : q.state.Free i (.run row)) (j : ℕ) (hj : j ≠ i)
    (before : List RunInsert) (htx : q.state.tx j = some before) : before = [] := by
  have hphase := h.phase j
  rw [htx] at hphase
  generalize q.procs j = p at hphase
  cases hphase with
  | begun => rfl
  | looked _ => rfl
  | leaving _ => rfl
  | writing hbefore hall =>
    cases before with
    | nil => rfl
    | cons first before =>
      obtain rfl : first = .run { (u.prepared j).row with uploadedAt := u.now j } :=
        (List.cons.inj hall).1
      refine absurd ?_ (hfree j hj _ htx _ (.head _))
      exact (u.same j).trans hrow.symm

/-- Storing the run: the writer commits, and the others have inserted nothing. -/
theorem IngestState.commit (h : IngestState dialect u t none q) {before : List RunInsert}
    (htx : q.state.tx i = some before) (hbefore : before ≠ []) (hall : before = u.inserts i) :
    IngestState dialect u t (some i)
      ⟨⟨q.state.view i, Function.update q.state.tx i none⟩,
        Function.update q.procs i (.ret (.ok .created))⟩ := by
  have hview : q.state.view i = u.stored t i := by
    rw [Db.view, htx, Option.getD_some, h.tables, hall]
    rfl
  have hother : ∀ j, j ≠ i → Function.update q.state.tx i none j = q.state.tx j :=
    fun j hj => Function.update_of_ne hj ..
  have hsome : ∀ j before', Function.update q.state.tx i none j = some before' →
      j ≠ i ∧ q.state.tx j = some before' := by
    intro j before' hj
    by_cases hji : j = i
    · rw [hji, Function.update_self] at hj
      cases hj
    · exact ⟨hji, (hother j hji).symm.trans hj⟩
  refine ⟨hview, fun j => ?_, fun v hv => ?_, fun hdialect j k hj hk => ?_,
    fun j k b b' hj hk hne hne' => ?_⟩
  · by_cases hji : j = i
    · subst hji
      dsimp only
      rw [Function.update_self, Function.update_self]
      exact .created
    · dsimp only
      rw [Function.update_of_ne hji, hother j hji]
      have hphase := h.phase j
      generalize hp : q.procs j = p at hphase ⊢
      generalize htxj : q.state.tx j = txj at hphase ⊢
      -- nobody else has written, and on SQLite nobody else has looked
      cases hphase with
      | waiting => exact .waiting
      | begun => exact .begun
      | looked _ =>
        refine .looked fun hdialect => ?_
        have hnone := h.alone_of_open (i := i) (by rw [htx]; rfl) hdialect j hji
        rw [htxj] at hnone
        cases hnone
      | writing hne _ => exact absurd (h.writer j i _ _ htxj htx hne hbefore) hji
  · obtain rfl := Option.some.inj hv
    exact Function.update_self ..
  · obtain ⟨b, hb⟩ := Option.isSome_iff_exists.mp hj
    obtain ⟨b', hb'⟩ := Option.isSome_iff_exists.mp hk
    exact h.alone hdialect j k (by rw [(hsome j b hb).2]; rfl) (by rw [(hsome k b' hb').2]; rfl)
  · exact h.writer j k b b' (hsome j b hj).2 (hsome k b' hk).2 hne hne'

/-- **One statement** of one upload. -/
theorem IngestState.step (hdb : t.WellFormed) (hnew : u.id ∉ t.runIds)
    (h : IngestState dialect u t w q) (hs : Step (GuardedDb dialect) q i q') :
    ∃ w', IngestState dialect u t w' q' := by
  cases hs with
  | @ask s s' procs _ c k r hproc hsem =>
    obtain ⟨hstep, hcond⟩ := hsem
    have hcreator : w ≠ some i := by
      intro hw
      exact absurd (hproc.symm.trans (h.creator i hw)) (by simp)
    have hphase : Phase dialect u i w (procs i) (s.tx i) := h.phase i
    generalize hp : procs i = p at hphase
    generalize htx : s.tx i = tx at hphase
    have hask : p = .ask c k := hp.symm.trans hproc
    have hsame : s.tx = Function.update s.tx i tx := by rw [← htx, Function.update_eq_self]
    have halone : tx.isSome → dialect = .sqlite → ∀ j, j ≠ i → s.tx j = none :=
      fun hopen hdialect => h.alone_of_open (by rw [show Db.tx _ i = tx from htx]; exact hopen) hdialect
    cases hphase with
    | waiting =>
      cases hask
      cases hstep with
      | began hidle =>
        exact ⟨w, h.update rfl rfl .begun hcreator (fun hdialect _ j _ => hidle hdialect j)
          fun before hb hne => absurd (Option.some.inj hb).symm hne⟩
    | begun =>
      cases hask
      cases hstep with
      | selected _ =>
        have hview : s.view i = s.tables := by
          rw [Db.view, htx]
          rfl
        have hnext : Phase dialect u i w (insertUnlessStored (u.prepared i) (u.now i)
            (.ok ((s.tables.runs.find? fun r => r.id = u.id).map RunRow.contentHash))) (some []) := by
          rw [show s.tables = _ from h.tables]
          cases w with
          | none =>
            rw [find_absent hnew]
            exact .looked fun _ => rfl
          | some v =>
            rw [find_stored u hnew v]
            exact .leaving fun hiv => hcreator (congrArg some hiv.symm)
        rw [hview, u.same i]
        exact ⟨w, h.update rfl hsame hnext hcreator (fun hdialect hopen => halone hopen hdialect)
          fun before hb hne => absurd (Option.some.inj hb).symm hne⟩
    | looked habsent =>
      rw [Uploads.inserts, PreparedRun.inserts, insertAll] at hask
      cases hask
      -- the condition, or SQLite, has the run still absent
      have hnone : w = none := by
        rcases hcond with hsqlite | hrow
        · exact habsent hsqlite
        · refine (h.absent_iff hnew).mp ?_
          have hrun := hrow _ rfl
          rwa [show ({ (u.prepared i).row with uploadedAt := u.now i } : RunRow).id = u.id from
            u.same i] at hrun
      subst hnone
      have hallowed : (RunInsert.run { (u.prepared i).row with uploadedAt := u.now i }).Allowed
          (s.view i) := by
        rw [Db.view, htx]
        show (u.prepared i).row.id ∉ s.tables.runIds
        rw [u.same i]
        exact (h.absent_iff hnew).mpr rfl
      cases hstep with
      | refused _ e _ hconstraint => exact absurd hallowed hconstraint
      | inserted _ hopen hfree _ =>
        obtain rfl := Option.some.inj (htx.symm.trans hopen)
        refine ⟨none, h.update rfl rfl (.writing (by simp) rfl) hcreator
          (fun hdialect _ => halone rfl hdialect) fun before hb hne j hj before' hb' => ?_⟩
        exact h.free_run { (u.prepared i).row with uploadedAt := u.now i } (u.same i) hfree j hj
          before' hb'
    | @writing before rest hbefore hall =>
      have hview : s.view i = before.foldl RunInsert.apply t := by
        rw [Db.view, htx, show s.tables = t from h.tables]
        rfl
      have hothers : ∀ j, j ≠ i → ∀ before', s.tx j = some before' → before' = [] := by
        intro j hj before' hb'
        by_contra hne
        exact hj (h.writer j i before' before hb' htx hne hbefore)
      cases rest with
      | nil =>
        rw [List.append_nil] at hall
        cases hask
        cases hstep with
        | committed => exact ⟨some i, h.commit htx hbefore hall⟩
      | cons ins rest =>
        have hallowed : ins.Allowed (s.view i) := by
          have hins : RunInsert.AllAllowed t (before ++ ins :: rest) := by
            rw [hall]
            exact PreparedRun.inserts_allowed hdb (by rw [u.same i]; exact hnew) _
          rw [hview]
          exact allowed_after hins
        cases hask
        cases hstep with
        | refused _ e _ hconstraint => exact absurd hallowed hconstraint
        | inserted _ hopen _ _ =>
          obtain rfl := Option.some.inj (htx.symm.trans hopen)
          refine ⟨none, h.update rfl rfl (.writing (by simp) ?_) hcreator
            (fun hdialect _ => halone rfl hdialect) fun _ _ _ => hothers⟩
          rw [List.append_assoc]
          exact hall
    | leaving hw =>
      cases hask
      cases hstep with
      | rolledBack r =>
        exact ⟨_, h.update rfl rfl (.answered hw) hcreator
          (fun _ hopen => by cases hopen) fun _ hb => by cases hb⟩
    | created => cases hask
    | answered hw => cases hask

/-! ### Answers and progress -/

/-- An answer comes once the run is stored, and is the one that the stored run calls for. -/
theorem Phase.answer {r : Except String IngestOutcome} {tx : Option (List RunInsert)}
    (h : Phase dialect u i w (.ret r) tx) :
    ∃ v, w = some v ∧ (i = v ∨ r = .ok (u.reply i v)) := by
  generalize hp : (Program.ret r : Run (Except String IngestOutcome)) = p at h
  cases h with
  | waiting => cases hp
  | begun => cases hp
  | looked _ =>
    rw [Uploads.inserts, PreparedRun.inserts, insertAll] at hp
    cases hp
  | @writing _ rest _ _ => cases rest <;> cases hp
  | leaving _ => cases hp
  | created => exact ⟨i, rfl, .inl rfl⟩
  | @answered v _ =>
    cases hp
    exact ⟨v, rfl, .inr rfl⟩

theorem IngestState.answers (h : IngestState dialect u t w q) :
    (q.state.tables = t ∧ ∀ i r, q.procs i ≠ .ret r) ∨
      ∃ v, q.procs v = .ret (.ok .created) ∧ q.state.tables = u.stored t v ∧
        ∀ i r, q.procs i = .ret r → i = v ∨ r = .ok (u.reply i v) := by
  have hanswer : ∀ i r, q.procs i = .ret r → ∃ v, w = some v ∧ (i = v ∨ r = .ok (u.reply i v)) :=
    fun i r hr => Phase.answer (hr ▸ h.phase i)
  cases w with
  | none =>
    refine .inl ⟨h.tables, fun i r hr => ?_⟩
    obtain ⟨v, hv, -⟩ := hanswer i r hr
    cases hv
  | some v =>
    refine .inr ⟨v, h.creator v rfl, h.tables, fun i r hr => ?_⟩
    obtain ⟨v', hv, hr⟩ := hanswer i r hr
    obtain rfl := Option.some.inj hv
    exact hr

/-- An upload that inserts can go on, when nobody else has inserted anything. -/
theorem insertAll_moves (dialect : Dialect) {before rest : List RunInsert}
    (hproc : q.procs i = insertAll rest)
    (htx : q.state.tx i = some before)
    (hothers : ∀ j, j ≠ i → ∀ before', q.state.tx j = some before' → before' = []) :
    ∃ q', Step (DbStep dialect) q i q' := by
  cases rest with
  | nil => exact ⟨_, .ask (.ok ()) hproc .committed⟩
  | cons ins rest =>
    have hfree : q.state.Free i ins := by
      intro j hj inserted hinserted c hc
      rw [hothers j hj inserted hinserted] at hc
      cases hc
    by_cases hallowed : ins.Allowed (q.state.view i)
    · exact ⟨_, .ask (.ok ()) hproc (.inserted ins htx hfree hallowed)⟩
    · exact ⟨_, .ask (.error "") hproc (.refused ins "" hfree hallowed)⟩

/-- While a transaction is open, one that is open can go on. -/
theorem IngestState.open_moves (h : IngestState dialect u t w q) {before : List RunInsert}
    (htx : q.state.tx i = some before) :
    ∃ j q', Step (DbStep dialect) q j q' ∧ (q.state.tx j).isSome := by
  by_cases hwriter : ∃ j b, q.state.tx j = some b ∧ b ≠ []
  · -- the writer waits for nobody
    obtain ⟨j, b, hj, hb⟩ := hwriter
    have hphase := h.phase j
    rw [hj] at hphase
    generalize hp : q.procs j = p at hphase
    cases hphase with
    | begun => exact absurd rfl hb
    | looked _ => exact absurd rfl hb
    | leaving _ => exact absurd rfl hb
    | writing _ _ =>
      obtain ⟨q', hq'⟩ := insertAll_moves dialect hp hj fun k hk b' hk' => by
        by_contra hne
        exact hk (h.writer k j b' b hk' hj hne hb)
      exact ⟨j, q', hq', by rw [hj]; rfl⟩
  · have hothers : ∀ j, j ≠ i → ∀ b, q.state.tx j = some b → b = [] := by
      intro j _ b hj
      by_contra hne
      exact hwriter ⟨j, b, hj, hne⟩
    have hopen : (q.state.tx i).isSome := by
      rw [htx]
      rfl
    have hphase := h.phase i
    rw [htx] at hphase
    generalize hp : q.procs i = p at hphase
    cases hphase with
    | begun => exact ⟨i, _, .ask _ hp (.selected _), hopen⟩
    | leaving _ => exact ⟨i, _, .ask (.ok ()) hp (.rolledBack _), hopen⟩
    | looked _ =>
      obtain ⟨q', hq'⟩ := insertAll_moves dialect hp htx hothers
      exact ⟨i, q', hq', hopen⟩
    | writing _ _ =>
      obtain ⟨q', hq'⟩ := insertAll_moves dialect hp htx hothers
      exact ⟨i, q', hq', hopen⟩

/-- An upload without an answer can go on, or another that has begun can. -/
theorem IngestState.progress (h : IngestState dialect u t w q) (i : ℕ)
    (hopen : ∀ r, q.procs i ≠ .ret r) :
    ∃ j q', Step (DbStep dialect) q j q' ∧ (j = i ∨ (q.state.tx j).isSome) := by
  cases htx : q.state.tx i with
  | some before =>
    obtain ⟨j, q', hq', hj⟩ := h.open_moves htx
    exact ⟨j, q', hq', .inr hj⟩
  | none =>
    have hphase := h.phase i
    rw [htx] at hphase
    generalize hp : q.procs i = p at hphase
    cases hphase with
    | waiting =>
      by_cases hbusy : ∃ j before, q.state.tx j = some before
      · obtain ⟨j, before, hj⟩ := hbusy
        obtain ⟨k, q', hq', hk⟩ := h.open_moves hj
        exact ⟨k, q', hq', .inr hk⟩
      · refine ⟨i, _, .ask _ hp (.began fun _ j => ?_), .inl rfl⟩
        by_contra hne
        exact hbusy ⟨j, Option.ne_none_iff_exists'.mp hne⟩
    | created => exact absurd hp (hopen _)
    | answered _ => exact absurd hp (hopen _)

theorem ingestState (hdb : t.WellFormed) (hnew : u.id ∉ t.runIds)
    (h : Exec (GuardedDb dialect) (pool u t) q) : ∃ w, IngestState dialect u t w q := by
  induction h with
  | refl =>
    refine ⟨none, rfl, fun i => .waiting, fun v hv => ?_, fun _ i j hi => ?_,
      fun i j before before' hi => ?_⟩
    · cases hv
    · cases hi
    · cases hi
  | step _ hs ih =>
    obtain ⟨w, hw⟩ := ih
    exact hw.step hdb hnew hs

/-- **Uploads of one run are idempotent**, in every run in which no upload inserts a row that
was committed since it looked; on SQLite every run is one of these. -/
theorem ingest_once (db : RunsDb) (hnew : u.id ∉ db.1.runIds)
    (h : Exec (GuardedDb dialect) (pool u db.1) q) : IngestOnce dialect u db.1 q := by
  obtain ⟨w, hw⟩ := ingestState db.2 hnew h
  exact ⟨hw.answers, hw.progress⟩

end

/-! ### Two uploads that overlap -/

def epoch : Sql.I64 := ⟨0, by decide⟩

/-- A run of an empty suite. -/
def bareUpload : PreparedRun where
  row :=
    { id := "r1", project := none, suite := none, createdAt := epoch, uploadedAt := epoch
      schemaVersion := 1, description := none, gitBranch := none, gitCommit := none
      gitDirty := none, ciProvider := none, ciRunUrl := none, caseCount := 0, passCount := 0
      failCount := 0, errorCount := 0, promptTokens := 0, completionTokens := 0
      costMicrousd := none, durationMs := 0, contentHash := "00", uploadedBy := none
      configDigest := none, cacheHits := some 0, cacheMisses := some 0, actor := none
      host := none, domarinnVersion := none, promptsDigest := none, providersDigest := none
      testsDigest := none, assertsDigest := none, graderDigest := none
      cacheReadTokens := some 0, cacheWriteTokens := some 0, cacheSavingsMicrousd := none
      graderCostMicrousd := none, emptyCount := some 0, fallbackCount := some 0
      xfailCount := some 0, xpassCount := some 0 }
  tags := []
  blob := []
  cases := []

/-- The upload, and its repetitions. -/
def retriedUpload : Uploads := ⟨"r1", fun _ => bareUpload, fun _ => epoch, fun _ => rfl⟩

/-- A server that has stored nothing yet. -/
def emptyRuns : RunsDb := ⟨⟨[], [], [], [], [], [], [], []⟩, by
  constructor <;> simp [RunTables.runIds]⟩

/-- **An upload and its repetition can overlap** on Postgres: both find nothing, the first
commits, and the second fails on the key of the row that the first inserted. -/
theorem overlapping_uploads_fail :
    ¬ ∀ (dialect : Dialect) (u : Uploads) (db : RunsDb)
      (q : Pool Cmd Res Db (Except String IngestOutcome)),
      u.id ∉ db.1.runIds → Exec (DbStep dialect) (pool u db.1) q →
        IngestOnce dialect u db.1 q := by
  intro h
  obtain ⟨hrun, hblob, -⟩ := PreparedRun.inserts_allowed emptyRuns.2
    (show bareUpload.row.id ∉ emptyRuns.1.runIds by decide) epoch
  have hstart : Exec (DbStep .postgres) (pool retriedUpload emptyRuns.1)
      (pool retriedUpload emptyRuns.1) := .refl
  have hlooked := (((hstart.move
    0 .begin (.ok ()) rfl (.began (by simp))).move
    1 .begin (.ok ()) rfl (.began (by simp))).move
    0 (.selectHash "r1") (.ok none) rfl (.selected "r1")).move
    1 (.selectHash "r1") (.ok none) rfl (.selected "r1")
  have hstored := (((hlooked.move
    0 (.insert (.run bareUpload.row)) (.ok ()) rfl (.inserted _ rfl ?_ hrun)).move
    0 (.insert (.blob ⟨"r1", []⟩)) (.ok ()) rfl (.inserted _ rfl ?_ hblob)).move
    0 (.insert (.runText bareUpload.searchText)) (.ok ()) rfl (.inserted _ rfl ?_ trivial)).move
    0 .commit (.ok ()) rfl .committed
  have hfailed := (hstored.move
    1 (.insert (.run bareUpload.row)) (.error "duplicate key") rfl
      (.refused _ "duplicate key" ?_ ?_)).move
    1 .rollback (.ok ()) rfl (.rolledBack _)
  · obtain ⟨-, hnone⟩ | ⟨w, hw, -, hothers⟩ :=
      (h .postgres retriedUpload emptyRuns _ (by decide) hfailed).answers
    · exact hnone 1 _ rfl
    · obtain hw1 | hr := hothers 1 _ rfl
      · subst hw1
        cases hw
      · cases hr
  · -- the first upload has committed
    rintro (_ | _ | j) hj inserted htx c hc
    · cases htx
    · exact absurd rfl hj
    · cases htx
  · exact fun hallowed => hallowed (.head _)
  all_goals
    -- the second one has inserted nothing
    rintro (_ | _ | j) hj inserted htx c hc
    · exact absurd rfl hj
    · cases htx
      cases hc
    · cases htx

/-- One after the other the two uploads create the run and find it. -/
theorem retried_upload_exists :
    ∃ q, Exec (GuardedDb .sqlite) (pool retriedUpload emptyRuns.1) q ∧
      q.procs 0 = .ret (.ok .created) ∧ q.procs 1 = .ret (.ok .existing) ∧
      IngestOnce .sqlite retriedUpload emptyRuns.1 q := by
  obtain ⟨hrun, hblob, -⟩ := PreparedRun.inserts_allowed emptyRuns.2
    (show bareUpload.row.id ∉ emptyRuns.1.runIds by decide) epoch
  have hstart : Exec (GuardedDb .sqlite) (pool retriedUpload emptyRuns.1)
      (pool retriedUpload emptyRuns.1) := .refl
  -- the first upload stores the run
  have hcreated := (((((hstart.move
    0 .begin (.ok ()) rfl ⟨.began fun _ j => rfl, .inl rfl⟩).move
    0 (.selectHash "r1") (.ok none) rfl ⟨.selected "r1", .inl rfl⟩).move
    0 (.insert (.run bareUpload.row)) (.ok ()) rfl ⟨.inserted _ rfl ?_ hrun, .inl rfl⟩).move
    0 (.insert (.blob ⟨"r1", []⟩)) (.ok ()) rfl ⟨.inserted _ rfl ?_ hblob, .inl rfl⟩).move
    0 (.insert (.runText bareUpload.searchText)) (.ok ()) rfl
      ⟨.inserted _ rfl ?_ trivial, .inl rfl⟩).move
    0 .commit (.ok ()) rfl ⟨.committed, .inl rfl⟩
  -- the second finds the same hash
  have hexisting := ((hcreated.move
    1 .begin (.ok ()) rfl ⟨.began fun _ j => ?_, .inl rfl⟩).move
    1 (.selectHash "r1") (.ok (some "00")) rfl ⟨.selected "r1", .inl rfl⟩).move
    1 .rollback (.ok ()) rfl ⟨.rolledBack _, .inl rfl⟩
  · exact ⟨_, hexisting, rfl, rfl, ingest_once emptyRuns (by decide) hexisting⟩
  · rcases j with _ | j
    · rfl
    · rfl
  all_goals
    rintro (_ | j) hj inserted htx
    · exact absurd rfl hj
    · cases htx

end Ingest
