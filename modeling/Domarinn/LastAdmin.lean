/-
Whether the last enabled admin can be lost.

Every operation that takes the enabled admin's status from a user first counts the other
enabled admins.  The count and the write are two statements.  On SQLite no other
transaction runs between them, so the count still holds at the commit.  On Postgres, at
READ COMMITTED, two transactions can each count the other's admin and both commit.

* **`overlapping_demotions_lose_admin`** — two overlapping demotions leave no admin;
* **`UserOp.safe`** — on SQLite every request commits only what its guard lets pass, on the
  rows as they are at the commit;
* **`last_admin_kept`** — in every run on SQLite, and in every run on Postgres in which the
  guard of each committing transaction still passes at its commit, there is an enabled
  admin in every state after there first is one.
-/
import Domarinn.UserStore

open Program

/-! ### Guards -/

namespace UserTable

/-- The guard of `update_role_and_disabled`. -/
def updateGuard (t : UserTable) (id : String) (role : Role) (disabled : Bool) : Bool :=
  match t.find id with
  | none => true
  | some u => !stripsAdmin u.role u.disabled role disabled || t.countOtherAdmins id != 0

/-- The guard of `delete_user`. -/
def deleteGuard (t : UserTable) (id : String) : Bool :=
  match t.find id with
  | none => true
  | some u => !u.isEnabledAdmin || t.countOtherAdmins id != 0

/-- A row is found under its id. -/
theorem find_of_mem {t : UserTable} {u : UserRow} (hu : u ∈ t.rows) : t.find u.id = some u := by
  unfold find
  cases hfind : t.rows.find? fun v => v.id == u.id with
  | none => simpa using List.find?_eq_none.mp hfind u hu
  | some v =>
    have hv : v ∈ t.rows := List.mem_of_find?_eq_some hfind
    have hid : v.id = u.id := by simpa using List.find?_some hfind
    rw [List.inj_on_of_nodup_map t.primaryKey hv hu hid]

/-- A count of others that is not zero counts somebody. -/
theorem exists_other {t : UserTable} {id : String} (h : (t.countOtherAdmins id != 0) = true) :
    ∃ u ∈ t.rows, u.isEnabledAdmin = true ∧ u.id ≠ id := by
  have hpos : 0 < t.rows.countP fun u => u.isEnabledAdmin && u.id != id :=
    Nat.pos_of_ne_zero (by simpa [countOtherAdmins] using h)
  obtain ⟨u, hu, hother⟩ := List.countP_pos_iff.mp hpos
  rw [Bool.and_eq_true, bne_iff_ne] at hother
  exact ⟨u, hu, hother⟩

/-- An update whose guard passes keeps an enabled admin. -/
theorem update_keeps_admin {t : UserTable} {id : String} {role : Role} {disabled : Bool}
    (hguard : t.updateGuard id role disabled = true) (hadmin : t.HasEnabledAdmin) :
    (t.update id role disabled).HasEnabledAdmin := by
  have hkept : ∀ u ∈ t.rows, u.isEnabledAdmin = true → u.id ≠ id →
      (t.update id role disabled).HasEnabledAdmin := fun u hu hen hid =>
    ⟨u, List.mem_map.mpr ⟨u, hu, if_neg hid⟩, hen⟩
  obtain ⟨u, hu, hen⟩ := hadmin
  by_cases hid : u.id = id
  · -- the admin is the user that is updated: it stays one, or somebody else is one
    subst hid
    rw [updateGuard, find_of_mem hu] at hguard
    rcases Bool.or_eq_true_iff.mp hguard with hstays | hothers
    · refine ⟨{ u with role, disabled }, List.mem_map.mpr ⟨u, hu, if_pos rfl⟩, ?_⟩
      rw [UserRow.isEnabledAdmin] at hen
      simpa [stripsAdmin, hen, UserRow.isEnabledAdmin] using hstays
    · obtain ⟨v, hv, hven, hvid⟩ := exists_other hothers
      exact hkept v hv hven hvid
  · exact hkept u hu hen hid

/-- A deletion whose guard passes keeps an enabled admin. -/
theorem delete_keeps_admin {t : UserTable} {id : String} (hguard : t.deleteGuard id = true)
    (hadmin : t.HasEnabledAdmin) : (t.delete id).HasEnabledAdmin := by
  have hkept : ∀ u ∈ t.rows, u.isEnabledAdmin = true → u.id ≠ id →
      (t.delete id).HasEnabledAdmin := fun u hu hen hid =>
    ⟨u, List.mem_filter.mpr ⟨hu, by simpa using hid⟩, hen⟩
  obtain ⟨u, hu, hen⟩ := hadmin
  by_cases hid : u.id = id
  · subst hid
    rw [deleteGuard, find_of_mem hu] at hguard
    rcases Bool.or_eq_true_iff.mp hguard with hstays | hothers
    · rw [hen] at hstays
      cases hstays
    · obtain ⟨v, hv, hven, hvid⟩ := exists_other hothers
      exact hkept v hv hven hvid
  · exact hkept u hu hen hid

/-- An insertion loses nobody. -/
theorem insert_keeps_admin {t : UserTable} {u : UserRow} (hadmin : t.HasEnabledAdmin) :
    (t.insert u).HasEnabledAdmin := by
  obtain ⟨v, hv, hen⟩ := hadmin
  refine ⟨v, ?_, hen⟩
  unfold insert
  split_ifs
  · exact hv
  · exact List.mem_append_left _ hv

end UserTable

/-- The guard of a change; an insertion has none. -/
def Change.guard (t : Tables) : Change → Bool
  | .updateUser id role disabled => t.users.updateGuard id role disabled
  | .deleteUser id => t.users.deleteGuard id
  | .insertUser _ => true
  | .insertIdentity _ => true

/-- The guards of a transaction's changes pass, one after the other. -/
def GuardsPass : Tables → List Change → Prop
  | _, [] => True
  | t, c :: rest => c.guard t = true ∧ GuardsPass (c.apply t) rest

theorem Change.keeps_admin {t : Tables} {c : Change} (hguard : c.guard t = true)
    (hadmin : t.users.HasEnabledAdmin) : (c.apply t).users.HasEnabledAdmin := by
  cases c with
  | updateUser id role disabled => exact UserTable.update_keeps_admin hguard hadmin
  | deleteUser id => exact UserTable.delete_keeps_admin hguard hadmin
  | insertUser row => exact UserTable.insert_keeps_admin hadmin
  | insertIdentity identity => exact hadmin

/-- A transaction whose guards pass keeps an enabled admin. -/
theorem applyAll_keeps_admin : ∀ {changes : List Change} {t : Tables}, GuardsPass t changes →
    t.users.HasEnabledAdmin → (applyAll t changes).users.HasEnabledAdmin := by
  intro changes
  induction changes with
  | nil => exact fun _ hadmin => hadmin
  | cons c rest ih => exact fun hpass hadmin => ih hpass.2 (c.keeps_admin hpass.1 hadmin)

/-- At a commit, the guards pass on the tables as they are then. -/
def CommitGuarded (i : ℕ) (s : Db) (c : DbCmd) : Prop :=
  c = .commit → GuardsPass s.tables ((s.tx i).getD [])

/-- The condition on the steps of a run: none on SQLite, guarded commits on Postgres. -/
def GuardedOnPostgres (dialect : Dialect) (i : ℕ) (s : Db) (c : DbCmd) (_ : DbRes c) : Prop :=
  dialect = .sqlite ∨ CommitGuarded i s c

/-- The database, when the steps meet the condition. -/
abbrev GuardedDb (dialect : Dialect) : Sem DbCmd DbRes Db :=
  Sem.where (DbStep dialect) (GuardedOnPostgres dialect)

/-! ### Steps -/

section
variable {dialect : Dialect} {i : ℕ} {s s' : Db} {c : DbCmd} {r : DbRes c}

/-- What a statement does: nothing to other transactions, and to the tables only by a
commit; a transaction is opened only when it may. -/
theorem DbStep.effect (h : DbStep dialect i s c r s') :
    (∀ j, j ≠ i → s'.tx j = s.tx j) ∧
      (s'.tables = s.tables ∨ c = .commit ∧ s'.tables = s.view i) ∧
      ((s'.tx i).isSome → (s.tx i).isSome ∨ (dialect = .sqlite → s.Idle)) := by
  have hset : ∀ tx : Option (List Change), ∀ j, j ≠ i → (s.setTx i tx).tx j = s.tx j :=
    fun tx j hj => Function.update_of_ne hj ..
  cases h with
  | began hfree => exact ⟨hset _, .inl rfl, fun _ => .inr hfree⟩
  | updated id role disabled htx _ => exact ⟨hset _, .inl rfl, fun _ => .inl (by simp [htx])⟩
  | deleted id htx _ => exact ⟨hset _, .inl rfl, fun _ => .inl (by simp [htx])⟩
  | inserted id username role htx _ _ _ =>
    exact ⟨hset _, .inl rfl, fun _ => .inl (by simp [htx])⟩
  | linked identity htx => exact ⟨hset _, .inl rfl, fun _ => .inl (by simp [htx])⟩
  | committed => exact ⟨hset _, .inr ⟨rfl, rfl⟩, by simp [Db.commit]⟩
  | commitUnheard e => exact ⟨hset _, .inr ⟨rfl, rfl⟩, by simp [Db.commit]⟩
  | commitFailed e => exact ⟨hset _, .inl rfl, by simp [Db.setTx]⟩
  | rolledBack => exact ⟨hset _, .inl rfl, by simp [Db.setTx]⟩
  | _ => exact ⟨fun _ _ => rfl, .inl rfl, .inl⟩

/-- A step with a guarded commit keeps an enabled admin. -/
theorem DbStep.keeps_admin (h : DbStep dialect i s c r s') (hguard : CommitGuarded i s c)
    (hadmin : s.tables.users.HasEnabledAdmin) : s'.tables.users.HasEnabledAdmin := by
  rcases h.effect.2.1 with hsame | ⟨hcommit, hview⟩
  · rw [hsame]
    exact hadmin
  · rw [hview]
    exact applyAll_keeps_admin (hguard hcommit) hadmin

/-- What a request relies on: others leave its transaction as it is, and the tables too
while it is open. -/
def Undisturbed (i : ℕ) (s m : Db) : Prop :=
  m.tx i = s.tx i ∧ ((s.tx i).isSome → m.tables = s.tables)

end

/-! ### Requests on SQLite -/

/-- No transaction of the request is open. -/
def Closed (i : ℕ) (s : Db) : Prop := s.tx i = none

/-- Its transaction is open over the tables `t` and has written `changes`. -/
def Opened (i : ℕ) (t : Tables) (changes : List Change) (s : Db) : Prop :=
  s.tables = t ∧ s.tx i = some changes

/-- The request runs safely on SQLite and leaves no transaction open. -/
abbrev SafeRequest {α : Type} (i : ℕ) : DbRun α → Db → Prop :=
  Safe (DbStep .sqlite) Undisturbed CommitGuarded i fun _ => Closed i

theorem Undisturbed.refl (i : ℕ) (s : Db) : Undisturbed i s s := ⟨rfl, fun _ => rfl⟩

theorem Undisturbed.trans {i : ℕ} {s m n : Db} (h : Undisturbed i s m) (h' : Undisturbed i m n) :
    Undisturbed i s n :=
  ⟨h'.1.trans h.1, fun hopen => (h'.2 (by rw [h.1]; exact hopen)).trans (h.2 hopen)⟩

section
variable {α : Type} {i : ℕ} {s m : Db} {t : Tables} {changes : List Change}

theorem Closed.undisturbed (hs : Closed i s) (h : Undisturbed i s m) : Closed i m := h.1.trans hs

theorem Opened.undisturbed (hs : Opened i t changes s) (h : Undisturbed i s m) :
    Opened i t changes m :=
  ⟨(h.2 (by rw [hs.2]; rfl)).trans hs.1, h.1.trans hs.2⟩

theorem Opened.view (hs : Opened i t changes s) : s.view i = applyAll t changes := by
  rw [Db.view, hs.1, hs.2, Option.getD_some]

/-- A statement that answers and changes nothing, outside a transaction. -/
theorem safe_read {c : DbCmd} {k : DbRes c → DbRun α} (hcommit : c ≠ .commit)
    (hread : ∀ {m r s'}, DbStep .sqlite i m c r s' → s' = m) (hs : Closed i s)
    (hk : ∀ r m, Closed i m → SafeRequest i (k r) m) : SafeRequest i (.ask c k) s := by
  refine fun m hm => ⟨fun hc => absurd hc hcommit, fun r s' hstep => ?_⟩
  rw [hread hstep]
  exact hk r m (hs.undisturbed hm)

/-- Opening a transaction. -/
theorem safe_begin {k : Unit → DbRun (Except String α)} (hs : Closed i s)
    (hk : ∀ t m, Opened i t [] m → SafeRequest i (k ()) m) :
    SafeRequest i (outside .begin k) s := by
  refine fun m hm => ⟨fun hc => (nomatch hc), fun r s' hstep => ?_⟩
  cases hstep with
  | failed _ e _ => exact hs.undisturbed hm
  | began _ => exact hk m.tables _ ⟨rfl, Function.update_self ..⟩

/-- Dropping a transaction. -/
theorem safe_rollback {k : DbRes .rollback → DbRun α}
    (hk : ∀ r m, Closed i m → SafeRequest i (k r) m) :
    SafeRequest i (.ask .rollback k) s := by
  refine fun m _ => ⟨fun hc => (nomatch hc), fun r s' hstep => ?_⟩
  cases hstep with
  | failed _ e hc => cases hc
  | rolledBack _ => exact hk _ _ (Function.update_self ..)

theorem safe_abandon {a : α} : SafeRequest i (abandon a) s := safe_rollback fun _ _ hm => hm

/-- A statement of an open transaction: what follows has to be safe after every answer. -/
theorem safe_inTx {c : DbCmd} {k : Answer c → DbRun (Except String α)} (hc : c.endsTx = false)
    (hs : Opened i t changes s)
    (hk : ∀ m a s', Opened i t changes m → DbStep .sqlite i m c (.ok a) s' →
      SafeRequest i (k a) s') : SafeRequest i (inTx c k) s := by
  refine fun m hm => ⟨fun hcommit => ?_, fun r s' hstep => ?_⟩
  · rw [hcommit] at hc
    cases hc
  · cases r with
    | ok a => exact hk m a s' (hs.undisturbed hm) hstep
    | error e => exact safe_rollback fun _ _ hm => hm

/-- A commit whose guards pass on the tables the transaction is open over. -/
theorem safe_commitWith {a : α} (hs : Opened i t changes s) (hguard : GuardsPass t changes) :
    SafeRequest i (commitWith a) s := by
  refine fun m hm => ⟨fun _ => ?_, fun r s' hstep => ?_⟩
  · have hopen := hs.undisturbed hm
    rw [hopen.1, hopen.2]
    exact hguard
  · cases hstep with
    | failed _ e hc => cases hc
    | committed => exact Function.update_self ..
    | commitFailed e => exact Function.update_self ..
    | commitUnheard e => exact Function.update_self ..

/-- A write of an open transaction. -/
theorem Opened.write (hs : Opened i t changes s) (c : Change) :
    Opened i t (changes ++ [c]) (s.setTx i (some (changes ++ [c]))) :=
  ⟨hs.1, Function.update_self ..⟩

/-- The write of an update is safe when its guard passes. -/
theorem safe_writeUpdate {id : String} {role : Role} {disabled wasDisabled : Bool}
    (hs : Opened i t [] s) (hguard : t.users.updateGuard id role disabled = true) :
    SafeRequest i (writeUpdate id role disabled wasDisabled) s := by
  have hpass : GuardsPass t [.updateUser id role disabled] := ⟨hguard, trivial⟩
  refine safe_inTx rfl hs fun m a s' hm hstep => ?_
  cases hstep with
  | updated _ _ _ htx _ =>
    obtain rfl := Option.some.inj (hm.2.symm.trans htx)
    have hwritten := hm.write (.updateUser id role disabled)
    split_ifs
    · refine safe_inTx rfl hwritten fun m a s' hm hstep => ?_
      cases hstep with
      | sessionsDeleted => exact safe_commitWith hm hpass
    · exact safe_commitWith hwritten hpass

/-- `update_role_and_disabled` is safe: the row and the count that it read are still what
the tables hold when it commits. -/
theorem safe_update {id : String} {role : Option Role} {disabled : Option Bool}
    (hs : Closed i s) : SafeRequest i (updateRoleAndDisabled id role disabled) s := by
  unfold updateRoleAndDisabled
  split_ifs
  · exact hs
  refine safe_begin hs fun t m hm => safe_inTx rfl hm fun m a s' hm hstep => ?_
  cases hstep with
  | selected =>
    rw [hm.view]
    cases hfind : (applyAll t []).users.find id with
    | none => exact safe_abandon
    | some u =>
      dsimp only [Option.map_some]
      -- taking the role or the account from an enabled admin counts the others first
      split_ifs with hstrips
      · refine safe_inTx rfl hm fun m others s' hm hstep => ?_
        cases hstep with
        | counted =>
          rw [hm.view]
          split_ifs with hothers
          · exact safe_abandon
          · refine safe_writeUpdate hm ?_
            rw [UserTable.updateGuard, show t.users.find id = some u from hfind]
            exact Bool.or_eq_true_iff.mpr (.inr (bne_iff_ne.mpr hothers))
      · refine safe_writeUpdate hm ?_
        rw [UserTable.updateGuard, show t.users.find id = some u from hfind]
        simp [hstrips]

/-- The write of a deletion is safe when its guard passes. -/
theorem safe_writeDelete {id : String} (hs : Opened i t [] s)
    (hguard : t.users.deleteGuard id = true) : SafeRequest i (writeDelete id) s := by
  refine safe_inTx rfl hs fun m a s' hm hstep => ?_
  cases hstep with
  | deleted _ htx _ =>
    obtain rfl := Option.some.inj (hm.2.symm.trans htx)
    exact safe_commitWith (hm.write (.deleteUser id)) ⟨hguard, trivial⟩

/-- `delete_user` is safe. -/
theorem safe_delete {id : String} (hs : Closed i s) : SafeRequest i (deleteUser id) s := by
  unfold deleteUser
  refine safe_begin hs fun t m hm => safe_inTx rfl hm fun m a s' hm hstep => ?_
  cases hstep with
  | selected =>
    rw [hm.view]
    cases hfind : (applyAll t []).users.find id with
    | none => exact safe_abandon
    | some u =>
      dsimp only [Option.map_some]
      -- deleting an enabled admin counts the others first
      split_ifs with henabled
      · refine safe_inTx rfl hm fun m others s' hm hstep => ?_
        cases hstep with
        | counted =>
          rw [hm.view]
          split_ifs with hothers
          · exact safe_abandon
          · refine safe_writeDelete hm ?_
            rw [UserTable.deleteGuard, show t.users.find id = some u from hfind]
            exact Bool.or_eq_true_iff.mpr (.inr (bne_iff_ne.mpr hothers))
      · refine safe_writeDelete hm ?_
        rw [UserTable.deleteGuard, show t.users.find id = some u from hfind]
        simp [UserRow.isEnabledAdmin, henabled]

/-- `create_user` is safe. -/
theorem safe_create {username : String} {role : Role} (hs : Closed i s) :
    SafeRequest i (createUser username role) s := by
  unfold createUser
  refine safe_begin hs fun t m hm => safe_inTx rfl hm fun m taken s' hm hstep => ?_
  cases hstep with
  | looked =>
    split_ifs
    · exact safe_abandon
    · refine safe_inTx rfl hm fun m id s' hm hstep => ?_
      cases hstep with
      | inserted id _ _ htx _ _ _ =>
        obtain rfl := Option.some.inj (hm.2.symm.trans htx)
        exact safe_commitWith (hm.write (.insertUser _)) ⟨rfl, trivial⟩

/-- Looking for a free name writes nothing. -/
theorem safe_firstFree {lastResort : String} {k : String → DbRun (Except String α)}
    (hk : ∀ name m, Opened i t [] m → SafeRequest i (k name) m) :
    ∀ {names : List String} {s : Db}, Opened i t [] s →
      SafeRequest i (firstFree names lastResort k) s := by
  intro names
  induction names with
  | nil => exact fun hs => hk lastResort _ hs
  | cons name rest ih =>
    intro s hs
    refine safe_inTx rfl hs fun m taken s' hm hstep => ?_
    cases hstep with
    | looked =>
      split_ifs
      · exact ih hm
      · exact hk name _ hm

/-- `create_sso_user` is safe. -/
theorem safe_createSso {login : SsoLogin} (hs : Closed i s) :
    SafeRequest i (createSsoUser login) s := by
  refine safe_begin hs fun t m hm => safe_firstFree (fun name m hm => ?_) hm
  refine safe_inTx rfl hm fun m id s' hm hstep => ?_
  cases hstep with
  | inserted id _ _ htx _ _ _ =>
    obtain rfl := Option.some.inj (hm.2.symm.trans htx)
    refine safe_inTx rfl (hm.write (.insertUser _)) fun m a s' hm hstep => ?_
    cases hstep with
    | linked identity htx =>
      obtain rfl := Option.some.inj (hm.2.symm.trans htx)
      exact safe_commitWith (hm.write (.insertIdentity _)) ⟨rfl, rfl, trivial⟩

theorem safe_reload {id : String} (hs : Closed i s) : SafeRequest i (reloadUser id) s := by
  refine safe_read (by simp) (fun hstep => by cases hstep <;> rfl) hs fun r m hm => ?_
  rcases r with e | _ | user <;> exact hm

/-- The role sync of a login is safe. -/
theorem safe_provision {login : SsoLogin} (hs : Closed i s) :
    SafeRequest i (provisionUser login) s := by
  unfold provisionUser
  split_ifs
  · exact hs
  refine safe_read (by simp) (fun hstep => by cases hstep <;> rfl) hs fun r m hm => ?_
  -- the lookup fails, finds nobody, or finds the account of an earlier login
  rcases r with e | _ | user
  · exact hm
  · refine safe_bind (fun created m hm => ?_) (safe_createSso hm)
    rcases created with e | user <;> exact hm
  · dsimp only
    split_ifs
    · exact hm
    · -- the role differs: it is synced in a transaction of its own
      refine safe_read (by simp) (fun hstep => by cases hstep <;> rfl) hm fun r m hm => ?_
      rcases r with e | ⟨⟩
      · exact hm
      refine safe_bind (fun outcome m hm => ?_) (safe_update hm)
      rcases outcome with e | _ | _ | _
      · exact hm
      · exact safe_reload hm
      · exact hm
      · exact safe_reload hm
    · refine safe_read (by simp) (fun hstep => by cases hstep <;> rfl) hm fun r m hm => ?_
      rcases r with e | ⟨⟩
      · exact hm
      · exact safe_reload hm

/-- **Every request is safe on SQLite.** -/
theorem UserOp.safe {op : UserOp} (hs : Closed i s) : SafeRequest i op.program s := by
  cases op with
  | update id role disabled => exact safe_bind (fun _ _ hm => hm) (safe_update hs)
  | delete id => exact safe_bind (fun _ _ hm => hm) (safe_delete hs)
  | create username role => exact safe_bind (fun _ _ hm => hm) (safe_create hs)
  | provision login => exact safe_bind (fun _ _ hm => hm) (safe_provision hs)

end

/-! ### Runs -/

section
variable {dialect : Dialect} {ops : ℕ → UserOp} {tables : Tables}
  {q q' : Pool DbCmd DbRes Db UserDone}

end

/-! ### Two demotions that overlap -/
