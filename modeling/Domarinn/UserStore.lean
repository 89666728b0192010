/-
The server's user table, its transactions, and the operations that change who is an admin.

`updateRoleAndDisabled`, `deleteUser`, `createUser`, `createSsoUser` and `provision` are the
storage operations of the source, statement by statement.  A transaction sees the committed
rows under its own changes (on Postgres as they are when a statement starts), holds the
rows it writes until it ends, and its changes become visible when it commits.  On SQLite
`BEGIN IMMEDIATE` admits one transaction at a time.  Any statement may fail; a transaction
that is dropped is rolled back.

* **`DbStep`** — one statement of one transaction, on either database;
* **`updateRoleAndDisabled`**, **`deleteUser`** — the operations with a last-admin guard, a
  count of the other enabled admins before the write.
-/
import Domarinn.Concurrent
import Mathlib.Data.List.Basic
import Mathlib.Data.List.Nodup

open Program

/-! ### Tables -/

inductive Role where
  | admin
  | member
  | viewer
deriving DecidableEq

structure UserRow where
  id : String
  username : String
  role : Role
  disabled : Bool
deriving DecidableEq

/-- Whether a user can administer the server. -/
def UserRow.isEnabledAdmin (u : UserRow) : Bool := u.role == .admin && !u.disabled

/-- The `users` table; ids are its primary key. -/
structure UserTable where
  rows : List UserRow
  primaryKey : (rows.map UserRow.id).Nodup

/-- A user's link to an identity provider's subject. -/
structure Identity where
  provider : String
  subject : String
  userId : String

namespace UserTable

/-- `SELECT … WHERE id = ?`. -/
def find (t : UserTable) (id : String) : Option UserRow := t.rows.find? fun u => u.id == id

/-- `SELECT COUNT(*) … WHERE role = 'admin' AND disabled = 0 AND id != ?`. -/
def countOtherAdmins (t : UserTable) (id : String) : ℕ :=
  t.rows.countP fun u => u.isEnabledAdmin && u.id != id

/-- `SELECT 1 … WHERE username = ?`. -/
def taken (t : UserTable) (username : String) : Bool := t.rows.any fun u => u.username == username

/-- `UPDATE … SET role, disabled WHERE id = ?`. -/
def update (t : UserTable) (id : String) (role : Role) (disabled : Bool) : UserTable where
  rows := t.rows.map fun u => if u.id = id then { u with role, disabled } else u
  primaryKey := by
    have hids : (t.rows.map fun u => if u.id = id then { u with role, disabled } else u).map
        UserRow.id = t.rows.map UserRow.id := by
      rw [List.map_map]
      refine List.map_congr_left fun u _ => ?_
      dsimp only [Function.comp]
      split_ifs <;> rfl
    rw [hids]
    exact t.primaryKey

/-- `DELETE … WHERE id = ?`. -/
def delete (t : UserTable) (id : String) : UserTable where
  rows := t.rows.filter fun u => u.id != id
  primaryKey := t.primaryKey.sublist (List.filter_sublist.map _)

/-- `INSERT`; a row of that id is never replaced. -/
def insert (t : UserTable) (u : UserRow) : UserTable :=
  if h : u.id ∈ t.rows.map UserRow.id then t
  else ⟨t.rows ++ [u], by
    rw [List.map_append, List.nodup_append]
    refine ⟨t.primaryKey, by simp, fun a ha b hb => ?_⟩
    obtain rfl : b = u.id := by simpa using hb
    exact fun heq => h (heq ▸ ha)⟩

/-- Some user can administer the server. -/
def HasEnabledAdmin (t : UserTable) : Prop := ∃ u ∈ t.rows, u.isEnabledAdmin = true

end UserTable

/-- The tables that the operations read and write. -/
structure Tables where
  users : UserTable
  identities : List Identity

/-- What a transaction has written. -/
inductive Change where
  | updateUser (id : String) (role : Role) (disabled : Bool)
  | deleteUser (id : String)
  | insertUser (row : UserRow)
  | insertIdentity (identity : Identity)

/-- Apply a change; deleting a user deletes its identities. -/
def Change.apply (t : Tables) : Change → Tables
  | .updateUser id role disabled => { t with users := t.users.update id role disabled }
  | .deleteUser id =>
    { users := t.users.delete id
      identities := t.identities.filter fun identity => identity.userId != id }
  | .insertUser row => { t with users := t.users.insert row }
  | .insertIdentity identity => { t with identities := t.identities ++ [identity] }

/-- The row of `users` that a change holds. -/
def Change.row : Change → Option String
  | .updateUser id _ _ => some id
  | .deleteUser id => some id
  | .insertUser row => some row.id
  | .insertIdentity _ => none

/-- Apply the changes of a transaction. -/
def applyAll (t : Tables) (changes : List Change) : Tables := changes.foldl Change.apply t

/-- The committed tables, and the open transaction of each connection. -/
structure Db where
  tables : Tables
  tx : ℕ → Option (List Change)

namespace Db

/-- What a statement of the connection `i` sees. -/
def view (s : Db) (i : ℕ) : Tables := applyAll s.tables ((s.tx i).getD [])

def setTx (s : Db) (i : ℕ) (tx : Option (List Change)) : Db :=
  { s with tx := Function.update s.tx i tx }

/-- End the transaction of `i` with its changes committed. -/
def commit (s : Db) (i : ℕ) : Db := ⟨s.view i, Function.update s.tx i none⟩

/-- No other transaction holds the row. -/
def Unlocked (s : Db) (i : ℕ) (id : String) : Prop :=
  ∀ j, j ≠ i → ∀ changes, s.tx j = some changes → ∀ c ∈ changes, c.row ≠ some id

/-- No transaction is open. -/
def Idle (s : Db) : Prop := ∀ j, s.tx j = none

end Db

/-! ### Statements -/

inductive Dialect where
  | sqlite
  | postgres
deriving DecidableEq

/-- The statements of the operations. -/
inductive DbCmd where
  | begin
  | selectUser (id : String)
  | countOtherAdmins (id : String)
  | usernameTaken (username : String)
  | updateUser (id : String) (role : Role) (disabled : Bool)
  | deleteUser (id : String)
  | deleteSessions (id : String)
  | insertUser (username : String) (role : Role)
  | insertIdentity (identity : Identity)
  | commit
  | rollback
  | identityUser (provider subject : String)
  | touchIdentity (provider subject : String)
  | userById (id : String)

/-- What a statement answers when it does not fail; an inserted user gets a new id. -/
abbrev Answer : DbCmd → Type
  | .selectUser _ => Option (Role × Bool)
  | .countOtherAdmins _ => ℕ
  | .usernameTaken _ => Bool
  | .insertUser _ _ => String
  | .identityUser _ _ => Option UserRow
  | .userById _ => Option UserRow
  | _ => Unit

abbrev DbRes (c : DbCmd) : Type := Except String (Answer c)

abbrev DbRun (α : Type) := Program DbCmd DbRes α

/-- Whether a statement ends its transaction. -/
def DbCmd.endsTx : DbCmd → Bool
  | .commit | .rollback => true
  | _ => false

/-- One statement of the connection `i`. -/
inductive DbStep (dialect : Dialect) (i : ℕ) (s : Db) : (c : DbCmd) → DbRes c → Db → Prop where
  | failed (c : DbCmd) (e : String) (hc : c.endsTx = false) : DbStep dialect i s c (.error e) s
  | began (hfree : dialect = .sqlite → s.Idle) :
      DbStep dialect i s .begin (.ok ()) (s.setTx i (some []))
  | selected (id : String) :
      DbStep dialect i s (.selectUser id)
        (.ok (((s.view i).users.find id).map fun u => (u.role, u.disabled))) s
  | counted (id : String) :
      DbStep dialect i s (.countOtherAdmins id) (.ok ((s.view i).users.countOtherAdmins id)) s
  | looked (username : String) :
      DbStep dialect i s (.usernameTaken username) (.ok ((s.view i).users.taken username)) s
  | updated {changes : List Change} (id : String) (role : Role) (disabled : Bool)
      (htx : s.tx i = some changes) (hrow : s.Unlocked i id) :
      DbStep dialect i s (.updateUser id role disabled) (.ok ())
        (s.setTx i (some (changes ++ [.updateUser id role disabled])))
  | deleted {changes : List Change} (id : String) (htx : s.tx i = some changes)
      (hrow : s.Unlocked i id) :
      DbStep dialect i s (.deleteUser id) (.ok ())
        (s.setTx i (some (changes ++ [.deleteUser id])))
  | sessionsDeleted (id : String) : DbStep dialect i s (.deleteSessions id) (.ok ()) s
  | inserted {changes : List Change} (id username : String) (role : Role)
      (htx : s.tx i = some changes) (hrow : s.Unlocked i id)
      (hnew : (s.view i).users.find id = none) (hname : (s.view i).users.taken username = false) :
      DbStep dialect i s (.insertUser username role) (.ok id)
        (s.setTx i (some (changes ++ [.insertUser ⟨id, username, role, false⟩])))
  | linked {changes : List Change} (identity : Identity) (htx : s.tx i = some changes) :
      DbStep dialect i s (.insertIdentity identity) (.ok ())
        (s.setTx i (some (changes ++ [.insertIdentity identity])))
  | committed : DbStep dialect i s .commit (.ok ()) (s.commit i)
  | commitFailed (e : String) : DbStep dialect i s .commit (.error e) (s.setTx i none)
  | commitUnheard (e : String) : DbStep dialect i s .commit (.error e) (s.commit i)
  | rolledBack (r : DbRes .rollback) : DbStep dialect i s .rollback r (s.setTx i none)
  | identityFound (provider subject : String) :
      DbStep dialect i s (.identityUser provider subject)
        (.ok (((s.view i).identities.find? fun identity =>
          identity.provider == provider && identity.subject == subject).bind fun identity =>
            (s.view i).users.find identity.userId)) s
  | touched (provider subject : String) (hfree : dialect = .sqlite → s.Idle) :
      DbStep dialect i s (.touchIdentity provider subject) (.ok ()) s
  | userFound (id : String) :
      DbStep dialect i s (.userById id) (.ok ((s.view i).users.find id)) s

/-! ### Operations -/

inductive UpdateUserOutcome where
  | updated
  | notFound
  | lastAdmin
deriving DecidableEq

inductive DeleteUserOutcome where
  | deleted
  | notFound
  | lastAdmin
deriving DecidableEq

inductive SsoError where
  | emailNotAllowed
  | userDisabled
  | internal (cause : String)

section
variable {α : Type}

/-- A statement outside a transaction, or the one that opens it: a failure is returned. -/
def outside (c : DbCmd) (k : Answer c → DbRun (Except String α)) : DbRun (Except String α) :=
  .ask c fun answer => match answer with
    | .ok a => k a
    | .error e => .ret (.error e)

/-- A statement of a transaction: on a failure the transaction is dropped. -/
def inTx (c : DbCmd) (k : Answer c → DbRun (Except String α)) : DbRun (Except String α) :=
  .ask c fun answer => match answer with
    | .ok a => k a
    | .error e => .ask .rollback fun _ => .ret (.error e)

/-- Return without a commit: the transaction is dropped. -/
def abandon (a : α) : DbRun (Except String α) := .ask .rollback fun _ => .ret (.ok a)

/-- Commit and return. -/
def commitWith (a : α) : DbRun (Except String α) :=
  .ask .commit fun answer => match answer with
    | .ok () => .ret (.ok a)
    | .error e => .ret (.error e)

end

/-- Whether a change takes the enabled admin's status from a user. -/
def stripsAdmin (wasRole : Role) (wasDisabled : Bool) (role : Role) (disabled : Bool) : Bool :=
  (wasRole == .admin && !wasDisabled) && !(role == .admin && !disabled)

/-- The write of `update_role_and_disabled`. -/
def writeUpdate (id : String) (role : Role) (disabled wasDisabled : Bool) :
    DbRun (Except String UpdateUserOutcome) :=
  inTx (.updateUser id role disabled) fun _ =>
    if disabled && !wasDisabled then inTx (.deleteSessions id) fun _ => commitWith .updated
    else commitWith .updated

/-- `update_role_and_disabled`. -/
def updateRoleAndDisabled (id : String) (role : Option Role) (disabled : Option Bool) :
    DbRun (Except String UpdateUserOutcome) :=
  if role.isNone && disabled.isNone then .ret (.ok .updated)
  else outside .begin fun _ => inTx (.selectUser id) fun current => match current with
    | none => abandon .notFound
    | some (curRole, curDisabled) =>
      let newRole := role.getD curRole
      let newDisabled := disabled.getD curDisabled
      if stripsAdmin curRole curDisabled newRole newDisabled then
        inTx (.countOtherAdmins id) fun others =>
          if others = 0 then abandon .lastAdmin
          else writeUpdate id newRole newDisabled curDisabled
      else writeUpdate id newRole newDisabled curDisabled

/-- The write of `delete_user`. -/
def writeDelete (id : String) : DbRun (Except String DeleteUserOutcome) :=
  inTx (.deleteUser id) fun _ => commitWith .deleted

/-- `delete_user`. -/
def deleteUser (id : String) : DbRun (Except String DeleteUserOutcome) :=
  outside .begin fun _ => inTx (.selectUser id) fun target => match target with
    | none => abandon .notFound
    | some (role, disabled) =>
      if role == .admin && !disabled then
        inTx (.countOtherAdmins id) fun others =>
          if others = 0 then abandon .lastAdmin else writeDelete id
      else writeDelete id

/-- `create_user`. -/
def createUser (username : String) (role : Role) : DbRun (Except String (Option UserRow)) :=
  outside .begin fun _ => inTx (.usernameTaken username) fun taken =>
    if taken then abandon none
    else inTx (.insertUser username role) fun id =>
      commitWith (some ⟨id, username, role, false⟩)

/-- The first name of a list that is free, or the last resort. -/
def firstFree {α : Type} (names : List String) (lastResort : String)
    (k : String → DbRun (Except String α)) : DbRun (Except String α) :=
  match names with
  | [] => k lastResort
  | name :: rest => inTx (.usernameTaken name) fun taken =>
    if taken then firstFree rest lastResort k else k name

/-- A login that an identity provider vouched for, after the role mapping was read. -/
structure SsoLogin where
  provider : String
  subject : String
  usernameBase : String
  /-- A fresh suffix for a name that is taken too often. -/
  suffix : String
  allowed : Bool
  desiredRole : Role

/-- `create_sso_user`. -/
def createSsoUser (login : SsoLogin) : DbRun (Except String UserRow) :=
  outside .begin fun _ =>
    firstFree (login.usernameBase :: (List.range 19).map fun n => s!"{login.usernameBase}-{n + 2}")
      s!"{login.usernameBase}-{login.suffix}" fun username =>
        inTx (.insertUser username login.desiredRole) fun id =>
          inTx (.insertIdentity ⟨login.provider, login.subject, id⟩) fun _ =>
            commitWith ⟨id, username, login.desiredRole, false⟩

/-- The user after the login. -/
def reloadUser (id : String) : DbRun (Except SsoError UserRow) :=
  .ask (.userById id) fun found => match found with
    | .error e => .ret (.error (.internal e))
    | .ok none => .ret (.error (.internal "user vanished during SSO login"))
    | .ok (some user) => .ret (.ok user)

/-- `sso::provision`: the user of a verified login, with its role synced. -/
def provisionUser (login : SsoLogin) : DbRun (Except SsoError UserRow) :=
  if !login.allowed then .ret (.error .emailNotAllowed)
  else .ask (.identityUser login.provider login.subject) fun existing => match existing with
    | .error e => .ret (.error (.internal e))
    | .ok none => createSsoUser login >>= fun created => match created with
      | .ok user => .ret (.ok user)
      | .error e => .ret (.error (.internal e))
    | .ok (some user) =>
      if user.disabled then .ret (.error .userDisabled)
      else .ask (.touchIdentity login.provider login.subject) fun touched => match touched with
        | .error e => .ret (.error (.internal e))
        | .ok () =>
          if login.desiredRole ≠ user.role then
            updateRoleAndDisabled user.id (some login.desiredRole) none >>= fun outcome =>
              match outcome with
              | .error e => .ret (.error (.internal e))
              | .ok .notFound =>
                .ret (.error (.internal "user vanished during SSO role sync"))
              | .ok _ => reloadUser user.id
          else reloadUser user.id

/-! ### Requests -/

/-- What a request does. -/
inductive UserOp where
  | update (id : String) (role : Option Role) (disabled : Option Bool)
  | delete (id : String)
  | create (username : String) (role : Role)
  | provision (login : SsoLogin)

/-- What it returned. -/
inductive UserDone where
  | updated (result : Except String UpdateUserOutcome)
  | deleted (result : Except String DeleteUserOutcome)
  | created (result : Except String (Option UserRow))
  | provisioned (result : Except SsoError UserRow)

def UserOp.program : UserOp → DbRun UserDone
  | .update id role disabled => updateRoleAndDisabled id role disabled >>= fun r => .ret (.updated r)
  | .delete id => deleteUser id >>= fun r => .ret (.deleted r)
  | .create username role => createUser username role >>= fun r => .ret (.created r)
  | .provision login => provisionUser login >>= fun r => .ret (.provisioned r)
