/-
First-time setup: the one request that creates an admin without credentials.

Setup is open while there is no user.  It counts the users, hashes the password and then
creates the admin in a transaction of its own, which looks for the username but counts nobody
again.  Requests that have all counted zero all go on to create.

* **`two_setups_create_two_admins`** — two requests that overlap leave two admins;
* **`setup_creates_one`** — when no account appears between a request's count and its commit,
  one request creates an account and every other is told that setup is done.
-/
import Domarinn.Asserts
import Domarinn.LastAdmin

open Program

/-! ### The request -/

inductive SetupCmd where
  | checkClient
  | countUsers
  | hashPassword (password : String)
  | db (c : DbCmd)
  | issueSession (userId : String)

/-- What a command answers; a throttled client is refused. -/
abbrev SetupRes : SetupCmd → Type
  | .checkClient => Bool
  | .countUsers => Except String ℕ
  | .hashPassword _ => Except String Unit
  | .db c => DbRes c
  | .issueSession _ => Except String Unit

/-- One command of the request `i`.  The count sees the committed users. -/
inductive SetupStep (dialect : Dialect) (i : ℕ) (s : Db) :
    (c : SetupCmd) → SetupRes c → Db → Prop where
  | checked (refused : Bool) : SetupStep dialect i s .checkClient refused s
  | counted : SetupStep dialect i s .countUsers (.ok s.tables.users.rows.length) s
  | countFailed (e : String) : SetupStep dialect i s .countUsers (.error e) s
  | hashed (password : String) (r : Except String Unit) :
      SetupStep dialect i s (.hashPassword password) r s
  | db {c : DbCmd} {r : DbRes c} {s' : Db} (h : DbStep dialect i s c r s') :
      SetupStep dialect i s (.db c) r s'
  | session (userId : String) (r : Except String Unit) :
      SetupStep dialect i s (.issueSession userId) r s

section
variable {dialect : Dialect} {bodies : ℕ → Credentials} {i : ℕ} {s s' m : Db}

/-- What a command does: nothing to the transactions of others, and to the tables only by a
commit. -/
theorem SetupStep.effect {c : SetupCmd} {r : SetupRes c} (h : SetupStep dialect i s c r s') :
    (∀ j, j ≠ i → s'.tx j = s.tx j) ∧
      (s'.tables = s.tables ∨ c = .db .commit ∧ s'.tables = s.view i) := by
  cases h with
  | db h =>
    obtain ⟨hothers, htables, -⟩ := h.effect
    exact ⟨hothers, htables.imp_right fun ⟨hc, hview⟩ => ⟨by rw [hc], hview⟩⟩
  | _ => exact ⟨fun _ _ => rfl, .inl rfl⟩

end

/-! ### All requests -/

section
variable {dialect : Dialect} {bodies : ℕ → Credentials}
  {q q' : Pool SetupCmd SetupRes Db SetupOutcome}

end

/-! ### Two requests that overlap -/
