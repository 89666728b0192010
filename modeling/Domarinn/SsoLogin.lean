/-
Single sign-on: the transactions of logins in flight, and the assertions that were accepted.

A login transaction is consumed by the statement that deletes it.  An accepted assertion is
remembered by its id until the time at which it is taken to be unusable.  Every statement is
atomic, and anything may happen between two of them; the log records what happened and is
read by no statement.

* **`SsoStep`** — one statement, or one reading of the clock;
* **`takeLoginTxn`**, **`samlAcs`** — the operations whose success is to be unique.

Clocks and assertions carry nanoseconds; the database stores milliseconds.
-/
import Domarinn.Concurrent
import Mathlib.Algebra.Order.Ring.Int
import Mathlib.Data.List.Nodup

open Program

/-! ### Assertions -/

/-- `timestamp_millis`. -/
def timestampMillis (t : ℤ) : ℤ := t / 1000000

def seconds (n : ℕ) : ℤ := n * 1000000000

/-- `REPLAY_FALLBACK_MS`: an hour. -/
def replayFallbackMs : ℤ := 60 * 60 * 1000

/-- `LOGIN_TXN_TTL_MS`: ten minutes. -/
def loginTxnTtlMs : ℤ := 10 * 60 * 1000

/-- What the server uses of a verified assertion. -/
structure Assertion where
  id : String
  nameId : Option String
  issueInstant : ℤ
  notOnOrAfter : Option ℤ
deriving DecidableEq

/-- `max_issue_delay`: the library's default, and the skew on top. -/
def maxIssueDelay (skewSecs : ℕ) : ℤ := seconds 90 + seconds skewSecs

/-- The last time at which an assertion may pass. -/
def validUntil (skewSecs : ℕ) (a : Assertion) : ℤ :=
  match a.notOnOrAfter with
  | some t => t + seconds skewSecs
  | none => a.issueInstant + maxIssueDelay skewSecs + seconds skewSecs

/-- The SAML library, configured with a clock skew.  `accepts` is `parse_base64_response` of a
provider, at a time; it rejects an assertion that is too old. -/
structure SamlLibrary (skewSecs : ℕ) where
  accepts : (provider response : String) → (expected : Option String) → ℤ → Except String Assertion
  inTime : ∀ provider response expected t a, accepts provider response expected t = .ok a →
    t ≤ validUntil skewSecs a

/-! ### Tables -/

inductive SsoKind where
  | oidc
  | saml
deriving DecidableEq

/-- A login in flight. -/
structure LoginTxn where
  kind : SsoKind
  provider : String
  nonce : Option String
  pkceVerifier : Option String
  requestId : Option String
  returnTo : Option String
deriving DecidableEq

/-- A row of `login_transactions`. -/
structure LoginTxnRow where
  idHash : String
  txn : LoginTxn
  expiresAt : ℤ
deriving DecidableEq

/-- A row of `saml_consumed_assertions`. -/
structure ConsumedRow where
  assertionId : String
  provider : String
  notOnOrAfter : ℤ
deriving DecidableEq

/-- What is worth remembering of a run. -/
inductive SsoEvent where
  | started (idHash : String)
  | consumed (idHash : String)
  | accepted (assertionId : String) (expiry : ℤ)
deriving DecidableEq

/-- The two tables, the latest reading of the clock, and the log. -/
structure SsoDb where
  clock : ℤ
  txns : List LoginTxnRow
  consumed : List ConsumedRow
  log : List SsoEvent

/-! ### Statements -/

inductive SsoCmd where
  | nowMs
  | purgeTxns (now : ℤ)
  | insertTxn (row : LoginTxnRow)
  | deleteTxn (idHash : String)
  | purgeAssertions (now : ℤ)
  | insertAssertion (row : ConsumedRow)
  | validate (provider response : String) (expected : Option String)
  | exchangeCode (provider code : String) (txn : LoginTxn)
  | finishLogin (provider : String)

/-- What a statement answers when it does not fail. -/
abbrev SsoAnswer : SsoCmd → Type
  | .deleteTxn _ => Option LoginTxnRow
  | .insertAssertion _ => Bool
  | .validate _ _ _ => Assertion
  | _ => Unit

abbrev SsoRes : SsoCmd → Type
  | .nowMs => ℤ
  | c => Except String (SsoAnswer c)

abbrev SsoRun (α : Type) := Program SsoCmd SsoRes α

/-- One statement of any process.  A statement that fails may have been carried out. -/
inductive SsoStep {skewSecs : ℕ} (lib : SamlLibrary skewSecs) (s : SsoDb) :
    (c : SsoCmd) → SsoRes c → SsoDb → Prop where
  | clockRead (t : ℤ) (ht : s.clock ≤ t) :
      SsoStep lib s .nowMs (timestampMillis t) { s with clock := t }
  | txnsPurged (now : ℤ) (r : Except String Unit) :
      SsoStep lib s (.purgeTxns now) r
        { s with txns := s.txns.filter fun row => now < row.expiresAt }
  | txnsKept (now : ℤ) (e : String) : SsoStep lib s (.purgeTxns now) (.error e) s
  | txnInserted (row : LoginTxnRow) (r : Except String Unit)
      (hnew : row.idHash ∉ s.txns.map LoginTxnRow.idHash) :
      SsoStep lib s (.insertTxn row) r
        { s with txns := s.txns ++ [row], log := .started row.idHash :: s.log }
  | txnRefused (row : LoginTxnRow) (e : String) : SsoStep lib s (.insertTxn row) (.error e) s
  | txnDeleted {row : LoginTxnRow} (hrow : row ∈ s.txns) :
      SsoStep lib s (.deleteTxn row.idHash) (.ok (some row))
        { s with
          txns := s.txns.filter fun row' => row'.idHash ≠ row.idHash
          log := .consumed row.idHash :: s.log }
  | txnMissing (idHash : String) (hnone : idHash ∉ s.txns.map LoginTxnRow.idHash) :
      SsoStep lib s (.deleteTxn idHash) (.ok none) s
  | txnDeletedUnheard (idHash e : String) :
      SsoStep lib s (.deleteTxn idHash) (.error e)
        { s with txns := s.txns.filter fun row => row.idHash ≠ idHash }
  | txnKept (idHash e : String) : SsoStep lib s (.deleteTxn idHash) (.error e) s
  | assertionsPurged (now : ℤ) (r : Except String Unit) :
      SsoStep lib s (.purgeAssertions now) r
        { s with consumed := s.consumed.filter fun row => now < row.notOnOrAfter }
  | assertionsKept (now : ℤ) (e : String) : SsoStep lib s (.purgeAssertions now) (.error e) s
  | assertionAccepted (row : ConsumedRow)
      (hnew : row.assertionId ∉ s.consumed.map ConsumedRow.assertionId) :
      SsoStep lib s (.insertAssertion row) (.ok true)
        { s with
          consumed := s.consumed ++ [row]
          log := .accepted row.assertionId row.notOnOrAfter :: s.log }
  | assertionReplayed (row : ConsumedRow)
      (hold : row.assertionId ∈ s.consumed.map ConsumedRow.assertionId) :
      SsoStep lib s (.insertAssertion row) (.ok false) s
  | assertionUnheard (row : ConsumedRow) (e : String)
      (hnew : row.assertionId ∉ s.consumed.map ConsumedRow.assertionId) :
      SsoStep lib s (.insertAssertion row) (.error e) { s with consumed := s.consumed ++ [row] }
  | assertionFailed (row : ConsumedRow) (e : String) :
      SsoStep lib s (.insertAssertion row) (.error e) s
  | validated (provider response : String) (expected : Option String) (t : ℤ) (ht : s.clock ≤ t) :
      SsoStep lib s (.validate provider response expected)
        (lib.accepts provider response expected t) { s with clock := t }
  | exchanged (provider code : String) (txn : LoginTxn) (r : Except String Unit) :
      SsoStep lib s (.exchangeCode provider code txn) r s
  | finished (provider : String) (r : Except String Unit) :
      SsoStep lib s (.finishLogin provider) r s

/-! ### Operations -/

/-- How a callback ends. -/
inductive CallbackReply where
  | loggedIn (returnTo : Option String)
  | unknownProvider
  | accessDenied
  | invalidState
  | replayed
  | provider (cause : String)
  | internal (cause : String)
deriving DecidableEq

/-- `create_login_txn`, with the expiry of a transaction minted now. -/
def createLoginTxn (idHash : String) (txn : LoginTxn) : SsoRun (Except String Unit) :=
  .ask .nowMs fun minted : ℤ => .ask .nowMs fun now : ℤ =>
    .ask (.purgeTxns now) fun purged : Except String Unit => match purged with
      | .error e => .ret (.error e)
      | .ok () =>
        .ask (.insertTxn ⟨idHash, txn, minted + loginTxnTtlMs⟩) fun r : Except String Unit => .ret r

/-- `take_login_txn`: consume a transaction that has not expired. -/
def takeLoginTxn (idHash : String) : SsoRun (Except String (Option LoginTxn)) :=
  .ask (.deleteTxn idHash) fun deleted : Except String (Option LoginTxnRow) =>
    match deleted with
    | .error e => .ret (.error e)
    | .ok none => .ret (.ok none)
    | .ok (some row) => .ask .nowMs fun now : ℤ =>
      .ret (.ok (if now < row.expiresAt then some row.txn else none))

/-- `saml_mark_assertion`: whether the id was new. -/
def samlMarkAssertion (row : ConsumedRow) : SsoRun (Except String Bool) :=
  .ask .nowMs fun now : ℤ =>
    .ask (.purgeAssertions now) fun purged : Except String Unit => match purged with
      | .error e => .ret (.error e)
      | .ok () => .ask (.insertAssertion row) fun r : Except String Bool => .ret r

/-- `sso_gc`. -/
def ssoGc : SsoRun (Except String Unit) :=
  .ask .nowMs fun now : ℤ =>
    .ask (.purgeTxns now) fun purged : Except String Unit => match purged with
      | .error e => .ret (.error e)
      | .ok () => .ask (.purgeAssertions now) fun r : Except String Unit => .ret r

/-- `map_assertion`: the subject, and when the id may leave the replay cache. -/
def mapAssertion (skewSecs : ℕ) (a : Assertion) (k : ℤ → SsoRun CallbackReply) :
    SsoRun CallbackReply :=
  match a.nameId with
  | none => .ret (.provider "assertion has no Subject NameID")
  | some _ => match a.notOnOrAfter with
    | some t => k (timestampMillis t + skewSecs * 1000)
    | none => .ask .nowMs fun now : ℤ => k (now + replayFallbackMs)

/-- The configured providers, and the hash of a transaction's id. -/
structure SsoConfig where
  oidc : String → Bool
  /-- Whether a SAML provider may start a login. -/
  saml : String → Option Bool
  tokenHash : String → String

/-- The form that the identity provider posts, with the browser's cookie. -/
structure AcsRequest where
  provider : String
  response : String
  relayState : Option String
  cookie : Option String

/-- What follows the mark: the login, unless the assertion was seen before. -/
def samlFinish (provider : String) (returnTo : Option String) :
    Except String Bool → SsoRun CallbackReply
  | .error e => .ret (.internal e)
  | .ok false => .ret .replayed
  | .ok true =>
    .ask (.finishLogin provider) fun done : Except String Unit => match done with
      | .error e => .ret (.internal e)
      | .ok () => .ret (.loggedIn returnTo)

/-- `saml_acs` once the transaction is resolved. -/
def samlComplete (skewSecs : ℕ) (req : AcsRequest) (expected returnTo : Option String) :
    SsoRun CallbackReply :=
  .ask (.validate req.provider req.response expected) fun result : Except String Assertion =>
    match result with
    | .error e => .ret (.provider e)
    | .ok a => mapAssertion skewSecs a fun expiry =>
      samlMarkAssertion ⟨a.id, "saml:" ++ req.provider, expiry⟩ >>= samlFinish req.provider returnTo

/-- `saml_acs`. -/
def samlAcs (skewSecs : ℕ) (cfg : SsoConfig) (req : AcsRequest) : SsoRun CallbackReply :=
  match cfg.saml req.provider with
  | none => .ret .unknownProvider
  | some allowIdpInitiated => match req.relayState.filter (· ≠ "") with
    | none =>
      if allowIdpInitiated then samlComplete skewSecs req none none else .ret .invalidState
    | some relay =>
      if req.cookie ≠ some relay then .ret .invalidState
      else takeLoginTxn (cfg.tokenHash relay) >>= fun taken => match taken with
        | .error e => .ret (.internal e)
        | .ok none => .ret .invalidState
        | .ok (some txn) =>
          if txn.kind = .saml ∧ txn.provider = req.provider then
            match txn.requestId with
            | some id => samlComplete skewSecs req (some id) txn.returnTo
            | none => .ret .invalidState
          else .ret .invalidState

/-- The query of the OIDC redirect, with the browser's cookie. -/
structure OidcCallback where
  provider : String
  error : Option String
  code : Option String
  state : Option String
  cookie : Option String

/-- `oidc_callback`. -/
def oidcCallback (cfg : SsoConfig) (req : OidcCallback) : SsoRun CallbackReply :=
  if !cfg.oidc req.provider then .ret .unknownProvider
  else if req.error.isSome then .ret .accessDenied
  else match req.code, req.state with
    | some code, some state =>
      if req.cookie ≠ some state then .ret .invalidState
      else takeLoginTxn (cfg.tokenHash state) >>= fun taken => match taken with
        | .error e => .ret (.internal e)
        | .ok none => .ret .invalidState
        | .ok (some txn) =>
          if txn.kind = .oidc ∧ txn.provider = req.provider then
            .ask (.exchangeCode req.provider code txn) fun asserted : Except String Unit =>
              match asserted with
              | .error e => .ret (.provider e)
              | .ok () =>
                .ask (.finishLogin req.provider) fun done : Except String Unit => match done with
                  | .error e => .ret (.internal e)
                  | .ok () => .ret (.loggedIn txn.returnTo)
          else .ret .invalidState
    | _, _ => .ret .invalidState

/-! ### Processes -/

/-- What a process does. -/
inductive SsoOp where
  | start (txnId : String) (txn : LoginTxn)
  | oidc (req : OidcCallback)
  | saml (req : AcsRequest)
  | gc

/-- What it returned. -/
inductive SsoDone where
  | stored (result : Except String Unit)
  | replied (reply : CallbackReply)

def SsoOp.program (skewSecs : ℕ) (cfg : SsoConfig) : SsoOp → SsoRun SsoDone
  | .start txnId txn => createLoginTxn (cfg.tokenHash txnId) txn >>= fun r => .ret (.stored r)
  | .oidc req => oidcCallback cfg req >>= fun r => .ret (.replied r)
  | .saml req => samlAcs skewSecs cfg req >>= fun r => .ret (.replied r)
  | .gc => ssoGc >>= fun r => .ret (.stored r)
