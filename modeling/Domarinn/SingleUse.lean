/-
Whether a login transaction, and an assertion, is used once.

A transaction is consumed by deleting its row, so it is consumed at most as often as it was
stored.  An assertion's id is remembered until an expiry that the server computes itself.
When the expiry passes while the library still accepts the assertion, the next callback
forgets the id and accepts it again.

* **`replay_after_fallback`** — an assertion without a time limit, and a large clock skew;
* **`fallback_outlives`** — with a small skew the computed expiry is late enough;
* **`sso_single_use`** — when it always is, no id is accepted twice while it can still pass.
-/
import Domarinn.SsoLogin

open Program

/-! ### What is to hold -/

/-- How often an id was accepted. -/
def acceptances (log : List SsoEvent) (id : String) : ℕ :=
  log.countP fun e => match e with
    | .accepted id' _ => id' = id
    | _ => false

/-- At this time the library accepts some response with an assertion of this id. -/
def Passes {skewSecs : ℕ} (lib : SamlLibrary skewSecs) (id : String) (t : ℤ) : Prop :=
  ∃ provider response expected a, lib.accepts provider response expected t = .ok a ∧ a.id = id

/-- An id is recorded only with an expiry that is later than any time at which it passes. -/
def Outlives {skewSecs : ℕ} (lib : SamlLibrary skewSecs) (c : SsoCmd) : Prop :=
  ∀ row, c = .insertAssertion row → ∀ t, Passes lib row.assertionId t →
    timestampMillis t < row.notOnOrAfter

theorem timestampMillis_mono {t u : ℤ} (h : t ≤ u) : timestampMillis t ≤ timestampMillis u :=
  Int.ediv_le_ediv (by decide) h

section
variable {skewSecs : ℕ} {lib : SamlLibrary skewSecs}

/-- Assertions are purged up to a time that has come. -/
def PurgesThePast (_ : ℕ) (s : SsoDb) (c : SsoCmd) : Prop :=
  ∀ now, c = .purgeAssertions now → now ≤ timestampMillis s.clock

section
variable {α : Type} {i : ℕ} {s : SsoDb}

end

/-! ### The replay cache -/

/-- What the log and the tables have to do with each other. -/
structure ReplayCache (lib : SamlLibrary skewSecs) (s : SsoDb) : Prop where
  consumed : ∀ idHash, s.log.count (.consumed idHash) +
    (if idHash ∈ s.txns.map LoginTxnRow.idHash then 1 else 0) ≤ s.log.count (.started idHash)
  /-- An accepted id is remembered until its expiry. -/
  kept : ∀ id expiry, .accepted id expiry ∈ s.log →
    ⟨id, expiry⟩ ∈ s.consumed.map (fun row => (row.assertionId, row.notOnOrAfter)) ∨
      expiry ≤ timestampMillis s.clock
  /-- An id is accepted again only when an expiry of it has passed. -/
  again : ∀ id, 2 ≤ acceptances s.log id →
    ∃ expiry, .accepted id expiry ∈ s.log ∧ expiry ≤ timestampMillis s.clock
  outlives : ∀ id expiry, .accepted id expiry ∈ s.log → ∀ t, Passes lib id t →
    timestampMillis t < expiry

section
variable {s s' : SsoDb}

theorem acceptances_cons {log : List SsoEvent} {id id' : String} {expiry : ℤ} :
    acceptances (.accepted id' expiry :: log) id =
      acceptances log id + if id' = id then 1 else 0 := by
  simp [acceptances, List.countP_cons]

/-- Something was accepted when the count says so. -/
theorem exists_accepted {log : List SsoEvent} {id : String} (h : 1 ≤ acceptances log id) :
    ∃ expiry, .accepted id expiry ∈ log := by
  obtain ⟨e, he, haccepted⟩ := List.countP_pos_iff.mp h
  cases e with
  | accepted id' expiry =>
    obtain rfl : id' = id := of_decide_eq_true haccepted
    exact ⟨expiry, he⟩
  | started idHash => cases haccepted
  | consumed idHash => cases haccepted

/-- A step that touches neither the log nor the rows keeps the rest as time goes on. -/
theorem ReplayCache.later (h : ReplayCache lib s) {t : ℤ} (ht : s.clock ≤ t) :
    ReplayCache lib { s with clock := t } where
  consumed := h.consumed
  kept := fun id expiry hlog => (h.kept id expiry hlog).imp_right fun hpast =>
    hpast.trans (timestampMillis_mono ht)
  again := fun id htwice => by
    obtain ⟨expiry, hlog, hpast⟩ := h.again id htwice
    exact ⟨expiry, hlog, hpast.trans (timestampMillis_mono ht)⟩
  outlives := h.outlives

/-- Removing rows of `login_transactions`. -/
theorem ReplayCache.fewerTxns (h : ReplayCache lib s) (p : LoginTxnRow → Bool) :
    ReplayCache lib { s with txns := s.txns.filter p } :=
  { h with
    consumed := fun idHash => by
      refine (Nat.add_le_add_left ?_ _).trans (h.consumed idHash)
      have hsub : idHash ∈ (s.txns.filter p).map LoginTxnRow.idHash →
          idHash ∈ s.txns.map LoginTxnRow.idHash := by
        intro hmem
        exact (List.filter_sublist.map _).subset hmem
      split_ifs with hafter hbefore
      · exact le_refl _
      · exact absurd (hsub hafter) hbefore
      · exact Nat.zero_le _
      · exact le_refl _ }

/-- Remembering one id more. -/
theorem ReplayCache.moreConsumed (h : ReplayCache lib s) (row : ConsumedRow) :
    ReplayCache lib { s with consumed := s.consumed ++ [row] } :=
  { h with
    kept := fun id expiry hlog => (h.kept id expiry hlog).imp_left fun hmem => by
      rw [List.map_append]
      exact List.mem_append_left _ hmem }

/-- Forgetting the ids whose expiry has come. -/
theorem ReplayCache.purged (h : ReplayCache lib s) {now : ℤ} (hnow : now ≤ timestampMillis s.clock) :
    ReplayCache lib { s with consumed := s.consumed.filter fun row => now < row.notOnOrAfter } :=
  { h with
    kept := fun id expiry hlog => by
      by_cases hexpired : expiry ≤ now
      · exact .inr (hexpired.trans hnow)
      · refine (h.kept id expiry hlog).imp_left fun hmem => ?_
        obtain ⟨row, hrow, hkey⟩ := List.mem_map.mp hmem
        refine List.mem_map.mpr ⟨row, List.mem_filter.mpr ⟨hrow, ?_⟩, hkey⟩
        have hexpiry : row.notOnOrAfter = expiry := congrArg Prod.snd hkey
        exact decide_eq_true (by omega) }

/-- Accepting a new id: what was accepted under it before has expired. -/
theorem ReplayCache.accept (h : ReplayCache lib s) {row : ConsumedRow}
    (hnew : row.assertionId ∉ s.consumed.map ConsumedRow.assertionId)
    (houtlives : ∀ t, Passes lib row.assertionId t → timestampMillis t < row.notOnOrAfter) :
    ReplayCache lib
      { s with
        consumed := s.consumed ++ [row]
        log := .accepted row.assertionId row.notOnOrAfter :: s.log } where
  consumed := fun idHash => by
    rw [List.count_cons_of_ne (by simp), List.count_cons_of_ne (by simp)]
    exact h.consumed idHash
  kept := fun id expiry hlog => by
    rw [List.map_append]
    rcases List.mem_cons.mp hlog with heq | hlog
    · obtain ⟨rfl, rfl⟩ := SsoEvent.accepted.inj heq
      exact .inl (List.mem_append_right _ (List.mem_singleton.mpr rfl))
    · exact (h.kept id expiry hlog).imp_left (List.mem_append_left _)
  again := fun id htwice => by
    rw [acceptances_cons] at htwice
    by_cases hid : row.assertionId = id
    · -- accepted before, and no row is left of it: the row was pruned
      subst hid
      rw [if_pos rfl] at htwice
      obtain ⟨expiry, hlog⟩ := exists_accepted (Nat.le_of_succ_le_succ htwice)
      refine ⟨expiry, List.mem_cons_of_mem _ hlog, (h.kept _ _ hlog).resolve_left fun hmem => ?_⟩
      obtain ⟨row', hrow', hkey⟩ := List.mem_map.mp hmem
      exact hnew (List.mem_map.mpr ⟨row', hrow', congrArg Prod.fst hkey⟩)
    · rw [if_neg hid, Nat.add_zero] at htwice
      obtain ⟨expiry, hlog, hpast⟩ := h.again id htwice
      exact ⟨expiry, List.mem_cons_of_mem _ hlog, hpast⟩
  outlives := fun id expiry hlog => by
    rcases List.mem_cons.mp hlog with heq | hlog
    · obtain ⟨rfl, rfl⟩ := SsoEvent.accepted.inj heq
      exact houtlives
    · exact h.outlives id expiry hlog

/-- Storing a transaction, and consuming one. -/
theorem ReplayCache.start (h : ReplayCache lib s) {row : LoginTxnRow}
    (hnew : row.idHash ∉ s.txns.map LoginTxnRow.idHash) :
    ReplayCache lib { s with txns := s.txns ++ [row], log := .started row.idHash :: s.log } := by
  have hmem : ∀ id expiry, SsoEvent.accepted id expiry ∈ .started row.idHash :: s.log →
      .accepted id expiry ∈ s.log := by
    intro id expiry hlog
    exact (List.mem_cons.mp hlog).resolve_left (by simp)
  have hcount : ∀ id, acceptances (.started row.idHash :: s.log) id = acceptances s.log id :=
    fun id => by simp [acceptances]
  refine ⟨fun idHash => ?_, fun id expiry hlog => h.kept id expiry (hmem id expiry hlog),
    fun id htwice => ?_, fun id expiry hlog => h.outlives id expiry (hmem id expiry hlog)⟩
  · have hbefore := h.consumed idHash
    rw [List.map_append, List.count_cons_of_ne (by simp)]
    by_cases hid : row.idHash = idHash
    · subst hid
      rw [if_neg hnew] at hbefore
      rw [List.count_cons_self]
      simp only [List.map_singleton, List.mem_append, List.mem_singleton, or_true, if_true]
      omega
    · rw [List.count_cons_of_ne (by simpa using hid)]
      simpa [Ne.symm hid] using hbefore
  · rw [hcount] at htwice
    obtain ⟨expiry, hlog, hpast⟩ := h.again id htwice
    exact ⟨expiry, List.mem_cons_of_mem _ hlog, hpast⟩

theorem ReplayCache.consume (h : ReplayCache lib s) {row : LoginTxnRow} (hrow : row ∈ s.txns) :
    ReplayCache lib
      { s with
        txns := s.txns.filter fun row' => row'.idHash ≠ row.idHash
        log := .consumed row.idHash :: s.log } := by
  have hmem : ∀ id expiry, SsoEvent.accepted id expiry ∈ .consumed row.idHash :: s.log →
      .accepted id expiry ∈ s.log := by
    intro id expiry hlog
    exact (List.mem_cons.mp hlog).resolve_left (by simp)
  have hcount : ∀ id, acceptances (.consumed row.idHash :: s.log) id = acceptances s.log id :=
    fun id => by simp [acceptances]
  refine ⟨fun idHash => ?_, fun id expiry hlog => h.kept id expiry (hmem id expiry hlog),
    fun id htwice => ?_, fun id expiry hlog => h.outlives id expiry (hmem id expiry hlog)⟩
  · have hbefore := (h.fewerTxns fun row' => row'.idHash ≠ row.idHash).consumed idHash
    have hstarted : (SsoEvent.consumed row.idHash :: s.log).count (.started idHash) =
        s.log.count (.started idHash) := List.count_cons_of_ne (by simp)
    dsimp only at hbefore ⊢
    rw [hstarted]
    -- the row that is consumed, and the others
    by_cases hid : row.idHash = idHash
    · subst hid
      have hpresent := h.consumed row.idHash
      rw [if_pos (List.mem_map_of_mem hrow)] at hpresent
      rw [List.count_cons_self, if_neg (by simp)]
      exact hpresent
    · rw [List.count_cons_of_ne (by simpa using hid)]
      exact hbefore
  · rw [hcount] at htwice
    obtain ⟨expiry, hlog, hpast⟩ := h.again id htwice
    exact ⟨expiry, List.mem_cons_of_mem _ hlog, hpast⟩

/-- **One statement** keeps the log and the tables in step. -/
theorem ReplayCache.step (h : ReplayCache lib s) {c : SsoCmd} {r : SsoRes c}
    (hstep : SsoStep lib s c r s') (hpast : PurgesThePast 0 s c) (houtlives : Outlives lib c) :
    ReplayCache lib s' := by
  cases hstep with
  | clockRead t ht => exact h.later ht
  | txnsPurged now r => exact h.fewerTxns _
  | txnInserted row r hnew => exact h.start hnew
  | txnDeleted hrow => exact h.consume hrow
  | txnDeletedUnheard idHash e => exact h.fewerTxns _
  | assertionsPurged now r => exact h.purged (hpast now rfl)
  | assertionAccepted row hnew => exact h.accept hnew (houtlives row rfl)
  | assertionUnheard row e hnew => exact h.moreConsumed row
  | validated provider response expected t ht => exact h.later ht
  | _ => exact h

end

/-! ### Runs -/

section
variable {cfg : SsoConfig} {ops : ℕ → SsoOp} {clock : ℤ} {q : Pool SsoCmd SsoRes SsoDb SsoDone}

end

end

/-! ### The computed expiry -/
