/-
What the empty policy lets into the store.

A fresh answer is stored only when the policy keeps its effective empty reason.  An entry
adopted from an older key is filed again under today's key, and that write has a gate of
its own, which reads the reason the entry recorded.  An entry written before reasons were
recorded has none, so a blank answer or a refusal in it passes.

* **`blank_refiled`** — such an entry is filed again under the default policy;
* **`storesOnlyKept_iff`** — for every run of a call: everything it writes is worth
  storing exactly when no adopted entry is of that kind.
-/
import Domarinn.RunnerCache

open Program

/-- Every entry the trace writes replays to a response the policy would store. -/
def StoresOnlyKept (policy : EmptyPolicy) (provider : Provider) (tr : List RunEvent) : Prop :=
  ∀ key entry r, (⟨.put key entry, r⟩ : RunEvent) ∈ tr →
    policy.shouldStore (policy.effectiveReason (entryToResponse entry provider)) = true

/-- Every entry a look-up after the first one finds either recorded a reason, or has an
output that is neither blank nor a refusal; unless the mode writes nothing or the policy
keeps everything. -/
def AdoptsOnlyDiagnosed (cache : CacheCall) (tr : List RunEvent) : Prop :=
  cache.mode = .readWrite → cache.policy.store ≠ .always →
    ∀ k entry, (⟨.get k, .ok (some entry)⟩ : RunEvent) ∈ tr.tail → entry.emptyReason = none →
      classifyBlank entry.output = none ∧ cache.policy.refusal.isMatch entry.output = false

/-! ### The two gates -/

/-- The two reasons that are derived from an output alone. -/
theorem classifyBlank_eq {output : Output} {reason : EmptyReason}
    (h : classifyBlank output = some reason) : reason = .blank := by
  unfold classifyBlank at h
  dsimp only at h
  split_ifs at h
  · exact (Option.some.inj h).symm

/-- A response without a recorded reason is kept exactly when its output is an answer, or
the policy keeps everything. -/
theorem shouldStore_derived {policy : EmptyPolicy} {response : ProviderResponse}
    (hnone : response.emptyReason = none) :
    policy.shouldStore (policy.effectiveReason response) = true ↔
      policy.store = .always ∨
        (classifyBlank response.output = none ∧ policy.refusal.isMatch response.output = false) := by
  have hreason : policy.effectiveReason response =
      (classifyBlank response.output).or
        (if policy.refusal.isMatch response.output then some .refusal else none) := by
    rw [EmptyPolicy.effectiveReason, classifyEmpty, hnone, Option.none_or]
  rw [hreason]
  cases hb : classifyBlank response.output with
  | some reason =>
    obtain rfl := classifyBlank_eq hb
    cases hs : policy.store <;>
      simp [EmptyPolicy.shouldStore, hs, reproducibleReasons, EmptyReason.blank,
        EmptyReason.truncated, EmptyReason.toolUseOnly, EmptyReason.outputExprEmpty]
  | none =>
    cases hm : policy.refusal.isMatch response.output <;> cases hs : policy.store <;>
      simp [EmptyPolicy.shouldStore, hs, reproducibleReasons, EmptyReason.refusal,
        EmptyReason.truncated, EmptyReason.toolUseOnly, EmptyReason.outputExprEmpty]

/-- A recorded reason is the effective one. -/
theorem effectiveReason_recorded {policy : EmptyPolicy} {response : ProviderResponse}
    {reason : EmptyReason} (h : response.emptyReason = some reason) :
    policy.effectiveReason response = some reason := by
  rw [EmptyPolicy.effectiveReason, classifyEmpty_of_emptyReason h, Option.some_or]

/-- **What the re-file gate misses**: an entry it passes replays to a response the policy
keeps, except when the entry recorded no reason and its output is not an answer. -/
theorem shouldStore_adopted (provider : Provider) {policy : EmptyPolicy} {entry : CacheEntry}
    (hgate : policy.storedEntryIsDeclined entry = false) :
    policy.shouldStore (policy.effectiveReason (entryToResponse entry provider)) = true ↔
      (policy.store ≠ .always → entry.emptyReason = none →
        classifyBlank entry.output = none ∧ policy.refusal.isMatch entry.output = false) := by
  cases hr : entry.emptyReason with
  | some reason =>
    have hkept : policy.shouldStore (some reason) = true := by
      rw [EmptyPolicy.storedEntryIsDeclined, hr] at hgate
      simpa using hgate
    rw [effectiveReason_recorded (show (entryToResponse entry provider).emptyReason = _ from hr)]
    simp [hkept]
  | none =>
    rw [shouldStore_derived (show (entryToResponse entry provider).emptyReason = none from hr)]
    by_cases ha : policy.store = .always
    · simp [ha]
    · simp [ha, entryToResponse]

theorem storedEntryIsDeclined_none {policy : EmptyPolicy} {entry : CacheEntry}
    (h : entry.emptyReason = none) : policy.storedEntryIsDeclined entry = false := by
  rw [EmptyPolicy.storedEntryIsDeclined, h]
  rfl

/-! ### Runs -/

section
variable {provider : Provider} {req : ProviderRequest} {cache : CacheCall}
  {retry : RetryPolicy} {limiter : Bool} {tr : List RunEvent}
  {res : Except CallFailure CallOutcome}

/-- A live call writes only what the policy keeps. -/
theorem callLive_storesOnlyKept {keyed : Option (CacheKey × Json)}
    (h : Runs (callLive provider req cache retry limiter keyed) tr res) :
    StoresOnlyKept cache.policy provider tr := by
  intro key entry r hput
  rcases callLive_events h _ hput with he | ⟨key', canonical, response, stats, r', -, -, hkept, he⟩
  · exact absurd he.quiet.2 (by simp [RunCmd.isPut])
  · obtain ⟨⟨rfl, rfl⟩, -⟩ : (key = key' ∧ entry = _) ∧ _ := by simpa using he
    rw [effectiveReason_replay]
    exact hkept

/-- No look-up of a live call finds an entry. -/
theorem callLive_no_hit {keyed : Option (CacheKey × Json)}
    (h : Runs (callLive provider req cache retry limiter keyed) tr res) :
    ∀ k entry, (⟨.get k, .ok (some entry)⟩ : RunEvent) ∉ tr := by
  intro k entry hget
  rcases callLive_events h _ hget with he | ⟨key, canonical, response, stats, r, -, -, -, he⟩
  · exact absurd he.quiet.1 (by simp [RunCmd.isGet])
  · simp at he

/-- After a miss, the writes are worth storing exactly when the adopted entry, if one is
filed again, is diagnosed. -/
theorem callOnMiss_storesOnlyKept_iff {key : CacheKey} {canonical : Json}
    (h : Runs (callOnMiss provider req cache retry limiter key canonical) tr res) :
    StoresOnlyKept cache.policy provider tr ↔
      (cache.mode = .readWrite → cache.policy.store ≠ .always →
        ∀ k entry, (⟨.get k, .ok (some entry)⟩ : RunEvent) ∈ tr → entry.emptyReason = none →
          classifyBlank entry.output = none ∧
            cache.policy.refusal.isMatch entry.output = false) := by
  obtain ⟨probes, rest, found, rfl, hprobes, hrest⟩ := callOnMiss_cases h
  have hnoput : ∀ k e r, (⟨.put k e, r⟩ : RunEvent) ∉ probes :=
    fun k e r he => absurd (hprobes.only _ he).quiet.1 (by simp [RunCmd.isPut])
  rcases found with _ | ⟨k, found⟩
  · -- nothing was adopted: only a live call can write
    have hnohit : ∀ k entry, (⟨.get k, .ok (some entry)⟩ : RunEvent) ∉ probes := by
      intro k entry hget
      simpa using (hprobes.hits k entry).mp hget
    have hlive : StoresOnlyKept cache.policy provider rest ∧
        ∀ k entry, (⟨.get k, .ok (some entry)⟩ : RunEvent) ∉ rest := by
      by_cases hm : cache.mode = .readOnlyStrict
      · rw [if_pos hm] at hrest
        rw [hrest.1]
        simp [StoresOnlyKept]
      · rw [if_neg hm] at hrest
        exact ⟨callLive_storesOnlyKept hrest, callLive_no_hit hrest⟩
    constructor
    · intro _ _ _ k entry hget
      rcases List.mem_append.mp hget with hget | hget
      · exact absurd hget (hnohit k entry)
      · exact absurd hget (hlive.2 k entry)
    · intro _ k e r hput
      rcases List.mem_append.mp hput with hput | hput
      · exact absurd hput (hnoput k e r)
      · exact hlive.1 k e r hput
  · obtain ⟨-, kind, hfile⟩ := hrest
    have hfile := runs_refile.mp hfile
    -- the one entry the probes found is the one that may be filed again
    have hhit : ∀ k' entry, (⟨.get k', .ok (some entry)⟩ : RunEvent) ∈ probes ++ rest ↔
        k' = k ∧ entry = found := by
      intro k' entry
      have hw : (⟨.get k', .ok (some entry)⟩ : RunEvent) ∉ rest := by
        split_ifs at hfile
        · obtain ⟨r, rfl⟩ := hfile
          simp
        · rw [hfile]
          simp
      rw [List.mem_append, or_iff_left hw, hprobes.hits, Option.some_inj, Prod.mk.injEq]
      exact and_congr eq_comm eq_comm
    split_ifs at hfile with hgate
    · obtain ⟨r, rfl⟩ := hfile
      constructor
      · intro hstores _ halways k' entry hget hnone
        obtain ⟨rfl, rfl⟩ := (hhit k' entry).mp hget
        have hkept := hstores key _ r (List.mem_append_right _ List.mem_cons_self)
        exact (shouldStore_adopted provider hgate.2).mp hkept halways hnone
      · intro hdiag key' e r' hput
        rcases List.mem_append.mp hput with hput | hput
        · exact absurd hput (hnoput key' e r')
        · obtain ⟨⟨rfl, rfl⟩, -⟩ : (key' = key ∧ e = _) ∧ _ := by simpa using hput
          exact (shouldStore_adopted provider hgate.2).mpr fun halways hnone =>
            hdiag hgate.1 halways k found ((hhit k found).mpr ⟨rfl, rfl⟩) hnone
    · rw [hfile, List.append_nil]
      constructor
      · intro _ hmode halways k' entry hget hnone
        obtain ⟨rfl, rfl⟩ := (hhit k' entry).mp (by simp [hget])
        exact absurd ⟨hmode, storedEntryIsDeclined_none hnone⟩ hgate
      · intro _ key' e r' hput
        exact absurd hput (hnoput key' e r')

/-- **The write gate admits only what the policy keeps, exactly when every adopted entry
is diagnosed.**  The condition speaks of what the store answers to the probes of older
keys. -/
theorem storesOnlyKept_iff (h : Runs (callWithCache provider req cache retry limiter) tr res) :
    StoresOnlyKept cache.policy provider tr ↔ AdoptsOnlyDiagnosed cache tr := by
  have hcases := callWithCache_cases h
  cases hk : keyedRequest provider req cache with
  | none =>
    rw [hk] at hcases
    refine iff_of_true (callLive_storesOnlyKept hcases) fun _ _ k entry hget => ?_
    exact absurd (List.mem_of_mem_tail hget) (callLive_no_hit hcases k entry)
  | some canonical =>
    rw [hk] at hcases
    obtain ⟨answer, rest, rfl, hrest⟩ := hcases
    have hhead : StoresOnlyKept cache.policy provider
        ((⟨.get (callKey provider req cache canonical), answer⟩ : RunEvent) :: rest) ↔
          StoresOnlyKept cache.policy provider rest := by
      simp [StoresOnlyKept]
    rw [hhead, AdoptsOnlyDiagnosed, List.tail_cons]
    rcases answer with e | _ | entry
    · rw [hrest.1]
      simp [StoresOnlyKept]
    · exact callOnMiss_storesOnlyKept_iff hrest
    · rw [hrest.1]
      simp [StoresOnlyKept]

end

/-! ### An entry the gate misses -/

/-- A provider whose canonical request once carried a `url` and now carries a `path`. -/
def movedProvider : Provider :=
  { Provider.withDefaults "api" (.obj [("type", .str "openai")]) with
    canonicalRequest := fun _ => some (.obj [("path", .str "/v1/chat")])
    legacyCanonicalRequests := fun _ => [.obj [("url", .str "https://api.test/v1/chat")]] }

/-- The default read-write call. -/
def defaultCall : CacheCall := ⟨.readWrite, 0, .default, true⟩

/-- A store that holds `entry` under the key of the older canonical request. -/
def migratedStore (entry : CacheEntry) : List (CacheKey × CacheEntry) :=
  [(callKey movedProvider .default defaultCall (.obj [("url", .str "https://api.test/v1/chat")]),
    entry)]

/-- The call whose current key is not in the store. -/
def movedCall : Run (Except CallFailure CallOutcome) :=
  callWithCache movedProvider .default defaultCall .default false

/-- What it does when `entry` is under the older key. -/
def migratedTrace (entry : CacheEntry) : List RunEvent :=
  (movedCall.exec (storeWorld (.ok (.ofText "")) (.ok .null)) (migratedStore entry)).1

/-- **A blank answer is filed again**: the default policy would not store it fresh, yet the
re-file of an entry that recorded no reason writes it under today's key. -/
theorem blank_refiled : ∃ res,
    Runs movedCall (migratedTrace (.ofOutput (.text " ") none)) res ∧
      ¬ StoresOnlyKept .default movedProvider (migratedTrace (.ofOutput (.text " ") none)) := by
  refine ⟨_, runs_exec _ _ _, fun h => ?_⟩
  have hkept := h (callKey movedProvider .default defaultCall (.obj [("path", .str "/v1/chat")]))
    { CacheEntry.ofOutput (.text " ") none with request := some (.obj [("path", .str "/v1/chat")]) }
    (.ok ()) (List.mem_of_getElem? (i := 4) rfl)
  exact absurd hkept (by decide)

/-- An answer without a recorded reason is filed again, and rightly so. -/
theorem answer_refiled :
    StoresOnlyKept .default movedProvider (migratedTrace (.ofOutput (.text "four") none)) := by
  refine (@storesOnlyKept_iff _ _ defaultCall _ _ _ _ (runs_exec _ movedCall _)).mpr ?_
  intro _ _ k entry hget _
  have hentry : entry = .ofOutput (.text "four") none := by
    change _ ∈ ([⟨.shouldProbe, true⟩, ⟨.get _, .ok (some _)⟩, ⟨.recordAdoption, ()⟩,
      ⟨.put _ _, .ok ()⟩] : List RunEvent) at hget
    simpa using (show _ ∧ _ by simpa using hget).2
  subst hentry
  exact ⟨by decide, rfl⟩
