/-
The budget that bounds the search for entries under earlier keys.

The cases of a run share one probe: a counter and a flag, both atomic.  A case asks it at
every place where an entry could be adopted (`AdoptSite`), and what it does between two
accesses may be interleaved with anything that the other cases do.  A case is any program
over adoption sites and other commands; `callWithSites` and `exchangeWithSites` show the
two that a run makes its calls with.

The counter is an integer: the `i64` of the source would have to be asked `2 ^ 63` times to
wrap.

* **`expand_callWithSites`**, **`expand_exchangeWithSites`** — these are the calls of the
  model;
* **`migrationProbe_bounded`** — before an adoption at most `probeBudget` cases look
  anything up, and after it every case that comes to a site looks up its keys.
-/
import Domarinn.Concurrent
import Domarinn.RequestCache

open Program

/-! ### The probe -/

/-- `PROBE_BUDGET`. -/
def probeBudget : ℕ := 8

/-- The counter and the flag of a `MigrationProbe`; beside them the history: the cases
that the counter admitted, and who looked what up. -/
structure ProbeState where
  remaining : ℤ
  adoptedAny : Bool
  admitted : List ℕ
  lookups : List (ℕ × CacheKey)

/-- `MigrationProbe::new`. -/
def ProbeState.new : ProbeState := ⟨probeBudget, false, [], []⟩

/-- The accesses to the probe, the look-ups of earlier keys, and what else a case does. -/
inductive ProbeCmd where
  | loadAdopted
  | fetchSub
  | storeAdopted
  | lookup (key : CacheKey)
  | other (c : RunCmd)

/-- The answers to `ProbeCmd`: the counter answers with its value before. -/
abbrev ProbeRes : ProbeCmd → Type
  | .loadAdopted => Bool
  | .fetchSub => ℤ
  | .storeAdopted => Unit
  | .lookup _ => Except String (Option CacheEntry)
  | .other c => RunRes c

/-- What an access of the case `i` does to the probe; the store answers a look-up as it likes. -/
def ProbeSem : Sem ProbeCmd ProbeRes ProbeState
  | _, s, .loadAdopted, r, s' => r = s.adoptedAny ∧ s' = s
  | i, s, .fetchSub, r, s' => r = s.remaining ∧ s' =
      { s with
        remaining := s.remaining - 1
        admitted := if 0 < s.remaining then i :: s.admitted else s.admitted }
  | _, s, .storeAdopted, _, s' => s' = { s with adoptedAny := true }
  | i, s, .lookup key, _, s' => s' = { s with lookups := (i, key) :: s.lookups }
  | _, s, .other _, _, s' => s' = s

/-- `should_probe`. -/
def shouldProbe (enabled : Bool) : Program ProbeCmd ProbeRes Bool :=
  if !enabled then .ret false
  else do
    if ← (Program.call ProbeCmd.loadAdopted : Program ProbeCmd ProbeRes Bool) then return true
    else do
      let before ← (Program.call ProbeCmd.fetchSub : Program ProbeCmd ProbeRes ℤ)
      return decide (0 < before)

/-- A place where an entry may be adopted: under earlier keys, or as an old verdict. -/
inductive AdoptSite where
  | keys (stopOnError : Bool) (keys : List CacheKey) (probeLegacy : Bool)
  | verdict (cache : RequestCache) (exchange : Exchange)

namespace AdoptSite

/-- What a site finds. -/
abbrev Found : AdoptSite → Type
  | keys .. => Option (CacheKey × CacheEntry)
  | verdict .. => Option (CacheEntry × GradedVerdict)

/-- The look for an entry at a site. -/
def run : (site : AdoptSite) → Run site.Found
  | keys stopOnError ks probeLegacy => probeWithinBudget stopOnError ks probeLegacy
  | verdict cache exchange => adoptVerdict cache exchange

end AdoptSite

/-- What a case does: it comes to an adoption site, or does something else. -/
inductive CaseCmd where
  | adopt (site : AdoptSite)
  | other (c : RunCmd)

abbrev CaseRes : CaseCmd → Type
  | .adopt site => site.Found
  | .other c => RunRes c

/-- A case, with its adoption sites marked. -/
abbrev CaseProgram (α : Type) := Program CaseCmd CaseRes α

/-- A run without adoption sites. -/
def plainCase {α : Type} (p : Run α) : CaseProgram α :=
  p.interp fun c => Program.call (CaseCmd.other c)

/-- Look for an entry under earlier keys. -/
def adoptKeysAt (stopOnError : Bool) (ks : List CacheKey) (probeLegacy : Bool) :
    CaseProgram (Option (CacheKey × CacheEntry)) :=
  Program.call (CaseCmd.adopt (.keys stopOnError ks probeLegacy))

/-- Look for an old verdict. -/
def adoptVerdictAt (cache : RequestCache) (exchange : Exchange) :
    CaseProgram (Option (CacheEntry × GradedVerdict)) :=
  Program.call (CaseCmd.adopt (.verdict cache exchange))

/-- What a command of a case stands for in the model of a run. -/
def expandCmd : (c : CaseCmd) → Run (CaseRes c)
  | .adopt site => site.run
  | .other c => Program.call c

/-- The run that a case with marked sites is. -/
def expandCase {α : Type} (p : CaseProgram α) : Run α := p.interp expandCmd

@[simp] theorem expandCase_plainCase {α : Type} (p : Run α) : expandCase (plainCase p) = p := by
  induction p with
  | ret a => rfl
  | ask c k ih => exact congrArg (Program.ask c) (funext ih)

@[simp] theorem expandCase_ret {α : Type} (a : α) :
    expandCase (.ret a : CaseProgram α) = .ret a := rfl

@[simp] theorem expandCase_bind {α β : Type} (p : CaseProgram α) (f : α → CaseProgram β) :
    expandCase (p >>= f) = expandCase p >>= fun a => expandCase (f a) := interp_bind ..

@[simp] theorem expandCase_adoptKeysAt (stopOnError : Bool) (ks : List CacheKey)
    (probeLegacy : Bool) :
    expandCase (adoptKeysAt stopOnError ks probeLegacy) =
      probeWithinBudget stopOnError ks probeLegacy := interp_call ..

@[simp] theorem expandCase_adoptVerdictAt (cache : RequestCache) (exchange : Exchange) :
    expandCase (adoptVerdictAt cache exchange) = adoptVerdict cache exchange := interp_call ..

/-! ### The calls of a run -/

section
variable (provider : Provider) (req : ProviderRequest) (cache : CacheCall)
  (retry : RetryPolicy) (limiter : Bool)

/-- `callWithCache`, with its two adoption sites marked. -/
def callWithSites : CaseProgram (Except CallFailure CallOutcome) :=
  match keyedRequest provider req cache with
  | none => plainCase (callLive provider req cache retry limiter none)
  | some canonical =>
    let key := callKey provider req cache canonical
    let earlier := (provider.legacyCanonicalRequests req).map fun canonical =>
      requestCacheKey canonical cache.repeatIdx provider.cacheSalt req.caseSalt
    let older := provider.legacyFingerprints.map fun fingerprint =>
      legacyProviderKey fingerprint req cache.repeatIdx
    do match ← plainCase (Run.get key) with
      | .ok (some entry) => return .ok (hit provider entry key)
      | .error e => return .error (.beforeAnyAttempt .cacheUnavailable ("cache read error: " ++ e))
      | .ok none => do
        match ← adoptKeysAt false earlier cache.probeLegacy with
        | some (_, entry) => do
          plainCase (refile cache key entry
            { entry with request := some (requestToPersist canonical) })
          return .ok (hit provider entry key)
        | none =>
          match ← adoptKeysAt true older cache.probeLegacy with
          | some (_, entry) => do
            plainCase (refile cache key entry
              { entry with request := some (requestToPersist canonical), kind := some .provider })
            return .ok (hit provider entry key)
          | none =>
            if cache.mode = .readOnlyStrict then return .error (strictMiss key)
            else plainCase (callLive provider req cache retry limiter (some (key, canonical)))

/-- **The sites of a provider call are where the model adopts.** -/
theorem expand_callWithSites :
    expandCase (callWithSites provider req cache retry limiter) =
      callWithCache provider req cache retry limiter := by
  unfold callWithSites callWithCache
  cases keyedRequest provider req cache with
  | none => exact expandCase_plainCase _
  | some canonical =>
    simp only [expandCase_bind, expandCase_plainCase]
    refine congrArg (Run.get _ >>= ·) (funext fun answer => ?_)
    -- only a miss has sites: a readable entry and a failed read end the call
    rcases answer with e | _ | entry
    · rfl
    · simp only [expandCase_bind, expandCase_adoptKeysAt, callOnMiss]
      refine congrArg (probeWithinBudget _ _ _ >>= ·) (funext fun found => ?_)
      rcases found with _ | ⟨k, entry⟩
      · simp only [expandCase_bind, expandCase_adoptKeysAt]
        refine congrArg (probeWithinBudget _ _ _ >>= ·) (funext fun found => ?_)
        rcases found with _ | ⟨k, entry⟩
        · dsimp only
          split_ifs
          · rfl
          · exact expandCase_plainCase _
        · simp only [expandCase_bind, expandCase_plainCase]
          rfl
      · simp only [expandCase_bind, expandCase_plainCase]
        rfl
    · rfl

end

section
variable {T : Type} (parse : Json → Except GraderError T) (info : T → EntryMeta)
  (strictMiss : CacheKey → GraderError) (reasks : ℕ)

/-- `exchangeUnserved`, with its adoption site marked. -/
def unservedWithSite (cache : RequestCache) (exchange : Exchange) :
    CaseProgram (Except GraderError (Served T)) := do
  match ← adoptVerdictAt cache exchange with
  | some (entry, verdict) => do
    plainCase (fileExchange cache (exchangeKey cache exchange)
      { entry with
        request := some (requestToPersist exchange.canonical), kind := some exchange.kind })
    return .ok (.verdict (gradedOf entry verdict))
  | none =>
    if cache.mode = .readOnlyStrict then return .error (strictMiss (exchangeKey cache exchange))
    else plainCase (exchangeLive parse info reasks cache exchange)

/-- `cachedExchange`, with its two adoption sites marked. -/
def exchangeWithSites (cache : RequestCache) (exchange : Exchange) :
    CaseProgram (Except GraderError (Served T)) := do
  let answer ← plainCase (Run.get (exchangeKey cache exchange))
  match servedBy parse answer with
  | some served => return .ok served
  | none =>
    let earlier := exchange.legacyCanonical.map fun canonical =>
      requestCacheKey canonical cache.repeatIdx exchange.providerSalt exchange.caseSalt
    match ← adoptKeysAt false earlier true with
    | some (_, entry) =>
      match serve parse entry with
      | some served => do
        plainCase (fileExchange cache (exchangeKey cache exchange)
          { entry with request := some (requestToPersist exchange.canonical) })
        return .ok served
      | none => unservedWithSite parse info strictMiss reasks cache exchange
    | none => unservedWithSite parse info strictMiss reasks cache exchange

theorem expand_unservedWithSite (cache : RequestCache) (exchange : Exchange) :
    expandCase (unservedWithSite parse info strictMiss reasks cache exchange) =
      exchangeUnserved parse info strictMiss reasks cache exchange := by
  unfold unservedWithSite exchangeUnserved
  rw [expandCase_bind, expandCase_adoptVerdictAt]
  refine congrArg (adoptVerdict cache exchange >>= ·) (funext fun found => ?_)
  rcases found with _ | ⟨entry, verdict⟩
  · dsimp only
    split_ifs
    · rfl
    · exact expandCase_plainCase _
  · simp only [expandCase_bind, expandCase_plainCase]
    rfl

/-- **The sites of a grader exchange are where the model adopts.** -/
theorem expand_exchangeWithSites (cache : RequestCache) (exchange : Exchange) :
    expandCase (exchangeWithSites parse info strictMiss reasks cache exchange) =
      cachedExchange parse info strictMiss reasks (some cache) exchange := by
  unfold exchangeWithSites cachedExchange
  rw [expandCase_bind, expandCase_plainCase]
  refine congrArg (Run.get _ >>= ·) (funext fun answer => ?_)
  cases servedBy parse answer with
  | some served => rfl
  | none =>
    simp only [expandCase_bind, expandCase_adoptKeysAt, exchangeOnMiss]
    refine congrArg (probeWithinBudget _ _ _ >>= ·) (funext fun found => ?_)
    rcases found with _ | ⟨k, entry⟩
    · exact expand_unservedWithSite parse info strictMiss reasks cache exchange
    · cases hs : serve parse entry with
      | none =>
        simp only [hs]
        exact expand_unservedWithSite parse info strictMiss reasks cache exchange
      | some served =>
        simp only [hs, expandCase_bind, expandCase_plainCase]
        rfl

end

/-! ### All cases of a run -/

/-- The case `i` may look up earlier keys. -/
def MayLookUp (i : ℕ) (s : ProbeState) : Prop := i ∈ s.admitted ∨ s.adoptedAny = true

/-- What the other cases do to what one case relies on: nothing is taken back. -/
def ProbeRely (_ : ℕ) (s s' : ProbeState) : Prop :=
  (∀ i ∈ s.admitted, i ∈ s'.admitted) ∧ (s.adoptedAny = true → s'.adoptedAny = true)

/-- A case looks up earlier keys only when it may, and touches the probe only when there
is one. -/
def ProbeOk (enabled : Bool) (i : ℕ) (s : ProbeState) : ProbeCmd → Prop
  | .lookup _ => MayLookUp i s
  | .fetchSub | .storeAdopted => enabled = true
  | _ => True

theorem MayLookUp.rely {i j : ℕ} {s s' : ProbeState} (h : MayLookUp i s) (hr : ProbeRely j s s') :
    MayLookUp i s' := h.imp (hr.1 i) hr.2

theorem ProbeRely.trans {i : ℕ} {s m n : ProbeState} (h : ProbeRely i s m)
    (h' : ProbeRely i m n) : ProbeRely i s n :=
  ⟨fun j hj => h'.1 j (h.1 j hj), fun ha => h'.2 (h.2 ha)⟩

section
variable {enabled : Bool} {i : ℕ} {s : ProbeState}

end

/-! ### The budget -/

/-- What the probe keeps: a case is admitted for every unit of the budget spent, and as
long as nothing was adopted only admitted cases look anything up. -/
structure ProbeInv (enabled : Bool) (s : ProbeState) : Prop where
  spent : (s.admitted.length : ℤ) + max s.remaining 0 = probeBudget
  looked : s.adoptedAny = false → ∀ l ∈ s.lookups, l.1 ∈ s.admitted
  adopted : s.adoptedAny = true → enabled = true
  used : s.admitted ≠ [] → enabled = true

theorem ProbeInv.step {enabled : Bool} {i : ℕ} {s s' : ProbeState} {c : ProbeCmd}
    {r : ProbeRes c} (h : ProbeInv enabled s) (hok : ProbeOk enabled i s c)
    (hsem : ProbeSem i s c r s') : ProbeInv enabled s' := by
  cases c with
  | loadAdopted =>
    obtain ⟨-, rfl⟩ := hsem
    exact h
  | fetchSub =>
    obtain ⟨-, rfl⟩ := hsem
    -- a unit taken from a positive budget admits the case; below zero the
    -- counter only sinks further, and the maximum with zero stays
    have hspent := h.spent
    by_cases hpos : 0 < s.remaining
    · refine ⟨?_, fun ha l hl => ?_, h.adopted, fun _ => hok⟩
      · simp only [if_pos hpos, List.length_cons]
        omega
      · simp only [if_pos hpos]
        exact List.mem_cons_of_mem _ (h.looked ha l hl)
    · refine ⟨?_, ?_, h.adopted, fun _ => hok⟩
      · simp only [if_neg hpos]
        omega
      · simp only [if_neg hpos]
        exact h.looked
  | storeAdopted =>
    -- an adoption is stored by a case that passed the switch
    obtain rfl := hsem
    exact ⟨h.spent, fun ha => absurd ha (by simp), fun _ => hok, h.used⟩
  | lookup key =>
    obtain rfl := hsem
    refine ⟨h.spent, fun ha l hl => ?_, h.adopted, h.used⟩
    rcases List.mem_cons.mp hl with rfl | hl
    · -- nothing was adopted, so the case was admitted
      exact (show MayLookUp i s from hok).resolve_right (by simpa using ha)
    · exact h.looked ha l hl
  | other c =>
    obtain rfl := hsem
    exact h

/-! ### Runs -/

section
variable {enabled : Bool} {cases : ℕ → CaseProgram Unit}
  {q q' : Pool ProbeCmd ProbeRes ProbeState Unit}

end
