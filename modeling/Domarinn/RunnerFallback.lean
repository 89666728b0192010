/-
Walking a provider's fallback chain when the configured one will not answer.

`chainOfLinks` is the walk of `call_chain`, with its two effects as commands: reading the
abort flag and calling one link.  Their answers are arbitrary, so a statement about every
run covers every assignment of outcomes to the links and every moment the flag is raised.
`callChain` carries the link calls out by `callWithCache`.

* **`Reports`**, **`Settles`** — the two ways a chain may end: with the primary's own
  outcome, or with the untriggered answer of a later link and the hand-offs before it;
* **`chain_never_worse`** — every run ends in one of them, and in the first whenever no
  later link answered, the walk was not allowed, or the flag was seen;
* **`callChain_runs`** — the runs of the whole chain are the runs of the walk, each link
  call expanded into a run of `callWithCache`.
-/
import Domarinn.RunnerCache
import Domarinn.Digests

open Program

/-! ### When a chain hands off -/

/-- The failure classes a fallback answers. -/
def fallbackErrorClasses : List ErrorClass :=
  [.providerAuth, .providerUnavailable, .providerTimeout, .providerProtocol, .providerRateLimit,
    .execFailed]

/-- The empty reasons that hand off when the suite says nothing. -/
def defaultFallbackOnEmptyReason : List String := ["refusal", "content_filter"]

/-- When a chain hands off, for one run. -/
structure FallbackPolicy where
  onEmptyReason : List String
  enabled : Bool
deriving DecidableEq

/-- A link tried and passed over. -/
structure FallbackAttempt where
  providerId : String
  emptyReason : Option EmptyReason
  errorClass : Option ErrorClass
deriving DecidableEq

namespace FallbackPolicy

/-- The built-in triggers, enabled. -/
def default : FallbackPolicy := ⟨defaultFallbackOnEmptyReason, true⟩

/-- `FallbackPolicy::resolve`: the override wins over the suite, the suite over the
default. -/
def resolve (suiteReasons : Option (List String)) (enabled : Bool)
    (overrideReasons : Option (List String)) : FallbackPolicy :=
  { onEmptyReason := (overrideReasons.or suiteReasons).getD defaultFallbackOnEmptyReason
    enabled }

/-- `hand_off`: whether this outcome is a reason to try the next link, and what to record
about it if so. -/
def handOff (fallback : FallbackPolicy) (policy : EmptyPolicy) (provider : Provider)
    (outcome : Except CallFailure CallOutcome) : Option FallbackAttempt :=
  match outcome with
  | .ok o => do
    let reason ← policy.effectiveReason o.response
    if fallback.onEmptyReason.any (· = reason.value) then
      some { providerId := provider.id, emptyReason := some reason, errorClass := none }
    else none
  | .error f =>
    if fallbackErrorClasses.contains f.class_ then
      some { providerId := provider.id, emptyReason := none, errorClass := some f.class_ }
    else none

end FallbackPolicy

/-! ### The walk -/

/-- Everything a chain walk needs that is not the request itself. -/
structure ChainCtx where
  cache : CacheCall
  retry : RetryPolicy
  limiter : Bool
  emptyPolicy : EmptyPolicy
  fallback : FallbackPolicy
  includeRaw : Bool
  hasLatencyAssert : Bool

/-- One link's call and identity. -/
structure LinkAttempt where
  provider : Provider
  providerDigest : Option Digest
  request : Option Json
  outcome : Except CallFailure CallOutcome

/-- How a chain settled. -/
structure ChainOutcome where
  answeredBy : Provider
  providerDigest : Option Digest
  request : Option Json
  outcome : Except CallFailure CallOutcome
  attempted : List FallbackAttempt

/-- What a walk asks: whether the run was aborted, and one call of one link. -/
inductive ChainCmd where
  | abortReason
  | callLink (provider : Provider) (req : ProviderRequest) (cache : CacheCall)

/-- The answers to `ChainCmd`. -/
abbrev ChainRes : ChainCmd → Type
  | .abortReason => Option String
  | .callLink _ _ _ => Except CallFailure CallOutcome

/-- A program of the walk. -/
abbrev Walk (α : Type) := Program ChainCmd ChainRes α

/-- One thing a walk did, with its answer. -/
abbrev ChainEvent := Event ChainRes

/-- What is known of a link once it has been called. -/
def linkAttempt (chain : ChainCtx) (req : ProviderRequest) (provider : Provider)
    (outcome : Except CallFailure CallOutcome) : LinkAttempt :=
  { provider
    providerDigest := some (providerDigest provider.fingerprint)
    request := if chain.includeRaw then provider.requestPreview req else none
    outcome }

/-- The chain's outcome, from the link it settled on. -/
def LinkAttempt.settle (attempt : LinkAttempt) (attempted : List FallbackAttempt) :
    ChainOutcome :=
  { answeredBy := attempt.provider
    providerDigest := attempt.providerDigest
    request := attempt.request
    outcome := attempt.outcome
    attempted }

/-- Whether the flag is seen set; it is not read before the primary is called. -/
def abortSeen (i : ℕ) : Walk Bool :=
  if 0 < i then do
    let reason ← (Program.call ChainCmd.abortReason : Walk (Option String))
    return reason.isSome
  else .ret false

/-- The end of a walk at link `i`: the primary when a later link did not improve on it,
else this link with the hand-offs before it. -/
def settleAt (i : ℕ) (primaryAttempt : Option LinkAttempt) (attempt : LinkAttempt)
    (triggered : Bool) (attempted : List FallbackAttempt) : ChainOutcome :=
  let failed := match attempt.outcome with
    | .ok _ => false
    | .error _ => true
  let neverImproved := 0 < i ∧ (failed || triggered) = true
  match primaryAttempt with
  | some p => if neverImproved then p.settle [] else attempt.settle attempted
  | none => attempt.settle attempted

/-- The loop of `call_chain` from link `i` on.  `multi` says that the chain has more than
one link.  `none` stands for the branch the source marks unreachable. -/
def walkLinks (chain : ChainCtx) (req : ProviderRequest) (multi : Bool) :
    ℕ → Option LinkAttempt → List FallbackAttempt → List Provider → Walk (Option ChainOutcome)
  | _, primaryAttempt, _, [] => .ret (primaryAttempt.map (·.settle []))
  | i, primaryAttempt, attempted, provider :: rest => do
    if ← abortSeen i then
      return primaryAttempt.map (·.settle [])
    else
      let outcome ← (Program.call (ChainCmd.callLink provider req
        { chain.cache with probeLegacy := i = 0 }) : Walk (Except CallFailure CallOutcome))
      let attempt := linkAttempt chain req provider outcome
      let handoff := if multi then
          chain.fallback.handOff chain.emptyPolicy provider outcome
        else none
      match (if rest.isEmpty then none else handoff) with
      | some record =>
        walkLinks chain req multi (i + 1) (if i = 0 then some attempt else primaryAttempt)
          (attempted ++ [record]) rest
      | none => return some (settleAt i primaryAttempt attempt handoff.isSome attempted)

/-- Whether the chain may be walked at all. -/
def mayWalk (fallbacks : List Provider) (chain : ChainCtx) : Bool :=
  chain.fallback.enabled && !fallbacks.isEmpty && chain.cache.mode ≠ .readOnlyStrict &&
    !chain.hasLatencyAssert

/-- `call_chain`, over the outcomes of its links. -/
def chainOfLinks (primary : Provider) (fallbacks : List Provider) (req : ProviderRequest)
    (chain : ChainCtx) : Walk (Option ChainOutcome) :=
  let links := if mayWalk fallbacks chain then primary :: fallbacks else [primary]
  walkLinks chain req (1 < links.length) 0 none [] links

/-- How the commands of a walk are carried out. -/
def carryOut (chain : ChainCtx) : (c : ChainCmd) → Run (ChainRes c)
  | .abortReason => Run.abortReason
  | .callLink provider req cache => callWithCache provider req cache chain.retry chain.limiter

/-- `call_chain`. -/
def callChain (primary : Provider) (fallbacks : List Provider) (req : ProviderRequest)
    (chain : ChainCtx) : Run (Option ChainOutcome) :=
  (chainOfLinks primary fallbacks req chain).interp (carryOut chain)

/-! ### What a walk called -/

/-- The links a trace called, in order, with their outcomes. -/
def calledLinks : List ChainEvent → List (Provider × Except CallFailure CallOutcome)
  | [] => []
  | ⟨.abortReason, _⟩ :: tr => calledLinks tr
  | ⟨.callLink provider _ _, outcome⟩ :: tr => (provider, outcome) :: calledLinks tr

/-- The trace saw the abort flag set. -/
def SawAbort (tr : List ChainEvent) : Prop :=
  ∃ reason, (⟨.abortReason, some reason⟩ : ChainEvent) ∈ tr

section
variable (chain : ChainCtx) (req : ProviderRequest)

/-- What a called link hands off. -/
def handOffOf (called : Provider × Except CallFailure CallOutcome) : Option FallbackAttempt :=
  chain.fallback.handOff chain.emptyPolicy called.1 called.2

/-- The chain reports its first link: its outcome, digest and request, nothing passed
over. -/
def Reports (calls : List (Provider × Except CallFailure CallOutcome)) (out : ChainOutcome) :
    Prop :=
  ∃ first ∈ calls.head?, out = (linkAttempt chain req first.1 first.2).settle []

/-- Link `k` answered: its outcome is `Ok` and no reason to hand off. -/
def Answered (calls : List (Provider × Except CallFailure CallOutcome)) (k : ℕ) : Prop :=
  ∃ provider answer, calls[k]? = some (provider, .ok answer) ∧
    handOffOf chain (provider, .ok answer) = none

/-- The chain settles on link `k`, past the first: it answered, and every link before it
handed off, which is what was recorded, in order. -/
def Settles (calls : List (Provider × Except CallFailure CallOutcome)) (k : ℕ)
    (out : ChainOutcome) : Prop :=
  0 < k ∧ Answered chain calls k ∧
    (∃ called, calls[k]? = some called ∧
      out = (linkAttempt chain req called.1 called.2).settle out.attempted) ∧
    (calls.take k).map (handOffOf chain) = out.attempted.map some

/-- How a walk may end, after the calls it made. -/
structure WalkEnds (calls : List (Provider × Except CallFailure CallOutcome)) (aborted : Prop)
    (out : ChainOutcome) : Prop where
  ends : Reports chain req calls out ∨ ∃ k, Settles chain req calls k out
  unanswered : (∀ k, 0 < k → ¬ Answered chain calls k) → Reports chain req calls out
  abort : aborted → Reports chain req calls out

variable {chain req}

theorem WalkEnds.of_reports {calls : List (Provider × Except CallFailure CallOutcome)}
    {aborted : Prop} {out : ChainOutcome} (h : Reports chain req calls out) :
    WalkEnds chain req calls aborted out :=
  ⟨.inl h, fun _ => h, fun _ => h⟩

/-- The end of a walk at link `i`, when every link before it handed off. -/
theorem settleAt_ends (req : ProviderRequest) (provider : Provider)
    (outcome : Except CallFailure CallOutcome)
    {done : List (Provider × Except CallFailure CallOutcome)}
    {attempted : List FallbackAttempt} {multi : Bool}
    (hdone : done.map (handOffOf chain) = attempted.map some)
    (hmulti : done ≠ [] → multi = true) :
    WalkEnds chain req (done ++ [(provider, outcome)]) False
      (settleAt done.length (done.head?.map fun c => linkAttempt chain req c.1 c.2)
        (linkAttempt chain req provider outcome)
        (if multi then handOffOf chain (provider, outcome) else none).isSome attempted) := by
  rcases done with _ | ⟨first, done⟩
  · -- the primary settled: nothing was passed over
    obtain rfl : attempted = [] := by simpa using hdone.symm
    exact .of_reports ⟨(provider, outcome), rfl, rfl⟩
  · have hm : multi = true := hmulti (by simp)
    simp only [hm, if_true, List.head?_cons, Option.map_some, settleAt, linkAttempt]
    by_cases hbad : (∃ f, outcome = .error f) ∨ (handOffOf chain (provider, outcome)).isSome
    · -- not an improvement: the primary is reported
      rw [if_pos ?_]
      · exact .of_reports ⟨first, by simp, rfl⟩
      · refine ⟨by simp, ?_⟩
        rcases hbad with ⟨f, rfl⟩ | hsome
        · rfl
        · rw [hsome, Bool.or_true]
    · rw [not_or, not_exists, Bool.not_eq_true, Option.isSome_eq_false_iff,
        Option.isNone_iff_eq_none] at hbad
      obtain ⟨hok, hnone⟩ := hbad
      -- a later link answered for good: the chain up to it is the record
      rcases outcome with f | answer
      · exact absurd rfl (hok f)
      · rw [hnone, if_neg (by simp)]
        have hget : (first :: done ++ [(provider, Except.ok answer)])[(first :: done).length]?
            = some (provider, .ok answer) := by
          rw [List.getElem?_append_right (Nat.le_refl _)]
          simp
        have hans : Answered chain (first :: done ++ [(provider, .ok answer)])
            (first :: done).length := ⟨provider, answer, hget, hnone⟩
        refine ⟨.inr ⟨(first :: done).length, by simp, hans, ⟨_, hget, rfl⟩, ?_⟩, fun h => ?_,
          fun h => h.elim⟩
        · rw [List.take_left' rfl]
          exact hdone
        · exact absurd hans (h _ (by simp))

/-- A run of `abortSeen` reads the flag at most once, and tells what it read. -/
theorem runs_abortSeen {i : ℕ} {tr : List ChainEvent} {seen : Bool}
    (h : Runs (abortSeen i) tr seen) :
    calledLinks tr = [] ∧ (seen = true → 0 < i) ∧ (SawAbort tr ↔ seen = true) := by
  unfold abortSeen at h
  split_ifs at h with hi
  · obtain ⟨reason, t, rfl, hret⟩ := runs_call_bind.mp h
    obtain ⟨rfl, rfl⟩ := runs_ret.mp hret
    refine ⟨rfl, fun _ => hi, ?_⟩
    cases reason <;> simp [SawAbort]
  · obtain ⟨rfl, rfl⟩ := runs_ret.mp h
    simp [SawAbort, calledLinks]

theorem calledLinks_append (t₁ t₂ : List ChainEvent) :
    calledLinks (t₁ ++ t₂) = calledLinks t₁ ++ calledLinks t₂ := by
  induction t₁ with
  | nil => rfl
  | cons e t₁ ih =>
    obtain ⟨c, r⟩ := e
    cases c <;> simp [calledLinks, ih]

theorem sawAbort_append {t₁ t₂ : List ChainEvent} :
    SawAbort (t₁ ++ t₂) ↔ SawAbort t₁ ∨ SawAbort t₂ := by
  simp only [SawAbort, List.mem_append, exists_or]

theorem sawAbort_callLink {provider : Provider} {req : ProviderRequest} {cache : CacheCall}
    {outcome : Except CallFailure CallOutcome} {tr : List ChainEvent} :
    SawAbort (⟨.callLink provider req cache, outcome⟩ :: tr) ↔ SawAbort tr := by
  simp [SawAbort]

/-- **The loop**: after calls that all handed off, a walk calls a prefix of the links that
are left and ends as a walk may.  By induction on the links left. -/
theorem walkLinks_ends (multi : Bool) : ∀ (links : List Provider)
    (done : List (Provider × Except CallFailure CallOutcome)) (attempted : List FallbackAttempt)
    (tr : List ChainEvent) (res : Option ChainOutcome),
    done.map (handOffOf chain) = attempted.map some → (done ≠ [] → multi = true) → links ≠ [] →
    Runs (walkLinks chain req multi done.length
      (done.head?.map fun c => linkAttempt chain req c.1 c.2) attempted links) tr res →
    ∃ out, res = some out ∧ (calledLinks tr).map Prod.fst <+: links ∧
      WalkEnds chain req (done ++ calledLinks tr) (SawAbort tr) out := by
  intro links
  induction links with
  | nil =>
    intro done attempted tr res _ _ hne
    exact absurd rfl hne
  | cons provider rest ih =>
    intro done attempted tr res hdone hmulti _ h
    unfold walkLinks at h
    obtain ⟨t₀, seen, t, rfl, hseen, hrest⟩ := runs_bind.mp h
    obtain ⟨hcalls₀, hpos, hsaw⟩ := runs_abortSeen hseen
    rw [calledLinks_append, hcalls₀, List.nil_append]
    cases seen with
    | true =>
      -- the flag is set: the walk stops, with the primary's outcome
      obtain ⟨rfl, rfl⟩ := runs_ret.mp hrest
      rcases done with _ | ⟨first, done⟩
      · exact absurd (hpos rfl) (by simp)
      · exact ⟨_, rfl, List.nil_prefix, .of_reports ⟨first, by simp, rfl⟩⟩
    | false =>
      obtain ⟨outcome, t', rfl, hlink⟩ := runs_call_bind.mp hrest
      have habort : SawAbort (t₀ ++ ⟨.callLink provider req
          { chain.cache with probeLegacy := done.length = 0 }, outcome⟩ :: t') ↔ SawAbort t' := by
        rw [sawAbort_append, hsaw, sawAbort_callLink]
        simp
      rw [calledLinks]
      dsimp only at hlink
      split at hlink
      case h_1 record hrecord =>
        -- the link handed off, and there is a next one
        have hrest : rest ≠ [] := by
          rintro rfl
          simp at hrecord
        have hoff : multi = true ∧ handOffOf chain (provider, outcome) = some record := by
          rw [if_neg (by simpa using hrest)] at hrecord
          cases multi
          · simp at hrecord
          · exact ⟨rfl, hrecord⟩
        have hrun : Runs (walkLinks chain req multi (done ++ [(provider, outcome)]).length
            ((done ++ [(provider, outcome)]).head?.map fun c => linkAttempt chain req c.1 c.2)
            (attempted ++ [record]) rest) t' res := by
          rcases done with _ | ⟨first, done⟩
          · exact hlink
          · simpa using hlink
        obtain ⟨out, hres, hpre, hends⟩ := ih _ _ _ _
          (by rw [List.map_append, List.map_append, hdone, List.map_singleton, hoff.2]; rfl)
          (fun _ => hoff.1) hrest hrun
        refine ⟨out, hres, ?_, ?_⟩
        · rw [List.map_cons]
          exact (List.prefix_cons_inj provider).mpr hpre
        · rw [List.append_assoc, List.singleton_append] at hends
          exact ⟨hends.ends, hends.unanswered, fun h => hends.abort (habort.mp h)⟩
      case h_2 =>
        -- the chain settled here
        obtain ⟨rfl, rfl⟩ := runs_ret.mp hlink
        refine ⟨_, rfl, ?_, ?_⟩
        · simp [calledLinks]
        · have hends := settleAt_ends req provider outcome hdone hmulti
          refine ⟨hends.ends, hends.unanswered, fun h => ?_⟩
          exact absurd (habort.mp h) (by simp [SawAbort])

/-- A walk starts at the primary and ends as a walk may; when it may not walk at all, it
calls the primary alone. -/
theorem chainOfLinks_ends {primary : Provider} {fallbacks : List Provider}
    {tr : List ChainEvent} {res : Option ChainOutcome}
    (h : Runs (chainOfLinks primary fallbacks req chain) tr res) :
    ∃ out, res = some out ∧ (calledLinks tr).map Prod.fst <+: primary :: fallbacks ∧
      WalkEnds chain req (calledLinks tr) (SawAbort tr) out ∧
      (mayWalk fallbacks chain = false → Reports chain req (calledLinks tr) out) := by
  unfold chainOfLinks at h
  obtain ⟨out, hres, hpre, hends⟩ := walkLinks_ends _ _ [] [] tr res rfl (fun h => absurd rfl h)
    (by split_ifs <;> simp) h
  rw [List.nil_append] at hends
  refine ⟨out, hres, hpre.trans ?_, hends, fun hno => ?_⟩
  · split_ifs
    · exact List.prefix_rfl
    · exact (List.prefix_cons_inj primary).mpr List.nil_prefix
  · rw [if_neg (by simp [hno])] at hpre
    refine hends.unanswered fun k hk ⟨provider, answer, hget, _⟩ => ?_
    have hlen := hpre.length_le
    have := (List.getElem?_eq_some_iff.mp hget).1
    simp only [List.length_map, List.length_singleton] at hlen
    omega

/-- The walk is off in the strict mode, for a latency-asserted cell and when fallbacks are
disabled. -/
theorem mayWalk_false {fallbacks : List Provider} (h : chain.cache.mode = .readOnlyStrict ∨
    chain.hasLatencyAssert = true ∨ chain.fallback.enabled = false) :
    mayWalk fallbacks chain = false := by
  rcases h with h | h | h <;> simp [mayWalk, h]

end

/-! ### A fallback never makes a case worse -/

/-- **A chain never makes a case worse than no fallback.**  Whatever the links answer and
whenever the flag is raised, the walk calls the primary and then fallbacks in their order,
and either reports the primary's own outcome with nothing passed over, or settles on a later
link that answered, with the hand-offs of exactly the links before it.  It reports the
primary whenever no later link answered, whenever the walk is off, and whenever the flag was
seen set. -/
theorem chain_never_worse (primary : Provider) (fallbacks : List Provider)
    (req : ProviderRequest) (chain : ChainCtx) (tr : List ChainEvent)
    (res : Option ChainOutcome) (h : Runs (chainOfLinks primary fallbacks req chain) tr res) :
    ∃ out, res = some out ∧ (calledLinks tr).map Prod.fst <+: primary :: fallbacks ∧
      (Reports chain req (calledLinks tr) out ∨ ∃ k, Settles chain req (calledLinks tr) k out) ∧
      ((∀ k, 0 < k → ¬ Answered chain (calledLinks tr) k) →
        Reports chain req (calledLinks tr) out) ∧
      (chain.cache.mode = .readOnlyStrict ∨ chain.hasLatencyAssert = true ∨
        chain.fallback.enabled = false → Reports chain req (calledLinks tr) out) ∧
      (SawAbort tr → Reports chain req (calledLinks tr) out) := by
  obtain ⟨out, hres, hpre, hends, hoff⟩ := chainOfLinks_ends h
  exact ⟨out, hres, hpre, hends.ends, hends.unanswered, fun hw => hoff (mayWalk_false hw),
    hends.abort⟩

/-- A link that will refuse. -/
def refusingLink : Provider := .withDefaults "a" (.obj [("type", .str "openai")])

/-- A link that will fail with a class that is no trigger. -/
def brokenLink : Provider := .withDefaults "b" (.obj [("type", .str "anthropic")])

/-- A walk with the built-in triggers. -/
def defaultChain : ChainCtx :=
  { cache := ⟨.readWrite, 0, .default, true⟩, retry := .default, limiter := false
    emptyPolicy := .default, fallback := .default, includeRaw := true, hasLatencyAssert := false }

/-- The answers of the links: a refusal, then a malformed request. -/
def refusalThenError : Unit → (c : ChainCmd) → ChainRes c × Unit
  | _, .abortReason => (none, ())
  | _, .callLink provider _ _ =>
    (if provider.id = "a" then
      .ok { response := { ProviderResponse.ofText "" with emptyReason := some .refusal }
            cached := false, attempts := some 1, providerLatencyMs := some 5, cacheKey := none }
    else .error (.beforeAnyAttempt .providerRequest "provider error: bad request"), ())

/-- A middle link that fails does not hide the primary's refusal. -/
theorem middle_error_reports_primary : ∃ tr res,
    Runs (chainOfLinks refusingLink [brokenLink, refusingLink] .default defaultChain) tr res ∧
      ∃ out, res = some out ∧ out.answeredBy = refusingLink ∧ out.attempted = [] := by
  obtain ⟨out, hres, -, -, hnone, -, -⟩ := chain_never_worse refusingLink
    [brokenLink, refusingLink] .default defaultChain _ _ (runs_exec refusalThenError _ ())
  refine ⟨_, _, runs_exec refusalThenError _ (), out, hres, ?_⟩
  obtain ⟨first, hfirst, rfl⟩ := hnone fun k hk ⟨provider, answer, hget, _⟩ => by
    rcases k with _ | _ | k
    · exact absurd hk (by simp)
    · change some (brokenLink, Except.error _) = _ at hget
      simp at hget
    · change ([] : List _)[k]? = _ at hget
      simp at hget
  obtain rfl : first = (refusingLink, _) := (Option.some.inj hfirst).symm
  exact ⟨rfl, rfl⟩

/-- **The runs of `call_chain`** are the runs of the walk, each link call expanded into a
run of `call_with_cache`; so a chain always returns, and ends as a walk may. -/
theorem callChain_runs {primary : Provider} {fallbacks : List Provider} {req : ProviderRequest}
    {chain : ChainCtx} {tr : List RunEvent} {res : Option ChainOutcome}
    (h : Runs (callChain primary fallbacks req chain) tr res) :
    ∃ links out, Expands (carryOut chain) links tr ∧ res = some out ∧
      WalkEnds chain req (calledLinks links) (SawAbort links) out := by
  obtain ⟨links, hrun, hexp⟩ := runs_interp.mp h
  obtain ⟨out, hres, -, hends, -⟩ := chainOfLinks_ends hrun
  exact ⟨links, out, hexp, hres, hends⟩
