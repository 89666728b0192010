/-
What an exchange stores it can read back.

`ExchangeSound` is the promise for one run of `cachedExchange`, whatever the parser, the
store, the grader and the bound on asking again:

* the grader is asked at most once more than the bound;
* a written entry serves, and without an adopted verdict by a payload that parses;
* an error is the grader's, the parser's about a live payload, or the strict miss: no
  entry on file is an error;
* what is served from the store is what the entry that was read serves.

An entry serves the verdict it carries before it serves its payload, so a hit is not
always the stored payload, parsed: **`adopted_verdict_outranks_payload`**.
**`cachedExchange_sound`** is the promise with the verdict named.
-/
import Domarinn.CacheModes

open Program

section
variable {T : Type} {parse : Json → Except GraderError T}

/-! ### What an entry serves -/

/-- The parser reads the payload of `entry`, giving `value`. -/
def ParsesTo (parse : Json → Except GraderError T) (entry : CacheEntry) (value : T) : Prop :=
  ∃ payload, entry.raw = some payload ∧ parse payload = .ok value

/-- An entry serves the verdict it carries, or else the value its payload parses to, at
the cost it recorded. -/
theorem serve_eq_some_iff {entry : CacheEntry} {served : Served T} :
    serve parse entry = some served ↔
      (∃ verdict, entry.verdict = some verdict ∧ served = .verdict (gradedOf entry verdict)) ∨
        (entry.verdict = none ∧ ∃ value, ParsesTo parse entry value ∧
          served = .parsed value true entry.costUsd) := by
  unfold serve ParsesTo
  cases hv : entry.verdict with
  | some verdict => simp [eq_comm]
  | none =>
    cases hr : entry.raw with
    | none => simp
    | some payload => cases hp : parse payload <;> simp [hp, eq_comm]

/-- The entries that serve nothing: no verdict, and no payload the parser accepts. -/
theorem serve_eq_none_iff {entry : CacheEntry} :
    serve parse entry = none ↔ entry.verdict = none ∧ ∀ value, ¬ ParsesTo parse entry value := by
  constructor
  · intro h
    have hnot : ∀ served, serve parse entry ≠ some served := by simp [h]
    refine ⟨?_, fun value hvalue => ?_⟩
    · by_contra hv
      obtain ⟨verdict, hv⟩ := Option.ne_none_iff_exists'.mp hv
      exact hnot _ (serve_eq_some_iff.mpr (.inl ⟨verdict, hv, rfl⟩))
    · cases hv : entry.verdict with
      | some verdict => exact hnot _ (serve_eq_some_iff.mpr (.inl ⟨verdict, hv, rfl⟩))
      | none => exact hnot _ (serve_eq_some_iff.mpr (.inr ⟨hv, value, hvalue, rfl⟩))
  · rintro ⟨hv, hnone⟩
    by_contra h
    obtain ⟨served, h⟩ := Option.ne_none_iff_exists'.mp h
    rcases serve_eq_some_iff.mp h with ⟨verdict, hv', -⟩ | ⟨-, value, hvalue, -⟩
    · rw [hv] at hv'
      cases hv'
    · exact hnone value hvalue

/-- Provenance does not change what an entry serves. -/
theorem serve_refiled {found entry : CacheEntry} (h : RefiledFrom found entry) :
    serve parse entry = serve parse found := by
  obtain ⟨request, kind, rfl⟩ := h
  rfl

/-! ### The promise -/

/-- The live calls of a trace. -/
def liveCalls (tr : List RunEvent) : ℕ := tr.countP fun e => e.1.isLive

/-- What a run of an exchange promises; `refused` are the errors of a strict miss. -/
structure ExchangeSound (parse : Json → Except GraderError T) (reasks : ℕ) (canonical : Json)
    (refused : GraderError → Prop) (tr : List RunEvent) (res : Except GraderError (Served T)) :
    Prop where
  asks : liveCalls tr ≤ reasks + 1
  stores : ∀ k entry r, (⟨.put k entry, r⟩ : RunEvent) ∈ tr →
    entry.verdict.isSome ∨ ∃ value, ParsesTo parse entry value
  errors : ∀ e, res = .error e → refused e ∨
    ∃ answer, (⟨.askGrader canonical, answer⟩ : RunEvent) ∈ tr ∧ usable parse answer = .error e
  verdicts : ∀ graded, res = .ok (.verdict graded) → ∃ k entry verdict,
    (⟨.get k, .ok (some entry)⟩ : RunEvent) ∈ tr ∧ entry.verdict = some verdict ∧
      graded = gradedOf entry verdict
  hits : ∀ value cost, res = .ok (.parsed value true cost) → ∃ k entry,
    (⟨.get k, .ok (some entry)⟩ : RunEvent) ∈ tr ∧ entry.verdict = none ∧
      ParsesTo parse entry value ∧ cost = entry.costUsd
  fresh : ∀ value cost, res = .ok (.parsed value false cost) → ∃ payload,
    (⟨.askGrader canonical, .ok payload⟩ : RunEvent) ∈ tr ∧ parse payload = .ok value

variable {info : T → EntryMeta} {strictMiss : CacheKey → GraderError} {reasks : ℕ}
  {cache : RequestCache} {exchange : Exchange} {refused : GraderError → Prop}
  {tr : List RunEvent} {res : Except GraderError (Served T)}

theorem liveCalls_append (t₁ t₂ : List RunEvent) :
    liveCalls (t₁ ++ t₂) = liveCalls t₁ + liveCalls t₂ := by
  simp [liveCalls, List.countP_append]

theorem liveCalls_of_quiet (h : ∀ e ∈ tr, e.1.isLive = false) : liveCalls tr = 0 := by
  rw [liveCalls, List.countP_eq_zero]
  exact fun e he => by simp [h e he]

/-- Reads before the rest change nothing of the promise. -/
theorem ExchangeSound.prepend {t : List RunEvent} {canonical : Json}
    (ht : ∀ e ∈ t, e.1.isPut = false ∧ e.1.isLive = false)
    (h : ExchangeSound parse reasks canonical refused tr res) :
    ExchangeSound parse reasks canonical refused (t ++ tr) res := by
  refine ⟨?_, fun k entry r hput => ?_, fun e he => ?_, fun graded hres => ?_,
    fun value cost hres => ?_, fun value cost hres => ?_⟩
  · rw [liveCalls_append, liveCalls_of_quiet fun e he => (ht e he).2, Nat.zero_add]
    exact h.asks
  · refine (List.mem_append.mp hput).elim (fun hmem => ?_) (h.stores k entry r)
    exact absurd (ht _ hmem).1 (by simp [RunCmd.isPut])
  · refine (h.errors e he).imp id ?_
    rintro ⟨answer, hmem, hans⟩
    exact ⟨answer, List.mem_append_right _ hmem, hans⟩
  · obtain ⟨k, entry, verdict, hmem, hrest⟩ := h.verdicts graded hres
    exact ⟨k, entry, verdict, List.mem_append_right _ hmem, hrest⟩
  · obtain ⟨k, entry, hmem, hrest⟩ := h.hits value cost hres
    exact ⟨k, entry, List.mem_append_right _ hmem, hrest⟩
  · obtain ⟨payload, hmem, hparse⟩ := h.fresh value cost hres
    exact ⟨payload, List.mem_append_right _ hmem, hparse⟩

/-- A refusal: nothing was asked, nothing was written. -/
theorem ExchangeSound.of_refused {canonical : Json} {e : GraderError} (he : refused e) :
    ExchangeSound parse reasks canonical refused [] (.error e) := by
  refine ⟨by simp [liveCalls], by simp, ?_, ?_, ?_, ?_⟩
  · rintro e' h
    cases h
    exact .inl he
  all_goals simp

/-- What an entry that was read serves is returned, and the entry may be filed again. -/
theorem ExchangeSound.of_served (key : CacheKey) {canonical : Json} {probes w : List RunEvent}
    {k : CacheKey} {found entry : CacheEntry} {served : Served T}
    (hprobes : ∀ e ∈ probes, e.1.isPut = false ∧ e.1.isLive = false)
    (hfound : (⟨.get k, .ok (some found)⟩ : RunEvent) ∈ probes)
    (hserve : serve parse found = some served) (hentry : RefiledFrom found entry)
    (hw : w = [] ∨ ∃ r, w = [⟨.put key entry, r⟩]) :
    ExchangeSound parse reasks canonical refused (probes ++ w) (.ok served) := by
  have hmem : (⟨.get k, .ok (some found)⟩ : RunEvent) ∈ probes ++ w :=
    List.mem_append_left _ hfound
  have hserve' := serve_eq_some_iff.mp hserve
  refine ⟨?_, fun k' entry' r hput => ?_, by simp, fun graded hres => ?_,
    fun value cost hres => ?_, fun value cost hres => ?_⟩
  · -- neither the look-ups nor the write is a live call
    rw [liveCalls_append, liveCalls_of_quiet fun e he => (hprobes e he).2]
    rcases hw with rfl | ⟨r, rfl⟩ <;> simp [liveCalls, RunCmd.isLive]
  · rcases List.mem_append.mp hput with hput | hput
    · exact absurd (hprobes _ hput).1 (by simp [RunCmd.isPut])
    · rcases hw with rfl | ⟨r', rfl⟩
      · simp at hput
      · rw [List.mem_singleton] at hput
        cases hput
        -- what is filed again serves as what was found
        rw [← serve_refiled hentry] at hserve
        rcases serve_eq_some_iff.mp hserve with ⟨verdict, hv, -⟩ | ⟨-, value, hvalue, -⟩
        · exact .inl (by simp [hv])
        · exact .inr ⟨value, hvalue⟩
  -- a served verdict was recorded in the entry that was found
  · cases hres
    rcases hserve' with ⟨verdict, hv, heq⟩ | ⟨-, value, -, heq⟩
    · cases heq
      exact ⟨k, found, verdict, hmem, hv, rfl⟩
    · cases heq
  · cases hres
    rcases hserve' with ⟨verdict, -, heq⟩ | ⟨hv, value', hvalue, heq⟩
    · cases heq
    · cases heq
      exact ⟨k, found, hmem, hv, hvalue, rfl⟩
  · cases hres
    rcases hserve' with ⟨verdict, -, heq⟩ | ⟨-, value', -, heq⟩ <;> cases heq

/-! ### Asking live -/

/-- Asking live asks at most once more than it may, and its error is about the last
answer.  By induction on the times the caller may still ask. -/
theorem askLive_bounded (parse : Json → Except GraderError T) (canonical : Json) :
    ∀ reasks, Holds (askLive parse canonical reasks) fun tr result =>
      tr.length ≤ reasks + 1 ∧ ∀ e, result = .error e →
        ∃ answer, (⟨.askGrader canonical, answer⟩ : RunEvent) ∈ tr ∧
          usable parse answer = .error e := by
  intro reasks
  induction reasks with
  | zero =>
    unfold askLive
    exact holds_call_bind fun answer =>
      holds_ret ⟨by simp, fun e he => ⟨answer, by simp, he⟩⟩
  | succ reasks ih =>
    unfold askLive
    refine holds_call_bind fun answer => ?_
    cases hu : usable parse answer with
    | ok x => exact holds_ret ⟨by simp, by simp⟩
    | error e =>
      dsimp only
      -- a failure that a second sample cannot fix is not asked again
      split_ifs
      · refine ih.mono fun t result h => ⟨?_, fun e' he' => ?_⟩
        · have := h.1
          rw [List.length_cons]
          omega
        · obtain ⟨answer', hmem, hans⟩ := h.2 e' he'
          exact ⟨answer', List.mem_cons_of_mem _ hmem, hans⟩
      · refine holds_ret ⟨by simp, fun e' he' => ⟨answer, by simp, ?_⟩⟩
        rw [hu, he']

/-- Asking live, and then at most a write of what was answered. -/
theorem ExchangeSound.of_asked (info : T → EntryMeta) (key : CacheKey) {asks w : List RunEvent}
    {result : Except GraderError (Json × T)}
    (hasks : Runs (askLive parse exchange.canonical reasks) asks result)
    (hw : match result with
      | .error e => w = [] ∧ res = .error e
      | .ok (payload, value) => res = .ok (.parsed value false none) ∧
          (w = [] ∨ ∃ r, w = [⟨.put key (freshEntry exchange.canonical exchange.kind payload
            (info value)), r⟩])) :
    ExchangeSound parse reasks exchange.canonical refused (asks ++ w) res := by
  have hrun := askLive_run _ _ _ _ _ hasks
  obtain ⟨hlen, herr⟩ := askLive_bounded _ _ _ _ _ hasks
  have hcount : liveCalls asks ≤ reasks + 1 := List.countP_le_length.trans hlen
  -- a failed exchange writes nothing and returns the error of its last answer
  rcases result with e | ⟨payload, value⟩
  · obtain ⟨rfl, rfl⟩ := hw
    rw [List.append_nil]
    refine ⟨hcount, fun k entry r hput => ?_, fun e' he' => ?_, by simp, by simp, by simp⟩
    · exact absurd (hrun.quiet _ hput).2 (by simp [RunCmd.isPut])
    · cases he'
      exact .inr (herr e rfl)
  · obtain ⟨rfl, hw⟩ := hw
    obtain ⟨hparse, hmem⟩ := hrun.answered payload value rfl
    refine ⟨?_, fun k entry r hput => ?_, by simp, by simp, by simp, ?_⟩
    · rw [liveCalls_append]
      rcases hw with rfl | ⟨r, rfl⟩ <;> simpa [liveCalls, RunCmd.isLive] using hcount
    · rcases List.mem_append.mp hput with hput | hput
      · exact absurd (hrun.quiet _ hput).2 (by simp [RunCmd.isPut])
      · rcases hw with rfl | ⟨r', rfl⟩
        · simp at hput
        · -- the write-back stores the payload that was just parsed
          rw [List.mem_singleton] at hput
          cases hput
          exact .inr ⟨value, payload, rfl, hparse⟩
    · rintro value' cost hres
      cases hres
      exact ⟨payload, List.mem_append_left _ hmem, hparse⟩

theorem exchangeLive_sound
    (h : Runs (exchangeLive parse info reasks cache exchange) tr res) :
    ExchangeSound parse reasks exchange.canonical refused tr res := by
  obtain ⟨asks, result, w, rfl, hasks, hw⟩ := runs_bind.mp h
  refine .of_asked info (exchangeKey cache exchange) hasks ?_
  rcases result with e | ⟨payload, value⟩
  · exact runs_ret.mp hw
  · obtain ⟨w₁, _, w₂, rfl, hfile, hret⟩ := runs_bind.mp hw
    obtain ⟨rfl, rfl⟩ := runs_ret.mp hret
    have hfile := runs_fileExchange.mp hfile
    rw [List.append_nil]
    split_ifs at hfile
    · exact ⟨rfl, .inr hfile⟩
    · exact ⟨rfl, .inl hfile⟩

/-! ### Runs -/

/-- A verdict under the frozen verdict key comes from an entry that carries it. -/
theorem adoptVerdict_carries :
    Holds (adoptVerdict cache exchange) fun _ found =>
      ∀ entry verdict, found = some (entry, verdict) → entry.verdict = some verdict := by
  unfold adoptVerdict
  cases exchange.legacy with
  | none => exact holds_ret (by simp)
  | some legacy =>
    refine holds_call_bind fun allowed => ?_
    cases allowed
    · exact holds_ret (by simp)
    · refine holds_call_bind fun answer => ?_
      -- only an entry with a verdict is adopted
      rcases answer with e | _ | entry
      · exact holds_ret (by simp)
      · exact holds_ret (by simp)
      · cases hv : entry.verdict with
        | none =>
          simp only [hv]
          exact holds_ret (by simp)
        | some verdict =>
          simp only [hv]
          refine holds_call_bind fun _ => holds_ret fun entry' verdict' heq => ?_
          cases heq
          exact hv

/-- Filing writes one entry or nothing. -/
theorem fileExchange_writes {key : CacheKey} {entry : CacheEntry} {w : List RunEvent}
    (h : Runs (fileExchange cache key entry) w ()) :
    w = [] ∨ ∃ r, w = [⟨.put key entry, r⟩] := by
  have hfile := runs_fileExchange.mp h
  split_ifs at hfile
  · exact .inr hfile
  · exact .inl hfile

/-- The errors of a strict miss under the key of this exchange. -/
def StrictRefusal (strictMiss : CacheKey → GraderError) (exchange : Exchange)
    (cache : Option RequestCache) (e : GraderError) : Prop :=
  ∃ c, cache = some c ∧ c.mode = .readOnlyStrict ∧ e = strictMiss (exchangeKey c exchange)

theorem exchangeUnserved_sound
    (h : Runs (exchangeUnserved parse info strictMiss reasks cache exchange) tr res) :
    ExchangeSound parse reasks exchange.canonical (StrictRefusal strictMiss exchange (some cache))
      tr res := by
  obtain ⟨probes, found, w, rfl, hprobes, hw⟩ := runs_bind.mp h
  obtain ⟨hevents, hfound⟩ := adoptVerdict_run _ _ hprobes
  have hquiet := fun e he => (hevents e he).quiet
  rcases found with _ | ⟨entry, verdict⟩
  · refine .prepend hquiet ?_
    dsimp only at hw
    split_ifs at hw with hm
    · obtain ⟨rfl, rfl⟩ := runs_ret.mp hw
      exact .of_refused ⟨cache, rfl, hm, rfl⟩
    · exact exchangeLive_sound hw
  · obtain ⟨w₁, _, w₂, rfl, hfile, hret⟩ := runs_bind.mp hw
    obtain ⟨rfl, rfl⟩ := runs_ret.mp hret
    rw [List.append_nil]
    obtain ⟨k, hk⟩ := hfound entry verdict rfl
    have hv := adoptVerdict_carries _ _ hprobes entry verdict rfl
    exact .of_served _ hquiet hk (serve_eq_some_iff.mpr (.inl ⟨verdict, hv, rfl⟩)) ⟨_, _, rfl⟩
      (fileExchange_writes hfile)

theorem exchangeOnMiss_sound
    (h : Runs (exchangeOnMiss parse info strictMiss reasks cache exchange) tr res) :
    ExchangeSound parse reasks exchange.canonical (StrictRefusal strictMiss exchange (some cache))
      tr res := by
  obtain ⟨probes, found, w, rfl, hprobes, hw⟩ := runs_bind.mp h
  have hprobed := holds_probeWithinBudget _ _ _ _ _ hprobes
  have hquiet := fun e he => (hprobed.only e he).quiet
  rcases found with _ | ⟨k, entry⟩
  · exact .prepend hquiet (exchangeUnserved_sound hw)
  · dsimp only at hw
    cases hs : serve parse entry with
    | none =>
      -- an earlier entry that does not serve is passed over
      rw [hs] at hw
      exact .prepend hquiet (exchangeUnserved_sound hw)
    | some served =>
      rw [hs] at hw
      obtain ⟨w₁, _, w₂, rfl, hfile, hret⟩ := runs_bind.mp hw
      obtain ⟨rfl, rfl⟩ := runs_ret.mp hret
      rw [List.append_nil]
      exact .of_served _ hquiet ((hprobed.hits k entry).mpr rfl) hs ⟨_, entry.kind, rfl⟩
        (fileExchange_writes hfile)

end

/-! ### The whole exchange -/

section
variable {T : Type} {parse : Json → Except GraderError T} {info : T → EntryMeta}
  {strictMiss : CacheKey → GraderError} {reasks : ℕ} {exchange : Exchange}

/-- **An entry that serves nothing is a miss**: what follows its read is what follows the
read of an absent key, run for run. -/
theorem cachedExchange_unreadable_iff {cache : RequestCache} {key : CacheKey} {entry : CacheEntry}
    {rest : List RunEvent} {res : Except GraderError (Served T)}
    (hserve : serve parse entry = none) :
    Runs (cachedExchange parse info strictMiss reasks (some cache) exchange)
        (⟨.get key, .ok (some entry)⟩ :: rest) res ↔
      Runs (cachedExchange parse info strictMiss reasks (some cache) exchange)
        (⟨.get key, .ok none⟩ :: rest) res := by
  have hread : ∀ answer : Except String (Option CacheEntry), servedBy parse answer = none →
      (Runs (cachedExchange parse info strictMiss reasks (some cache) exchange)
          (⟨.get key, answer⟩ :: rest) res ↔
        key = exchangeKey cache exchange ∧
          Runs (exchangeOnMiss parse info strictMiss reasks cache exchange) rest res) := by
    -- an answer that serves nothing goes on as a miss, whatever it was
    intro answer hnone
    refine runs_call_bind.trans ⟨?_, ?_⟩
    · rintro ⟨answer', rest', heq, hrun⟩
      cases heq
      rw [hnone] at hrun
      exact ⟨rfl, hrun⟩
    · rintro ⟨rfl, hrun⟩
      refine ⟨answer, rest, rfl, ?_⟩
      rw [hnone]
      exact hrun
  rw [hread _ (by exact hserve), hread _ rfl]

/-- The promise of `ExchangeSound` is kept with a cache and without one. -/
theorem cachedExchange_keeps {cache : Option RequestCache} {tr : List RunEvent}
    {res : Except GraderError (Served T)}
    (h : Runs (cachedExchange parse info strictMiss reasks cache exchange) tr res) :
    ExchangeSound parse reasks exchange.canonical (StrictRefusal strictMiss exchange cache)
      tr res := by
  cases cache with
  | none =>
    obtain ⟨asks, result, w, rfl, hasks, hw⟩ := runs_bind.mp h
    -- without a cache the answer is returned and nothing is kept, whatever the key
    refine .of_asked info (exchangeKey ⟨.disabled, 0⟩ exchange) hasks ?_
    rcases result with e | ⟨payload, value⟩
    · exact runs_ret.mp hw
    · obtain ⟨rfl, rfl⟩ := runs_ret.mp hw
      exact ⟨rfl, .inl rfl⟩
  | some cache =>
    obtain ⟨answer, rest, rfl, hrest⟩ := runs_call_bind.mp h
    cases hs : servedBy parse answer with
    | none =>
      rw [hs] at hrest
      have hread := (exchangeOnMiss_sound hrest).prepend
        (t := [⟨.get (exchangeKey cache exchange), answer⟩]) (by simp [RunCmd.isPut, RunCmd.isLive])
      exact hread
    | some served =>
      rw [hs] at hrest
      obtain ⟨rfl, rfl⟩ := runs_ret.mp hrest
      rcases answer with e | _ | entry
      · cases hs
      · cases hs
      · have hread : ExchangeSound parse reasks exchange.canonical
            (StrictRefusal strictMiss exchange (some cache))
            ([⟨.get (exchangeKey cache exchange), .ok (some entry)⟩] ++ []) (.ok served) :=
          .of_served (exchangeKey cache exchange) (by simp [RunCmd.isPut, RunCmd.isLive])
            List.mem_cons_self hs ⟨entry.request, entry.kind, rfl⟩ (.inl rfl)
        exact hread

/-- **An exchange stores only what it can read back**: every run keeps the promise, and a
run that reads an entry without a verdict whose payload the parser does not accept is, but
for that read, a run that found nothing. -/
theorem cachedExchange_sound {cache : Option RequestCache} {tr : List RunEvent}
    {res : Except GraderError (Served T)}
    (h : Runs (cachedExchange parse info strictMiss reasks cache exchange) tr res) :
    ExchangeSound parse reasks exchange.canonical (StrictRefusal strictMiss exchange cache)
        tr res ∧
      ∀ key entry rest, cache.isSome → tr = ⟨.get key, .ok (some entry)⟩ :: rest →
        entry.verdict = none → (∀ value, ¬ ParsesTo parse entry value) →
          Runs (cachedExchange parse info strictMiss reasks cache exchange)
            (⟨.get key, .ok none⟩ :: rest) res := by
  refine ⟨cachedExchange_keeps h, ?_⟩
  rintro key entry rest hc rfl hv hrejects
  obtain ⟨c, rfl⟩ := Option.isSome_iff_exists.mp hc
  exact (cachedExchange_unreadable_iff (serve_eq_none_iff.mpr ⟨hv, hrejects⟩)).mp h

end

/-! ### A judge that answers with a boolean -/

/-- A parser that accepts booleans. -/
def passJudge : Json → Except GraderError Bool
  | .bool pass => .ok pass
  | _ => .error (.invalidVerdict "not a boolean")

/-- A judge's exchange, without history. -/
def passExchange : Exchange :=
  { canonical := .null, kind := .judge, caseSalt := none, providerSalt := none
    legacy := none, legacyCanonical := [] }

def passMeta (_ : Bool) : EntryMeta := ⟨.text "", none, none, none⟩

def passMiss (_ : CacheKey) : GraderError := .cacheMiss "no verdict on file"

def passCache : RequestCache := ⟨.readWrite, 0⟩

/-- An entry with this payload. -/
def payloadEntry (payload : Json) : CacheEntry :=
  { CacheEntry.ofOutput (.text "") none with raw := some payload }

/-- The same, with the verdict of an old version beside the payload. -/
def verdictEntry (payload : Json) : CacheEntry :=
  { payloadEntry payload with verdict := some (.rubric 1 true "adopted") }

/-- A payload that does not parse is on file, the judge's first answer does not parse
either, and its second one is stored. -/
def reaskedTrace : List RunEvent :=
  [⟨.get (exchangeKey passCache passExchange), .ok (some (payloadEntry .null))⟩,
    ⟨.askGrader .null, .ok .null⟩, ⟨.askGrader .null, .ok (.bool true)⟩,
    ⟨.put (exchangeKey passCache passExchange)
      (freshEntry .null .judge (.bool true) (passMeta true)), .ok ()⟩]

theorem reasked_runs :
    Runs (cachedExchange passJudge passMeta passMiss maxReasks (some passCache) passExchange)
      reaskedTrace (.ok (.parsed true false none)) :=
  .ask _ (.ask _ (.ask _ (.ask _ (.ret _))))

theorem reasked_sound :
    ExchangeSound passJudge maxReasks .null (StrictRefusal passMiss passExchange (some passCache))
      reaskedTrace (.ok (.parsed true false none)) :=
  (cachedExchange_sound reasked_runs).1

/-- **A hit is not always the stored payload, parsed**: the payload says `false`, the
verdict an old version left beside it says `true`, and the verdict is served. -/
theorem adopted_verdict_outranks_payload :
    ¬ ∀ (key : CacheKey) (entry : CacheEntry) (res : Except GraderError (Served Bool)),
      Runs (cachedExchange passJudge passMeta passMiss maxReasks (some passCache) passExchange)
        [⟨.get key, .ok (some entry)⟩] res →
      ∃ value, ParsesTo passJudge entry value ∧ res = .ok (.parsed value true entry.costUsd) := by
  intro hclaim
  have hit : Runs
      (cachedExchange passJudge passMeta passMiss maxReasks (some passCache) passExchange)
      [⟨.get (exchangeKey passCache passExchange), .ok (some (verdictEntry (.bool false)))⟩]
      (.ok (.verdict (gradedOf (verdictEntry (.bool false)) (.rubric 1 true "adopted")))) :=
    .ask _ (.ret _)
  obtain ⟨value, -, hres⟩ := hclaim _ _ _ hit
  cases hres
