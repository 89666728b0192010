/-
Cache entries, cache modes, and the commands a run issues.

An entry is everything a replay needs, plus provenance.  What is not modelled is what
nothing here reads: the time an entry was written and the version that wrote it.

`RunCmd` is the alphabet of the modelled runner: reading and writing the store, the
shared migration budget, the rate limiter, the clock, a provider call, a grader exchange
and the run's abort flag.  A call is answered by its outcome and the time it took; a store operation by
its result or the text of its error.
-/
import Domarinn.CacheKey
import Domarinn.Program

open Json

/-! ### Verdicts -/

/-- A grading result before any threshold is applied. -/
inductive GradedVerdict where
  | rubric (score : ℚ) (pass : Bool) (reasoning : String)
  | similarity (cosine : ℚ)
  | exec (pass : Bool) (score : ℚ) (reason : String) (details : Option Json)
deriving DecidableEq

/-- A verdict, what producing it cost, and whether it was replayed. -/
structure Graded where
  verdict : GradedVerdict
  usage : Option TokenUsage
  costUsd : Option ℚ
  model : Option String
  cached : Bool
deriving DecidableEq

/-- A failed grading. -/
inductive GraderError where
  | unconfigured (kind : String)
  | unsupported (provider : String) (kind : String)
  | transport (message : String)
  | execFailed (message : String)
  | cacheMiss (message : String)
  | authRejected (status : ℕ)
  | truncatedVerdict (signal : String)
  | invalidVerdict (message : String)
  | misconfigured (message : String)
  | internal (message : String)
deriving DecidableEq

namespace GraderError

/-- The text of the error. -/
def display : GraderError → String
  | unconfigured kind => "no grader is configured for '" ++ kind ++ "' assertions in this suite"
  | unsupported provider kind => "grader provider type " ++ provider ++ " does not support " ++ kind
  | transport m => "grader transport: " ++ m
  | execFailed m => "exec assert failed: " ++ m
  | cacheMiss m => m
  | authRejected status => "grader credential rejected (HTTP " ++ status.repr ++ ")"
  | truncatedVerdict signal =>
    "verdict truncated (" ++ signal ++ "); raise the grader's max_tokens"
  | invalidVerdict m => "grader returned no usable verdict: " ++ m
  | misconfigured m => "grader misconfigured: " ++ m
  | internal m => "internal: " ++ m

/-- `is_retryable`: only the faults a second sample could fix. -/
def isRetryable : GraderError → Bool
  | invalidVerdict _ | truncatedVerdict _ => true
  | _ => false

/-- `class`. -/
def errorClass : GraderError → ErrorClass
  | unconfigured _ | unsupported _ _ | misconfigured _ => .graderMissing
  | authRejected _ => .providerAuth
  | transport _ => .graderUnavailable
  | execFailed _ => .checkerFailed
  | cacheMiss _ => .cacheMiss
  | truncatedVerdict _ | invalidVerdict _ | internal _ => .graderFailed

end GraderError

/-! ### Entries -/

/-- What kind of call an entry answers: an open string. -/
structure EntryKind where
  value : String
deriving DecidableEq

namespace EntryKind

def provider : EntryKind := ⟨"provider"⟩
def judge : EntryKind := ⟨"judge"⟩
def embedding : EntryKind := ⟨"embedding"⟩
def execAssert : EntryKind := ⟨"exec_assert"⟩

end EntryKind

/-- A cached answer, plus provenance. -/
structure CacheEntry where
  kind : Option EntryKind
  providerFingerprint : Option Json
  request : Option Json
  output : Output
  usage : Option TokenUsage
  costUsd : Option ℚ
  stopReason : Option String
  raw : Option Json
  attempts : Option ℕ
  providerLatencyMs : Option ℕ
  model : Option String
  programDigest : Option String
  address : Option String
  verdict : Option GradedVerdict
  reasoning : Option String
  emptyReason : Option EmptyReason
  toolCalls : List ToolCall
deriving DecidableEq

/-- An entry with this output, written before kinds and reasons were recorded. -/
def CacheEntry.ofOutput (output : Output) (emptyReason : Option EmptyReason) : CacheEntry :=
  { kind := none, providerFingerprint := none, request := none, output, usage := none
    costUsd := none, stopReason := none, raw := none, attempts := none
    providerLatencyMs := none, model := none, programDigest := none, address := none
    verdict := none, reasoning := none, emptyReason, toolCalls := [] }

/-- How the runner interacts with the cache. -/
inductive CacheMode where
  | readWrite
  | disabled
  | readOnlyStrict
deriving DecidableEq

/-! ### Size caps -/

/-- The largest payload kept in an entry, in bytes. -/
def rawMaxBytes : ℕ := 64 * 1024

/-- The number of bytes of a document's compact text. -/
def Json.byteSize (v : Json) : ℕ := v.text.utf8ByteSize

/-- `json_to_persist`: the payload, when persisting is on and it fits. -/
def jsonToPersist (includeRaw : Bool) (raw : Option Json) : Option Json :=
  if includeRaw then raw.filter fun v => v.byteSize ≤ rawMaxBytes else none

/-- The members that name what was addressed. -/
def addressMembers : List String := ["transport", "method", "url", "command", "args"]

/-- `request_to_persist`: the canonical request, or only its address when it is too big. -/
def requestToPersist (canonical : Json) : Json :=
  if canonical.byteSize ≤ rawMaxBytes then canonical
  else match canonical with
    | .obj members =>
      .obj (addressMembers.filterMap fun name => (member? name members).map fun v => (name, v))
    | _ => .null

/-! ### Commands -/

/-- What a run asks of the world. -/
inductive RunCmd where
  | get (key : CacheKey)
  | put (key : CacheKey) (entry : CacheEntry)
  | shouldProbe
  | recordAdoption
  | acquire
  | callProvider (provider : String) (req : ProviderRequest)
  | clockNanos
  | sleep (delay : Duration)
  | askGrader (canonical : Json)
  | abortReason

/-- The answers to `RunCmd`. -/
abbrev RunRes : RunCmd → Type
  | .get _ => Except String (Option CacheEntry)
  | .put _ _ => Except String Unit
  | .shouldProbe => Bool
  | .recordAdoption => Unit
  | .acquire => Unit
  | .callProvider _ _ => Except ProviderError ProviderResponse × Duration
  | .clockNanos => ℕ
  | .sleep _ => Unit
  | .askGrader _ => Except GraderError Json
  | .abortReason => Option String

namespace RunCmd

/-- A read of the store. -/
def isGet : RunCmd → Bool
  | get _ => true
  | _ => false

/-- A write to the store. -/
def isPut : RunCmd → Bool
  | put _ _ => true
  | _ => false

/-- A live call: a provider or a grader is asked. -/
def isLive : RunCmd → Bool
  | callProvider _ _ | askGrader _ => true
  | _ => false

end RunCmd

/-- A program of the runner. -/
abbrev Run (α : Type) := Program RunCmd RunRes α

/-- One thing a run did, with its answer. -/
abbrev RunEvent := Event RunRes

namespace Run

/-- `CacheBackend::get`. -/
def get (key : CacheKey) : Run (Except String (Option CacheEntry)) := Program.call (RunCmd.get key)

/-- `CacheBackend::put`. -/
def put (key : CacheKey) (entry : CacheEntry) : Run (Except String Unit) :=
  Program.call (RunCmd.put key entry)

/-- `MigrationProbe::should_probe`. -/
def shouldProbe : Run Bool := Program.call RunCmd.shouldProbe

/-- `MigrationProbe::record_adoption`. -/
def recordAdoption : Run Unit := Program.call RunCmd.recordAdoption

/-- `RateLimiter::acquire`. -/
def acquire : Run Unit := Program.call RunCmd.acquire

/-- `Provider::call`, with the time it took. -/
def callProvider (provider : String) (req : ProviderRequest) :
    Run (Except ProviderError ProviderResponse × Duration) :=
  Program.call (RunCmd.callProvider provider req)

/-- The sub-second part of the wall clock. -/
def clockNanos : Run ℕ := Program.call RunCmd.clockNanos

/-- `tokio::time::sleep`. -/
def sleep (delay : Duration) : Run Unit := Program.call (RunCmd.sleep delay)

/-- One live grader exchange. -/
def askGrader (canonical : Json) : Run (Except GraderError Json) :=
  Program.call (RunCmd.askGrader canonical)

/-- `AbortFlag::reason`. -/
def abortReason : Run (Option String) := Program.call RunCmd.abortReason

end Run

/-! ### A deterministic world -/

/-- A world with a write-once store that never fails, a budget that always allows a
probe, an abort flag that is never set, and a provider and a grader that answer the same
every time. -/
def storeWorld (answer : Except ProviderError ProviderResponse) (grade : Except GraderError Json)
    (store : List (CacheKey × CacheEntry)) :
    (c : RunCmd) → RunRes c × List (CacheKey × CacheEntry)
  | .get key => (.ok ((store.find? fun e => e.1 = key).map Prod.snd), store)
  | .put key entry =>
    (.ok (), if store.any fun e => e.1 = key then store else store ++ [(key, entry)])
  | .shouldProbe => (true, store)
  | .recordAdoption => ((), store)
  | .acquire => ((), store)
  | .callProvider _ _ => ((answer, 0), store)
  | .clockNanos => (0, store)
  | .sleep _ => ((), store)
  | .askGrader _ => (grade, store)
  | .abortReason => (none, store)
