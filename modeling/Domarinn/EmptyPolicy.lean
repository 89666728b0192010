/-
What an empty output means for a run: whether it is worth storing, and whether prose
counts as a refusal.

`EmptyPolicy` holds the two settings, `effectiveReason` and `shouldStore` the two
questions.  A compiled pattern is what it matches: a predicate on text.
-/
import Domarinn.CacheEntry

/-- Which empty outputs are worth storing. -/
inductive StoreEmptyOutputs where
  | never
  | reproducible
  | always
deriving DecidableEq

/-- The reasons `reproducible` keeps: the same request produces them again. -/
def reproducibleReasons : List EmptyReason := [.truncated, .toolUseOnly, .outputExprEmpty]

/-- The patterns that promote a non-empty output to a refusal. -/
structure RefusalMatcher where
  patterns : List (String → Bool)

/-- `RefusalMatcher::matches`. -/
def RefusalMatcher.isMatch (m : RefusalMatcher) (output : Output) : Bool :=
  m.patterns.any fun p => p output.asText

/-- One run's answer to "is this empty, and do we keep it". -/
structure EmptyPolicy where
  store : StoreEmptyOutputs
  refusal : RefusalMatcher

namespace EmptyPolicy

/-- The default policy: keep what is reproducible, no refusal patterns. -/
def default : EmptyPolicy := ⟨.reproducible, ⟨[]⟩⟩

/-- `effective_reason`: the provider's own diagnosis, else the refusal patterns. -/
def effectiveReason (policy : EmptyPolicy) (response : ProviderResponse) : Option EmptyReason :=
  (classifyEmpty response).or
    (if policy.refusal.isMatch response.output then some .refusal else none)

/-- `should_store`: is a response with this reason worth writing? -/
def shouldStore (policy : EmptyPolicy) (reason : Option EmptyReason) : Bool :=
  match reason with
  | none => true
  | some reason => match policy.store with
    | .always => true
    | .never => false
    | .reproducible => reproducibleReasons.contains reason

/-- `stored_entry_is_declined`: would this suite no longer write the reason an entry
recorded?  The recorded reason is read, the output is not classified again. -/
def storedEntryIsDeclined (policy : EmptyPolicy) (entry : CacheEntry) : Bool :=
  !policy.shouldStore entry.emptyReason

/-- Recording the classified reason does not change the effective one. -/
theorem effectiveReason_of_classified {policy : EmptyPolicy} {r r' : ProviderResponse}
    (hreason : r'.emptyReason = classifyEmpty r) (hout : r'.output = r.output) :
    policy.effectiveReason r' = policy.effectiveReason r := by
  rw [effectiveReason, effectiveReason, classifyEmpty, hreason, hout]
  cases hr : r.emptyReason with
  | some reason => simp [classifyEmpty, hr]
  | none => cases hb : classifyBlank r.output <;> simp [classifyEmpty, hr, hb]

end EmptyPolicy
