/-
The provider seam: the request the runner builds, the response or the error a provider
answers with, and what a provider publishes about itself.

A provider is the record of what its trait methods return.  The call itself is not a
field: it is the one effect, and a command of the programs that make it.

`classify_empty` is the trait's default, which no provider overrides: the reason the
provider recorded, else whether the output is blank.
-/
import Domarinn.Pricing

open Json

/-- The metadata of the test a call belongs to. -/
structure TestMeta where
  id : String
  tags : List String
deriving DecidableEq

/-- A single request to a provider. -/
structure ProviderRequest where
  prompt : Option RenderedPrompt
  vars : List (String × Json)
  params : List (String × Json)
  test : TestMeta
  caseSalt : Option String
  tools : List ToolDef
deriving DecidableEq

/-- `ProviderRequest::default`. -/
def ProviderRequest.default : ProviderRequest :=
  { prompt := none, vars := [], params := [], test := ⟨"", []⟩, caseSalt := none, tools := [] }

/-- A provider's response. -/
structure ProviderResponse where
  output : Output
  usage : Option TokenUsage
  costUsd : Option ℚ
  stopReason : Option String
  raw : Option Json
  toolCalls : List ToolCall
  reasoning : Option String
  emptyReason : Option EmptyReason
  model : Option String
deriving DecidableEq

/-- `ProviderResponse::text`. -/
def ProviderResponse.ofText (output : String) : ProviderResponse :=
  { output := .text output, usage := none, costUsd := none, stopReason := none, raw := none,
    toolCalls := [], reasoning := none, emptyReason := none, model := none }

/-- Provider failures, split by whether a retry could help.  `source` is the text of the
underlying error. -/
inductive ProviderError where
  | retriable (source : String) (retryAfter : Option Duration) (class_ : ErrorClass)
      (details : Option Json)
  | fatal (source : String) (class_ : ErrorClass) (details : Option Json)
deriving DecidableEq

namespace ProviderError

/-- `ProviderError::class`. -/
def errorClass : ProviderError → ErrorClass
  | retriable _ _ c _ => c
  | fatal _ c _ => c

/-- `ProviderError::details`. -/
def errorDetails : ProviderError → Option Json
  | retriable _ _ _ d => d
  | fatal _ _ d => d

end ProviderError

/-! ### Providers -/

/-- What a provider publishes: its identity, and the documents a request becomes. -/
structure Provider where
  id : String
  fingerprint : Json
  cacheable : Bool
  programDigest : Option String
  rate : Option ModelRate
  legacyFingerprints : List Json
  requestPreview : ProviderRequest → Option Json
  canonicalRequest : ProviderRequest → Option Json
  address : Option String
  legacyCanonicalRequests : ProviderRequest → List Json
  cacheSalt : Option String

/-- A provider that leaves every optional trait method at its default. -/
def Provider.withDefaults (id : String) (fingerprint : Json) : Provider :=
  { id, fingerprint
    cacheable := true
    programDigest := none
    rate := none
    legacyFingerprints := [fingerprint]
    requestPreview := fun _ => none
    canonicalRequest := fun _ => none
    address := none
    legacyCanonicalRequests := fun _ => []
    cacheSalt := none }

/-- `classify_empty`: the recorded reason, else whether the output is blank. -/
def classifyEmpty (response : ProviderResponse) : Option EmptyReason :=
  response.emptyReason.or (classifyBlank response.output)

theorem classifyEmpty_of_emptyReason {response : ProviderResponse} {reason : EmptyReason}
    (h : response.emptyReason = some reason) : classifyEmpty response = some reason := by
  rw [classifyEmpty, h, Option.some_or]
