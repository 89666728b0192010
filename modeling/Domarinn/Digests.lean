/-
Digests of what a case asked, and of who was asked.

A digest is a hash of a canonical text, taken as injective and represented by that text.

* **`promptDigest`** — the rendered prompt, the vars, the params and the case salt;
* **`providerDigest`** — the provider's fingerprint.
-/
import Domarinn.CacheKey

open Json

/-- A digest, by the text it is the hash of. -/
structure Digest where
  preimage : String
deriving DecidableEq

/-- `digest`. -/
def digest (value : Json) : Digest := ⟨canonicalJson value⟩

theorem digest_inj {a b : Json} : digest a = digest b ↔ sortKeys a = sortKeys b := by
  rw [digest, digest, Digest.mk.injEq, canonicalJson_inj]

/-- The document `prompt_digest` hashes. -/
def promptDocument (req : ProviderRequest) : Json :=
  obj [("prompt", (req.prompt.map RenderedPrompt.toJson).getD null), ("vars", obj req.vars),
    ("params", obj req.params), ("case_salt", (req.caseSalt.map str).getD null)]

/-- `prompt_digest`. -/
def promptDigest (req : ProviderRequest) : Digest := digest (promptDocument req)

/-- `provider_digest`. -/
def providerDigest (fingerprint : Json) : Digest := digest fingerprint
