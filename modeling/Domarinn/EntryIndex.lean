/-
What the server promotes out of a cached body: the columns that it lists, filters and sums by,
and the text that it searches.

The body itself is bytes that belong to the client.  Reading one as an entry is the JSON
library's part and a parameter here; a body that it cannot read has no index.

* **`EntryIndex.ofEntry_bounded`** — no promoted text outgrows its limit, and a promoted reason
  has no control characters.
-/
import Domarinn.CacheEntry
import Domarinn.Sql

open Json

/-! ### Limits -/

/-- `FTS_TEXT_MAX`. -/
def ftsTextMax : ℕ := 16 * 1024

/-- `SUMMARY_MAX`. -/
def summaryMax : ℕ := 256

/-- `PREVIEW_MAX`. -/
def previewMax : ℕ := 300

/-- `CLAMP_MAX`. -/
def clampMax : ℕ := 64

/-- `truncate`: the first characters of a text. -/
def takeChars (text : String) (max : ℕ) : String := String.ofList (text.toList.take max)

/-- `clamped`. -/
def EmptyReason.clamped (reason : EmptyReason) : String :=
  String.ofList ((reason.value.toList.filter fun c => !isControl c).take clampMax)

/-! ### What kind of call an entry answers -/

/-- The grader that a stored verdict names. -/
def GradedVerdict.kindName : GradedVerdict → String
  | .rubric .. => EntryKind.judge.value
  | .exec .. => EntryKind.execAssert.value
  | .similarity _ => "similar_verdict"

/-- The call kind in the envelope of an `exec` request. -/
def execEnvelopeKind (request : Json) : Option String := do
  let transport ← (getMember request "transport").bind asStr?
  guard (transport = "exec")
  let stdin ← getMember request "stdin"
  let envelope ← getMember stdin "domarinn"
  match (getMember envelope "kind").bind asStr? with
  | some "provider" => some EntryKind.provider.value
  | some "assert" => some EntryKind.execAssert.value
  | _ => none

/-- An output that is a dimension count and nothing else. -/
def Output.isDims : Output → Bool
  | .json (.obj [m]) => m.1 = "dims"
  | _ => false

/-- `inferred_kind`: what the writer said comes before what a reader can guess. -/
def CacheEntry.inferredKind (entry : CacheEntry) : Option String :=
  (entry.kind.map EntryKind.value).orElse fun _ =>
  (entry.verdict.map GradedVerdict.kindName).orElse fun _ =>
  (entry.request.bind execEnvelopeKind).orElse fun _ =>
  if entry.output.isDims then some EntryKind.embedding.value
  else if entry.attempts.isSome || entry.providerLatencyMs.isSome then
    some EntryKind.provider.value
  else none

/-! ### The columns -/

/-- The promoted columns. -/
structure IndexColumns where
  kind : Option String
  model : Option String
  costMicrousd : Option ℤ
  inputTokens : Option ℤ
  outputTokens : Option ℤ
  entryCreatedAt : Option ℤ
  requestSummary : Option String
  outputPreview : Option String
  emptyReason : Option String
deriving DecidableEq

/-- The columns of a body that has no index. -/
def IndexColumns.absent : IndexColumns :=
  ⟨none, none, none, none, none, none, none, none, none⟩

/-- Everything that is promoted from one body. -/
structure EntryIndex extends IndexColumns where
  ftsRequest : String
  ftsOutput : String
deriving DecidableEq

/-- An entry as the body records it, with the time of its call. -/
structure StoredEntry extends CacheEntry where
  createdAtMs : ℤ

/-- `f64::round`: halves go away from zero. -/
def roundAway (q : ℚ) : ℤ := if 0 ≤ q then ⌊q + 1 / 2⌋ else ⌈q - 1 / 2⌉

/-- `to_microusd`; the conversion to an integer stops at its ends. -/
def toMicrousd (cost : Option ℚ) : Option ℤ :=
  cost.map fun c => max (-2 ^ 63) (min (roundAway (c * 1000000)) (2 ^ 63 - 1))

/-- `as i64`. -/
def asI64 (n : ℕ) : ℤ := (n : ℤ).bmod (2 ^ 64)

theorem asI64_of_lt {n : ℕ} (h : n < 2 ^ 63) : asI64 n = n := by
  have hlo : -((2 ^ 64 : ℕ) : ℤ) / 2 ≤ n := by omega
  have hhi : (n : ℤ) < (((2 ^ 64 : ℕ) : ℤ) + 1) / 2 := by omega
  exact Int.bmod_eq_of_le hlo hhi

theorem bmod_neg {n m : ℕ} (hlt : n < m) (hhalf : m ≤ 2 * n) : (n : ℤ).bmod m < 0 :=
  (Int.bmod_neg_iff (m := m) (x := n) (by omega) (by omega)).mpr (.inr (by omega))

/-- The upper half of the range wraps around. -/
theorem asI64_neg {n : ℕ} (hhalf : 2 ^ 63 ≤ n) (hlt : n < 2 ^ 64) : asI64 n < 0 :=
  bmod_neg hlt (by omega)

/-- A 64-bit number. -/
def FitsI64 (n : ℤ) : Prop := -2 ^ 63 ≤ n ∧ n < 2 ^ 63

/-- `a + b` in 64 bits. -/
def wrappingAdd (a b : ℤ) : ℤ := (a + b).bmod (2 ^ 64)

/-- `strip_query`. -/
def stripQuery (url : String) : String :=
  String.ofList (url.toList.takeWhile fun c => c != '?' && c != '#')

/-- `request_summary`: where the request went, and nothing of what it said. -/
def summarizeRequest (request : Json) : Option String :=
  match (getMember request "transport").bind asStr? with
  | some "http" => do
    let method := ((getMember request "method").bind asStr?).getD "POST"
    let url ← (getMember request "url").bind asStr?
    some (takeChars (method ++ " " ++ stripQuery url) summaryMax)
  | some "exec" => do
    let command ← (getMember request "command").bind asStr?
    let args := match getMember request "args" with
      | some (.arr items) => " ".intercalate (items.filterMap asStr?)
      | _ => ""
    let summary := if args = "" then "exec " ++ command else "exec " ++ command ++ " " ++ args
    some (takeChars summary summaryMax)
  | _ => none

namespace EntryIndex

/-- `from_entry`. -/
def ofEntry (entry : StoredEntry) : EntryIndex where
  kind := entry.inferredKind
  model := entry.model
  costMicrousd := toMicrousd entry.costUsd
  inputTokens := entry.usage.map fun u => asI64 u.inputTokens
  outputTokens := entry.usage.map fun u => asI64 u.outputTokens
  entryCreatedAt := some entry.createdAtMs
  requestSummary := entry.request.bind summarizeRequest
  outputPreview := some (takeChars entry.output.asText previewMax)
  emptyReason := entry.emptyReason.map EmptyReason.clamped
  ftsRequest := takeChars ((entry.request.map Json.text).getD "") ftsTextMax
  ftsOutput := takeChars entry.output.asText ftsTextMax

/-- `derive`. -/
def derive (parse : List UInt8 → Option StoredEntry) (body : List UInt8) : Option EntryIndex :=
  (parse body).map ofEntry

/-- The columns that a body's index gives its row. -/
def columns : Option EntryIndex → IndexColumns
  | some index => index.toIndexColumns
  | none => .absent

end EntryIndex

/-! ### Bounds -/

theorem length_takeChars (text : String) (max : ℕ) : (takeChars text max).length ≤ max := by
  rw [takeChars, String.length_ofList, List.length_take]
  exact Nat.min_le_left _ _

theorem length_summarizeRequest {request : Json} {summary : String}
    (h : summarizeRequest request = some summary) : summary.length ≤ summaryMax := by
  rw [summarizeRequest] at h
  split at h
  · obtain ⟨url, -, hsummary⟩ := Option.bind_eq_some_iff.mp h
    obtain rfl := Option.some.inj hsummary
    exact length_takeChars _ _
  · obtain ⟨command, -, hsummary⟩ := Option.bind_eq_some_iff.mp h
    obtain rfl := Option.some.inj hsummary
    exact length_takeChars _ _
  · cases h

theorem clamped_bounded (reason : EmptyReason) :
    reason.clamped.length ≤ clampMax ∧ ∀ c ∈ reason.clamped.toList, isControl c = false := by
  rw [EmptyReason.clamped, String.length_ofList, String.toList_ofList]
  refine ⟨List.length_take_le _ _, fun c hc => ?_⟩
  have hkept := List.mem_of_mem_take hc
  simpa using (List.mem_filter.mp hkept).2

/-- **Promoted text is bounded**, whatever the entry holds, and a promoted reason is one line. -/
theorem EntryIndex.ofEntry_bounded (entry : StoredEntry) :
    (∀ s, (ofEntry entry).requestSummary = some s → s.length ≤ summaryMax) ∧
    (∀ s, (ofEntry entry).outputPreview = some s → s.length ≤ previewMax) ∧
    (∀ s, (ofEntry entry).emptyReason = some s →
      s.length ≤ clampMax ∧ ∀ c ∈ s.toList, isControl c = false) ∧
    (ofEntry entry).ftsRequest.length ≤ ftsTextMax ∧
    (ofEntry entry).ftsOutput.length ≤ ftsTextMax := by
  refine ⟨fun s hs => ?_, fun s hs => ?_, fun s hs => ?_, length_takeChars _ _, length_takeChars _ _⟩
  · obtain ⟨request, -, hsummary⟩ := Option.bind_eq_some_iff.mp hs
    exact length_summarizeRequest hsummary
  · obtain rfl := Option.some.inj hs
    exact length_takeChars _ _
  · obtain ⟨reason, -, rfl⟩ := Option.map_eq_some_iff.mp hs
    exact clamped_bounded reason
