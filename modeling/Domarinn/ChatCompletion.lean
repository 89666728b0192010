/-
Reading the response of a chat-completions endpoint.

The answer is the message's content, and where that is blank the text in which a reasoning
model exposes its thoughts, which vendors spell in two ways.  The first of the two that is
present is taken, whether or not it holds text.

* **`findSome?_bind_iff`** — the first value found, then tested, is the first that passes,
  unless one is found that does not pass with one that does behind it;
* **`parse_emptyReason_iff`** — a reason is recorded exactly when the output is blank;
* **`chat_reads_text_iff`** — the parser reads the text of a message, unless its content is
  blank, `reasoning` is there without text, and `reasoning_content` has some;
* **`null_reasoning_hides_text`** — such a message.
-/
import Domarinn.Asserts
import Domarinn.Pricing
import Domarinn.Provider

open Json

/-! ### The parser -/

def EmptyReason.noContentBlocks : EmptyReason := ⟨"no_content_blocks"⟩

def EmptyReason.emptyBody : EmptyReason := ⟨"empty_body"⟩

namespace Chat

/-- `PRECEDENCE`: the reasons, the most specific first. -/
def precedence : List EmptyReason :=
  [.refusal, .contentFilter, .truncated, .toolUseOnly, .thinkingOnly, .noContentBlocks,
    .emptyBody, .outputExprEmpty, .blank]

/-- `most_specific`. -/
def mostSpecific (candidates : List EmptyReason) : Option EmptyReason :=
  (precedence.find? fun want => candidates.contains want).or candidates.head?

/-- `from_stop_reason`: the reason that a finish reason implies for a blank output. -/
def fromStopReason (stopReason : String) : Option EmptyReason :=
  let reason := (trimText stopReason).toLower
  if reason ∈ ["max_tokens", "length", "content_length"] then some .truncated
  else if reason = "refusal" then some .refusal
  else if reason ∈ ["content_filter", "safety"] then some .contentFilter
  else if reason ∈ ["tool_use", "tool_calls", "function_call"] then some .toolUseOnly
  else none

/-- `v.as_u64()`. -/
def asU64? : Json → Option ℕ
  | num (.posInt n) => some n
  | _ => none

/-- The call that one item of `tool_calls` is; one without a function or a name is passed
over. -/
def toolCall (fromStr : String → Option Json) (c : Json) : Option ToolCall := do
  let f ← getMember c "function"
  let raw := getMember f "arguments"
  let arguments := match raw.bind asStr? with
    -- a text that is not a document stays a text
    | some text => (fromStr text).getD (.str text)
    | none => raw.getD .null
  let name ← (getMember f "name").bind asStr?
  return { id := (getMember c "id").bind asStr?, name, arguments }

/-- `tool_calls_from_message`. -/
def toolCallsFromMessage (fromStr : String → Option Json) (message : Json) : List ToolCall :=
  (((getMember message "tool_calls").bind asArray?).getD []).filterMap (toolCall fromStr)

/-- `REASONING_FIELDS`. -/
def reasoningFields : List String := ["reasoning", "reasoning_content"]

/-- `usage_from_payload`: the cached tokens are not billed at the full rate. -/
def usageFromPayload (payload : Json) : Option TokenUsage :=
  (getMember payload "usage").map fun u =>
    let promptTokens := ((getMember u "prompt_tokens").bind asU64?).getD 0
    let cacheReadTokens :=
      ((getMember u "prompt_tokens_details").bind (getMember · "cached_tokens")).bind asU64?
    { inputTokens := promptTokens - cacheReadTokens.getD 0
      outputTokens := ((getMember u "completion_tokens").bind asU64?).getD 0
      cacheReadTokens
      cacheWriteTokens := none
      cacheWrite1hTokens := none }

/-- The first choice. -/
def firstChoice (payload : Json) : Option Json :=
  ((getMember payload "choices").bind asArray?).bind List.head?

/-- The message of the first choice. -/
def firstMessage (payload : Json) : Option Json := (firstChoice payload).bind (getMember · "message")

/-- A text that is not blank. -/
def textIn (v : Json) : Option String := (asStr? v).filter fun s => !isBlank s

/-- The content of a message, where it has text. -/
def contentText (message : Json) : Option String := (getMember message "content").bind textIn

/-- The text in the first of the reasoning fields that is present. -/
def reasoningText (message : Json) : Option String :=
  (reasoningFields.findSome? (getMember message)).bind textIn

/-- The document to keep, with a note of where the answer comes from. -/
def rawResponse (payload : Json) (content reasoning : Option String) : Json :=
  if content.isNone && reasoning.isSome then match payload with
    | obj members => obj (insertMember "domarinn_output_source" (.str "reasoning") members)
    | payload => payload
  else payload

/-- The reasons that a blank answer may have. -/
def blankCandidates (finishReason : Option String) (message : Option Json)
    (reasoning : Option String) : List EmptyReason :=
  (finishReason.bind fromStopReason).toList ++
    (if message.isNone then [.noContentBlocks]
      else if reasoning.isSome then [.thinkingOnly] else []) ++ [.blank]

/-- `parse_completion_response`, which never fails. -/
def parseCompletionResponse (fromStr : String → Option Json) (payload : Json)
    (rate : Option ModelRate) : Except ProviderError ProviderResponse :=
  let message := firstMessage payload
  let content := message.bind contentText
  let reasoning := message.bind reasoningText
  let text := (content.or reasoning).getD ""
  let stopReason := ((firstChoice payload).bind (getMember · "finish_reason")).bind asStr?
  let usage := usageFromPayload payload
  .ok {
    output := .text text
    usage
    costUsd := (rate.bind fun r => usage.bind fun u => Pricing.costOf u r).map MicroUsd.toUsd
    stopReason
    raw := some (rawResponse payload content reasoning)
    toolCalls := (message.map (toolCallsFromMessage fromStr)).getD []
    reasoning
    emptyReason := if isBlank text then mostSpecific (blankCandidates stopReason message reasoning)
      else none
    model := (getMember payload "model").bind asStr? }

/-! ### Reasons -/

/-- Some candidate is the most specific one. -/
theorem mostSpecific_mem {candidates : List EmptyReason} (h : candidates ≠ []) :
    ∃ reason ∈ candidates, mostSpecific candidates = some reason := by
  rw [mostSpecific]
  cases hfind : precedence.find? fun want => candidates.contains want with
  | some want =>
    have hmem : candidates.contains want = true := List.find?_some hfind
    exact ⟨want, List.contains_iff_mem.mp hmem, rfl⟩
  | none =>
    obtain ⟨first, rest, rfl⟩ := List.exists_cons_of_ne_nil h
    exact ⟨first, List.mem_cons_self, rfl⟩

/-- A blank answer always has a reason, for it may always be just blank. -/
theorem mostSpecific_blankCandidates (finishReason : Option String) (message : Option Json)
    (reasoning : Option String) :
    ∃ reason ∈ blankCandidates finishReason message reasoning,
      mostSpecific (blankCandidates finishReason message reasoning) = some reason :=
  mostSpecific_mem (by simp [blankCandidates])

/-! ### The text of a message -/

/-- The texts of a message, in the order of preference. -/
def messageTexts (message : Json) : List String :=
  ("content" :: reasoningFields).filterMap fun field => (getMember message field).bind textIn

/-- A response reads the text of a message: the first that there is, and else it is blank and
says why. -/
def ReadsText (payload : Json) (r : ProviderResponse) : Prop :=
  match (firstMessage payload).bind fun message => (messageTexts message).head? with
  | some t => r.output = .text t ∧ classifyBlank r.output = none ∧ r.emptyReason = none
  | none => classifyBlank r.output ≠ none ∧ r.emptyReason ≠ none

/-- The first reasoning field is there without text, the other one has the only text. -/
def ReasoningHidden (message : Json) : Prop :=
  contentText message = none ∧ (∃ v ∈ getMember message "reasoning", textIn v = none) ∧
    ∃ v ∈ getMember message "reasoning_content", textIn v ≠ none

/-- The first value that is found, tested, is the first that passes, unless it does not pass
and one behind it does. -/
theorem findSome?_bind_iff {α β γ : Type} {find : α → Option β} {test : β → Option γ} :
    ∀ l : List α, (l.findSome? find).bind test = l.findSome? (fun a => (find a).bind test) ↔
      ∀ b ∈ l.findSome? find, test b = none → ∀ a ∈ l, (find a).bind test = none
  | [] => by simp
  | a :: l => by
    rw [List.findSome?_cons, List.findSome?_cons]
    cases hfind : find a with
    | none => simpa [hfind] using findSome?_bind_iff l
    | some b =>
      cases htest : test b with
      | some c => simp [htest]
      | none => simp [hfind, htest, eq_comm (a := none), List.findSome?_eq_none_iff]

/-- The text that the parser takes. -/
def chosenText (payload : Json) : Option String :=
  ((firstMessage payload).bind contentText).or ((firstMessage payload).bind reasoningText)

theorem isBlank_textIn {v : Json} {t : String} (h : textIn v = some t) : isBlank t = false := by
  obtain ⟨-, hnot⟩ := Option.filter_eq_some_iff.mp h
  simpa using hnot

theorem isBlank_chosenText {payload : Json} {t : String} (h : chosenText payload = some t) :
    isBlank t = false := by
  rw [chosenText, Option.or_eq_some_iff] at h
  obtain h | ⟨-, h⟩ := h
  · obtain ⟨m, -, hm⟩ := Option.bind_eq_some_iff.mp h
    obtain ⟨v, -, hv⟩ := Option.bind_eq_some_iff.mp hm
    exact isBlank_textIn hv
  · obtain ⟨m, -, hm⟩ := Option.bind_eq_some_iff.mp h
    obtain ⟨v, -, hv⟩ := Option.bind_eq_some_iff.mp hm
    exact isBlank_textIn hv

section
variable (fromStr : String → Option Json) (payload : Json) (rate : Option ModelRate)

/-- The response carries the text that was taken; without one it is blank, with a reason. -/
theorem parse_spec : ∃ r, parseCompletionResponse fromStr payload rate = .ok r ∧
    r.output = .text ((chosenText payload).getD "") ∧
    (classifyBlank r.output = none ↔ (chosenText payload).isSome = true) ∧
    (r.emptyReason = none ↔ (chosenText payload).isSome = true) := by
  refine ⟨_, rfl, rfl, ?_, ?_⟩
  · show classifyBlank (.text ((chosenText payload).getD "")) = none ↔ _
    cases h : chosenText payload with
    | none => exact iff_of_false (by decide) (by simp)
    | some t => simp [classifyBlank, isBlank_chosenText h]
  · show (if isBlank ((chosenText payload).getD "") then mostSpecific (blankCandidates
      (((firstChoice payload).bind (getMember · "finish_reason")).bind asStr?)
      (firstMessage payload) ((firstMessage payload).bind reasoningText)) else none) = none ↔ _
    cases h : chosenText payload with
    | none =>
      obtain ⟨reason, -, hreason⟩ := mostSpecific_blankCandidates
        (((firstChoice payload).bind (getMember · "finish_reason")).bind asStr?)
        (firstMessage payload) ((firstMessage payload).bind reasoningText)
      have hempty : isBlank "" = true := by decide
      rw [Option.getD_none, if_pos hempty, hreason]
      simp
    | some t => simp [isBlank_chosenText h]

/-- **A reason is recorded exactly when the output is blank.** -/
theorem parse_emptyReason_iff : ∃ r, parseCompletionResponse fromStr payload rate = .ok r ∧
    (r.emptyReason = none ↔ classifyBlank r.output = none) := by
  obtain ⟨r, hr, -, hblank, hreason⟩ := parse_spec fromStr payload rate
  exact ⟨r, hr, hreason.trans hblank.symm⟩

/-- The text taken is the first of the message's, unless one is hidden. -/
theorem chosenText_iff (message : Json) :
    (contentText message).or (reasoningText message) = (messageTexts message).head? ↔
      ¬ ReasoningHidden message := by
  have hhead : (messageTexts message).head? = (contentText message).or
      (reasoningFields.findSome? fun field => (getMember message field).bind textIn) := by
    rw [messageTexts, List.filterMap_cons, contentText]
    cases (getMember message "content").bind textIn with
    | none => exact List.head?_filterMap
    | some t => rfl
  rw [hhead, ReasoningHidden]
  cases contentText message with
  | some t => simp
  | none =>
    rw [Option.none_or, Option.none_or, reasoningText, findSome?_bind_iff]
    simp only [reasoningFields, List.findSome?_cons, List.findSome?_nil, List.forall_mem_cons,
      List.not_mem_nil, false_imp_iff, forall_true_iff, and_true, true_and]
    -- only a field that is there can hide the one behind it
    cases getMember message "reasoning" with
    | none => cases getMember message "reasoning_content" <;> simp
    | some v =>
      cases hv : textIn v <;> cases getMember message "reasoning_content" <;> simp [hv]

/-- **The parser reads the text of a message unless it is hidden.** -/
theorem chat_reads_text_iff : ∃ r, parseCompletionResponse fromStr payload rate = .ok r ∧
    (ReadsText payload r ↔ ∀ message ∈ firstMessage payload, ¬ ReasoningHidden message) := by
  obtain ⟨r, hr, houtput, hblank, hreason⟩ := parse_spec fromStr payload rate
  refine ⟨r, hr, ?_⟩
  have hreads : ReadsText payload r ↔ chosenText payload =
      (firstMessage payload).bind fun message => (messageTexts message).head? := by
    rw [ReadsText]
    cases (firstMessage payload).bind fun message => (messageTexts message).head? with
    | none =>
      show classifyBlank r.output ≠ none ∧ r.emptyReason ≠ none ↔ _
      rw [ne_eq, ne_eq, hblank, hreason, and_self, Option.not_isSome_iff_eq_none]
    | some t =>
      show r.output = .text t ∧ classifyBlank r.output = none ∧ r.emptyReason = none ↔ _
      rw [hblank, hreason, and_self, houtput, Output.text.injEq]
      cases chosenText payload <;> simp
  rw [hreads, chosenText]
  cases firstMessage payload with
  | none => simp
  | some message =>
    rw [Option.bind_some, Option.bind_some, Option.bind_some, chosenText_iff]
    simp

end

/-- A message whose reasoning is null, and whose answer is in the other field. -/
def nullReasoning : Json :=
  obj [("choices", arr [obj [("message",
    obj [("content", .null), ("reasoning", .null), ("reasoning_content", str "Paris")])]])]

/-- **A field that is null hides the text behind it.** -/
theorem null_reasoning_hides_text :
    ∃ r, parseCompletionResponse (fun _ => none) nullReasoning none = .ok r ∧
      r.output = .text "" ∧ r.emptyReason = some .blank ∧ ¬ ReadsText nullReasoning r := by
  refine ⟨_, rfl, rfl, by decide, ?_⟩
  rintro ⟨houtput, -⟩
  exact absurd houtput (by decide)

end Chat
