/-
Value types shared by providers, asserts and results, with their JSON forms.

These are the types of `domarinn-types` that the modelled code reads: outputs, token
usage, prompts and tool calls, and the two open string types `EmptyReason` and
`ErrorClass`.  `toJson` is the `serde` encoding of each: an optional field that is
absent, or a list that is empty, is not written.

Amounts the source keeps as `f64` (costs, scores, rates) are exact rationals, and
`Duration` counts nanoseconds.
-/
import Domarinn.CanonicalJson
import Mathlib.Data.Rat.Defs
import Mathlib.Algebra.Order.Floor.Defs
import Mathlib.Data.Rat.Floor

/-- A span of time, in nanoseconds. -/
abbrev Duration := ℕ

namespace Duration

/-- `Duration::from_millis`. -/
def fromMillis (ms : ℕ) : Duration := ms * 1000000

/-- `as_millis`. -/
def asMillis (d : Duration) : ℕ := d / 1000000

/-- `as_secs`. -/
def asSecs (d : Duration) : ℕ := d / 1000000000

end Duration

/-- `u64` addition that stops at the largest value. -/
def saturatingAdd (a b : ℕ) : ℕ := min (a + b) (2 ^ 64 - 1)

/-- `char::is_whitespace`: the Unicode `White_Space` characters. -/
def isWhitespace (c : Char) : Bool :=
  let n := c.toNat
  (9 ≤ n && n ≤ 13) || n == 32 || n == 0x85 || n == 0xA0 || n == 0x1680 ||
    (0x2000 ≤ n && n ≤ 0x200A) || n == 0x2028 || n == 0x2029 || n == 0x202F || n == 0x205F ||
    n == 0x3000

/-- `char::is_control`: the Unicode control characters. -/
def isControl (c : Char) : Bool :=
  let n := c.toNat
  n < 32 || (127 ≤ n && n < 160)

/-- `s.trim().is_empty()`. -/
def isBlank (s : String) : Bool := s.toList.all isWhitespace

/-! ### JSON members -/

namespace Json

/-- `v.to_string()`: the compact text as a string. -/
def text (v : Json) : String := String.ofList (render v)

/-- A natural number as a document. -/
def nat (n : ℕ) : Json := num (.posInt n)

/-- A member that is written only when it has a value. -/
def optMember (k : String) : Option Json → List (String × Json)
  | some v => [(k, v)]
  | none => []

/-- `Map::insert`: replace the value of a member where it stands, or add it last. -/
def insertMember (k : String) (v : Json) : List (String × Json) → List (String × Json)
  | [] => [(k, v)]
  | m :: ms => if m.1 = k then (k, v) :: ms else m :: insertMember k v ms

/-- The value of a member. -/
def member? (k : String) (ms : List (String × Json)) : Option Json :=
  (ms.find? fun m => m.1 = k).map Prod.snd

/-- `v.as_str()`. -/
def asStr? : Json → Option String
  | str s => some s
  | _ => none

/-- `v.as_array()`. -/
def asArray? : Json → Option (List Json)
  | arr items => some items
  | _ => none

end Json

open Json

/-- `v.get(k)`. -/
def getMember (v : Json) (k : String) : Option Json :=
  match v with
  | .obj members => member? k members
  | _ => none

/-! ### Outputs -/

/-- A provider's output: free text, or a structured value. -/
inductive Output where
  | text (s : String)
  | json (v : Json)
deriving DecidableEq

/-- `Output::as_text`. -/
def Output.asText : Output → String
  | text s => s
  | json v => v.text

/-- Why an output is empty: an open string, with the reasons the program names. -/
structure EmptyReason where
  value : String
deriving DecidableEq

namespace EmptyReason

def thinkingOnly : EmptyReason := ⟨"thinking_only"⟩
def truncated : EmptyReason := ⟨"truncated"⟩
def refusal : EmptyReason := ⟨"refusal"⟩
def contentFilter : EmptyReason := ⟨"content_filter"⟩
def outputExprEmpty : EmptyReason := ⟨"output_expr_empty"⟩
def toolUseOnly : EmptyReason := ⟨"tool_use_only"⟩
def blank : EmptyReason := ⟨"blank"⟩

end EmptyReason

/-- `classify_blank`: is there nothing to grade in this output? -/
def classifyBlank (output : Output) : Option EmptyReason :=
  let empty : Bool := match output with
    | .text s => isBlank s
    | .json .null => true
    | .json (.str s) => isBlank s
    | .json (.arr items) => items.isEmpty
    | .json (.obj members) => members.isEmpty
    | .json _ => false
  if empty then some .blank else none

/-- What kind of failure an error is: an open string, with the classes the program names. -/
structure ErrorClass where
  value : String
deriving DecidableEq

namespace ErrorClass

def providerAuth : ErrorClass := ⟨"provider_auth"⟩
def providerRateLimit : ErrorClass := ⟨"provider_rate_limit"⟩
def providerUnavailable : ErrorClass := ⟨"provider_unavailable"⟩
def providerTimeout : ErrorClass := ⟨"provider_timeout"⟩
def providerProtocol : ErrorClass := ⟨"provider_protocol"⟩
def execFailed : ErrorClass := ⟨"exec_failed"⟩
def checkerFailed : ErrorClass := ⟨"checker_failed"⟩
def renderFailed : ErrorClass := ⟨"render_failed"⟩
def assertFailed : ErrorClass := ⟨"assert_failed"⟩
def providerRequest : ErrorClass := ⟨"provider_request"⟩
def graderFailed : ErrorClass := ⟨"grader_failed"⟩
def graderUnavailable : ErrorClass := ⟨"grader_unavailable"⟩
def graderMissing : ErrorClass := ⟨"grader_missing"⟩
def cacheMiss : ErrorClass := ⟨"cache_miss"⟩
def cacheUnavailable : ErrorClass := ⟨"cache_unavailable"⟩

end ErrorClass

/-! ### Tokens -/

/-- Token accounting for one call. -/
structure TokenUsage where
  inputTokens : ℕ
  outputTokens : ℕ
  cacheReadTokens : Option ℕ
  cacheWriteTokens : Option ℕ
  cacheWrite1hTokens : Option ℕ
deriving DecidableEq

namespace TokenUsage

/-- Every token in the exchange: the whole prompt plus the response. -/
def total (u : TokenUsage) : ℕ :=
  saturatingAdd (saturatingAdd u.inputTokens u.outputTokens) (u.cacheReadTokens.getD 0)

/-- Every token billed for, cache writes included. -/
def billableTotal (u : TokenUsage) : ℕ :=
  saturatingAdd u.total (u.cacheWriteTokens.getD 0)

end TokenUsage

/-! ### Prompts and tools -/

/-- One tool call a model decided to make. -/
structure ToolCall where
  id : Option String
  name : String
  arguments : Json
deriving DecidableEq

def ToolCall.toJson (c : ToolCall) : Json :=
  obj (optMember "id" (c.id.map str) ++ [("name", str c.name), ("arguments", c.arguments)])

/-- A chat message role. -/
inductive ChatRole where
  | system
  | user
  | assistant
  | tool
deriving DecidableEq

/-- `ChatRole::as_str`, which is also its encoding. -/
def ChatRole.asStr : ChatRole → String
  | system => "system"
  | user => "user"
  | assistant => "assistant"
  | tool => "tool"

/-- One block of a message's content. -/
inductive ContentBlock where
  | text (text : String)
  | thinking (thinking : String) (signature : Option String)
deriving DecidableEq

def ContentBlock.toJson : ContentBlock → Json
  | text t => obj [("type", str "text"), ("text", str t)]
  | thinking t signature =>
    obj ([("type", str "thinking"), ("thinking", str t)] ++
      optMember "signature" (signature.map str))

/-- A message's content: plain text, or an ordered list of blocks. -/
inductive MessageContent where
  | text (s : String)
  | blocks (blocks : List ContentBlock)
deriving DecidableEq

def MessageContent.toJson : MessageContent → Json
  | text s => str s
  | blocks bs => arr (bs.map ContentBlock.toJson)

/-- A chat message in a rendered prompt. -/
structure ChatMessage where
  role : ChatRole
  content : MessageContent
  toolCalls : List ToolCall
  toolCallId : Option String
deriving DecidableEq

def ChatMessage.toJson (m : ChatMessage) : Json :=
  obj ([("role", str m.role.asStr), ("content", m.content.toJson)] ++
    optMember "tool_calls"
      (if m.toolCalls.isEmpty then none else some (arr (m.toolCalls.map ToolCall.toJson))) ++
    optMember "tool_call_id" (m.toolCallId.map str))

/-- A prompt after rendering. -/
inductive RenderedPrompt where
  | text (s : String)
  | messages (messages : List ChatMessage)
deriving DecidableEq

def RenderedPrompt.toJson : RenderedPrompt → Json
  | text s => obj [("text", str s)]
  | messages ms => obj [("messages", arr (ms.map ChatMessage.toJson))]

/-- A tool a suite declares. -/
structure ToolDef where
  name : String
  description : Option String
  inputSchema : Option Json
deriving DecidableEq

def ToolDef.toJson (t : ToolDef) : Json :=
  obj ([("name", str t.name)] ++ optMember "description" (t.description.map str) ++
    optMember "input_schema" t.inputSchema)

/-! ### Verdicts -/

inductive CaseStatus where
  | pass
  | fail
  | error
  | skip
  | xfail
  | xpass
deriving DecidableEq

/-- `CaseStatus::from_str`. -/
def CaseStatus.fromStr (s : String) : Except String CaseStatus :=
  if s = "pass" then .ok .pass
  else if s = "fail" then .ok .fail
  else if s = "error" then .ok .error
  else if s = "skip" then .ok .skip
  else if s = "xfail" then .ok .xfail
  else if s = "xpass" then .ok .xpass
  else .error ("invalid case status '" ++ s ++
    "'; expected one of: pass, fail, error, skip, xfail, xpass")
