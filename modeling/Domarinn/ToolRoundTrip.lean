/-
Tool calls, written for a vendor and read back.

Anthropic is sent the arguments of a call as a document among the blocks of a message, OpenAI as
the text of one.  The readers are those of the vendors' responses, which hold calls in the same
shapes.

* **`ToolCall.delivered`** — what is sent of a call: no arguments are the empty object;
* **`anthropicTurn_read`**, **`openaiTurn_read`** — a turn that calls is read back with the ids of
  the plan;
* **`tool_calls_survive`** — so calls with ids of their own survive the trip, in any transcript.
-/
import Domarinn.ChatCompletion
import Domarinn.ToolPairing

open Json Chat

/-! ### The calls of a message to Anthropic -/

/-- The call that a block is; one without a name is passed over. -/
def toolUse (b : Json) : Option ToolCall := do
  let name ← strMember "name" b
  return { id := strMember "id" b, name, arguments := (getMember b "input").getD .null }

/-- `tool_calls_from_blocks`. -/
def toolCallsFromBlocks (blocks : List Json) : List ToolCall :=
  (blocks.filter fun b => strMember "type" b == some "tool_use").filterMap toolUse

/-- The calls among the blocks of a message; a bare string has none. -/
def toolCallsFromContent (message : Json) : List ToolCall :=
  toolCallsFromBlocks (elements "content" message)

/-! ### What is sent of a call -/

/-- A call as it is sent. -/
def ToolCall.delivered (c : ToolCall) : ToolCall := { c with arguments := inputOf c.arguments }

/-- A call as it is sent, under the id that the plan resolved. -/
def deliveredAs (call : ToolCall × String) : ToolCall := { call.1.delivered with id := some call.2 }

/-- Both vendors are sent one value: the text is that of the document. -/
theorem argumentsString_eq (arguments : Json) :
    argumentsString arguments = (inputOf arguments).text := by
  cases arguments <;> rfl

/-- Calls with ids of their own keep them. -/
theorem callIds_delivered (i : ℕ) (calls : List ToolCall) (hids : ∀ c ∈ calls, c.id.isSome) :
    (callIds i calls).map deliveredAs = calls.map ToolCall.delivered := by
  have hcall : ∀ p ∈ calls.zipIdx, (deliveredAs ∘ fun p : ToolCall × ℕ =>
      (p.1, p.1.id.getD (syntheticId i p.2))) p = (ToolCall.delivered ∘ Prod.fst) p := by
    rintro ⟨c, nth⟩ hp
    obtain ⟨id, hid⟩ := Option.isSome_iff_exists.mp (hids c (List.fst_mem_of_mem_zipIdx hp))
    simp only [Function.comp_apply, deliveredAs, ToolCall.delivered, hid, Option.getD_some]
  rw [callIds, List.map_map, List.map_congr_left hcall, ← List.map_map, List.zipIdx_map_fst]

/-! ### A turn, read back -/

/-- Prose is no call, however it is written. -/
theorem toolCallsFromBlocks_prose (content : MessageContent) :
    toolCallsFromBlocks (anthropicBlocks content) = [] := by
  have hblock : ∀ block ∈ anthropicBlocks content, strMember "type" block ≠ some "tool_use" := by
    intro block hmem
    cases content with
    | text s =>
      rw [anthropicBlocks] at hmem
      split_ifs at hmem
      · cases hmem
      · rw [List.mem_singleton.mp hmem]
        simp [strMember, getMember, asStr?]
    | blocks bs =>
      obtain ⟨b, -, rfl⟩ := List.mem_map.mp hmem
      -- a thinking block has a type of its own, with a signature or without
      cases b with
      | text t => simp [anthropicBlock, strMember, getMember, asStr?]
      | thinking t signature => simp [anthropicBlock, strMember, getMember, asStr?]
  rw [toolCallsFromBlocks, List.filter_eq_nil_iff.mpr fun b hb => by simpa using hblock b hb]
  rfl

theorem toolCallsFromContent_plain (m : ChatMessage) :
    toolCallsFromContent (obj [("role", str m.role.asStr),
      ("content", anthropicContent m.content)]) = [] := by
  cases hcontent : m.content with
  | text s => rfl
  | blocks bs => exact toolCallsFromBlocks_prose (.blocks bs)

/-- The message of a turn to Anthropic that calls. -/
def anthropicCalls (m : ChatMessage) (calls : List (ToolCall × String)) : Json :=
  obj [("role", str "assistant"), ("content", arr (anthropicBlocks m.content ++
    calls.map fun (call, id) => obj [("type", str "tool_use"), ("id", str id),
      ("name", str call.name), ("input", inputOf call.arguments)]))]

/-- **Anthropic's message is read back** with the ids of the plan. -/
theorem anthropicTurn_read (m : ChatMessage) (calls : List (ToolCall × String)) :
    toolCallsFromContent (anthropicCalls m calls) = calls.map deliveredAs := by
  change toolCallsFromBlocks (anthropicBlocks m.content ++ _) = _
  rw [toolCallsFromBlocks, List.filter_append, List.filterMap_append]
  refine (congrArg (· ++ _) (toolCallsFromBlocks_prose m.content)).trans ?_
  rw [List.nil_append, List.filter_eq_self.mpr ?_, List.filterMap_map]
  · exact congrFun List.filterMap_eq_map' calls
  · intro b hb
    obtain ⟨call, -, rfl⟩ := List.mem_map.mp hb
    rfl

/-- The message of a turn to OpenAI that calls. -/
def openaiCalls (m : ChatMessage) (calls : List (ToolCall × String)) : Json :=
  obj [("role", str "assistant"),
    ("content", if m.content.prose.isEmpty then null else str m.content.prose),
    ("tool_calls", arr (calls.map fun (call, id) => obj [("id", str id), ("type", str "function"),
      ("function", obj [("name", str call.name),
        ("arguments", str (argumentsString call.arguments))])]))]

/-- **OpenAI's message is read back** with the ids of the plan, where the texts are. -/
theorem openaiTurn_read {fromStr : String → Option Json} (m : ChatMessage)
    (calls : List (ToolCall × String)) (hparse : ∀ call ∈ calls,
      fromStr (inputOf call.1.arguments).text = some (inputOf call.1.arguments)) :
    toolCallsFromMessage fromStr (openaiCalls m calls) = calls.map deliveredAs := by
  change (calls.map _).filterMap (toolCall fromStr) = _
  rw [List.filterMap_map, ← List.filterMap_eq_map]
  refine List.filterMap_congr fun call hcall => ?_
  -- the arguments are a text, and the text is parsed
  change some (ToolCall.mk (some call.2) call.1.name
    ((fromStr (argumentsString call.1.arguments)).getD _)) = _
  rw [argumentsString_eq, hparse call hcall]
  rfl

/-! ### A turn of a transcript -/

/-- A turn that is no result is planned by itself. -/
theorem plan_split (pre post : List ChatMessage) {m : ChatMessage} (hrole : m.role ≠ .tool) :
    ∃ rest, plan (pre ++ m :: post) = plan pre ++ (if m.toolCalls.isEmpty then .plain m
      else .calls m (callIds pre.length m.toolCalls)) :: rest := by
  obtain ⟨openCalls, happend⟩ := planFrom_append 0 [] pre (m :: post) fun m' hm' => by
    rw [List.head?_cons, Option.mem_some_iff] at hm'
    exact hm' ▸ hrole
  rw [plan, happend, Nat.zero_add, planFrom, if_neg hrole]
  split_ifs
  · exact ⟨_, rfl⟩
  · exact ⟨_, rfl⟩

/-- **Tool calls survive the trip to each vendor and back**: a turn of the assistant is one
message, from which its calls are read with their ids, names and arguments, in their order. -/
theorem tool_calls_survive (fromStr : String → Option Json) (pre post : List ChatMessage)
    (m : ChatMessage) (hrole : m.role = .assistant) (hids : ∀ c ∈ m.toolCalls, c.id.isSome)
    (hparse : ∀ c ∈ m.toolCalls,
      fromStr (inputOf c.arguments).text = some (inputOf c.arguments)) :
    (∃ message after,
      openaiMessages (pre ++ m :: post) = openaiMessages pre ++ message :: after ∧
      strMember "role" message = some "assistant" ∧
      toolCallsFromMessage fromStr message = m.toolCalls.map ToolCall.delivered) ∧
    ∃ message after,
      (anthropicMessages (pre ++ m :: post)).2 = (anthropicMessages pre).2 ++ message :: after ∧
      strMember "role" message = some "assistant" ∧
      toolCallsFromContent message = m.toolCalls.map ToolCall.delivered := by
  obtain ⟨rest, hplan⟩ := plan_split pre post (m := m) (by simp [hrole])
  have hcalls := callIds_delivered pre.length m.toolCalls hids
  rw [openaiMessages, anthropicMessages, hplan, List.flatMap_append, List.flatMap_append,
    List.flatMap_cons, List.flatMap_cons]
  by_cases hempty : m.toolCalls.isEmpty
  · -- a turn without calls is a plain message
    have hassistant : m.role ≠ .system := by
      rw [hrole]
      decide
    rw [if_pos hempty, List.isEmpty_iff.mp hempty, anthropicTurn, if_neg hassistant]
    refine ⟨⟨_, rest.flatMap openaiTurn, rfl, ?_, rfl⟩,
      _, rest.flatMap anthropicTurn, rfl, ?_, toolCallsFromContent_plain m⟩
    · rw [hrole]
      rfl
    · rw [hrole]
      rfl
  · rw [if_neg hempty]
    refine ⟨⟨openaiCalls m _, rest.flatMap openaiTurn, rfl, rfl, ?_⟩,
      anthropicCalls m _, rest.flatMap anthropicTurn, rfl, rfl, ?_⟩
    · rw [openaiTurn_read m _ fun call hcall => ?_, hcalls]
      obtain ⟨p, hp, rfl⟩ := List.mem_map.mp hcall
      exact hparse p.1 (List.fst_mem_of_mem_zipIdx hp)
    · rw [anthropicTurn_read, hcalls]

/-! ### Arguments that are themselves a text of JSON -/

/-- A text that could be read as an object. -/
def objectText : String := "\x7b\"a\":1\x7d"

/-- The parser, on the texts of this turn. -/
def readBack (text : String) : Option Json :=
  if text = "\"\x7b\\\"a\\\":1\x7d\"" then some (str objectText)
  else if text = "\x7b\x7d" then some (obj [])
  else if text = objectText then some (obj [("a", num (.posInt 1))])
  else none

/-- A call with a text for its arguments, one without any, and one with an object. -/
def callingTurn : ChatMessage where
  role := .assistant
  content := .text ""
  toolCalls := [⟨some "x", "f", str objectText⟩, ⟨some "y", "f", null⟩,
    ⟨some "z", "g", obj [("a", num (.posInt 1))]⟩]
  toolCallId := none

/-- The text stays a text, and no arguments are the empty object. -/
theorem object_text_survives : ∃ message after, openaiMessages [callingTurn] = message :: after ∧
    toolCallsFromMessage readBack message = [⟨some "x", "f", str objectText⟩,
      ⟨some "y", "f", obj []⟩, ⟨some "z", "g", obj [("a", num (.posInt 1))]⟩] := by
  obtain ⟨⟨message, after, hsent, -, hread⟩, -⟩ := tool_calls_survive readBack [] [] callingTurn rfl
    (by decide) (by decide +kernel)
  have hnil : openaiMessages [] = [] := by rw [openaiMessages, plan, planFrom, List.flatMap_nil]
  rw [hnil] at hsent
  exact ⟨message, after, hsent, hread⟩
