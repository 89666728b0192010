/-
The two vendor wire shapes for a rendered transcript.

`plan` walks a transcript once and resolves the id of every call and of every result;
`anthropicMessages` and `openaiMessages` write its turns in the vendor's shape.  Anthropic
takes the arguments of a call as a document, OpenAI as the text of one.

* **`RenderedPrompt.sorted_eq`** — prompts written as one document, up to the order of
  members, differ in that order inside call arguments only;
* **`anthropicMessages_congr`** — and then Anthropic is sent the same messages.
-/
import Domarinn.JsonMembers

open Json

/-! ### The plan of a transcript -/

/-- `MessageContent::text`: the prose of a turn, thinking omitted. -/
def MessageContent.prose : MessageContent → String
  | text s => s
  | blocks bs => "\n".intercalate (bs.filterMap fun b => match b with
      | .text t => some t
      | .thinking _ _ => none)

/-- A transcript, grouped the way both vendors need to see it. -/
inductive Turn where
  | plain (m : ChatMessage)
  | calls (m : ChatMessage) (calls : List (ToolCall × String))
  | results (run : List (ChatMessage × String))

/-- `synthetic_id`: the id of a call the transcript did not name. -/
def syntheticId (turn call : ℕ) : String := s!"domarinn_call_{turn}_{call}"

/-- The calls of the turn at `i`, each with its id. -/
def callIds (i : ℕ) (calls : List ToolCall) : List (ToolCall × String) :=
  calls.zipIdx.map fun (call, nth) => (call, call.id.getD (syntheticId i nth))

/-- The results of the run that starts at `start`, each with the id it answers. -/
def resultIds (start : ℕ) (openCalls : List String) (run : List ChatMessage) :
    List (ChatMessage × String) :=
  run.zipIdx.map fun (m, nth) =>
    (m, (m.toolCallId.or openCalls[nth]?).getD (syntheticId start nth))

/-- The walk from position `i` on, with the ids of the last round of calls. -/
def planFrom (i : ℕ) (openCalls : List String) : List ChatMessage → List Turn
  | [] => []
  | m :: ms =>
    if m.role = .tool then
      let run := m :: ms.takeWhile fun m => m.role = .tool
      -- the round is answered: a later run of results must not pair with it again
      .results (resultIds i openCalls run) ::
        planFrom (i + run.length) [] (ms.dropWhile fun m => m.role = .tool)
    else if m.toolCalls.isEmpty then .plain m :: planFrom (i + 1) openCalls ms
    else
      let calls := callIds i m.toolCalls
      .calls m calls :: planFrom (i + 1) (calls.map Prod.snd) ms
termination_by ms => ms.length
decreasing_by
  · have := (List.dropWhile_sublist (fun m : ChatMessage => decide (m.role = .tool))
      (l := ms)).length_le
    simp only [List.length_cons]
    omega
  · simp
  · simp

/-- `plan`. -/
def plan (msgs : List ChatMessage) : List Turn := planFrom 0 [] msgs

/-! ### Anthropic -/

/-- One block, as a document. -/
def anthropicBlock : ContentBlock → Json
  | .text text => obj [("type", str "text"), ("text", str text)]
  | .thinking thinking signature =>
    obj ([("type", str "thinking"), ("thinking", str thinking)] ++
      optMember "signature" (signature.map str))

/-- `anthropic_blocks`: a turn's content as a block list; blank text has no block. -/
def anthropicBlocks : MessageContent → List Json
  | .text s => if isBlank s then [] else [obj [("type", str "text"), ("text", str s)]]
  | .blocks bs => bs.map anthropicBlock

/-- `anthropic_content`: plain text stays a bare string. -/
def anthropicContent : MessageContent → Json
  | .text s => str s
  | .blocks bs => arr (anthropicBlocks (.blocks bs))

/-- A call without arguments has an empty arguments object. -/
def inputOf (arguments : Json) : Json :=
  match arguments with
  | .null => obj []
  | other => other

/-- The system text of a turn. -/
def anthropicSystem : Turn → Option String
  | .plain m => if m.role = .system then some m.content.prose else none
  | _ => none

/-- The messages of a turn: the results of one round share a message. -/
def anthropicTurn : Turn → List Json
  | .plain m =>
    if m.role = .system then []
    else [obj [("role", str m.role.asStr), ("content", anthropicContent m.content)]]
  | .calls m calls =>
    let blocks := anthropicBlocks m.content ++ calls.map fun (call, id) =>
      obj [("type", str "tool_use"), ("id", str id), ("name", str call.name),
        ("input", inputOf call.arguments)]
    [obj [("role", str "assistant"), ("content", arr blocks)]]
  | .results run =>
    let blocks := run.map fun (m, id) =>
      obj [("type", str "tool_result"), ("tool_use_id", str id), ("content", str m.content.prose)]
    [obj [("role", str "user"), ("content", arr blocks)]]

/-- `anthropic_messages`: the system text, and the messages. -/
def anthropicMessages (msgs : List ChatMessage) : Option String × List Json :=
  let system := (plan msgs).filterMap anthropicSystem
  (if system.isEmpty then none else some ("\n\n".intercalate system),
    (plan msgs).flatMap anthropicTurn)

/-! ### OpenAI -/

/-- `arguments_string`: the arguments as the text of a document. -/
def argumentsString (arguments : Json) : String :=
  match arguments with
  | .null => "{}"
  | other => other.text

/-- The messages of a turn: every result is a message of its own. -/
def openaiTurn : Turn → List Json
  | .plain m => [obj [("role", str m.role.asStr), ("content", str m.content.prose)]]
  | .calls m calls =>
    let text := m.content.prose
    let toolCalls := calls.map fun (call, id) =>
      obj [("id", str id), ("type", str "function"),
        ("function", obj [("name", str call.name),
          ("arguments", str (argumentsString call.arguments))])]
    [obj [("role", str "assistant"), ("content", if text.isEmpty then null else str text),
      ("tool_calls", arr toolCalls)]]
  | .results run => run.map fun (m, id) =>
    obj [("role", str "tool"), ("tool_call_id", str id), ("content", str m.content.prose)]

/-- `openai_messages`. -/
def openaiMessages (msgs : List ChatMessage) : List Json := (plan msgs).flatMap openaiTurn

/-! ### Arguments in key-sorted form -/

/-- The call, its arguments in key-sorted form. -/
def ToolCall.sorted (c : ToolCall) : ToolCall := { c with arguments := sortKeys c.arguments }

def ChatMessage.sorted (m : ChatMessage) : ChatMessage :=
  { m with toolCalls := m.toolCalls.map ToolCall.sorted }

def RenderedPrompt.sorted : RenderedPrompt → RenderedPrompt
  | text s => text s
  | messages ms => messages (ms.map ChatMessage.sorted)

def Turn.sorted : Turn → Turn
  | plain m => plain m.sorted
  | calls m cs => calls m.sorted (cs.map fun c => (c.1.sorted, c.2))
  | results run => results (run.map fun r => (r.1.sorted, r.2))

theorem callIds_sorted (i : ℕ) (calls : List ToolCall) :
    callIds i (calls.map ToolCall.sorted) =
      (callIds i calls).map fun c => (c.1.sorted, c.2) := by
  simp [callIds, List.zipIdx_map, Function.comp_def, ToolCall.sorted]

theorem resultIds_sorted (start : ℕ) (openCalls : List String) (run : List ChatMessage) :
    resultIds start openCalls (run.map ChatMessage.sorted) =
      (resultIds start openCalls run).map fun r => (r.1.sorted, r.2) := by
  simp [resultIds, List.zipIdx_map, Function.comp_def, ChatMessage.sorted]

/-- The plan looks at ids, not at arguments. -/
theorem planFrom_sorted (i : ℕ) (openCalls : List String) (msgs : List ChatMessage) :
    planFrom i openCalls (msgs.map ChatMessage.sorted) =
      (planFrom i openCalls msgs).map Turn.sorted := by
  have hrole : ∀ m : ChatMessage, m.sorted.role = m.role := fun _ => rfl
  have hcalls : ∀ m : ChatMessage, m.sorted.toolCalls = m.toolCalls.map ToolCall.sorted :=
    fun _ => rfl
  induction i, openCalls, msgs using planFrom.induct with
  | case1 i openCalls => simp [planFrom]
  | case2 i openCalls m ms htool run ih =>
    have hrun : ((ms.map ChatMessage.sorted).takeWhile fun m => decide (m.role = .tool)) =
        (ms.takeWhile fun m => decide (m.role = .tool)).map ChatMessage.sorted := by
      rw [List.takeWhile_map]
      rfl
    have hrest : ((ms.map ChatMessage.sorted).dropWhile fun m => decide (m.role = .tool)) =
        (ms.dropWhile fun m => decide (m.role = .tool)).map ChatMessage.sorted := by
      rw [List.dropWhile_map]
      rfl
    rw [List.map_cons, planFrom, planFrom, hrole, if_pos htool, if_pos htool, hrun, hrest]
    dsimp only
    rw [← List.map_cons, resultIds_sorted, List.length_map, ih, List.map_cons]
    rfl
  | case3 i openCalls m ms htool hempty ih =>
    have hempty' : m.sorted.toolCalls.isEmpty = true := by simpa [hcalls] using hempty
    rw [List.map_cons, planFrom, planFrom, hrole, if_neg htool, if_neg htool, if_pos hempty,
      if_pos hempty', ih, List.map_cons]
    rfl
  | case4 i openCalls m ms htool hempty calls ih =>
    have hempty' : ¬m.sorted.toolCalls.isEmpty = true := by simpa [hcalls] using hempty
    rw [List.map_cons, planFrom, planFrom, hrole, if_neg htool, if_neg htool, if_neg hempty,
      if_neg hempty', hcalls, callIds_sorted]
    dsimp only
    rw [List.map_map, List.map_cons]
    exact congrArg _ ih

/-! ### What a prompt's document says -/

/-- The values an object's document gives to a name. -/
theorem member?_of_sortKeys_eq {ms ns : List (String × Json)} (hm : (names ms).Nodup)
    (hn : (names ns).Nodup) (h : sortKeys (obj ms) = sortKeys (obj ns)) (k : String) :
    (member? k ms).map sortKeys = (member? k ns).map sortKeys :=
  (sortKeys_obj_iff hm hn).mp h k

theorem map_sortKeys_str {s t : Option String}
    (h : (s.map str).map sortKeys = (t.map str).map sortKeys) : s = t := by
  cases s <;> cases t <;> simp_all [sortKeys]

theorem ToolCall.sorted_eq {a b : ToolCall} (h : sortKeys a.toJson = sortKeys b.toJson) :
    a.sorted = b.sorted := by
  have hnames : ∀ c : ToolCall, (names (optMember "id" (c.id.map str) ++
      [("name", str c.name), ("arguments", c.arguments)])).Nodup := by
    intro c
    cases c.id <;> simp [names, optMember]
  have hget := member?_of_sortKeys_eq (hnames a) (hnames b) h
  have hid : a.id = b.id := map_sortKeys_str (by simpa [member?_append] using hget "id")
  have hname : a.name = b.name := by
    simpa [member?_append, sortKeys_str] using hget "name"
  have harguments : sortKeys a.arguments = sortKeys b.arguments := by
    simpa [member?_append] using hget "arguments"
  rw [ToolCall.sorted, ToolCall.sorted, hid, hname, harguments]

theorem ContentBlock.toJson_inj {a b : ContentBlock} (h : sortKeys a.toJson = sortKeys b.toJson) :
    a = b := by
  have htext : ∀ t : String, (names [("type", str "text"), ("text", str t)]).Nodup := by
    simp [names]
  have hthinking : ∀ (t : String) (s : Option String), (names ([("type", str "thinking"),
      ("thinking", str t)] ++ optMember "signature" (s.map str))).Nodup := by
    intro t s
    cases s <;> simp [names, optMember]
  cases a with
  | text s => cases b with
    | text t =>
      have := member?_of_sortKeys_eq (htext s) (htext t) h "text"
      rw [show s = t by simpa [sortKeys_str] using this]
    | thinking t sig =>
      have := member?_of_sortKeys_eq (htext s) (hthinking t sig) h "type"
      simp [sortKeys_str] at this
  | thinking s sig => cases b with
    | text t =>
      have := member?_of_sortKeys_eq (hthinking s sig) (htext t) h "type"
      simp [sortKeys_str] at this
    | thinking t sig' =>
      have hget := member?_of_sortKeys_eq (hthinking s sig) (hthinking t sig') h
      have hbody : s = t := by simpa [member?_append, sortKeys_str] using hget "thinking"
      have hsig : sig = sig' := map_sortKeys_str (by simpa [member?_append] using hget "signature")
      rw [hbody, hsig]

theorem MessageContent.toJson_inj {a b : MessageContent}
    (h : sortKeys a.toJson = sortKeys b.toJson) : a = b := by
  cases a with
  | text s => cases b with
    | text t =>
      rw [MessageContent.toJson, MessageContent.toJson, sortKeys_str, sortKeys_str] at h
      rw [Json.str.inj h]
    | blocks bs => simp [MessageContent.toJson, sortKeys] at h
  | blocks as => cases b with
    | text t => simp [MessageContent.toJson, sortKeys] at h
    | blocks bs =>
      rw [MessageContent.toJson, MessageContent.toJson, sortKeys_arr, sortKeys_arr,
        Json.arr.injEq, List.map_map, List.map_map] at h
      have := map_eq_of_decides (g := id) (fun _ _ => ContentBlock.toJson_inj) h
      rw [List.map_id, List.map_id] at this
      rw [this]

theorem ChatRole.asStr_inj {a b : ChatRole} (h : a.asStr = b.asStr) : a = b := by
  cases a <;> cases b <;> first | rfl | simp [ChatRole.asStr] at h

theorem ChatMessage.sorted_eq {a b : ChatMessage} (h : sortKeys a.toJson = sortKeys b.toJson) :
    a.sorted = b.sorted := by
  have hnames : ∀ m : ChatMessage, (names ([("role", str m.role.asStr),
      ("content", m.content.toJson)] ++ optMember "tool_calls"
        (if m.toolCalls.isEmpty then none else some (arr (m.toolCalls.map ToolCall.toJson))) ++
      optMember "tool_call_id" (m.toolCallId.map str))).Nodup := by
    intro m
    cases m.toolCallId <;> by_cases h : m.toolCalls.isEmpty = true <;> simp [names, optMember, h]
  have hget := member?_of_sortKeys_eq (hnames a) (hnames b) h
  have hrole : a.role = b.role := ChatRole.asStr_inj (by
    simpa [member?_append, sortKeys_str] using hget "role")
  have hcontent : a.content = b.content := MessageContent.toJson_inj (by
    simpa [member?_append] using hget "content")
  have hid : a.toolCallId = b.toolCallId := map_sortKeys_str (by
    simpa [member?_append] using hget "tool_call_id")
  have hcalls : a.toolCalls.map ToolCall.sorted = b.toolCalls.map ToolCall.sorted := by
    have hcalls := hget "tool_calls"
    simp only [member?_append, member?_cons, member?_optMember, member?_nil] at hcalls
    -- an empty list is not written, and no other is written as nothing
    by_cases ha : a.toolCalls.isEmpty = true <;> by_cases hb : b.toolCalls.isEmpty = true
    · rw [List.isEmpty_iff.mp ha, List.isEmpty_iff.mp hb]
    · simp [ha, hb] at hcalls
    · simp [ha, hb] at hcalls
    · simp only [ha, hb] at hcalls
      refine map_eq_of_decides (f := sortKeys ∘ ToolCall.toJson) (fun _ _ => ToolCall.sorted_eq) ?_
      simpa [sortKeys_arr] using hcalls
  rw [ChatMessage.sorted, ChatMessage.sorted, hrole, hcontent, hid, hcalls]

/-- **What a prompt's document says**: everything but the order of members inside the
arguments of calls. -/
theorem RenderedPrompt.sorted_eq {p q : RenderedPrompt}
    (h : sortKeys p.toJson = sortKeys q.toJson) : p.sorted = q.sorted := by
  have hone : ∀ (k : String) (v : Json), (names [(k, v)]).Nodup := by simp [names]
  cases p with
  | text s => cases q with
    | text t =>
      have := member?_of_sortKeys_eq (hone _ _) (hone _ _) h "text"
      rw [show s = t by simpa [sortKeys_str] using this]
    | messages ms =>
      have := member?_of_sortKeys_eq (hone _ _) (hone _ _) h "text"
      simp at this
  | messages ms => cases q with
    | text t =>
      have := member?_of_sortKeys_eq (hone _ _) (hone _ _) h "text"
      simp at this
    | messages ns =>
      have := member?_of_sortKeys_eq (hone _ _) (hone _ _) h "messages"
      have hmap : ms.map ChatMessage.sorted = ns.map ChatMessage.sorted := by
        refine map_eq_of_decides (f := sortKeys ∘ ChatMessage.toJson)
          (fun _ _ => ChatMessage.sorted_eq) ?_
        simpa [sortKeys_arr] using this
      rw [RenderedPrompt.sorted, RenderedPrompt.sorted, hmap]

/-! ### Anthropic is sent documents -/

theorem sortKeys_inputOf {a b : Json} (h : sortKeys a = sortKeys b) :
    sortKeys (inputOf a) = sortKeys (inputOf b) := by
  -- an absent argument is absent on both sides, any other is sent as it is
  cases a <;> cases b <;> simp_all [inputOf, sortKeys]

theorem anthropicSystem_congr {t t' : Turn} (h : t.sorted = t'.sorted) :
    anthropicSystem t = anthropicSystem t' := by
  have hsorted : ∀ t : Turn, anthropicSystem t.sorted = anthropicSystem t := by
    intro t
    cases t <;> rfl
  rw [← hsorted t, h, hsorted]

theorem anthropicTurn_congr {t t' : Turn} (h : t.sorted = t'.sorted) :
    (anthropicTurn t).map sortKeys = (anthropicTurn t').map sortKeys := by
  cases t with
  | plain m => cases t' with
    | plain m' =>
      have hturn : ∀ m : ChatMessage, anthropicTurn (.plain m.sorted) = anthropicTurn (.plain m) :=
        fun _ => rfl
      rw [← hturn m, ← hturn m', Turn.plain.inj h]
    | calls | results => cases h
  | results run => cases t' with
    | results run' =>
      have hturn : ∀ run, anthropicTurn (Turn.sorted (.results run)) =
          anthropicTurn (.results run) := by
        intro run
        simp [Turn.sorted, anthropicTurn, Function.comp_def, ChatMessage.sorted]
      rw [← hturn run, ← hturn run', h]
    | plain | calls => cases h
  | calls m cs => cases t' with
    | calls m' cs' =>
      obtain ⟨hm, hcs⟩ := Turn.calls.inj h
      have hcontent : m.content = m'.content := (ChatMessage.mk.inj hm).2.1
      have hblocks := map_eq_of_decides
        (g := fun c => sortKeys (obj [("type", str "tool_use"), ("id", str c.2),
          ("name", str c.1.name), ("input", inputOf c.1.arguments)]))
        (by
          rintro ⟨a, i⟩ ⟨b, j⟩ hab
          obtain ⟨hc, rfl⟩ := Prod.mk.inj hab
          obtain ⟨-, hname, hargs⟩ := ToolCall.mk.inj hc
          dsimp only at hname hargs ⊢
          rw [hname, sortKeys_obj, sortKeys_obj]
          simp only [List.map_cons, List.map_nil, sortKeys_inputOf hargs]) hcs
      simp only [anthropicTurn, List.map_cons, List.map_nil, hcontent, sortKeys_obj, sortKeys_arr,
        List.map_append, List.map_map, Function.comp_def] at hblocks ⊢
      rw [hblocks]
    | plain | results => cases h

/-- **Anthropic is sent the same messages for prompts with one document.** -/
theorem anthropicMessages_congr {ms ns : List ChatMessage}
    (h : ms.map ChatMessage.sorted = ns.map ChatMessage.sorted) :
    (anthropicMessages ms).1 = (anthropicMessages ns).1 ∧
      (anthropicMessages ms).2.map sortKeys = (anthropicMessages ns).2.map sortKeys := by
  have hplan : (plan ms).map Turn.sorted = (plan ns).map Turn.sorted := by
    rw [plan, plan, ← planFrom_sorted, ← planFrom_sorted, h]
  have hsystem : (plan ms).filterMap anthropicSystem = (plan ns).filterMap anthropicSystem := by
    have := map_eq_of_decides (fun _ _ => anthropicSystem_congr) hplan
    simpa only [List.filterMap_map, Function.id_comp] using congrArg (List.filterMap id) this
  constructor
  · rw [anthropicMessages, anthropicMessages, hsystem]
  · have := map_eq_of_decides (g := fun t => (anthropicTurn t).map sortKeys)
      (fun _ _ => anthropicTurn_congr) hplan
    rw [anthropicMessages, anthropicMessages, List.map_flatMap, List.map_flatMap,
      List.flatMap_def, List.flatMap_def, this]
