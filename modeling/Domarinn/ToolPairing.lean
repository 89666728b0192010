/-
Which call each tool result answers, in a rendered transcript.

A result names its call, or answers the call at its own position in the round.  Both
mappings send the ids one `plan` resolved, so they cannot disagree; what can go wrong is
inside a round that mixes the two, where a position is not skipped for being named.

* **`PairingSound`** — what both vendors demand: one sequence of ids, an unambiguous round,
  the two roles of Anthropic;
* **`renderMessage_coherent`** — a turn that renders keeps calls to the assistant and ids to
  results;
* **`pairingSound_iff`** — it holds of the transcripts where no position left to a result
  without an id is a call that another result of the round answers;
* **`pairs_nodup_of_named_eq_nil`** — so a round that names no id is never mispaired.
-/
import Domarinn.ChatWire
import Domarinn.Template
import Mathlib.Data.List.TakeWhile

open Json

/-! ### Turns, as a suite writes them -/

structure ToolCallSpec where
  id : Option String
  name : String
  arguments : Json

inductive ContentBlockSpec where
  | text (text : String)
  | thinking (thinking : String) (signature : Option String)

inductive MessageContentSpec where
  | text (s : String)
  | blocks (blocks : List ContentBlockSpec)

/-- `Message`: a turn of a prompt or of a case's history. -/
structure Message where
  role : ChatRole
  content : Option MessageContentSpec
  toolCalls : List ToolCallSpec
  toolCallId : Option String

/-- `turn_problem`: what makes a turn mean nothing at all. -/
def turnProblem (m : Message) : Option String :=
  if m.content.isNone && m.toolCalls.isEmpty then
    some "a turn needs `content`, `tool_calls`, or both"
  else if !m.toolCalls.isEmpty && m.role != .assistant then
    some ("`tool_calls` belongs on an `assistant` turn, not `" ++ m.role.asStr ++ "`")
  else if m.toolCallId.isSome && m.role != .tool then
    some ("`tool_call_id` belongs on a `tool` turn, not `" ++ m.role.asStr ++ "`")
  else none

/-- `RenderError`, as far as a turn meets it. -/
inductive RenderError where
  | template (message : String)
  | load (message : String)
  | badTurn (problem : String)

section
variable (ctx : Json) (engine : TemplateEngine) (loadContent : String → Except RenderError String)

def renderText (s : String) : Except RenderError String := do
  let source ← loadContent s
  (engine.renderStr source ctx).mapError .template

/-- `render_content`: a thinking block is copied, never rendered. -/
def renderContent : MessageContentSpec → Except RenderError MessageContent
  | .text s => .text <$> renderText ctx engine loadContent s
  | .blocks bs => .blocks <$> bs.mapM fun b => match b with
      | .text text => .text <$> renderText ctx engine loadContent text
      | .thinking thinking signature => return .thinking thinking signature

/-- A turn without content says nothing. -/
def turnContent : Option MessageContentSpec → Except RenderError MessageContent
  | some spec => renderContent ctx engine loadContent spec
  | none => return .text ""

/-- A call keeps its id and its name; absent arguments are an empty object. -/
def renderToolCall (tc : ToolCallSpec) : Except RenderError ToolCall := do
  let arguments ← (engine.renderJson ctx tc.arguments).mapError .template
  return { id := tc.id, name := tc.name, arguments := inputOf arguments }

/-- `render_message`. -/
def renderMessage (message : Message) : Except RenderError ChatMessage :=
  match turnProblem message with
  | some problem => .error (.badTurn problem)
  | none => do
    let content ← turnContent ctx engine loadContent message.content
    let toolCalls ← message.toolCalls.mapM (renderToolCall ctx engine)
    return { role := message.role, content, toolCalls, toolCallId := message.toolCallId }

/-- `render_messages`. -/
def renderMessages (messages : List Message) : Except RenderError (List ChatMessage) :=
  messages.mapM (renderMessage ctx engine loadContent)

end

/-- The turn checks, as one condition. -/
theorem turnProblem_eq_none {m : Message} : turnProblem m = none ↔
    (m.content.isSome ∨ m.toolCalls ≠ []) ∧ (m.toolCalls ≠ [] → m.role = .assistant) ∧
      (m.toolCallId.isSome → m.role = .tool) := by
  rw [turnProblem]
  split_ifs with hempty hcalls hid
  · simp_all
  · simp_all
  · simp_all
  · simp only [Bool.and_eq_true, Bool.not_eq_true', bne_iff_ne, not_and, not_not,
      Option.isNone_iff_eq_none, List.isEmpty_iff, List.isEmpty_eq_false_iff] at hempty hcalls hid
    refine ⟨fun _ => ⟨?_, hcalls, hid⟩, fun _ => rfl⟩
    rcases hcontent : m.content with _ | spec
    · exact .inr (hempty hcontent)
    · exact .inl rfl

/-- A turn that renders passed the checks, and keeps what they are about: its calls are an
assistant's, and only a result names a call. -/
theorem renderMessage_coherent {ctx : Json} {engine : TemplateEngine}
    {loadContent : String → Except RenderError String} {message : Message} {m : ChatMessage}
    (h : renderMessage ctx engine loadContent message = .ok m) :
    turnProblem message = none ∧ (m.toolCalls ≠ [] → m.role = .assistant) ∧
      (m.toolCallId.isSome → m.role = .tool) := by
  rw [renderMessage] at h
  cases hproblem : turnProblem message with
  | some problem =>
    rw [hproblem] at h
    cases h
  | none =>
    obtain ⟨-, hcalls, hid⟩ := turnProblem_eq_none.mp hproblem
    rw [hproblem] at h
    dsimp only at h
    obtain ⟨content, -, h⟩ := bind_ok h
    obtain ⟨toolCalls, htoolCalls, h⟩ := bind_ok h
    cases h
    refine ⟨rfl, fun hne => hcalls fun hnil => hne ?_, hid⟩
    rw [hnil, List.mapM_nil] at htoolCalls
    exact (Except.ok.inj htoolCalls).symm

/-! ### The ids on the wire -/

/-- An id as a vendor receives it: a call's own, or the one a result answers. -/
inductive WireId where
  | call (id : String)
  | result (id : String)
deriving DecidableEq

/-- The elements of an array member. -/
def elements (k : String) (message : Json) : List Json :=
  match getMember message k with
  | some (.arr items) => items
  | _ => []

/-- The text of a string member. -/
def strMember (k : String) (v : Json) : Option String := (getMember v k).bind asStr?

/-- The id of a block to Anthropic; prose has none. -/
def blockId (block : Json) : Option WireId :=
  if strMember "type" block = some "tool_use" then (strMember "id" block).map .call
  else if strMember "type" block = some "tool_result" then
    (strMember "tool_use_id" block).map .result
  else none

/-- The ids of a message to Anthropic. -/
def anthropicIds (message : Json) : List WireId :=
  (elements "content" message).filterMap blockId

/-- The ids of a message to OpenAI. -/
def openaiIds (message : Json) : List WireId :=
  ((elements "tool_calls" message).filterMap fun call => (strMember "id" call).map .call) ++
    ((strMember "tool_call_id" message).map .result).toList

/-- The ids the plan resolved for a turn. -/
def Turn.ids : Turn → List WireId
  | plain _ => []
  | calls _ cs => cs.map fun (_, id) => .call id
  | results run => run.map fun (_, id) => .result id

theorem blockId_anthropicBlock (b : ContentBlock) : blockId (anthropicBlock b) = none := by
  cases b with
  | text t => rfl
  | thinking t signature => rfl

/-- Prose has no id in it, however it is written. -/
theorem filterMap_anthropicBlocks (content : MessageContent) :
    (anthropicBlocks content).filterMap blockId = [] := by
  rw [List.filterMap_eq_nil_iff]
  intro block hblock
  cases content with
  | text s =>
    rw [anthropicBlocks] at hblock
    split_ifs at hblock
    · simp at hblock
    · rw [List.mem_singleton] at hblock
      subst hblock
      rfl
  | blocks bs =>
    rw [anthropicBlocks, List.mem_map] at hblock
    obtain ⟨b, -, rfl⟩ := hblock
    exact blockId_anthropicBlock b

/-- **Anthropic is sent the ids of the plan**, the results of a round in one message. -/
theorem anthropicTurn_ids (t : Turn) : (anthropicTurn t).flatMap anthropicIds = t.ids := by
  cases t with
  | plain m =>
    rw [anthropicTurn]
    split_ifs with hsystem
    · rfl
    · -- a bare string is not a list of blocks, and a list of blocks is prose
      rw [List.flatMap_singleton, anthropicIds]
      cases hcontent : m.content with
      | text s => rfl
      | blocks bs => exact filterMap_anthropicBlocks (.blocks bs)
  | calls m cs =>
    rw [anthropicTurn, List.flatMap_singleton]
    change (anthropicBlocks m.content ++ cs.map _).filterMap blockId = _
    rw [List.filterMap_append, filterMap_anthropicBlocks, List.nil_append, List.filterMap_map]
    exact congrFun List.filterMap_eq_map' cs
  | results run =>
    rw [anthropicTurn, List.flatMap_singleton]
    change (run.map _).filterMap blockId = _
    rw [List.filterMap_map]
    exact congrFun List.filterMap_eq_map' run

/-- **So is OpenAI**, each result in a message of its own. -/
theorem openaiTurn_ids (t : Turn) : (openaiTurn t).flatMap openaiIds = t.ids := by
  cases t with
  | plain m => rfl
  | calls m cs =>
    rw [openaiTurn, List.flatMap_singleton]
    change (cs.map _).filterMap _ ++ [] = _
    rw [List.append_nil, List.filterMap_map]
    exact congrFun List.filterMap_eq_map' cs
  | results run =>
    rw [openaiTurn, List.flatMap_map]
    change run.flatMap (fun r => [WireId.result r.2]) = _
    rw [← List.map_eq_flatMap]
    rfl

theorem anthropicMessages_ids (msgs : List ChatMessage) :
    (anthropicMessages msgs).2.flatMap anthropicIds = (plan msgs).flatMap Turn.ids := by
  rw [anthropicMessages, List.flatMap_assoc]
  exact List.flatMap_congr fun t _ => anthropicTurn_ids t

theorem openaiMessages_ids (msgs : List ChatMessage) :
    (openaiMessages msgs).flatMap openaiIds = (plan msgs).flatMap Turn.ids := by
  rw [openaiMessages, List.flatMap_assoc]
  exact List.flatMap_congr fun t _ => openaiTurn_ids t

/-! ### The walk over a transcript -/

/-- The turns of the transcript a planned turn stands for. -/
def Turn.messages : Turn → List ChatMessage
  | plain m => [m]
  | calls m _ => [m]
  | results run => run.map Prod.fst

/-- A span does not go past an element that ends it. -/
theorem span_append_of_head {α : Type} {p : α → Bool} (xs ys : List α)
    (h : ∀ y ∈ ys.head?, p y = false) :
    (xs ++ ys).takeWhile p = xs.takeWhile p ∧
      (xs ++ ys).dropWhile p = xs.dropWhile p ++ ys := by
  induction xs with
  | nil =>
    cases ys with
    | nil => simp
    | cons y ys =>
      have hy : ¬p y = true := by simpa using h y rfl
      rw [List.nil_append, List.takeWhile_cons_of_neg hy, List.dropWhile_cons_of_neg hy]
      exact ⟨rfl, rfl⟩
  | cons x xs ih =>
    rw [List.cons_append]
    by_cases hx : p x = true
    · rw [List.takeWhile_cons_of_pos hx, List.takeWhile_cons_of_pos hx,
        List.dropWhile_cons_of_pos hx, List.dropWhile_cons_of_pos hx, ih.1]
      exact ⟨rfl, ih.2⟩
    · rw [List.takeWhile_cons_of_neg hx, List.takeWhile_cons_of_neg hx,
        List.dropWhile_cons_of_neg hx, List.dropWhile_cons_of_neg hx]
      exact ⟨rfl, rfl⟩

section
variable (i : ℕ) (openCalls : List String)

theorem resultIds_fst (start : ℕ) (run : List ChatMessage) :
    (resultIds start openCalls run).map Prod.fst = run := by
  rw [resultIds, List.map_map]
  exact List.zipIdx_map_fst 0 run

/-- The plan is the transcript, grouped: nothing is dropped and nothing moves. -/
theorem planFrom_messages (msgs : List ChatMessage) :
    (planFrom i openCalls msgs).flatMap Turn.messages = msgs := by
  induction i, openCalls, msgs using planFrom.induct with
  | case1 i openCalls => simp [planFrom]
  | case2 i openCalls m ms htool run ih =>
    rw [planFrom, if_pos htool, List.flatMap_cons, ih, Turn.messages, resultIds_fst,
      List.cons_append, List.takeWhile_append_dropWhile]
  | case3 i openCalls m ms htool hempty ih =>
    rw [planFrom, if_neg htool, if_pos hempty, List.flatMap_cons, ih]
    rfl
  | case4 i openCalls m ms htool hempty calls ih =>
    rw [planFrom, if_neg htool, if_neg hempty, List.flatMap_cons, ih]
    rfl

/-- A result is never a plain turn. -/
theorem role_of_plain_mem {m : ChatMessage} (msgs : List ChatMessage)
    (h : .plain m ∈ planFrom i openCalls msgs) : m.role ≠ .tool := by
  induction i, openCalls, msgs using planFrom.induct with
  | case1 i openCalls => simp [planFrom] at h
  | case2 i openCalls m' ms htool run ih =>
    rw [planFrom, if_pos htool, List.mem_cons] at h
    exact ih (h.resolve_left (by simp))
  | case3 i openCalls m' ms htool hempty ih =>
    rw [planFrom, if_neg htool, if_pos hempty, List.mem_cons] at h
    rcases h with h | h
    · rw [Turn.plain.inj h]
      exact htool
    · exact ih h
  | case4 i openCalls m' ms htool hempty calls ih =>
    rw [planFrom, if_neg htool, if_neg hempty, List.mem_cons] at h
    exact ih (h.resolve_left (by simp))

/-- The walk over a first part, and from its end over the rest: no run of results goes
over the seam. -/
theorem planFrom_append (pre post : List ChatMessage)
    (hpost : ∀ m ∈ post.head?, m.role ≠ .tool) :
    ∃ openCalls', planFrom i openCalls (pre ++ post) =
      planFrom i openCalls pre ++ planFrom (i + pre.length) openCalls' post := by
  induction i, openCalls, pre using planFrom.induct with
  | case1 i openCalls => exact ⟨openCalls, by simp [planFrom]⟩
  | case2 i openCalls m ms htool run ih =>
    obtain ⟨openCalls', ih⟩ := ih
    refine ⟨openCalls', ?_⟩
    -- the run of the longer transcript is the run of its first part
    obtain ⟨htake, hdrop⟩ := span_append_of_head ms post
      (p := fun m : ChatMessage => decide (m.role = .tool)) fun m hm =>
        decide_eq_false (hpost m hm)
    have hlength : i + (m :: ms).length =
        i + run.length + (ms.dropWhile fun m => decide (m.role = .tool)).length := by
      have := congrArg List.length (List.takeWhile_append_dropWhile
        (p := fun m : ChatMessage => decide (m.role = .tool)) (l := ms))
      rw [List.length_append] at this
      simp only [run, List.length_cons]
      omega
    rw [List.cons_append, planFrom, planFrom, if_pos htool, if_pos htool, htake, hdrop, hlength]
    dsimp only
    rw [ih, List.cons_append]
  | case3 i openCalls m ms htool hempty ih =>
    obtain ⟨openCalls', ih⟩ := ih
    refine ⟨openCalls', ?_⟩
    rw [List.cons_append, planFrom, planFrom, if_neg htool, if_neg htool, if_pos hempty,
      if_pos hempty, ih, List.length_cons, Nat.add_comm ms.length, ← Nat.add_assoc,
      List.cons_append]
  | case4 i openCalls m ms htool hempty calls ih =>
    obtain ⟨openCalls', ih⟩ := ih
    refine ⟨openCalls', ?_⟩
    rw [List.cons_append, planFrom, planFrom, if_neg htool, if_neg htool, if_neg hempty,
      if_neg hempty, List.length_cons, Nat.add_comm ms.length, ← Nat.add_assoc]
    dsimp only
    rw [ih, List.cons_append]

theorem planFrom_plain (msgs post : List ChatMessage)
    (h : ∀ m ∈ msgs, m.role ≠ .tool ∧ m.toolCalls = []) :
    planFrom i openCalls (msgs ++ post) =
      msgs.map .plain ++ planFrom (i + msgs.length) openCalls post := by
  induction msgs generalizing i with
  | nil => rfl
  | cons m ms ih =>
    obtain ⟨hrole, hcalls⟩ := h m List.mem_cons_self
    rw [List.cons_append, planFrom, if_neg hrole, if_pos (List.isEmpty_iff.mpr hcalls),
      ih (i + 1) fun m' hm' => h m' (List.mem_cons_of_mem m hm'), List.length_cons,
      Nat.add_comm ms.length, ← Nat.add_assoc]
    rfl

theorem planFrom_run {run after : List ChatMessage} (hne : run ≠ [])
    (hrun : ∀ m ∈ run, m.role = .tool) (hafter : ∀ m ∈ after.head?, m.role ≠ .tool) :
    planFrom i openCalls (run ++ after) =
      .results (resultIds i openCalls run) :: planFrom (i + run.length) [] after := by
  obtain ⟨m, ms, rfl⟩ := List.exists_cons_of_ne_nil hne
  obtain ⟨htake, hdrop⟩ := span_append_of_head ms after
    (p := fun m : ChatMessage => decide (m.role = .tool)) fun m hm =>
      decide_eq_false (hafter m hm)
  have hms : ∀ m' ∈ ms, decide (m'.role = .tool) = true := fun m' hm' =>
    decide_eq_true (hrun m' (List.mem_cons_of_mem m hm'))
  rw [List.takeWhile_eq_self_iff.mpr hms] at htake
  rw [List.dropWhile_eq_nil_iff.mpr hms, List.nil_append] at hdrop
  rw [List.cons_append, planFrom, if_pos (hrun m List.mem_cons_self), htake, hdrop]

end

/-! ### Rounds -/

/-- A round of results in a transcript, with the assistant turn it follows. -/
structure Round (msgs : List ChatMessage) where
  before : List ChatMessage
  turn : ChatMessage
  between : List ChatMessage
  run : List ChatMessage
  after : List ChatMessage
  split : msgs = before ++ turn :: (between ++ (run ++ after))
  assistant : turn.role = .assistant
  calls : turn.toolCalls ≠ []
  plain : ∀ m ∈ between, m.role ≠ .tool ∧ m.toolCalls = []
  answered : run ≠ []
  results : ∀ m ∈ run, m.role = .tool
  maximal : ∀ m ∈ after.head?, m.role ≠ .tool

namespace Round

variable {msgs : List ChatMessage} (r : Round msgs)

/-- The ids of the round's calls: given, or derived from the position of the turn. -/
def ids : List String := (callIds r.before.length r.turn.toolCalls).map Prod.snd

/-- The ids that results of the round name. -/
def named : List String := r.run.filterMap ChatMessage.toolCallId

/-- The ids of the calls at whose positions the results name none. -/
def byPosition : List String :=
  (r.run.zip r.ids).filterMap fun (m, id) => if m.toolCallId.isNone then some id else none

/-- No more results than calls, and the named ones are distinct calls of the round. -/
structure InScope : Prop where
  length_le : r.run.length ≤ r.ids.length
  nodup : r.named.Nodup
  subset : r.named ⊆ r.ids

/-- Each result, with the id it is sent with. -/
def pairs : List (ChatMessage × String) :=
  resultIds (r.before.length + 1 + r.between.length) r.ids r.run

/-- The round stands in the plan, where it stands in the transcript. -/
theorem exists_plan : ∃ pre post, plan msgs = pre ++ .results r.pairs :: post ∧
    pre.flatMap Turn.messages = r.before ++ r.turn :: r.between := by
  have hturn : ∀ m ∈ (r.turn :: (r.between ++ (r.run ++ r.after))).head?, m.role ≠ .tool := by
    simp [r.assistant]
  obtain ⟨openCalls, happend⟩ := planFrom_append 0 [] r.before _ hturn
  have hcalls : ¬r.turn.toolCalls.isEmpty = true := by simpa using r.calls
  have hrole : ¬r.turn.role = .tool := by simp [r.assistant]
  refine ⟨planFrom 0 [] r.before ++ .calls r.turn (callIds r.before.length r.turn.toolCalls) ::
    r.between.map .plain, planFrom (r.before.length + 1 + r.between.length + r.run.length) []
      r.after, ?_, ?_⟩
  · rw [plan]
    conv_lhs => rw [r.split]
    rw [happend, Nat.zero_add, planFrom, if_neg hrole, if_neg hcalls]
    dsimp only
    rw [planFrom_plain _ _ r.between _ r.plain, planFrom_run _ _ r.answered r.results r.maximal,
      List.append_assoc, List.cons_append]
    rfl
  · rw [List.flatMap_append, planFrom_messages, List.flatMap_cons, List.flatMap_map]
    exact congrArg (fun l => r.before ++ r.turn :: l) (List.flatMap_singleton' r.between)

end Round

/-- With a call for every result, a result without an id takes the one at its position. -/
theorem resultIds_snd (start : ℕ) (ids : List String) (run : List ChatMessage)
    (h : run.length ≤ ids.length) : (resultIds start ids run).map Prod.snd =
      (run.zip ids).map fun (m, id) => m.toolCallId.getD id := by
  refine List.ext_getElem (by simp [resultIds, h]) fun n hn _ => ?_
  have hid : n < ids.length := by
    simp only [resultIds, List.length_map, List.length_zipIdx] at hn
    omega
  simp only [resultIds, List.map_map, List.getElem_map, List.getElem_zipIdx, Function.comp_apply,
    List.getElem_zip, Nat.zero_add, List.getElem?_eq_getElem hid]
  have hrun : n < run.length := by simpa [resultIds] using hn
  cases run[n].toolCallId <;> rfl

/-- The ids of a round are those that are named and those that are taken by position. -/
theorem getD_perm (run : List ChatMessage) (ids : List String) (h : run.length ≤ ids.length) :
    List.Perm ((run.zip ids).map fun (m, id) => m.toolCallId.getD id)
      (run.filterMap ChatMessage.toolCallId ++
        (run.zip ids).filterMap fun (m, id) => if m.toolCallId.isNone then some id else none) := by
  induction run generalizing ids with
  | nil => simp
  | cons m run ih =>
    cases ids with
    | nil => simp at h
    | cons id ids =>
      have ih := ih ids (by simpa using h)
      rw [List.zip_cons_cons, List.map_cons]
      cases hm : m.toolCallId with
      | some named =>
        simpa [hm] using ih
      | none =>
        -- an id by position moves behind the named ones
        simpa [hm] using (ih.cons id).trans List.perm_middle.symm

namespace Round

variable {msgs : List ChatMessage} (r : Round msgs)

/-- Inside its scope, a round is unambiguous when its positions are. -/
theorem pairs_nodup_iff (h : r.InScope) : (r.pairs.map Prod.snd).Nodup ↔
    r.byPosition.Nodup ∧ ∀ id ∈ r.named, id ∉ r.byPosition := by
  rw [pairs, resultIds_snd _ _ _ h.length_le, (getD_perm r.run r.ids h.length_le).nodup_iff]
  change (r.named ++ r.byPosition).Nodup ↔ _
  rw [List.nodup_append]
  constructor
  · rintro ⟨-, hposition, hdisjoint⟩
    exact ⟨hposition, fun id hnamed hid => hdisjoint id hnamed id hid rfl⟩
  · rintro ⟨hposition, hdisjoint⟩
    refine ⟨h.nodup, hposition, fun id hnamed id' hid' heq => ?_⟩
    exact hdisjoint id hnamed (heq ▸ hid')

/-- A round that names no id needs its calls to be distinct, and nothing else. -/
theorem pairs_nodup_of_named_eq_nil (h : r.run.length ≤ r.ids.length) (hnamed : r.named = [])
    (hids : r.ids.Nodup) : (r.pairs.map Prod.snd).Nodup := by
  have hnone : ∀ m ∈ r.run, m.toolCallId = none := List.filterMap_eq_nil_iff.mp hnamed
  have hscope : r.InScope := ⟨h, by rw [hnamed]; exact List.nodup_nil, by simp [hnamed]⟩
  refine (r.pairs_nodup_iff hscope).mpr ⟨?_, by simp [hnamed]⟩
  -- the positions are the first of the calls
  have hposition : r.byPosition = r.ids.take r.run.length := by
    have hzip : r.byPosition = (r.run.zip r.ids).map Prod.snd := by
      rw [byPosition, ← List.filterMap_eq_map]
      refine List.filterMap_congr ?_
      rintro ⟨m, id⟩ hm
      simp [hnone m (List.of_mem_zip hm).1]
    rw [hzip, List.zip_eq_zip_take_min, Nat.min_eq_left h, List.take_length,
      List.map_snd_zip (List.length_take_le r.run.length r.ids)]
  rw [hposition]
  exact hids.sublist (List.take_sublist _ _)

end Round

/-- **What both vendors demand of the ids of a transcript.** -/
structure PairingSound (msgs : List ChatMessage) : Prop where
  /-- one sequence of call ids and result ids for both vendors -/
  same : (openaiMessages msgs).flatMap openaiIds = (anthropicMessages msgs).2.flatMap anthropicIds
  /-- and it is the sequence in which each round sends its pairs -/
  sent : ∀ r : Round msgs, ∃ pre post : List Turn,
    pre.flatMap Turn.messages = r.before ++ r.turn :: r.between ∧
      (openaiMessages msgs).flatMap openaiIds =
        pre.flatMap Turn.ids ++ r.pairs.map (fun p => .result p.2) ++ post.flatMap Turn.ids
  /-- no two results of a round claim one call -/
  unambiguous : ∀ r : Round msgs, r.InScope → (r.pairs.map Prod.snd).Nodup
  /-- Anthropic has two roles -/
  roles : ∀ message ∈ (anthropicMessages msgs).2,
    strMember "role" message = some "user" ∨ strMember "role" message = some "assistant"

theorem anthropicMessages_roles (msgs : List ChatMessage) :
    ∀ message ∈ (anthropicMessages msgs).2,
      strMember "role" message = some "user" ∨ strMember "role" message = some "assistant" := by
  intro message hmessage
  rw [anthropicMessages, List.mem_flatMap] at hmessage
  obtain ⟨t, ht, hmessage⟩ := hmessage
  cases t with
  | plain m =>
    -- a system turn is not a message, and a result is never a plain turn
    have htool := role_of_plain_mem 0 [] msgs ht
    rw [anthropicTurn] at hmessage
    split_ifs at hmessage with hsystem
    · simp at hmessage
    · rw [List.mem_singleton] at hmessage
      subst hmessage
      change some m.role.asStr = _ ∨ some m.role.asStr = _
      cases hrole : m.role with
      | system => exact absurd hrole hsystem
      | user => exact .inl rfl
      | assistant => exact .inr rfl
      | tool => exact absurd hrole htool
  | calls m cs =>
    rw [anthropicTurn, List.mem_singleton] at hmessage
    subst hmessage
    exact .inr rfl
  | results run =>
    rw [anthropicTurn, List.mem_singleton] at hmessage
    subst hmessage
    exact .inl rfl

/-- **Pairing is sound exactly where the positions left to results without an id are calls of
their own**: distinct, and named by no result of the round. -/
theorem pairingSound_iff (msgs : List ChatMessage) : PairingSound msgs ↔
    ∀ r : Round msgs, r.InScope → r.byPosition.Nodup ∧ ∀ id ∈ r.named, id ∉ r.byPosition := by
  constructor
  · intro h r hscope
    exact (r.pairs_nodup_iff hscope).mp (h.unambiguous r hscope)
  · intro h
    refine ⟨?_, fun r => ?_, fun r hscope => (r.pairs_nodup_iff hscope).mpr (h r hscope),
      anthropicMessages_roles msgs⟩
    · rw [openaiMessages_ids, anthropicMessages_ids]
    · obtain ⟨pre, post, hplan, hpre⟩ := r.exists_plan
      refine ⟨pre, post, hpre, ?_⟩
      rw [openaiMessages_ids, hplan, List.flatMap_append, List.flatMap_cons, List.append_assoc]
      rfl

/-! ### A named result out of order -/

/-- Calls `a` and `b`, answered by a result that names `b` and one that names none. -/
def outOfOrder : List Message :=
  [{ role := .assistant, content := none,
     toolCalls := [⟨some "a", "lookup", null⟩, ⟨some "b", "lookup", null⟩], toolCallId := none },
   { role := .tool, content := some (.text "pending"), toolCalls := [], toolCallId := some "b" },
   { role := .tool, content := some (.text "shipped"), toolCalls := [], toolCallId := none }]

/-- The transcript of `outOfOrder`. -/
def outOfOrderSent : List ChatMessage :=
  [{ role := .assistant, content := .text "",
     toolCalls := [⟨some "a", "lookup", obj []⟩, ⟨some "b", "lookup", obj []⟩],
     toolCallId := none },
   { role := .tool, content := .text "pending", toolCalls := [], toolCallId := some "b" },
   { role := .tool, content := .text "shipped", toolCalls := [], toolCallId := none }]

/-- **The turn checks accept the transcript, and both its results answer `b`.** -/
theorem outOfOrder_not_sound : (∀ turn ∈ outOfOrder, turnProblem turn = none) ∧
    renderMessages null ⟨fun s _ => .ok s, fun _ _ => .ok true⟩ .ok outOfOrder =
      .ok outOfOrderSent ∧ ¬PairingSound outOfOrderSent := by
  refine ⟨by decide, rfl, fun h => ?_⟩
  let r : Round outOfOrderSent :=
    { before := [], turn := outOfOrderSent[0], between := [], run := outOfOrderSent.tail,
      after := [], split := rfl, assistant := rfl, calls := by decide, plain := by simp,
      answered := by decide, results := by decide, maximal := by simp }
  have hclaims : r.pairs.map Prod.snd = ["b", "b"] := rfl
  have := h.unambiguous r ⟨by decide, by decide, by decide⟩
  rw [hclaims] at this
  exact absurd this (by decide)
