/-
What `validate` says of the turn that opens a history, against what is rendered.

A prompt is rendered around the history of a case: at its marker, after the leading system turns
where it has none, or before its template.  The check reads the place off the suite, without
rendering anything.

* **`requestPrompt_spec`** — a prompt that renders has one place for histories, and the check finds
  out whether only system turns stand before it;
* **`warned_iff`** — the warning is about the first turn of a history that is no system turn;
* **`history_warning_iff`** — so it is never missing where a transcript opens with that turn, and
  it is there only then, as long as every prompt renders;
* **`unrendered_is_warned`** — a prompt that does not render is warned about all the same.
-/
import Domarinn.Fallible
import Domarinn.Numerals
import Domarinn.Validate

open SuiteFile (HistorySpec)

/-! ### A prompt around a history -/

/-- `RenderError`, as far as a prompt meets it. -/
inductive PromptError where
  | turn (e : RenderError)
  | duplicateMarker (id : String)
  | emptyTranscript (id : String)
  | badPrompt (id : String)

/-- `ChatMessage::text`. -/
def ChatMessage.ofText (role : ChatRole) (text : String) : ChatMessage :=
  { role, content := .text text, toolCalls := [], toolCallId := none }

/-- The turns of a history, spliced in at a position. -/
def splice (at_ : ℕ) (history rendered : List ChatMessage) : List ChatMessage :=
  rendered.take at_ ++ history ++ rendered.drop at_

section
variable (ctx : Json) (engine : TemplateEngine) (loadContent : String → Except RenderError String)

/-- The turns of a prompt, after those of `rendered`, and where its marker stands among them. -/
def renderEntries (id : String) : List SuiteFile.PromptEntry → List ChatMessage → Option ℕ →
    Except PromptError (List ChatMessage × Option ℕ)
  | [], rendered, markerAt => .ok (rendered, markerAt)
  | .turn message :: entries, rendered, markerAt => do
    let m ← (renderMessage ctx engine loadContent message).mapError .turn
    renderEntries id entries (rendered ++ [m]) markerAt
  | .marker :: entries, rendered, markerAt =>
    if markerAt.isSome then .error (.duplicateMarker id)
    else renderEntries id entries rendered (some rendered.length)

/-- `render_prompt_with_history`. -/
def renderPromptWithHistory (prompt : SuiteFile.Prompt) (history : List ChatMessage) :
    Except PromptError RenderedPrompt :=
  match prompt.template, prompt.messages with
  | some template, none => do
    let text ← (renderText ctx engine loadContent template).mapError .turn
    return if history.isEmpty then .text text
      else .messages (history ++ [.ofText .user text])
  | none, some entries => do
    let (rendered, markerAt) ← renderEntries ctx engine loadContent prompt.id entries [] none
    let at_ := markerAt.getD (rendered.takeWhile fun m => m.role = .system).length
    if (splice at_ history rendered).isEmpty then .error (.emptyTranscript prompt.id)
    else return .messages (splice at_ history rendered)
  | _, _ => .error (.badPrompt prompt.id)

/-- The prompt of a request: without prompts, the history is the whole transcript. -/
def requestPrompt (slot : Option SuiteFile.Prompt) (history : List ChatMessage) :
    Except PromptError (Option RenderedPrompt) :=
  match slot with
  | some prompt => some <$> renderPromptWithHistory ctx engine loadContent prompt history
  | none => .ok (if history.isEmpty then none else some (.messages history))

end

/-- The prompts that every test runs: each one, or an empty slot when there are none. -/
def SuiteFile.Suite.promptSlots (suite : SuiteFile.Suite) : List (Option SuiteFile.Prompt) :=
  if suite.prompts.isEmpty then [none] else suite.prompts.map some

/-! ### The turn that opens a transcript -/

/-- A turn that is judged: leading system turns are preamble. -/
def ChatRole.isJudged (role : ChatRole) : Bool := role ≠ .system

/-- What is rendered around a history opens with its turn at `k`: whatever the turns are, they
stand in one place, and the first turn of the transcript that is no system turn is that one. -/
def Opens (render : List ChatMessage → Except PromptError (Option RenderedPrompt))
    (history : List ChatMessage) (k : ℕ) : Prop :=
  ∃ before after, (∀ turns ≠ [], render turns = .ok (some (.messages (before ++ turns ++ after)))) ∧
    k < history.length ∧
    (before ++ history ++ after).findIdx? (fun m => m.role.isJudged) = some (before.length + k)

section
variable {α : Type} {p : α → Bool} {before after xs : List α} {k : ℕ}

/-- An element between two lists is the first of its kind when none is before. -/
theorem findIdx?_between : k < xs.length ∧
      (before ++ xs ++ after).findIdx? p = some (before.length + k) ↔
    (∀ x ∈ before, p x = false) ∧ xs.findIdx? p = some k := by
  rw [List.append_assoc, List.findIdx?_append, List.findIdx?_append]
  constructor
  · rintro ⟨hk, h⟩
    cases hbefore : before.findIdx? p with
    | some i =>
      rw [hbefore, Option.some_or, Option.some_inj] at h
      have hi := (List.findIdx?_eq_some_iff_findIdx_eq.mp hbefore).1
      omega
    | none =>
      rw [hbefore, Option.none_or] at h
      refine ⟨List.findIdx?_eq_none_iff.mp hbefore, ?_⟩
      cases hxs : xs.findIdx? p with
      | some i =>
        rw [hxs, Option.some_or, Option.map_some, Option.some_inj] at h
        rw [Nat.add_left_cancel ((Nat.add_comm before.length i).trans h)]
      | none =>
        -- the first one would be past the elements between
        rw [hxs, Option.none_or, Option.map_map, Option.map_eq_some_iff] at h
        obtain ⟨i, -, hi⟩ := h
        simp only [Function.comp_apply] at hi
        omega
  · rintro ⟨hbefore, hxs⟩
    rw [List.findIdx?_eq_none_iff.mpr hbefore, Option.none_or, hxs, Option.some_or, Option.map_some,
      Nat.add_comm k]
    exact ⟨(List.findIdx?_eq_some_iff_findIdx_eq.mp hxs).1, rfl⟩

/-- A place that every list is put in is one place. -/
theorem place_unique [Nontrivial α] {before' after' : List α}
    (h : ∀ ys : List α, ys ≠ [] → before ++ ys ++ after = before' ++ ys ++ after') :
    before = before' := by
  obtain ⟨x, y, hxy⟩ := exists_pair_ne α
  have hx := h [x] (List.cons_ne_nil x [])
  have hy := h [y] (List.cons_ne_nil y [])
  rw [List.append_assoc, List.append_assoc, List.singleton_append, List.singleton_append] at hx hy
  rcases List.append_eq_append_iff.mp hx with ⟨as, hbefore, hrest⟩ | ⟨as, hbefore, hrest⟩
  · cases as with
    | nil => rw [hbefore, List.append_nil]
    | cons a as =>
      -- the other list, in the same place, has another element there
      obtain ⟨rfl, -⟩ := List.cons.inj hrest
      rw [hbefore, List.append_assoc, List.cons_append, List.append_cancel_left_eq] at hy
      exact absurd (List.cons.inj hy).1.symm hxy
  · cases as with
    | nil => rw [hbefore, List.append_nil]
    | cons a as =>
      obtain ⟨rfl, -⟩ := List.cons.inj hrest
      rw [hbefore, List.append_assoc, List.cons_append, List.append_cancel_left_eq] at hy
      exact absurd (List.cons.inj hy).1 hxy

end

instance : Nontrivial ChatMessage :=
  ⟨.ofText .user "", .ofText .system "", by decide⟩

/-! ### The place of a history -/

section
variable {ctx : Json} {engine : TemplateEngine} {loadContent : String → Except RenderError String}

/-- A turn keeps its role. -/
theorem role_of_renderMessage {message : Message} {m : ChatMessage}
    (h : renderMessage ctx engine loadContent message = .ok m) : m.role = message.role := by
  rw [renderMessage] at h
  cases hproblem : turnProblem message with
  | some problem =>
    rw [hproblem] at h
    cases h
  | none =>
    rw [hproblem] at h
    obtain ⟨content, -, h⟩ := bind_ok h
    obtain ⟨toolCalls, -, h⟩ := bind_ok h
    obtain rfl := Except.ok.inj h
    rfl

theorem mapError_ok {ε ε' α : Type} {f : ε → ε'} {x : Except ε α} {a : α}
    (h : x.mapError f = .ok a) : x = .ok a := by
  cases x with
  | error e => cases h
  | ok b => exact congrArg Except.ok (Except.ok.inj h)

/-- After a marker, the walk adds turns and finds no other. -/
theorem renderEntries_marked {id : String} {entries : List SuiteFile.PromptEntry}
    {rendered rendered' : List ChatMessage} {at_ : ℕ} {markerAt : Option ℕ}
    (h : renderEntries ctx engine loadContent id entries rendered (some at_) =
      .ok (rendered', markerAt)) : markerAt = some at_ ∧ rendered <+: rendered' := by
  induction entries generalizing rendered with
  | nil =>
    obtain ⟨rfl, rfl⟩ := Prod.mk.inj (Except.ok.inj h)
    exact ⟨rfl, List.prefix_rfl⟩
  | cons entry entries ih =>
    cases entry with
    | marker => cases h
    | turn message =>
      obtain ⟨m, -, h⟩ := bind_ok h
      obtain ⟨hmarker, hprefix⟩ := ih h
      exact ⟨hmarker, (List.prefix_append rendered [m]).trans hprefix⟩

/-- The walk up to the marker: the turns before it are those of the prompt, with their roles. -/
theorem renderEntries_spec {id : String} {entries : List SuiteFile.PromptEntry}
    {rendered rendered' : List ChatMessage} {markerAt : Option ℕ}
    (h : renderEntries ctx engine loadContent id entries rendered none = .ok (rendered', markerAt)) :
    markerAt = (entries.findIdx? (·.isMarker)).map (rendered.length + ·) ∧
      ∀ i, entries.findIdx? (·.isMarker) = some i →
        ((∀ m ∈ rendered'.take (rendered.length + i), m.role.isJudged = false) ↔
          (∀ m ∈ rendered, m.role.isJudged = false) ∧
            (entries.take i).all (·.isSystemTurn) = true) := by
  induction entries generalizing rendered with
  | nil =>
    obtain ⟨rfl, rfl⟩ := Prod.mk.inj (Except.ok.inj h)
    exact ⟨rfl, fun i hi => by cases hi⟩
  | cons entry entries ih =>
    cases entry with
    | marker =>
      obtain ⟨rfl, hprefix⟩ := renderEntries_marked h
      refine ⟨rfl, fun i hi => ?_⟩
      obtain rfl : 0 = i := Option.some.inj hi
      rw [Nat.add_zero, ← List.prefix_iff_eq_take.mp hprefix]
      exact (and_iff_left rfl).symm
    | turn message =>
      obtain ⟨m, hm, h⟩ := bind_ok h
      obtain ⟨hmarker, htake⟩ := ih h
      have hfind : (SuiteFile.PromptEntry.turn message :: entries).findIdx? (·.isMarker) =
          (entries.findIdx? (·.isMarker)).map (· + 1) := by
        rw [List.findIdx?_cons]
        rfl
      rw [hfind]
      refine ⟨?_, fun i hi => ?_⟩
      · rw [hmarker, Option.map_map, List.length_append, List.length_singleton]
        refine congrArg (Option.map · _) (funext fun i => ?_)
        rw [Function.comp_apply]
        omega
      · obtain ⟨j, hj, rfl⟩ := Option.map_eq_some_iff.mp hi
        have hlength : (rendered ++ [m]).length + j = rendered.length + (j + 1) := by
          rw [List.length_append, List.length_singleton]
          omega
        have hrole : (SuiteFile.PromptEntry.turn message).isSystemTurn = true ↔
            m.role.isJudged = false := by
          rw [role_of_renderMessage (mapError_ok hm), SuiteFile.PromptEntry.isSystemTurn,
            ChatRole.isJudged, decide_eq_true_iff, decide_eq_false_iff_not, not_not]
        rw [← hlength, htake j hj, List.forall_mem_append, List.forall_mem_singleton,
          List.take_succ_cons, List.all_cons, Bool.and_eq_true, hrole, and_assoc]

/-- The check, of a slot. -/
def slotLeads (slot : Option SuiteFile.Prompt) : Bool := slot.all promptPutsHistoryFirst

theorem historyCanLandFirst_iff {suite : SuiteFile.Suite} :
    historyCanLandFirst suite = true ↔ ∃ slot ∈ suite.promptSlots, slotLeads slot = true := by
  rw [historyCanLandFirst, SuiteFile.Suite.promptSlots, Bool.or_eq_true]
  cases hprompts : suite.prompts with
  | nil => exact iff_of_true (Or.inl rfl) ⟨none, List.mem_singleton_self _, rfl⟩
  | cons prompt prompts =>
    rw [if_neg (by simp), List.isEmpty_cons, List.any_eq_true]
    simp only [Bool.false_eq_true, false_or, List.mem_map, exists_exists_and_eq_and]
    rfl

/-- The place of a history among the turns that a prompt renders to. -/
theorem splice_place {rendered : List ChatMessage} {at_ : ℕ} {turns : List ChatMessage}
    (hne : turns ≠ []) : (splice at_ turns rendered).isEmpty = false := by
  rw [splice, List.isEmpty_eq_false_iff]
  simp [hne]

/-- **A prompt that renders has one place for histories**, and the check finds out whether only
system turns stand before it. -/
theorem requestPrompt_spec {slot : Option SuiteFile.Prompt} {history : List ChatMessage}
    {prompt : Option RenderedPrompt}
    (h : requestPrompt ctx engine loadContent slot history = .ok prompt) :
    ∃ before after, (∀ turns ≠ [], requestPrompt ctx engine loadContent slot turns =
        .ok (some (.messages (before ++ turns ++ after)))) ∧
      ((∀ m ∈ before, m.role.isJudged = false) ↔ slotLeads slot = true) := by
  cases slot with
  | none =>
    refine ⟨[], [], fun turns hne => ?_, by simp [slotLeads]⟩
    rw [requestPrompt, if_neg (by simpa using hne), List.nil_append, List.append_nil]
  | some p =>
    obtain ⟨rendered, h, -⟩ := bind_ok h
    rw [renderPromptWithHistory] at h
    rcases htemplate : p.template with _ | template <;> rcases hmessages : p.messages with _ | entries
    · rw [htemplate, hmessages] at h
      cases h
    · rw [htemplate, hmessages] at h
      obtain ⟨⟨turns', markerAt⟩, hentries, -⟩ := bind_ok h
      obtain ⟨hmarker, htake⟩ := renderEntries_spec hentries
      set at_ := markerAt.getD (turns'.takeWhile fun m => m.role = .system).length with hat
      refine ⟨turns'.take at_, turns'.drop at_, fun turns hne => ?_, ?_⟩
      · rw [requestPrompt, renderPromptWithHistory, htemplate, hmessages]
        dsimp only
        rw [hentries]
        dsimp only [bind, Except.bind]
        rw [← hat, if_neg (by rw [splice_place hne]; exact Bool.false_ne_true)]
        rfl
      · rw [slotLeads, Option.all_some, promptPutsHistoryFirst, hmessages]
        dsimp only
        rw [hat, hmarker]
        cases hfind : entries.findIdx? (·.isMarker) with
        | none =>
          -- the leading system turns are all before the history
          refine iff_of_true (fun m hm => ?_) rfl
          rw [Option.map_none, Option.getD_none,
            ← List.prefix_iff_eq_take.mp (List.takeWhile_prefix _)] at hm
          have hsystem := List.mem_takeWhile_imp hm
          rw [ChatRole.isJudged, decide_eq_false_iff_not, not_not]
          exact of_decide_eq_true hsystem
        | some i =>
          rw [Option.map_some, Option.getD_some, htake i hfind]
          exact and_iff_right (List.forall_mem_nil _)
    · rw [htemplate, hmessages] at h
      obtain ⟨text, htext, -⟩ := bind_ok h
      refine ⟨[], [.ofText .user text], fun turns hne => ?_, ?_⟩
      · rw [requestPrompt, renderPromptWithHistory, htemplate, hmessages]
        dsimp only
        rw [htext]
        dsimp only [bind, Except.bind]
        rw [if_neg (by simpa using hne), List.nil_append]
        rfl
      · rw [slotLeads, Option.all_some, promptPutsHistoryFirst, hmessages]
        exact iff_of_true (List.forall_mem_nil _) rfl
    · rw [htemplate, hmessages] at h
      cases h

/-- Which turn a transcript opens with. -/
theorem opens_iff {slot : Option SuiteFile.Prompt} {history : List ChatMessage}
    {prompt : Option RenderedPrompt}
    (h : requestPrompt ctx engine loadContent slot history = .ok prompt) (k : ℕ) :
    Opens (requestPrompt ctx engine loadContent slot) history k ↔
      slotLeads slot = true ∧ history.findIdx? (fun m => m.role.isJudged) = some k := by
  obtain ⟨before, after, hplace, hleads⟩ := requestPrompt_spec h
  constructor
  · rintro ⟨before', after', hplace', hopens⟩
    have hsame : ∀ turns : List ChatMessage, turns ≠ [] →
        before ++ turns ++ after = before' ++ turns ++ after' := fun turns hne =>
      RenderedPrompt.messages.inj
        (Option.some.inj (Except.ok.inj ((hplace turns hne).symm.trans (hplace' turns hne))))
    obtain rfl := place_unique hsame
    obtain ⟨hsystem, hfirst⟩ := findIdx?_between.mp hopens
    exact ⟨hleads.mp hsystem, hfirst⟩
  · rintro ⟨hslot, hfirst⟩
    exact ⟨before, after, hplace, findIdx?_between.mpr ⟨hleads.mpr hslot, hfirst⟩⟩

end

/-! ### What is reported -/

/-- The path of a turn in the history of a test. -/
def turnPath (t k : ℕ) : String :=
  let history := s!"tests[{t}].history"
  s!"{history}[{k}]"

theorem toList_turnPath (t k : ℕ) : (turnPath t k).toList = "tests[".toList ++
    (Nat.toDigits 10 t ++ ']' :: (".history[".toList ++ (Nat.toDigits 10 k ++ ']' :: []))) := by
  change ("tests[" ++ String.ofList (Nat.toDigits 10 t) ++ "].history" ++ "[" ++
    String.ofList (Nat.toDigits 10 k) ++ "]").toList = _
  simp

/-- A path is of one turn. -/
theorem turnPath_inj {t t' k k' : ℕ} (h : turnPath t k = turnPath t' k') : t = t' ∧ k = k' := by
  have hbracket : ∀ d < 10, Nat.digitChar d ≠ ']' := by decide
  have hlist := congrArg String.toList h
  rw [toList_turnPath, toList_turnPath, List.append_cancel_left_eq,
    Numerals.toDigits_cons_inj (by decide) (by decide) hbracket, List.append_cancel_left_eq,
    Numerals.toDigits_cons_inj (by decide) (by decide) hbracket] at hlist
  exact ⟨hlist.1, hlist.2.1⟩

/-- The warning that a transcript would start with this turn of a test's history is reported. -/
def Warned (issues : List Issue) (turns : List Message) (t k : ℕ) : Prop :=
  ∃ turn, turns[k]? = some turn ∧ ∃ issue ∈ checkOpening turn (turnPath t k), issue ∈ issues

theorem firstNonSystem_iff {turns : List Message} {turn : Message} {k : ℕ} :
    firstNonSystem turns = some (turn, k) ↔
      turns[k]? = some turn ∧ turns.findIdx? (fun m => m.role.isJudged) = some k := by
  have hindex : turns.findIdx? (fun m => m.role.isJudged) = (firstNonSystem turns).map Prod.snd :=
    List.findIdx?_eq_fst_find?_zipIdx
  constructor
  · intro h
    rw [hindex, h]
    exact ⟨List.mem_zipIdx_iff_getElem?.mp (List.mem_of_find?_eq_some h), rfl⟩
  · rintro ⟨hturn, hfirst⟩
    rw [hindex, Option.map_eq_some_iff] at hfirst
    obtain ⟨⟨turn', i⟩, h, rfl⟩ := hfirst
    have hturn' := List.mem_zipIdx_iff_getElem?.mp (List.mem_of_find?_eq_some h)
    rw [hturn, Option.some_inj] at hturn'
    rw [h, hturn']

section
variable {schema raw : Json} {regexError : String → Option String} {suite : SuiteFile.Suite}
  {t : ℕ} {tc : SuiteFile.TestCase} {turns : List Message}

theorem checkHistory_reported (htest : suite.tests[t]? = some (.inline tc))
    (hhistory : tc.history = some (.inline turns)) {issue : Issue}
    (h : issue ∈ checkHistory turns s!"tests[{t}].history" (historyCanLandFirst suite)) :
    issue ∈ validateSuite schema regexError suite raw := by
  have hmem : issue ∈ checkHistories suite := by
    rw [checkHistories, List.mem_append, List.mem_append]
    refine Or.inl (Or.inr (List.mem_flatMap.mpr
      ⟨(.inline tc, t), List.mem_zipIdx_iff_getElem?.mpr htest, ?_⟩))
    dsimp only
    rw [hhistory]
    exact h
  rw [validateSuite, List.mem_append, List.mem_append]
  exact Or.inl (Or.inr hmem)

/-- **What is warned about**: the first turn of a history that is no system turn, where it is an
assistant's or a result and a history can land first. -/
theorem warned_iff (htest : suite.tests[t]? = some (.inline tc))
    (hhistory : tc.history = some (.inline turns)) (k : ℕ) :
    Warned (validateSuite schema regexError suite raw) turns t k ↔
      historyCanLandFirst suite = true ∧ ∃ turn, firstNonSystem turns = some (turn, k) ∧
        (turn.role = .assistant ∨ turn.role = .tool) := by
  constructor
  · rintro ⟨turn, hturn, issue, hopening, hissue⟩
    obtain ⟨hrole, hpath, hwarning, hnot⟩ := mem_checkOpening hopening
    rcases mem_checkHistories (mem_checkHistories_of_warning hissue hwarning hnot) with
      h | ⟨hleads, ⟨turns', i, turn', -, h⟩ | ⟨t', tc', turns', i, htest', hhistory', turn', hfirst, h⟩⟩
    · exact absurd h hnot
    · -- the defaults have a path of their own
      have hd : StartsWith 'd' issue.path := by
        rw [(mem_checkOpening h).2.1]
        exact (starts_text rfl).append.append.append
      have ht : StartsWith 't' issue.path := by
        rw [hpath]
        exact (starts_text rfl).append.append.append.append.append
      exact absurd (Option.some.inj (hd.symm.trans ht)) (by decide)
    · obtain ⟨rfl, rfl⟩ := turnPath_inj ((mem_checkOpening h).2.1.symm.trans hpath)
      rw [htest, Option.some_inj, SuiteFile.TestSource.inline.injEq] at htest'
      subst htest'
      rw [hhistory, Option.some_inj, HistorySpec.inline.injEq] at hhistory'
      subst hhistory'
      have hsame := (firstNonSystem_iff.mp hfirst).1
      rw [hturn, Option.some_inj] at hsame
      subst hsame
      exact ⟨hleads, turn, hfirst, hrole⟩
  · rintro ⟨hleads, turn, hfirst, hrole⟩
    obtain ⟨issue, hopening⟩ : ∃ issue, issue ∈ checkOpening turn (turnPath t k) := by
      rw [checkOpening]
      rcases hrole with hrole | hrole
      · rw [hrole]
        exact ⟨_, List.mem_singleton_self _⟩
      · rw [hrole]
        exact ⟨_, List.mem_singleton_self _⟩
    refine ⟨turn, (firstNonSystem_iff.mp hfirst).1, issue, hopening,
      checkHistory_reported htest hhistory ?_⟩
    rw [checkHistory, if_pos hleads, hfirst, List.mem_append]
    exact Or.inl hopening

end

/-- Some prompt of the suite is rendered to a transcript that opens with the turn at `k` of this
history, which is an assistant's or a result. -/
def OpensBadly (ctx : Json) (engine : TemplateEngine)
    (loadContent : String → Except RenderError String) (suite : SuiteFile.Suite)
    (history : List ChatMessage) (k : ℕ) : Prop :=
  (∃ m, history[k]? = some m ∧ (m.role = .assistant ∨ m.role = .tool)) ∧
    ∃ slot ∈ suite.promptSlots, Opens (requestPrompt ctx engine loadContent slot) history k

/-- **The warning about a history agrees with what is rendered**: it is there for every transcript
that opens with an assistant's turn or a result of the history, and only then, as long as every
prompt renders. -/
theorem history_warning_iff (schema raw : Json) (regexError : String → Option String)
    (suite : SuiteFile.Suite) (t : ℕ) (tc : SuiteFile.TestCase) (turns : List Message)
    (htest : suite.tests[t]? = some (.inline tc)) (hhistory : tc.history = some (.inline turns))
    (ctx : Json) (engine : TemplateEngine) (loadContent : String → Except RenderError String)
    (history : List ChatMessage)
    (hrendered : renderMessages ctx engine loadContent turns = .ok history) (k : ℕ) :
    (OpensBadly ctx engine loadContent suite history k →
        Warned (validateSuite schema regexError suite raw) turns t k) ∧
      ((∀ slot ∈ suite.promptSlots, ∃ prompt,
          requestPrompt ctx engine loadContent slot history = .ok prompt) →
        (Warned (validateSuite schema regexError suite raw) turns t k ↔
          OpensBadly ctx engine loadContent suite history k)) := by
  have hroles : history.map ChatMessage.role = turns.map Message.role :=
    mapM_ok_map (fun _ _ h => role_of_renderMessage h) hrendered
  have hfirst : history.findIdx? (fun m => m.role.isJudged) =
      turns.findIdx? (fun m => m.role.isJudged) := by
    have := congrArg (List.findIdx? ChatRole.isJudged) hroles
    rwa [List.findIdx?_map, List.findIdx?_map] at this
  have hrole : ∀ turn, turns[k]? = some turn → ∃ m, history[k]? = some m ∧ m.role = turn.role := by
    intro turn hturn
    have := congrArg (fun roles => roles[k]?) hroles
    simp only [List.getElem?_map, hturn, Option.map_some] at this
    exact Option.map_eq_some_iff.mp this
  have hmissing : OpensBadly ctx engine loadContent suite history k →
      Warned (validateSuite schema regexError suite raw) turns t k := by
    rintro ⟨⟨m, hm, hbad⟩, slot, hslot, hopens⟩
    have hok := hopens
    obtain ⟨before, after, hplace, hk, -⟩ := hok
    obtain ⟨hleads, hfind⟩ := (opens_iff (hplace history (List.ne_nil_of_length_pos (by omega)))
      k).mp hopens
    rw [warned_iff htest hhistory]
    refine ⟨historyCanLandFirst_iff.mpr ⟨slot, hslot, hleads⟩, ?_⟩
    have hlength := congrArg List.length hroles
    rw [List.length_map, List.length_map] at hlength
    obtain ⟨turn, hturn⟩ : ∃ turn, turns[k]? = some turn :=
      ⟨_, List.getElem?_eq_getElem (by omega)⟩
    obtain ⟨m', hm', hsame⟩ := hrole turn hturn
    rw [hm, Option.some_inj] at hm'
    exact ⟨turn, firstNonSystem_iff.mpr ⟨hturn, hfirst.symm.trans hfind⟩,
      by rw [← hsame, ← hm']; exact hbad⟩
  refine ⟨hmissing, fun hrenders => ⟨fun hwarned => ?_, hmissing⟩⟩
  obtain ⟨hleads, turn, hturn, hbad⟩ := (warned_iff htest hhistory k).mp hwarned
  obtain ⟨hturn, hfind⟩ := firstNonSystem_iff.mp hturn
  obtain ⟨slot, hslot, hleads⟩ := historyCanLandFirst_iff.mp hleads
  obtain ⟨prompt, hprompt⟩ := hrenders slot hslot
  obtain ⟨m, hm, hsame⟩ := hrole turn hturn
  exact ⟨⟨m, hm, by rw [hsame]; exact hbad⟩, slot, hslot,
    (opens_iff hprompt k).mpr ⟨hleads, hfirst.trans hfind⟩⟩

/-! ### A history that opens with an assistant's turn -/

/-- An engine that renders everything but this template. -/
def goneEngine : TemplateEngine where
  renderStr := fun template _ =>
    if template = "\x7b\x7b gone \x7d\x7d" then .error "undefined value" else .ok template
  evalBool := fun _ _ => .ok true

def greetingTurn : Message := ⟨.assistant, some (.text "hello"), [], none⟩

def greetingCase : SuiteFile.TestCase where
  expectFail := none
  assert := []
  history := some (.inline [greetingTurn])

/-- A suite with one provider, a prompt of this template and one test. -/
def greetingSuite (template : String) : SuiteFile.Suite where
  version := 1
  providers := [⟨⟨"gpt", false, .openai none⟩, []⟩]
  prompts := [⟨"q", some template, none⟩]
  tests := [.inline greetingCase]
  defaults := none
  grader := none
  runner := none

def greetingHistory : List ChatMessage := [.ofText .assistant "hello"]

/-- The prompt renders after the history, and the warning is there. -/
theorem greeting_is_warned :
    Warned (validateSuite .null (fun _ => none) (greetingSuite "and then?") .null) [greetingTurn]
      0 0 := by
  refine ((history_warning_iff .null .null (fun _ => none) (greetingSuite "and then?") 0 greetingCase
    [greetingTurn] rfl rfl .null goneEngine .ok greetingHistory rfl 0).2 ?_).mpr ?_
  · intro slot hslot
    obtain rfl := List.mem_singleton.mp hslot
    exact ⟨_, rfl⟩
  · refine ⟨⟨_, rfl, Or.inl rfl⟩, _, List.mem_singleton_self _, [], [.ofText .user "and then?"],
      fun turns hne => ?_, by decide, by decide⟩
    cases turns with
    | nil => exact absurd rfl hne
    | cons turn turns => rfl

/-- **A prompt that does not render is warned about all the same**, in a suite that is valid. -/
theorem unrendered_is_warned :
    hasErrors (validateSuite .null (fun _ => none) (greetingSuite "\x7b\x7b gone \x7d\x7d") .null) =
      false ∧
    ¬ ∀ (suite : SuiteFile.Suite) (tc : SuiteFile.TestCase) (turns : List Message)
      (history : List ChatMessage), suite.tests[0]? = some (.inline tc) →
      tc.history = some (.inline turns) →
      renderMessages .null goneEngine .ok turns = .ok history →
      (Warned (validateSuite .null (fun _ => none) suite .null) turns 0 0 ↔
        OpensBadly .null goneEngine .ok suite history 0) := by
  refine ⟨by decide +kernel, fun hall => ?_⟩
  have hwarned : Warned (validateSuite .null (fun _ => none)
      (greetingSuite "\x7b\x7b gone \x7d\x7d") .null) [greetingTurn] 0 0 :=
    (warned_iff rfl rfl 0).mpr ⟨rfl, greetingTurn, rfl, Or.inl rfl⟩
  obtain ⟨-, slot, hslot, before, after, hplace, -⟩ :=
    (hall _ greetingCase [greetingTurn] greetingHistory rfl rfl rfl).mp hwarned
  obtain rfl := List.mem_singleton.mp hslot
  cases hplace greetingHistory (List.cons_ne_nil _ _)
