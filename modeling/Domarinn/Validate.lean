/-
Structural validation of a loaded suite: everything `validate` looks at.

The checks of the version, the providers and the prompts are those of `Suite`; the others are
here, in the order of the source: unknown keys in the document, the verdict mode, the limits of
the runner, expected failures with nothing to grade, histories and fallback chains.  What the
regular expressions accept, and the schema of the configuration, are parameters.

* **`validate_reports_auto_iff`** — an automatic verdict mode is reported exactly when it is not
  only in the default assertions.
-/
import Domarinn.ToolPairing
import Mathlib.Data.List.Dedup

open Json

/-! ### A suite as it is loaded -/

namespace SuiteFile

inductive HistorySpec where
  | file (path : String)
  | inline (turns : List Message)

inductive PromptEntry where
  | marker
  | turn (message : Message)

structure Prompt where
  id : String
  template : Option String
  messages : Option (List PromptEntry)

inductive VerdictMode where
  | forced
  | auto
deriving DecidableEq

/-- A grader, of which only the verdict mode is validated here. -/
structure Grader where
  verdictMode : Option VerdictMode

/-- An assertion; only an `llm-rubric` can override the suite's grader. -/
inductive SuiteAssert where
  | llmRubric (grader : Option Grader)
  | other

inductive ExpectFail where
  | flag (flag : Bool)
  | reason (text : String)

structure TestCase where
  expectFail : Option ExpectFail
  assert : List SuiteAssert
  history : Option HistorySpec

/-- `expect_fail_enabled`. -/
def TestCase.expectFailEnabled (tc : TestCase) : Bool :=
  match tc.expectFail with
  | some (.flag flag) => flag
  | some (.reason _) => true
  | none => false

inductive TestSource where
  | glob (spec : String)
  | generator
  | inline (tc : TestCase)

structure Provider extends ProviderConfig where
  fallback : List String

structure Defaults where
  assert : List SuiteAssert
  history : Option HistorySpec

/-- A rate: its value, if it is finite, and how it is written. -/
structure Rate where
  value : Option ℚ
  shown : String

structure Runner where
  rateLimit : Option Rate
  timeoutMs : Option ℕ
  refusalPatterns : List String

structure Suite where
  version : ℕ
  providers : List Provider
  prompts : List Prompt
  tests : List TestSource
  defaults : Option Defaults
  grader : Option Grader
  runner : Option Runner

end SuiteFile

open SuiteFile (SuiteAssert Grader VerdictMode Runner HistorySpec)

/-! ### The verdict mode -/

/-- What is said of a verdict mode that grading never reads. -/
def autoMessage : String :=
  "`auto` is not implemented; grading always uses the forced structured-verdict mechanism. " ++
    "Remove the field or set `forced`."

def checkGrader (grader : Grader) (path : String) : List Issue :=
  if grader.verdictMode = some .auto then [.new (path ++ ".verdict_mode") autoMessage] else []

/-- The grader of an assertion, if it has its own. -/
def SuiteFile.SuiteAssert.grader? : SuiteAssert → Option Grader
  | .llmRubric grader => grader
  | .other => none

/-- `check_verdict_mode`: the suite's grader, and those of the assertions of inline tests. -/
def checkVerdictMode (suite : SuiteFile.Suite) : List Issue :=
  (match suite.grader with
    | some grader => checkGrader grader "grader"
    | none => []) ++
  suite.tests.zipIdx.flatMap fun (test, t) => match test with
    | .inline tc => tc.assert.zipIdx.flatMap fun (assert, a) => match assert.grader? with
      | some grader => checkGrader grader s!"tests[{t}].assert[{a}].grader"
      | none => []
    | _ => []

/-! ### The limits of the runner -/

/-- `check_runner_limits`. -/
def checkRunnerLimits (runner : Option Runner) : List Issue :=
  match runner with
  | none => []
  | some runner =>
    (match runner.rateLimit with
      | some rate =>
        if rate.value.any (0 < ·) then []
        else [.new "runner.rate_limit.rps"
          (s!"must be a positive number of requests per second, got {rate.shown}; " ++
            "remove `rate_limit` to run unthrottled")]
      | none => []) ++
    if runner.timeoutMs = some 0 then
      [.new "runner.timeout_ms"
        "must be greater than 0; remove it to keep each provider's default"]
    else []

/-! ### Unknown keys -/

/-- The keys that a flattened mapping accepts; of two variants of one type the last is first. -/
structure VariantKeys where
  common : List String
  byType : List (String × List String)

/-- The names of a document's members, if it is an object. -/
def memberNames : Option Json → Option (List String)
  | some (.obj members) => some (members.map Prod.fst)
  | _ => none

/-- `from_schema`: the keys of one definition of the schema. -/
def VariantKeys.fromSchema (schema : Json) (name : String) : VariantKeys :=
  let node := (getMember schema "$defs").bind fun defs => getMember defs name
  { common := (memberNames (node.bind fun n => getMember n "properties")).getD []
    byType := match node.bind fun n => getMember n "oneOf" with
      | some (.arr variants) => (variants.filterMap fun variant => do
          let properties ← getMember variant "properties"
          let keys ← memberNames (some properties)
          let const ← (getMember properties "type").bind fun type => getMember type "const"
          let type ← asStr? const
          return (type, keys)).reverse
      | _ => [] }

/-- `allowed`: the keys common to every variant and those of one, in order. -/
def VariantKeys.allowed (keys : VariantKeys) (type : String) : List String :=
  ((keys.common ++ (keys.byType.lookup type).getD []).mergeSort fun a b => decide (a ≤ b)).dedup

/-- The document carries the sugar of a negated assertion. -/
def stripNot (type : String) : String :=
  if "not-".toList.isPrefixOf type.toList then String.ofList (type.toList.drop 4) else type

/-- `check_flatten_entry`. -/
def checkFlattenEntry (entry : Json) (keys : VariantKeys) (path kind : String) : List Issue :=
  match memberNames (some entry), (getMember entry "type").bind asStr? with
  | some members, some type =>
    match keys.byType.lookup (stripNot type) with
    | none => []
    | some variant => members.flatMap fun key =>
      if keys.common.contains key || variant.contains key then []
      else [.new path ("unknown " ++ kind ++ " field '" ++ key ++ "'; expected one of " ++
        ", ".intercalate (keys.allowed (stripNot type)))]
  | _, _ => []

/-- `check_grader_provider`. -/
def checkGraderProvider (grader : Option Json) (keys : VariantKeys) (path : String) :
    List Issue :=
  match grader.bind fun g => getMember g "provider" with
  | some provider => checkFlattenEntry provider keys (path ++ ".provider") "provider"
  | none => []

/-- The keys of a list of assertions, and of the providers of their graders. -/
def checkAssertKeys (asserts : Option Json) (assertKeys kindKeys : VariantKeys)
    (path : ℕ → String) : List Issue :=
  match asserts with
  | some (.arr entries) => entries.zipIdx.flatMap fun (entry, j) =>
    checkFlattenEntry entry assertKeys (path j) "assert" ++
      checkGraderProvider (getMember entry "grader") kindKeys (path j ++ ".grader")
  | _ => []

/-- `check_unknown_flatten_keys`, of the document that the suite was read from. -/
def checkUnknownFlattenKeys (schema raw : Json) : List Issue :=
  let providerKeys := VariantKeys.fromSchema schema "Provider"
  let assertKeys := VariantKeys.fromSchema schema "Assert"
  let kindKeys := VariantKeys.fromSchema schema "ProviderKind"
  (match getMember raw "providers" with
    | some (.arr providers) => providers.zipIdx.flatMap fun (entry, i) =>
      checkFlattenEntry entry providerKeys s!"providers[{i}]" "provider"
    | _ => []) ++
  checkGraderProvider (getMember raw "grader") kindKeys "grader" ++
  checkAssertKeys ((getMember raw "defaults").bind fun d => getMember d "assert") assertKeys
    kindKeys (fun j => s!"defaults.assert[{j}]") ++
  (match getMember raw "tests" with
    | some (.arr tests) => tests.zipIdx.flatMap fun (test, i) =>
      if (memberNames (some test)).isNone || (getMember test "generator").isSome then []
      else checkAssertKeys (getMember test "assert") assertKeys kindKeys
        fun j => s!"tests[{i}].assert[{j}]"
    | _ => [])

/-! ### Expected failures -/

/-- An inline case that is expected to fail and has nothing to grade. -/
def checkExpectFail (suite : SuiteFile.Suite) : List Issue :=
  let defaultAsserts := suite.defaults.any fun d => !d.assert.isEmpty
  suite.tests.zipIdx.flatMap fun (test, i) => match test with
    | .inline tc =>
      if tc.expectFailEnabled && tc.assert.isEmpty && !defaultAsserts then
        [⟨s!"tests[{i}]",
          "`expect_fail` on a case with no asserts: it grades nothing, so it can only ever pass " ++
            "unexpectedly (xpass) and fail the run", .warning⟩]
      else []
    | _ => []

/-! ### Histories -/

/-- `is_blank`, of the content of a turn. -/
def contentIsBlank : MessageContentSpec → Bool
  | .text s => isBlank s
  | .blocks blocks => blocks.all fun
    | .text text => isBlank text
    | .thinking thinking _ => isBlank thinking

/-- `is_blank`: a turn with nothing in it that a provider could receive. -/
def turnIsBlank (turn : Message) : Bool :=
  turn.toolCalls.isEmpty && turn.content.any contentIsBlank

def blankContent (path : String) : Issue :=
  ⟨path, "`content` is empty or whitespace-only; providers reject an empty text block with a " ++
    "400. Delete the turn, or give it text", .warning⟩

/-- `check_turn_shape`. -/
def checkTurnShape (turn : Message) (path : String) : List Issue :=
  (turnProblem turn).toList.map (.new path)

/-- `first_non_system`, with its position. -/
def firstNonSystem (turns : List Message) : Option (Message × ℕ) :=
  turns.zipIdx.find? fun (m, _) => m.role ≠ .system

/-- The warning about the turn that opens a history. -/
def checkOpening (turn : Message) (path : String) : List Issue :=
  match turn.role with
  | .assistant => [⟨path,
    "first turn is `assistant`, and this suite splices history at the front of the transcript, " ++
      "where providers require the opening turn to be `user`. An Anthropic assistant *prefill* " ++
      "is the legitimate exception; otherwise this is a 400 at run time — an errored cell, " ++
      "which is never cached, so it is re-paid on every run", .warning⟩]
  | .tool => [⟨path,
    "first turn is `tool`, so it answers a call no earlier turn made. This suite splices " ++
      "history at the front of the transcript, where there is nothing before it; both providers " ++
      "reject a tool result with no matching call", .warning⟩]
  | .system | .user => []

/-- The checks of a turn, in a history or in a prompt. -/
def checkTurn (turn : Message) (path : String) : List Issue :=
  checkTurnShape turn path ++ if turnIsBlank turn then [blankContent path] else []

/-- `check_history`. -/
def checkHistory (turns : List Message) (path : String) (leads : Bool) : List Issue :=
  (if leads then match firstNonSystem turns with
    | some (turn, i) => checkOpening turn s!"{path}[{i}]"
    | none => []
  else []) ++
  turns.zipIdx.flatMap fun (turn, i) => checkTurn turn s!"{path}[{i}]"

def SuiteFile.PromptEntry.isMarker : SuiteFile.PromptEntry → Bool
  | .marker => true
  | .turn _ => false

/-- `is_system_turn`. -/
def SuiteFile.PromptEntry.isSystemTurn : SuiteFile.PromptEntry → Bool
  | .turn m => m.role = .system
  | .marker => false

/-- `prompt_puts_history_first`. -/
def promptPutsHistoryFirst (prompt : SuiteFile.Prompt) : Bool :=
  match prompt.messages with
  | none => true
  | some entries => match entries.findIdx? (·.isMarker) with
    | some at_ => (entries.take at_).all (·.isSystemTurn)
    | none => true

/-- `history_can_land_first`. -/
def historyCanLandFirst (suite : SuiteFile.Suite) : Bool :=
  suite.prompts.isEmpty || suite.prompts.any promptPutsHistoryFirst

/-- The checks of a history that is written in the suite. -/
def checkInlineHistory (history : Option HistorySpec) (path : String) (leads : Bool) :
    List Issue :=
  match history with
  | some (.inline turns) => checkHistory turns path leads
  | _ => []

/-- `loader_validate_history::check`. -/
def checkHistories (suite : SuiteFile.Suite) : List Issue :=
  let leads := historyCanLandFirst suite
  checkInlineHistory (suite.defaults.bind SuiteFile.Defaults.history) "defaults.history" leads ++
  (suite.tests.zipIdx.flatMap fun (test, i) => match test with
    | .inline tc => checkInlineHistory tc.history s!"tests[{i}].history" leads
    | _ => []) ++
  suite.prompts.zipIdx.flatMap fun (prompt, i) =>
    (prompt.messages.getD []).zipIdx.flatMap fun (entry, j) => match entry with
      | .turn turn => checkTurn turn s!"prompts[{i}].messages[{j}]"
      | .marker => []

/-! ### Fallback chains -/

/-- The checks of a chain, from position `j` on, after the targets of `seen`. -/
def checkTargets (providers : List SuiteFile.Provider) (provider : SuiteFile.Provider)
    (path : String) : ℕ → List String → List String → List Issue
  | _, _, [] => []
  | j, seen, target :: targets =>
    let at_ := s!"{path}.fallback[{j}]"
    if target = provider.id then
      .new at_ s!"'{target}' is this provider; a fallback must name another one" ::
        checkTargets providers provider path (j + 1) seen targets
    else match providers.find? fun p => p.id = target with
      | none =>
        .new at_ ("no provider has id '" ++ target ++ "'. Configured providers: " ++
            ", ".intercalate (providers.map fun p => p.id)) ::
          checkTargets providers provider path (j + 1) seen targets
      | some other =>
        if other.isEmbeddings then
          .new at_ (s!"'{target}' is an embeddings provider, which is a grader helper and never " ++
              "a system under test") ::
            checkTargets providers provider path (j + 1) seen targets
        else
          (if seen.contains target then
            [⟨at_, s!"'{target}' is listed twice; the second entry is a no-op", .warning⟩]
          else []) ++
          (if other.fallback.isEmpty then []
          else [⟨at_, s!"'{target}' declares its own `fallback:`, which is ignored when " ++
            s!"'{target}' is reached as one — chains are not followed. List every provider you want tried " ++
            s!"directly on '{provider.id}'", .warning⟩]) ++
          checkTargets providers provider path (j + 1) (target :: seen) targets

/-- The checks of one provider and its chain. -/
def checkFallback (providers : List SuiteFile.Provider) (provider : SuiteFile.Provider) (i : ℕ) :
    List Issue :=
  let path := s!"providers[{i}]"
  (if !provider.fallback.isEmpty && provider.isEmbeddings then
    [.new path (s!"provider '{provider.id}' is an embeddings provider, which is a grader helper " ++
      "and never a system under test, so its `fallback:` can never be reached")] else []) ++
  (if provider.fallbackOnly && provider.isEmbeddings then
    [.new path (s!"provider '{provider.id}' is an embeddings provider, which never forms matrix " ++
      "cells anyway; `fallback_only:` is for systems under test")] else []) ++
  (if provider.fallbackOnly && !provider.isEmbeddings &&
      !providers.any fun p => p.formsCells && p.fallback.contains provider.id then
    [⟨path, s!"provider '{provider.id}' is `fallback_only`, but no cell-forming provider's " ++
      "`fallback:` names it (a `fallback_only` provider's own chain is never walked), so it can " ++
      "never run", .warning⟩] else []) ++
  checkTargets providers provider path 0 [] provider.fallback

/-- `loader_validate_fallback::check`; `regexError` is what `Regex::new` says of a pattern. -/
def checkFallbacks (regexError : String → Option String) (suite : SuiteFile.Suite) :
    List Issue :=
  (suite.providers.zipIdx.flatMap fun (p, i) => checkFallback suite.providers p i) ++
  (let underTest := suite.providers.filter fun p => !p.isEmbeddings
    if !underTest.isEmpty && underTest.all (·.fallbackOnly) then
      [.new "providers" ("every provider is `fallback_only`, so no cells can ever form; at " ++
        "least one provider must be able to run its own cells")] else []) ++
  match suite.runner with
  | some runner => runner.refusalPatterns.zipIdx.flatMap fun (pattern, i) =>
    (regexError pattern).toList.map fun e =>
      .new s!"runner.refusal_patterns[{i}]" s!"not a valid regex: {e}"
  | none => []

/-! ### The whole of it -/

/-- An entry as the checks of the prompts see it: they only tell the markers apart. -/
def outlineEntry : SuiteFile.PromptEntry → PromptEntry
  | .marker => .marker
  | .turn m => .turn ⟨m.role, .text "", [], none⟩

/-- What the checks of the version, the providers and the prompts see of a suite. -/
def suiteOutline (suite : SuiteFile.Suite) : Suite where
  version := suite.version
  providers := suite.providers.map SuiteFile.Provider.toProviderConfig
  prompts := suite.prompts.map fun p =>
    ⟨p.id, p.template, p.messages.map (List.map outlineEntry)⟩
  tests := []
  defaults := none

/-- `validate`, of a suite and the document it was read from. -/
def validateSuite (schema : Json) (regexError : String → Option String) (suite : SuiteFile.Suite)
    (raw : Json) : List Issue :=
  checkUnknownFlattenKeys schema raw ++ checkVerdictMode suite ++ checkRunnerLimits suite.runner ++
    validate (suiteOutline suite) ++ checkExpectFail suite ++ checkHistories suite ++
    checkFallbacks regexError suite

/-! ### Where a grader can appear -/

/-- An assertion whose grader asks for the automatic verdict mode. -/
def SuiteFile.SuiteAssert.IsAuto (assert : SuiteAssert) : Prop :=
  ∃ grader, assert.grader? = some grader ∧ grader.verdictMode = some .auto

namespace SuiteFile.Suite

/-- The suite's own grader asks for the automatic verdict mode. -/
def GraderAuto (suite : SuiteFile.Suite) : Prop :=
  ∃ grader, suite.grader = some grader ∧ grader.verdictMode = some .auto

/-- So does a default assertion. -/
def DefaultsAuto (suite : SuiteFile.Suite) : Prop :=
  ∃ defaults, suite.defaults = some defaults ∧ ∃ assert ∈ defaults.assert, assert.IsAuto

/-- So does an assertion of an inline test. -/
def InlineAuto (suite : SuiteFile.Suite) : Prop :=
  ∃ tc, .inline tc ∈ suite.tests ∧ ∃ assert ∈ tc.assert, assert.IsAuto

end SuiteFile.Suite

/-- The verdict mode is among what is reported, as an error. -/
def ReportsAuto (issues : List Issue) : Prop :=
  ∃ issue ∈ issues, issue.message = autoMessage ∧ issue.severity = .error

theorem reportsAuto_append {xs ys : List Issue} :
    ReportsAuto (xs ++ ys) ↔ ReportsAuto xs ∨ ReportsAuto ys := by
  simp only [ReportsAuto, List.mem_append, or_and_right, exists_or]

theorem reportsAuto_flatMap {α : Type} {xs : List α} {f : α → List Issue} :
    ReportsAuto (xs.flatMap f) ↔ ∃ x ∈ xs, ReportsAuto (f x) := by
  simp only [ReportsAuto, List.mem_flatMap]
  exact ⟨fun ⟨issue, ⟨x, hx, hi⟩, h⟩ => ⟨x, hx, issue, hi, h⟩,
    fun ⟨x, hx, issue, hi, h⟩ => ⟨issue, ⟨x, hx, hi⟩, h⟩⟩

theorem reportsAuto_checkGrader {grader : Grader} {path : String} :
    ReportsAuto (checkGrader grader path) ↔ grader.verdictMode = some .auto := by
  rw [checkGrader]
  split_ifs with h
  · exact iff_of_true ⟨_, List.mem_singleton_self _, rfl, rfl⟩ h
  · exact iff_of_false (by simp [ReportsAuto]) h

theorem reportsAuto_zipIdx {α : Type} {xs : List α} {f : α × ℕ → List Issue} {P : α → Prop}
    (h : ∀ x i, ReportsAuto (f (x, i)) ↔ P x) :
    ReportsAuto (xs.zipIdx.flatMap f) ↔ ∃ x ∈ xs, P x := by
  rw [reportsAuto_flatMap]
  constructor
  · rintro ⟨⟨x, i⟩, hmem, hx⟩
    exact ⟨x, List.fst_mem_of_mem_zipIdx hmem, (h x i).mp hx⟩
  · rintro ⟨x, hmem, hx⟩
    obtain ⟨i, hi⟩ := List.getElem?_of_mem hmem
    exact ⟨(x, i), List.mem_zipIdx_iff_getElem?.mpr hi, (h x i).mpr hx⟩

/-- **What the check of the verdict mode finds.** -/
theorem reportsAuto_checkVerdictMode {suite : SuiteFile.Suite} :
    ReportsAuto (checkVerdictMode suite) ↔ suite.GraderAuto ∨ suite.InlineAuto := by
  rw [checkVerdictMode, reportsAuto_append]
  refine or_congr ?_ ?_
  · rw [SuiteFile.Suite.GraderAuto]
    cases suite.grader with
    | none => simp [ReportsAuto]
    | some grader => simp [reportsAuto_checkGrader]
  · have htest (test : SuiteFile.TestSource) (t : ℕ) :
        ReportsAuto (match test with
          | .inline tc => tc.assert.zipIdx.flatMap fun (assert, a) => match assert.grader? with
            | some grader => checkGrader grader s!"tests[{t}].assert[{a}].grader"
            | none => []
          | _ => []) ↔ ∃ tc, test = .inline tc ∧ ∃ assert ∈ tc.assert, assert.IsAuto := by
      cases test with
      | glob spec => simp [ReportsAuto]
      | generator => simp [ReportsAuto]
      | inline tc =>
        have hassert (assert : SuiteAssert) (a : ℕ) : ReportsAuto (match assert.grader? with
            | some grader => checkGrader grader s!"tests[{t}].assert[{a}].grader"
            | none => []) ↔ assert.IsAuto := by
          rw [SuiteFile.SuiteAssert.IsAuto]
          cases assert.grader? with
          | none => simp [ReportsAuto]
          | some grader => simp [reportsAuto_checkGrader]
        exact (reportsAuto_zipIdx hassert).trans (by simp)
    refine (reportsAuto_zipIdx htest).trans ?_
    constructor
    · rintro ⟨_, hmem, tc, rfl, h⟩
      exact ⟨tc, hmem, h⟩
    · rintro ⟨tc, hmem, h⟩
      exact ⟨_, hmem, tc, rfl, h⟩

/-! ### The other checks say something else -/

/-- A text that starts with this character; of a literal, it is read off. -/
def StartsWith (c : Char) (s : String) : Prop := s.toList.head? = some c

/-- A text that ends with this character. -/
def EndsWith (c : Char) (s : String) : Prop := s.toList.getLast? = some c

theorem starts_text {c : Char} {cs : List Char} {s : String} (h : s = String.ofList (c :: cs)) :
    StartsWith c s := by
  rw [StartsWith, h, String.toList_ofList, List.head?_cons]

theorem StartsWith.append {c : Char} {s t : String} (h : StartsWith c s) : StartsWith c (s ++ t) := by
  rw [StartsWith, String.toList_append, List.head?_append, h, Option.some_or]

theorem ends_text {c : Char} {cs : List Char} {s : String} (h : s = String.ofList cs)
    (hc : cs.getLast? = some c) : EndsWith c s := by
  rw [EndsWith, h, String.toList_ofList, hc]

theorem EndsWith.prepend {c : Char} {p s : String} (h : EndsWith c s) : EndsWith c (p ++ s) := by
  rw [EndsWith, String.toList_append, List.getLast?_append, h, Option.some_or]

theorem starts_auto : StartsWith '`' autoMessage := (starts_text rfl).append

theorem ends_auto : EndsWith '.' autoMessage := (ends_text rfl rfl).prepend

theorem StartsWith.ne_auto {c : Char} {m : String} (h : StartsWith c m) (hc : c ≠ '`') :
    m ≠ autoMessage := by
  rintro rfl
  exact hc (Option.some.inj (h.symm.trans starts_auto))

theorem EndsWith.ne_auto {c : Char} {m : String} (h : EndsWith c m) (hc : c ≠ '.') : m ≠ autoMessage := by
  rintro rfl
  exact hc (Option.some.inj (h.symm.trans ends_auto))

/-- It is not about a verdict mode, nor a warning about the turn that opens a history. -/
def Issue.Ordinary (issue : Issue) : Prop :=
  match issue.severity with
  | .error => issue.message ≠ autoMessage
  | .warning => issue.message.toList.head? ≠ some 'f'

/-- So is each of these. -/
def Ordinary (issues : List Issue) : Prop := ∀ issue ∈ issues, issue.Ordinary

theorem ordinary_nil : Ordinary [] := by simp [Ordinary]

section
variable {c : Char} {path message : String}

theorem ordinary_error (h : StartsWith c message) (hc : c ≠ '`') : Ordinary [.new path message] := by
  rw [Ordinary, List.forall_mem_singleton]
  exact h.ne_auto hc

theorem ordinary_error_of_end (h : EndsWith c message) (hc : c ≠ '.') :
    Ordinary [.new path message] := by
  rw [Ordinary, List.forall_mem_singleton]
  exact h.ne_auto hc

theorem ordinary_warning (h : StartsWith c message) (hc : c ≠ 'f') :
    Ordinary [⟨path, message, .warning⟩] := by
  rw [Ordinary, List.forall_mem_singleton]
  exact fun hf => hc (Option.some.inj (h.symm.trans hf))

end

theorem ordinary_append {xs ys : List Issue} (hx : Ordinary xs) (hy : Ordinary ys) :
    Ordinary (xs ++ ys) :=
  List.forall_mem_append.mpr ⟨hx, hy⟩

theorem ordinary_flatMap {α : Type} {xs : List α} {f : α → List Issue}
    (h : ∀ x, Ordinary (f x)) : Ordinary (xs.flatMap f) := by
  intro issue hissue
  obtain ⟨x, -, hx⟩ := List.mem_flatMap.mp hissue
  exact h x issue hx

theorem ordinary_ite {c : Prop} [Decidable c] {xs ys : List Issue} (hx : Ordinary xs)
    (hy : Ordinary ys) : Ordinary (if c then xs else ys) := by
  split_ifs
  · exact hx
  · exact hy

theorem Ordinary.not_auto {issues : List Issue} (h : Ordinary issues) : ¬ReportsAuto issues := by
  rintro ⟨issue, hissue, hmessage, hseverity⟩
  have hordinary := h issue hissue
  rw [Issue.Ordinary, hseverity] at hordinary
  exact hordinary hmessage

theorem ordinary_checkFlattenEntry {entry : Json} {keys : VariantKeys} {path kind : String} :
    Ordinary (checkFlattenEntry entry keys path kind) := by
  rw [checkFlattenEntry]
  split
  · split
    · exact ordinary_nil
    · refine ordinary_flatMap fun key => ordinary_ite ordinary_nil ?_
      exact ordinary_error (starts_text rfl).append.append.append.append.append (by decide)
  · exact ordinary_nil

theorem ordinary_checkGraderProvider {grader : Option Json} {keys : VariantKeys} {path : String} :
    Ordinary (checkGraderProvider grader keys path) := by
  rw [checkGraderProvider]
  split
  · exact ordinary_checkFlattenEntry
  · exact ordinary_nil

theorem ordinary_checkAssertKeys {asserts : Option Json} {assertKeys kindKeys : VariantKeys}
    {path : ℕ → String} : Ordinary (checkAssertKeys asserts assertKeys kindKeys path) := by
  unfold checkAssertKeys
  split
  · exact ordinary_flatMap fun _ =>
      ordinary_append ordinary_checkFlattenEntry ordinary_checkGraderProvider
  · exact ordinary_nil

theorem ordinary_checkUnknownFlattenKeys {schema raw : Json} :
    Ordinary (checkUnknownFlattenKeys schema raw) := by
  rw [checkUnknownFlattenKeys]
  refine ordinary_append (ordinary_append (ordinary_append ?_ ordinary_checkGraderProvider)
    ordinary_checkAssertKeys) ?_
  · split
    · exact ordinary_flatMap fun _ => ordinary_checkFlattenEntry
    · exact ordinary_nil
  · split
    · exact ordinary_flatMap fun _ => ordinary_ite ordinary_nil ordinary_checkAssertKeys
    · exact ordinary_nil

theorem ordinary_checkRunnerLimits {runner : Option Runner} :
    Ordinary (checkRunnerLimits runner) := by
  unfold checkRunnerLimits
  split
  · exact ordinary_nil
  · refine ordinary_append ?_
      (ordinary_ite (ordinary_error (starts_text rfl) (by decide)) ordinary_nil)
    split
    · exact ordinary_ite ordinary_nil
        (ordinary_error (starts_text rfl).append.append.append (by decide))
    · exact ordinary_nil

theorem ordinary_checkSeen {seen : List String} {id path what : String} :
    Ordinary (checkSeen seen id path what) := by
  rw [checkSeen]
  exact ordinary_ite
    (ordinary_error (starts_text rfl).append.append.append.append (by decide)) ordinary_nil

theorem ordinary_checkEach {α : Type} {id : α → String} {check : List String → ℕ → α → List Issue}
    (h : ∀ seen i x, Ordinary (check seen i x)) (xs : List α) (seen : List String) (i : ℕ) :
    Ordinary (checkEach id check seen i xs) := by
  induction xs generalizing seen i with
  | nil => exact ordinary_nil
  | cons x xs ih => exact ordinary_append (h seen i x) (ih _ _)

theorem ordinary_checkProvider (seen : List String) (i : ℕ) (p : ProviderConfig) :
    Ordinary (checkProvider seen i p) := by
  refine ordinary_append ordinary_checkSeen ?_
  unfold checkRequestPath
  have hrelative : ∀ (declared path : String), Ordinary (if declared.startsWith "/" then []
      else [.new path s!"`{declared}` must start with `/` — it is appended to `base_url` verbatim, so a relative path would run the two together"]) :=
    fun _ _ => ordinary_ite ordinary_nil
      (ordinary_error_of_end (ends_text rfl rfl).prepend (by decide))
  split
  · exact hrelative _ _
  · exact hrelative _ _
  · exact hrelative _ _
  · exact ordinary_nil

theorem ordinary_checkPrompt (seen : List String) (i : ℕ) (p : Prompt) :
    Ordinary (checkPrompt seen i p) := by
  rw [checkPrompt]
  refine ordinary_append (ordinary_append (ordinary_append ?_ ?_) ?_) ordinary_checkSeen
  · split
    · exact ordinary_error (starts_text rfl) (by decide)
    · exact ordinary_error (starts_text rfl) (by decide)
    · exact ordinary_nil
  · exact ordinary_ite (ordinary_error_of_end (ends_text rfl rfl).prepend (by decide)) ordinary_nil
  · split
    · exact ordinary_error_of_end (ends_text rfl rfl) (by decide)
    · exact ordinary_nil

theorem ordinary_validate (suite : Suite) : Ordinary (validate suite) := by
  rw [validate]
  refine ordinary_append (ordinary_append (ordinary_append ?_ ?_)
    (ordinary_checkEach ordinary_checkProvider _ _ _)) (ordinary_checkEach ordinary_checkPrompt _ _ _)
  · exact ordinary_ite ordinary_nil (ordinary_error (starts_text rfl).append.append (by decide))
  · exact ordinary_ite (ordinary_error (starts_text rfl) (by decide)) ordinary_nil

theorem ordinary_checkExpectFail {suite : SuiteFile.Suite} :
    Ordinary (checkExpectFail suite) := by
  refine ordinary_flatMap fun ⟨test, _⟩ => ?_
  cases test with
  | glob spec => exact ordinary_nil
  | generator => exact ordinary_nil
  | inline tc =>
    exact ordinary_ite (ordinary_warning (starts_text rfl).append (by decide)) ordinary_nil

theorem ordinary_checkTurn {turn : Message} {path : String} : Ordinary (checkTurn turn path) := by
  rw [checkTurn]
  refine ordinary_append ?_
    (ordinary_ite (ordinary_warning (starts_text rfl).append (by decide)) ordinary_nil)
  rw [checkTurnShape, turnProblem]
  split_ifs
  · exact ordinary_error (starts_text rfl) (by decide)
  · exact ordinary_error_of_end (ends_text rfl rfl).prepend (by decide)
  · exact ordinary_error_of_end (ends_text rfl rfl).prepend (by decide)
  · exact ordinary_nil

theorem ordinary_cons {issue : Issue} {issues : List Issue} (h : Ordinary [issue])
    (hs : Ordinary issues) : Ordinary (issue :: issues) :=
  ordinary_append h hs

theorem ordinary_checkTargets {providers : List SuiteFile.Provider}
    {provider : SuiteFile.Provider} {path : String} (targets : List String) (j : ℕ)
    (seen : List String) : Ordinary (checkTargets providers provider path j seen targets) := by
  induction targets generalizing j seen with
  | nil => exact ordinary_nil
  | cons target targets ih =>
    rw [checkTargets]
    refine ordinary_ite (ordinary_cons
      (ordinary_error (starts_text rfl).append.append (by decide)) (ih _ _)) ?_
    cases providers.find? fun p => p.id = target with
    | none =>
      exact ordinary_cons (ordinary_error (starts_text rfl).append.append.append (by decide))
        (ih _ _)
    | some other =>
      refine ordinary_ite (ordinary_cons
        (ordinary_error (starts_text rfl).append.append.append (by decide)) (ih _ _)) ?_
      refine ordinary_append (ordinary_append (ordinary_ite ?_ ordinary_nil)
        (ordinary_ite ordinary_nil ?_)) (ih _ _)
      · exact ordinary_warning (starts_text rfl).append.append (by decide)
      · exact ordinary_warning
          (starts_text rfl).append.append.append.append (by decide)

theorem ordinary_checkFallbacks {regexError : String → Option String} {suite : SuiteFile.Suite} :
    Ordinary (checkFallbacks regexError suite) := by
  rw [checkFallbacks]
  refine ordinary_append
    (ordinary_append (ordinary_flatMap fun x => ?_) (ordinary_ite ?_ ordinary_nil)) ?_
  · obtain ⟨p, i⟩ := x
    dsimp only
    unfold checkFallback
    refine ordinary_append (ordinary_append (ordinary_append (ordinary_ite ?_ ordinary_nil)
      (ordinary_ite ?_ ordinary_nil)) (ordinary_ite ?_ ordinary_nil))
      (ordinary_checkTargets _ _ _)
    · exact ordinary_error (starts_text rfl).append.append.append (by decide)
    · exact ordinary_error (starts_text rfl).append.append.append (by decide)
    · exact ordinary_warning (starts_text rfl).append.append.append.append (by decide)
  · exact ordinary_error (starts_text rfl).append (by decide)
  · split
    · refine ordinary_flatMap fun x => ?_
      obtain ⟨pattern, i⟩ := x
      intro issue hissue
      obtain ⟨e, -, rfl⟩ := List.mem_map.mp hissue
      exact ordinary_error (starts_text rfl).append (by decide) _ (List.mem_singleton_self _)
    · exact ordinary_nil

/-! ### What is reported of a history -/

/-- The warning about the turn that opens a history, which is at this position. -/
def Warns (turns : List Message) (path : String) (issue : Issue) (i : ℕ) : Prop :=
  ∃ turn, firstNonSystem turns = some (turn, i) ∧ issue ∈ checkOpening turn s!"{path}[{i}]"

theorem mem_checkHistory {turns : List Message} {path : String} {leads : Bool} {issue : Issue}
    (h : issue ∈ checkHistory turns path leads) :
    issue.Ordinary ∨ leads = true ∧ ∃ i, Warns turns path issue i := by
  rw [checkHistory, List.mem_append] at h
  rcases h with h | h
  · right
    split_ifs at h with hleads
    · refine ⟨hleads, ?_⟩
      cases hfirst : firstNonSystem turns with
      | none =>
        rw [hfirst] at h
        cases h
      | some first =>
        rw [hfirst] at h
        exact ⟨first.2, first.1, hfirst, h⟩
    · cases h
  · exact Or.inl (ordinary_flatMap (fun _ => ordinary_checkTurn) issue h)

theorem mem_checkInlineHistory {history : Option HistorySpec} {path : String} {leads : Bool}
    {issue : Issue} (h : issue ∈ checkInlineHistory history path leads) :
    issue.Ordinary ∨ leads = true ∧
      ∃ turns i, history = some (.inline turns) ∧ Warns turns path issue i := by
  unfold checkInlineHistory at h
  split at h
  · rcases mem_checkHistory h with h | ⟨hleads, i, h⟩
    · exact Or.inl h
    · exact Or.inr ⟨hleads, _, i, rfl, h⟩
  · cases h

/-- **What is reported of histories** is ordinary, or a warning about the turn that opens one. -/
theorem mem_checkHistories {suite : SuiteFile.Suite} {issue : Issue}
    (h : issue ∈ checkHistories suite) :
    issue.Ordinary ∨ historyCanLandFirst suite = true ∧
      ((∃ turns i, Warns turns "defaults.history" issue i) ∨
        ∃ (t : ℕ) (tc : SuiteFile.TestCase) (turns : List Message) (i : ℕ),
          suite.tests[t]? = some (.inline tc) ∧ tc.history = some (.inline turns) ∧ Warns turns s!"tests[{t}].history" issue i) := by
  rw [checkHistories, List.mem_append, List.mem_append] at h
  rcases h with (h | h) | h
  · rcases mem_checkInlineHistory h with h | ⟨hleads, turns, i, -, h⟩
    · exact Or.inl h
    · exact Or.inr ⟨hleads, Or.inl ⟨turns, i, h⟩⟩
  · obtain ⟨⟨test, t⟩, hmem, h⟩ := List.mem_flatMap.mp h
    cases test with
    | glob spec => cases h
    | generator => cases h
    | inline tc =>
      rcases mem_checkInlineHistory h with h | ⟨hleads, turns, i, hhistory, h⟩
      · exact Or.inl h
      · exact Or.inr ⟨hleads, Or.inr ⟨t, tc, turns, i, List.mem_zipIdx_iff_getElem?.mp hmem,
          hhistory, h⟩⟩
  · refine Or.inl (ordinary_flatMap (fun _ => ordinary_flatMap fun x => ?_) issue h)
    obtain ⟨entry, j⟩ := x
    cases entry with
    | marker => exact ordinary_nil
    | turn turn => exact ordinary_checkTurn

/-- The warning names the turn, which is an assistant's or a result, and is like no other. -/
theorem mem_checkOpening {turn : Message} {path : String} {issue : Issue}
    (h : issue ∈ checkOpening turn path) : (turn.role = .assistant ∨ turn.role = .tool) ∧
      issue.path = path ∧ issue.severity = .warning ∧ ¬issue.Ordinary := by
  rw [checkOpening] at h
  cases hrole : turn.role with
  | system | user =>
    rw [hrole] at h
    cases h
  | assistant =>
    rw [hrole] at h
    rw [List.mem_singleton.mp h]
    exact ⟨Or.inl rfl, rfl, rfl, fun hne => hne (starts_text rfl).append.append.append⟩
  | tool =>
    rw [hrole] at h
    rw [List.mem_singleton.mp h]
    exact ⟨Or.inr rfl, rfl, rfl, fun hne => hne (starts_text rfl).append.append⟩

theorem severity_of_warns {turns : List Message} {path : String} {issue : Issue} {i : ℕ}
    (h : Warns turns path issue i) : issue.severity = .warning := by
  obtain ⟨turn, -, h⟩ := h
  exact (mem_checkOpening h).2.2.1

theorem checkHistories_not_auto {suite : SuiteFile.Suite} :
    ¬ReportsAuto (checkHistories suite) := by
  rintro ⟨issue, hissue, hmessage, hseverity⟩
  rcases mem_checkHistories hissue with h | ⟨-, ⟨_, _, h⟩ | ⟨_, _, _, _, -, -, h⟩⟩
  · have hordinary : Ordinary [issue] := by simpa [Ordinary] using h
    exact hordinary.not_auto ⟨issue, List.mem_singleton_self issue, hmessage, hseverity⟩
  · rw [severity_of_warns h] at hseverity
    cases hseverity
  · rw [severity_of_warns h] at hseverity
    cases hseverity

theorem severity_of_checkVerdictMode {suite : SuiteFile.Suite} {issue : Issue}
    (h : issue ∈ checkVerdictMode suite) : issue.severity = .error := by
  have hgrader : ∀ {grader : Grader} {path : String}, issue ∈ checkGrader grader path →
      issue.severity = .error := by
    intro grader path h
    rw [checkGrader] at h
    split_ifs at h
    · rw [List.mem_singleton.mp h]
      rfl
    · cases h
  rw [checkVerdictMode, List.mem_append] at h
  rcases h with h | h
  · split at h
    · exact hgrader h
    · cases h
  · obtain ⟨⟨test, t⟩, -, h⟩ := List.mem_flatMap.mp h
    cases test with
    | glob spec => cases h
    | generator => cases h
    | inline tc =>
      obtain ⟨⟨assert, a⟩, -, h⟩ := List.mem_flatMap.mp h
      dsimp only at h
      split at h
      · exact hgrader h
      · cases h

/-- **A warning that is not ordinary** comes from the check of histories. -/
theorem mem_checkHistories_of_warning {schema raw : Json} {regexError : String → Option String}
    {suite : SuiteFile.Suite} {issue : Issue}
    (h : issue ∈ validateSuite schema regexError suite raw) (hwarning : issue.severity = .warning)
    (hnot : ¬issue.Ordinary) : issue ∈ checkHistories suite := by
  simp only [validateSuite, List.mem_append] at h
  rcases h with (((((h | h) | h) | h) | h) | h) | h
  · exact absurd (ordinary_checkUnknownFlattenKeys issue h) hnot
  · rw [severity_of_checkVerdictMode h] at hwarning
    cases hwarning
  · exact absurd (ordinary_checkRunnerLimits issue h) hnot
  · exact absurd (ordinary_validate _ issue h) hnot
  · exact absurd (ordinary_checkExpectFail issue h) hnot
  · exact h
  · exact absurd (ordinary_checkFallbacks issue h) hnot

/-! ### An automatic verdict mode -/

/-- **What `validate` reports of the verdict mode.** -/
theorem reportsAuto_validateSuite {schema raw : Json} {regexError : String → Option String}
    {suite : SuiteFile.Suite} : ReportsAuto (validateSuite schema regexError suite raw) ↔
      suite.GraderAuto ∨ suite.InlineAuto := by
  simp only [validateSuite, reportsAuto_append, ordinary_checkUnknownFlattenKeys.not_auto,
    reportsAuto_checkVerdictMode, ordinary_checkRunnerLimits.not_auto, (ordinary_validate _).not_auto,
    ordinary_checkExpectFail.not_auto, checkHistories_not_auto, ordinary_checkFallbacks.not_auto,
    false_or, or_false]

/-- **An automatic verdict mode is reported** wherever a grader can appear, exactly when it does
not appear in the default assertions alone. -/
theorem validate_reports_auto_iff (schema raw : Json) (regexError : String → Option String)
    (suite : SuiteFile.Suite) :
    (suite.GraderAuto ∨ suite.DefaultsAuto ∨ suite.InlineAuto →
        ReportsAuto (validateSuite schema regexError suite raw)) ↔
      (suite.DefaultsAuto → suite.GraderAuto ∨ suite.InlineAuto) := by
  rw [reportsAuto_validateSuite]
  constructor
  · exact fun h hdefaults => h (Or.inr (Or.inl hdefaults))
  · rintro h (hgrader | hdefaults | hinline)
    · exact Or.inl hgrader
    · exact h hdefaults
    · exact Or.inr hinline

/-- A suite with one test, whose one default assertion asks for the automatic verdict mode. -/
def autoDefaults : SuiteFile.Suite where
  version := 1
  providers := [⟨⟨"gpt", false, .openai none⟩, []⟩]
  prompts := []
  tests := [.inline ⟨none, [], none⟩]
  defaults := some ⟨[.llmRubric (some ⟨some .auto⟩)], none⟩
  grader := none
  runner := none

/-- **The default assertions are not looked at.** -/
theorem default_auto_unreported :
    ¬ ∀ (schema raw : Json) (regexError : String → Option String) (suite : SuiteFile.Suite),
      suite.GraderAuto ∨ suite.DefaultsAuto ∨ suite.InlineAuto →
        ReportsAuto (validateSuite schema regexError suite raw) := by
  intro hall
  have hauto : autoDefaults.DefaultsAuto :=
    ⟨_, rfl, _, List.mem_singleton_self _, _, rfl, rfl⟩
  have hreports := hall null null (fun _ => none) autoDefaults (Or.inr (Or.inl hauto))
  rw [reportsAuto_validateSuite] at hreports
  rcases hreports with ⟨grader, hgrader, -⟩ | ⟨tc, htc, assert, hassert, -⟩
  · cases hgrader
  · -- the one test has no assertions of its own
    obtain ⟨⟩ := List.mem_singleton.mp htc
    cases hassert
