/-
Suites: providers, prompts and test sources, and what `validate` refuses in them.

* **`validate`** — the version, the providers and the prompts are checked, in the order of
  the source; test ids are not;
* **`validate_ids`** — a suite without errors has distinct provider ids and distinct
  prompt ids.
-/
import Domarinn.Types

/-! ### The parts of a suite -/

/-- A value of the suite: rendered as a template, or kept as written. -/
inductive Val where
  | tpl (v : Json)
  | raw (v : Json)

/-- The underlying JSON value. -/
def Val.asJson : Val → Json
  | .tpl v | .raw v => v

/-- A test case; the maps are listed in key order.  Its assertions, its history and its expected
failure are kept as the documents they are written as. -/
structure TestCase where
  id : Option String
  tags : List String
  vars : List (String × Val)
  /-- The parameter sweep: the values of each axis. -/
  matrix : List (String × List Val)
  matrixId : Option String
  onlyProviders : List String
  skipProviders : List String
  description : Option String := none
  assert : List Json := []
  threshold : Option ℚ := none
  cacheSalt : Option String := none
  history : Option Json := none
  expectFail : Option Json := none

/-- A case with nothing set. -/
def TestCase.default : TestCase where
  id := none
  tags := []
  vars := []
  matrix := []
  matrixId := none
  onlyProviders := []
  skipProviders := []

/-- What the suite's `defaults` give to every case. -/
structure Defaults where
  vars : List (String × Val)
  tags : List String
  assert : List Json := []
  threshold : Option ℚ := none
  cacheSalt : Option String := none
  history : Option Json := none

/-- A command that emits test cases. -/
structure GeneratorSpec where
  command : List String
  config : Option Json
  timeoutMs : Option ℕ

/-- An entry of the `tests:` list. -/
inductive TestSource where
  | glob (spec : String)
  | generator (gen : GeneratorSpec)
  | inline (tc : TestCase)

/-- An entry of a prompt's `messages:` list. -/
inductive PromptEntry where
  | marker
  | turn (message : ChatMessage)

/-- Whether an entry is a `history` marker. -/
def PromptEntry.isMarker : PromptEntry → Bool
  | .marker => true
  | .turn _ => false

structure Prompt where
  id : String
  template : Option String
  messages : Option (List PromptEntry)

/-- The kinds of providers; three of them can declare a request path. -/
inductive ProviderKind where
  | exec
  | http
  | anthropic (path : Option String)
  | openai (path : Option String)
  | embeddings (path : Option String)

/-- A provider as the suite configures it. -/
structure ProviderConfig where
  id : String
  fallbackOnly : Bool
  kind : ProviderKind

/-- Whether it is an embeddings provider. -/
def ProviderConfig.isEmbeddings (p : ProviderConfig) : Bool :=
  match p.kind with
  | .embeddings _ => true
  | _ => false

/-- Whether it expands into cells of the matrix. -/
def ProviderConfig.formsCells (p : ProviderConfig) : Bool := !p.isEmbeddings && !p.fallbackOnly

structure Suite where
  version : ℕ
  providers : List ProviderConfig
  prompts : List Prompt
  tests : List TestSource
  defaults : Option Defaults

/-! ### Validation -/

inductive Severity where
  | error
  | warning
deriving DecidableEq

structure Issue where
  path : String
  message : String
  severity : Severity

/-- An error. -/
def Issue.new (path message : String) : Issue := ⟨path, message, .error⟩

/-- A declared `request.path` must be absolute. -/
def checkRequestPath (kind : ProviderKind) (path : String) : List Issue :=
  match kind with
  | .anthropic (some declared) | .openai (some declared) | .embeddings (some declared) =>
    if declared.startsWith "/" then []
    else [.new s!"{path}.request.path"
      s!"`{declared}` must start with `/` — it is appended to `base_url` verbatim, so a relative path would run the two together"]
  | _ => []

/-- The issues of an id that may have been seen before. -/
def checkSeen (seen : List String) (id path what : String) : List Issue :=
  if seen.contains id then [.new path s!"duplicate {what} id '{id}'"] else []

/-- The checks of a list, from position `i` on, after the ids of `seen`. -/
def checkEach {α : Type} (id : α → String) (check : List String → ℕ → α → List Issue) :
    List String → ℕ → List α → List Issue
  | _, _, [] => []
  | seen, i, x :: rest => check seen i x ++ checkEach id check (id x :: seen) (i + 1) rest

/-- The checks of a provider. -/
def checkProvider (seen : List String) (i : ℕ) (p : ProviderConfig) : List Issue :=
  checkSeen seen p.id s!"providers[{i}]" "provider" ++
    checkRequestPath p.kind s!"providers[{i}]"

/-- The checks of a prompt: one of template and messages, one marker, some entries. -/
def checkPrompt (seen : List String) (i : ℕ) (p : Prompt) : List Issue :=
  let path := s!"prompts[{i}]"
  (match p.template, p.messages with
    | some _, some _ => [.new path "set exactly one of 'template' or 'messages', not both"]
    | none, none => [.new path "set exactly one of 'template' or 'messages'"]
    | _, _ => []) ++
  (let markers := (p.messages.getD []).countP PromptEntry.isMarker
    if markers > 1 then
      [.new path s!"{markers} `history` markers; a prompt may have at most one"] else []) ++
  (match p.messages with
    | some [] => [.new path "`messages` has no entries; add turns or a `history` marker"]
    | _ => []) ++
  checkSeen seen p.id path "prompt"

/-- The checks of `validate` on the version, the providers and the prompts. -/
def validate (suite : Suite) : List Issue :=
  (if suite.version = 1 then []
    else [.new "version" s!"unsupported version {suite.version} (expected 1)"]) ++
  (if suite.providers.isEmpty then [.new "providers" "at least one provider is required"]
    else []) ++
  checkEach ProviderConfig.id checkProvider [] 0 suite.providers ++
  checkEach Prompt.id checkPrompt [] 0 suite.prompts

/-- Whether the suite is refused. -/
def hasErrors (issues : List Issue) : Bool := issues.any fun issue => issue.severity == .error

@[simp] theorem hasErrors_append (xs ys : List Issue) :
    hasErrors (xs ++ ys) = (hasErrors xs || hasErrors ys) := by
  simp [hasErrors]

theorem checkSeen_errors {seen : List String} {id path what : String} :
    hasErrors (checkSeen seen id path what) = false ↔ id ∉ seen := by
  unfold checkSeen
  split_ifs with h
  · simpa [hasErrors, Issue.new] using h
  · simpa [hasErrors] using h

/-- When every check refuses an id seen before, a list without errors has distinct ids. -/
theorem checkEach_ids {α : Type} (id : α → String) (check : List String → ℕ → α → List Issue)
    (hcheck : ∀ seen i x, hasErrors (check seen i x) = false → id x ∉ seen) :
    ∀ {xs : List α} {seen : List String} {i : ℕ}, hasErrors (checkEach id check seen i xs) = false →
      (xs.map id).Nodup ∧ ∀ x ∈ xs, id x ∉ seen := by
  intro xs
  induction xs with
  | nil => simp
  | cons x rest ih =>
    intro seen i h
    rw [checkEach, hasErrors_append, Bool.or_eq_false_iff] at h
    obtain ⟨hnodup, hseen⟩ := ih h.2
    constructor
    · rw [List.map_cons, List.nodup_cons]
      refine ⟨fun hmem => ?_, hnodup⟩
      obtain ⟨y, hy, hid⟩ := List.mem_map.mp hmem
      exact hseen y hy (hid ▸ List.mem_cons_self)
    · rintro y (_ | ⟨_, hy⟩)
      · exact hcheck seen i x h.1
      · exact fun hmem => hseen y hy (List.mem_cons_of_mem _ hmem)

theorem checkProvider_id {seen : List String} {i : ℕ} {p : ProviderConfig}
    (h : hasErrors (checkProvider seen i p) = false) : p.id ∉ seen := by
  rw [checkProvider, hasErrors_append, Bool.or_eq_false_iff, checkSeen_errors] at h
  exact h.1

theorem checkPrompt_id {seen : List String} {i : ℕ} {p : Prompt}
    (h : hasErrors (checkPrompt seen i p) = false) : p.id ∉ seen := by
  rw [checkPrompt, hasErrors_append, Bool.or_eq_false_iff, checkSeen_errors] at h
  exact h.2

/-- **An accepted suite has distinct provider ids and distinct prompt ids.** -/
theorem validate_ids {suite : Suite} (h : hasErrors (validate suite) = false) :
    (suite.providers.map ProviderConfig.id).Nodup ∧ (suite.prompts.map Prompt.id).Nodup := by
  simp only [validate, hasErrors_append, Bool.or_eq_false_iff] at h
  exact ⟨(checkEach_ids _ checkProvider (fun _ _ _ => checkProvider_id) h.1.2).1,
    (checkEach_ids _ checkPrompt (fun _ _ _ => checkPrompt_id) h.2).1⟩

/-! ### Steps that can fail -/

/-- What a bind that succeeds is made of. -/
theorem bind_ok {ε α β : Type} {x : Except ε α} {f : α → Except ε β} {b : β}
    (h : x >>= f = .ok b) : ∃ a, x = .ok a ∧ f a = .ok b := by
  cases x with
  | error e => cases h
  | ok a => exact ⟨a, rfl, h⟩
