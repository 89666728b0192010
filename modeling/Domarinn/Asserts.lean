/-
Assertions, and the ones that are evaluated without asking anybody.

`evaluateKind` evaluates an assertion over an output, `negateAndGuard` applies `negate` and
the guard against vacuous passes, and `evaluateLocal` is the two together.

Outside the model: the template engine, regular expressions, the JSON parser, the schema
validator, and the Unicode tables behind lower-casing and quoting.  They are parameters.

* **`evaluateLocal_unitScore`** — every local assertion has an outcome, and its score lies
  between `0` and `1`.
-/
import Domarinn.AssertOutcome
import Domarinn.JsonReorder
import Domarinn.Template
import Mathlib.Data.List.Infix

open Json

/-! ### Definitions of assertions -/

/-- The stable name of an assertion kind. -/
inductive AssertName where
  | contains
  | icontains
  | icontainsAny
  | regex
  | equals
  | startsWith
  | isJson
  | containsJson
  | length
  | jinja
  | exec
  | llmRubric
  | cost
  | latency
  | tokens
  | similar
  | toolCall
deriving DecidableEq

/-- `AssertName::as_str`. -/
def AssertName.asStr : AssertName → String
  | contains => "contains"
  | icontains => "icontains"
  | icontainsAny => "icontains-any"
  | regex => "regex"
  | equals => "equals"
  | startsWith => "starts-with"
  | isJson => "is-json"
  | containsJson => "contains-json"
  | length => "length"
  | jinja => "jinja"
  | exec => "exec"
  | llmRubric => "llm-rubric"
  | cost => "cost"
  | latency => "latency"
  | tokens => "tokens"
  | similar => "similar"
  | toolCall => "tool-call"

/-- Which tokens a `tokens` assertion counts. -/
inductive TokenCount where
  | total
  | billable
deriving DecidableEq

/-- The assertion behavior, selected by `type`.  A `grader` override is kept as the document
it is written as. -/
inductive AssertKind where
  | contains (value : String)
  | icontains (value : String)
  | icontainsAny (values : List String)
  | regex (value : String)
  | equals (value : Val)
  | startsWith (value : String)
  | isJson
  | containsJson (schema : Option Val)
  | length (min max : Option ℕ)
  | jinja (value : String)
  | exec (command : List String) (config : Option Json) (cacheSalt : Option String)
  | toolCall (name : String) (args schema : Option Val)
  | llmRubric (value : String) (grader : Option Json) (threshold : Option ℚ)
      (params : Option (List (String × Json)))
  | cost (max : ℚ)
  | latency (max : ℕ)
  | tokens (max : ℕ) (count : Option TokenCount)
  | similar (value : Val) (threshold : Option ℚ)

/-- `AssertKind::name`. -/
def AssertKind.name : AssertKind → AssertName
  | contains _ => .contains
  | icontains _ => .icontains
  | icontainsAny _ => .icontainsAny
  | regex _ => .regex
  | equals _ => .equals
  | startsWith _ => .startsWith
  | isJson => .isJson
  | containsJson _ => .containsJson
  | length _ _ => .length
  | jinja _ => .jinja
  | exec _ _ _ => .exec
  | toolCall _ _ _ => .toolCall
  | llmRubric _ _ _ _ => .llmRubric
  | cost _ => .cost
  | latency _ => .latency
  | tokens _ _ => .tokens
  | similar _ _ => .similar

/-- An assertion of a test. -/
structure Assert where
  weight : ℚ
  negate : Bool
  kind : AssertKind

/-- `is_local`: is the assertion evaluated here, or by the grader? -/
def isLocal : AssertKind → Bool
  | .exec _ _ _ | .llmRubric _ _ _ _ | .similar _ _ => false
  | _ => true

/-! ### What the libraries do -/

/-- What `regex`, `serde_json` and the Unicode tables answer. -/
structure Libraries where
  /-- A pattern compiles to a predicate on texts, or not at all. -/
  regexNew : String → Except String (String → Bool)
  fromStr : String → Option Json
  toLowercase : String → String
  /-- The quoted and escaped form of a text. -/
  debug : String → String
  /-- The encoding of an assertion kind. -/
  toValue : AssertKind → Option Json

/-- A compiled schema: the path and the message of every violation, in some order. -/
abbrev Validator : Type := Json → List (String × String)

/-- Metrics available to budget assertions after a provider call. -/
structure MetricCtx where
  latencyMs : ℕ
  costUsd : Option ℚ
  totalTokens : Option ℕ
  billableTokens : Option ℕ

/-- Everything a local assertion needs beyond the assertion and the output.  `schemas`
answers with the compiled form of a schema, which the run remembers. -/
structure EvalCtx where
  libs : Libraries
  engine : TemplateEngine
  vars : Json
  metrics : MetricCtx
  schemas : Json → Except String Validator
  toolCalls : List ToolCall
  emptyReason : Option EmptyReason

/-! ### Texts -/

/-- `s.contains(value)`. -/
def containsText (s value : String) : Bool := decide (value.toList <:+: s.toList)

/-- `s.starts_with(value)`. -/
def startsWithText (s value : String) : Bool := value.toList.isPrefixOf s.toList

/-- `s.trim()`. -/
def trimText (s : String) : String :=
  String.ofList (((s.toList.dropWhile isWhitespace).reverse.dropWhile isWhitespace).reverse)

/-- The nearest natural number, a tie going to the even one. -/
def roundHalfEven (q : ℚ) : ℕ :=
  let n := ⌊q⌋₊
  let rest := q - n
  if rest < 1 / 2 then n else if rest > 1 / 2 then n + 1 else n + n % 2

/-- `{q:.digits}`: a decimal with this many fraction digits. -/
def fixed (digits : ℕ) (q : ℚ) : String :=
  let n := roundHalfEven (|q| * 10 ^ digits)
  let fraction := (n % 10 ^ digits).repr
  (if q < 0 then "-" else "") ++ (n / 10 ^ digits).repr ++ "." ++
    String.ofList (List.replicate (digits - fraction.length) '0') ++ fraction

/-- Documents are compared up to the order of object members. -/
def sameJson (a b : Json) : Bool := decide (sortKeys a = sortKeys b)

/-- `Output::as_json`: the output as JSON if it is, or parses as, JSON. -/
def Output.asJson (libs : Libraries) : Output → Option Json
  | .json v => some v
  | .text s => libs.fromStr s

/-! ### Embedded JSON -/

/-- The text up to the bracket that closes the first one, when `depth` are open. -/
def balanced (opening closing : Char) : ℤ → List Char → Option (List Char)
  | _, [] => none
  | depth, c :: cs =>
    if c = opening then (balanced opening closing (depth + 1) cs).map (c :: ·)
    else if c = closing then
      let depth := depth - 1
      if depth = 0 then some [c] else (balanced opening closing depth cs).map (c :: ·)
    else (balanced opening closing depth cs).map (c :: ·)

/-- `extract_json`: the whole text, else the first balanced object or array in it. -/
def extractJson (libs : Libraries) (text : String) : Option Json :=
  match libs.fromStr (trimText text) with
  | some v => some v
  | none =>
    let start := text.toList.dropWhile fun c => c != '{' && c != '['
    match start with
    | [] => none
    | opening :: _ =>
      let closing := if opening = '{' then '}' else ']'
      match balanced opening closing 0 start with
      | none => none
      | some document => libs.fromStr (String.ofList document)

/-! ### Schemas and tool calls -/

/-- How many violations are listed. -/
def maxReportedErrors : ℕ := 10

/-- Violations in the order of their texts. -/
def sortErrors (errors : List (String × String)) : List (String × String) :=
  errors.mergeSort fun a b => a.1 < b.1 || a.1 == b.1 && a.2 ≤ b.2

/-- `validate_against`. -/
def validateAgainst (document schema : Json) (schemas : Json → Except String Validator) :
    AssertOutcome :=
  match schemas schema with
  | .error e => .broken s!"invalid JSON Schema: {e}"
  | .ok iterErrors =>
    let errors := sortErrors (iterErrors document)
    match errors with
    | [] => .pass "output contains JSON matching the schema"
    | (firstPath, firstMessage) :: rest =>
      let location := if firstPath.isEmpty then "" else s!" at `{firstPath}`"
      let others := rest.length
      let more := if others = 0 then "" else s!" (and {others} more)"
      (AssertOutcome.fail
        s!"JSON does not match schema{location}: {firstMessage}{more}").withDetails
        (obj [("errors", arr ((errors.take maxReportedErrors).map fun (path, message) =>
            obj [("path", str path), ("message", str message)])),
          ("total", nat errors.length)])

/-- Why a reported call does not satisfy an assertion, and whether the assertion itself is
broken. -/
structure CallMismatch where
  reason : String
  unevaluable : Bool

/-- The expected arguments, one after the other: present and equal. -/
def argsMatch (call : ToolCall) : List (String × Json) → Except CallMismatch Unit
  | [] => .ok ()
  | (k, want) :: rest =>
    match getMember call.arguments k with
    | none => .error ⟨s!"argument `{k}` was not passed", false⟩
    | some got =>
      if sameJson got want then argsMatch call rest
      else
        let (gotText, wantText) := (got.text, want.text)
        .error ⟨s!"argument `{k}` was {gotText}, expected {wantText}", false⟩

/-- `tool_call_matches`: a subset match of the arguments, then the schema. -/
def toolCallMatches (call : ToolCall) (args schema : Option Val) (ctx : EvalCtx) :
    Except CallMismatch Unit := do
  match args with
  | none => pure ()
  | some args =>
    match ctx.engine.renderVal ctx.vars args with
    -- a template that will not render is a broken assertion, not a mismatch
    | .error e => throw ⟨s!"rendering expected args: {e}", true⟩
    | .ok (.obj expected) => argsMatch call expected
    | .ok _ => throw ⟨"`args` must be an object", true⟩
  match schema with
  | none => pure ()
  | some schema =>
    let outcome := validateAgainst call.arguments schema.asJson ctx.schemas
    if outcome.passed then pure () else throw ⟨outcome.reason, outcome.unevaluable⟩

/-- The calls of the tool one after the other: any match passes, and the last mismatch is
reported. -/
def anyCallMatches (name : String) (args schema : Option Val) (ctx : EvalCtx) (count : ℕ) :
    String → List ToolCall → AssertOutcome
  | lastReason, [] =>
    .fail s!"tool `{name}` was called {count} time(s), none matching: {lastReason}"
  | _, call :: rest =>
    match toolCallMatches call args schema ctx with
    | .ok () => .pass s!"tool `{name}` was called as expected"
    | .error m =>
      let reason := m.reason
      -- broken for one call is broken for every call
      if m.unevaluable then .broken s!"tool `{name}` assertion cannot be evaluated: {reason}"
      else anyCallMatches name args schema ctx count reason rest

/-! ### Local evaluation -/

/-- `assert_context`: the vars, with the output beside them. -/
def assertContext (output : Output) (ctx : EvalCtx) : Json :=
  let vars := match ctx.vars with
    | .obj members => members
    | _ => []
  let named := insertMember "output" (str output.asText) vars
  let parsed := match output.asJson ctx.libs with
    | some v => insertMember "output_json" v named
    | none => named
  obj (insertMember "vars" ctx.vars parsed)

/-- A length against its bounds, the lower one first. -/
def lengthOutcome (len : ℕ) (min max : Option ℕ) : AssertOutcome :=
  let below := (min.map fun m => decide (len < m)).getD false
  let above := (max.map fun m => decide (len > m)).getD false
  let lower := min.getD 0
  let upper := max.getD 0
  if below then .fail s!"length {len} < min {lower}"
  else if above then .fail s!"length {len} > max {upper}"
  else .pass s!"length {len} within bounds"

/-- `evaluate_kind`. -/
def evaluateKind (kind : AssertKind) (output : Output) (ctx : EvalCtx) : AssertOutcome :=
  let text := output.asText
  match kind with
  | .contains value =>
    .cond (containsText text value) s!"output contains \"{value}\""
      s!"output does not contain \"{value}\""
  | .icontains value =>
    .cond (containsText (ctx.libs.toLowercase text) (ctx.libs.toLowercase value))
      s!"output contains \"{value}\" (case-insensitive)"
      s!"output does not contain \"{value}\" (case-insensitive)"
  | .icontainsAny values =>
    let lower := ctx.libs.toLowercase text
    match values.find? fun v => containsText lower (ctx.libs.toLowercase v) with
    | some v => .pass s!"output contains \"{v}\""
    | none =>
      let quoted := ", ".intercalate (values.map ctx.libs.debug)
      .fail s!"output contains none of [{quoted}]"
  | .regex value =>
    match ctx.libs.regexNew value with
    | .ok isMatch =>
      .cond (isMatch text) s!"output matches /{value}/" s!"output does not match /{value}/"
    | .error e => .broken s!"invalid regex /{value}/: {e}"
  | .equals value =>
    let rendered := match ctx.engine.renderVal ctx.vars value with
      | .ok v => v
      | .error _ => value.asJson
    let isEqual := match rendered with
      | .str s => text == s
      | other => match output.asJson ctx.libs with
        | some v => sameJson v other
        | none => false
    .cond isEqual "output equals expected" "output does not equal expected"
  | .startsWith value =>
    .cond (startsWithText text value) s!"output starts with \"{value}\""
      s!"output does not start with \"{value}\""
  | .isJson =>
    .cond (output.asJson ctx.libs).isSome "output is valid JSON" "output is not valid JSON"
  | .containsJson schema =>
    match extractJson ctx.libs text with
    | none => .fail "output contains no JSON value"
    | some found => match schema with
      | none => .pass "output contains JSON"
      | some schema => validateAgainst found schema.asJson ctx.schemas
  | .toolCall name args schema =>
    let matching := ctx.toolCalls.filter fun c => c.name == name
    if matching.isEmpty then
      let names := ", ".intercalate (ctx.toolCalls.map ToolCall.name)
      let called := if ctx.toolCalls.isEmpty then "no tools were called" else s!"called: {names}"
      .fail s!"tool `{name}` was not called ({called})"
    else anyCallMatches name args schema ctx matching.length "" matching
  | .length min max => lengthOutcome text.length min max
  | .jinja value =>
    match ctx.engine.evalBool value (assertContext output ctx) with
    | .ok true => .pass s!"expression `{value}` is true"
    | .ok false => .fail s!"expression `{value}` is false"
    | .error e => .broken s!"expression `{value}` errored: {e}"
  | .cost max =>
    match ctx.metrics.costUsd with
    | some cost =>
      let (shown, bound) := (fixed 6 cost, fixed 6 max)
      .cond (cost ≤ max) s!"cost ${shown} <= ${bound}" s!"cost ${shown} > ${bound}"
    | none => .pass "cost not reported; budget not enforced"
  | .latency max =>
    let ms := ctx.metrics.latencyMs
    .cond (ms ≤ max) s!"latency {ms}ms <= {max}ms" s!"latency {ms}ms > {max}ms"
  | .tokens max count =>
    let billable := count == some .billable
    let measured := if billable then ctx.metrics.billableTokens else ctx.metrics.totalTokens
    let label := if billable then "billable tokens" else "tokens"
    match measured with
    | some tokens =>
      .cond (tokens ≤ max) s!"{label} {tokens} <= {max}" s!"{label} {tokens} > {max}"
    | none => .pass "tokens not reported; budget not enforced"
  | .exec _ _ _ | .llmRubric _ _ _ _ | .similar _ _ =>
    .broken "internal: non-local assert routed to local path"

/-- `guard_applies`: nothing was produced, and the assertion reads what was produced. -/
def guardApplies (kind : AssertKind) (output : Output) (toolCalls : List ToolCall) : Bool :=
  toolCalls.isEmpty && (classifyBlank output).isSome &&
    match kind with
    | .cost _ | .latency _ | .tokens _ _ => false
    | _ => true

/-- `negate_and_guard`: apply `negate`, then the guard against vacuous passes. -/
def negateAndGuard (outcome : AssertOutcome) (assert : Assert) (output : Output)
    (toolCalls : List ToolCall) (emptyReason : Option EmptyReason) : AssertOutcome :=
  let outcome := outcome.negated assert.negate
  if guardApplies assert.kind output toolCalls then
    outcome.denyVacuousNegatedPass assert.negate emptyReason
  else outcome

/-- `evaluate_local`: `none` for an assertion that needs the grader. -/
def evaluateLocal (assert : Assert) (output : Output) (ctx : EvalCtx) : Option AssertOutcome :=
  if !isLocal assert.kind then none
  else some (negateAndGuard (evaluateKind assert.kind output ctx) assert output ctx.toolCalls
    ctx.emptyReason)

/-! ### Scores of local assertions -/

theorem unitScore_validateAgainst (document schema : Json)
    (schemas : Json → Except String Validator) :
    (validateAgainst document schema schemas).UnitScore := by
  unfold validateAgainst
  cases schemas schema with
  | error e => exact AssertOutcome.unitScore_broken _
  | ok iterErrors =>
    dsimp only
    cases sortErrors (iterErrors document) with
    | nil => exact AssertOutcome.unitScore_pass _
    | cons first rest => exact (AssertOutcome.unitScore_fail _).withDetails _

theorem unitScore_anyCallMatches (name : String) (args schema : Option Val) (ctx : EvalCtx)
    (count : ℕ) : ∀ (calls : List ToolCall) (lastReason : String),
      (anyCallMatches name args schema ctx count lastReason calls).UnitScore := by
  intro calls
  induction calls with
  | nil =>
    intro lastReason
    exact AssertOutcome.unitScore_fail _
  | cons call rest ih =>
    intro lastReason
    rw [anyCallMatches]
    cases toolCallMatches call args schema ctx with
    | ok _ => exact AssertOutcome.unitScore_pass _
    | error m =>
      by_cases hm : m.unevaluable = true
      · simp [hm]
      · simpa [hm] using ih m.reason

theorem unitScore_lengthOutcome (len : ℕ) (min max : Option ℕ) :
    (lengthOutcome len min max).UnitScore := by
  simp only [lengthOutcome]
  split_ifs <;> simp

/-- Every kind of assertion scores between `0` and `1`. -/
theorem unitScore_evaluateKind (kind : AssertKind) (output : Output) (ctx : EvalCtx) :
    (evaluateKind kind output ctx).UnitScore := by
  -- kinds that are scored by one condition, kinds that another module settles, and the rest
  cases kind with
  | contains value | icontains value | equals value | startsWith value | isJson | latency max =>
    exact AssertOutcome.unitScore_cond _ _ _
  | exec command config cacheSalt | llmRubric value grader threshold params
  | similar value threshold => exact AssertOutcome.unitScore_broken _
  | length min max => exact unitScore_lengthOutcome _ min max
  | icontainsAny values | regex value | jinja value | cost max | tokens max count =>
    simp only [evaluateKind]
    split <;> simp
  | containsJson schema =>
    simp only [evaluateKind]
    cases extractJson ctx.libs output.asText with
    | none => exact AssertOutcome.unitScore_fail _
    | some found =>
      cases schema with
      | none => exact AssertOutcome.unitScore_pass _
      | some schema => exact unitScore_validateAgainst found schema.asJson ctx.schemas
  | toolCall name args schema =>
    simp only [evaluateKind]
    split_ifs
    · exact AssertOutcome.unitScore_fail _
    · exact AssertOutcome.unitScore_fail _
    · exact unitScore_anyCallMatches name args schema ctx _ _ _

/-- Negating and guarding keep a score between `0` and `1`. -/
theorem unitScore_negateAndGuard {o : AssertOutcome} (h : o.UnitScore)
    (assert : Assert) (output : Output) (toolCalls : List ToolCall)
    (emptyReason : Option EmptyReason) :
    (negateAndGuard o assert output toolCalls emptyReason).UnitScore := by
  have hn := h.negated assert.negate
  unfold negateAndGuard
  by_cases hguard : guardApplies assert.kind output toolCalls = true
  · simpa only [hguard, if_true] using hn.denyVacuousNegatedPass assert.negate emptyReason
  · simpa only [if_neg hguard] using hn

/-- Every local assertion has an outcome, which scores between `0` and `1`. -/
theorem evaluateLocal_unitScore {assert : Assert} (output : Output) (ctx : EvalCtx)
    (hlocal : isLocal assert.kind = true) :
    ∃ outcome, evaluateLocal assert output ctx = some outcome ∧ outcome.UnitScore := by
  refine ⟨_, ?_, unitScore_negateAndGuard
    (unitScore_evaluateKind assert.kind output ctx) assert output ctx.toolCalls ctx.emptyReason⟩
  simp [evaluateLocal, hlocal]
