/-
What moved between two runs of one case, and what the recorded digests can tell about it.

A change is blamed on the model or the grader only when every digest is known on both sides and
none has moved.  The digests cover the prompt, the vars, the params and the case salt, and
what the provider publishes as its fingerprint; the document of the call covers more.

* **`digests_agree_iff`** — what two runs share when their digests agree;
* **`attributionSound_iff`** — the classification is sound exactly when such runs also agree
  on what only the document covers: declared tools, the `request:` block, and what the
  templates of an `http` provider render to.
-/
import Domarinn.CaseChange
import Domarinn.ExecProvider
import Domarinn.HttpProvider
import Domarinn.RunPlan
import Domarinn.VendorProviders

open Json

/-! ### Two runs of one case -/

/-- A provider of a run, of any kind that forms cells. -/
inductive ConfiguredProvider where
  | openai (p : VendorProvider)
  | anthropic (p : VendorProvider)
  | http (p : HttpProvider)
  | exec (p : ExecProvider)

/-- A call of a cell: who was asked, in which process environment, and for what. -/
structure CaseRun where
  key : CellKey
  provider : ConfiguredProvider
  env : Json
  req : ProviderRequest

namespace CaseRun

variable (engine : TemplateEngine)

/-- What the provider of the run publishes. -/
def published (run : CaseRun) : Provider :=
  match run.provider with
  | .openai p => OpenAi.provider p
  | .anthropic p => Anthropic.provider p
  | .http p => p.provider engine run.env
  | .exec p => p.provider

/-- The document the provider published for the call. -/
def canonicalRequest (run : CaseRun) : Option Json :=
  (run.published engine).canonicalRequest run.req

/-- The recorded `prompt_digest`. -/
def recordedPrompt (run : CaseRun) : Digest := promptDigest run.req

/-- The recorded `provider_digest`. -/
def recordedProvider (run : CaseRun) : Digest := providerDigest (run.published engine).fingerprint

end CaseRun

/-- The calls of two runs are one request, up to the order of members. -/
def SameRequest (engine : TemplateEngine) (base head : CaseRun) : Prop :=
  (base.canonicalRequest engine).map sortKeys = (head.canonicalRequest engine).map sortKeys

/-- The digests of two runs agree. -/
def DigestsAgree (engine : TemplateEngine) (base head : CaseRun) : Prop :=
  base.recordedPrompt = head.recordedPrompt ∧
    base.recordedProvider engine = head.recordedProvider engine

/-- What is classified for two runs, given what else is recorded about them. -/
def recordedChange (engine : TemplateEngine) (base head : CaseRun)
    (asserts grader : Option Digest × Option Digest) (outputChanged verdictChanged : Bool) :
    ChangeInputs :=
  { basePrompt := some base.recordedPrompt
    headPrompt := some head.recordedPrompt
    baseProvider := some (base.recordedProvider engine)
    headProvider := some (head.recordedProvider engine)
    baseAsserts := asserts.1
    headAsserts := asserts.2
    baseGrader := grader.1
    headGrader := grader.2
    outputChanged, verdictChanged }

/-- Runs whose digests agree made one request, and the model or the grader is blamed for a
change only when they did. -/
structure AttributionSound (engine : TemplateEngine) (base head : CaseRun) : Prop where
  digests : DigestsAgree engine base head → SameRequest engine base head
  classified : ∀ asserts grader outputChanged verdictChanged,
    let change := classifyChange
      (recordedChange engine base head asserts grader outputChanged verdictChanged)
    change = .modelDrift ∨ change = .unstableGrader → SameRequest engine base head

/-- The digests decide: the classification adds nothing to them. -/
theorem attributionSound_of_digests {engine : TemplateEngine} {base head : CaseRun}
    (h : DigestsAgree engine base head → SameRequest engine base head) :
    AttributionSound engine base head := by
  refine ⟨h, fun asserts grader outputChanged verdictChanged hblamed => h ?_⟩
  obtain ⟨hprompt, hprovider⟩ := digests_of_classifyChange hblamed
  exact ⟨Option.some.inj hprompt, Option.some.inj hprovider⟩

/-! ### What the digests cover -/

namespace ConfiguredProvider

/-- The `type` of the fingerprint. -/
def kind : ConfiguredProvider → String
  | openai _ => "openai"
  | anthropic _ => "anthropic"
  | http _ => "http"
  | exec _ => "exec"

def fingerprint : ConfiguredProvider → Json
  | openai p => p.fingerprint "openai"
  | anthropic p => p.fingerprint "anthropic"
  | http p => p.fingerprint
  | exec p => p.fingerprint

/-- Two providers of one kind that publish one fingerprint. -/
def SameFingerprint : ConfiguredProvider → ConfiguredProvider → Prop
  | openai p, openai q => p.SameModel q
  | anthropic p, anthropic q => p.SameModel q
  | http p, http q => p.SameTemplates q
  | exec p, exec q => p.SameProgram q
  | _, _ => False

theorem fingerprint_type (p : ConfiguredProvider) : ∃ rest : List (String × Json),
    p.fingerprint = obj (("type", str p.kind) :: rest) ∧ ("type" :: names rest).Nodup := by
  cases p with
  | openai p => exact ⟨_, rfl, by simp⟩
  | anthropic p => exact ⟨_, rfl, by simp⟩
  | exec p => exact ⟨_, rfl, by simp⟩
  | http p =>
    refine ⟨_, rfl, ?_⟩
    cases mapDigest p.headers <;> simp [optMember]

theorem kind_of_fingerprint {p q : ConfiguredProvider}
    (h : sortKeys p.fingerprint = sortKeys q.fingerprint) : p.kind = q.kind := by
  obtain ⟨ms, hp, hms⟩ := p.fingerprint_type
  obtain ⟨ns, hq, hns⟩ := q.fingerprint_type
  rw [hp, hq, sortKeys_obj_cons hms hns] at h
  exact str_sortKeys_inj.mp h.1

theorem fingerprint_alike {p q : ConfiguredProvider} :
    sortKeys p.fingerprint = sortKeys q.fingerprint ↔ p.SameFingerprint q := by
  have hkind : p.kind ≠ q.kind → ¬sortKeys p.fingerprint = sortKeys q.fingerprint :=
    mt kind_of_fingerprint
  cases p <;> cases q
  case openai.openai => exact VendorProvider.fingerprint_alike
  case anthropic.anthropic => exact VendorProvider.fingerprint_alike
  case http.http => exact HttpProvider.fingerprint_alike
  case exec.exec => exact ExecProvider.fingerprint_alike
  -- providers of two kinds publish two types
  all_goals exact iff_of_false (hkind (by simp [kind])) not_false

end ConfiguredProvider

/-- What two runs share when their digests agree. -/
structure SameQuestion (base head : CaseRun) : Prop where
  prompt : base.req.SamePrompt head.req
  caseSalt : base.req.caseSalt = head.req.caseSalt
  provider : base.provider.SameFingerprint head.provider

theorem RenderedPrompt.toJson_getD_alike {p q : Option RenderedPrompt} :
    sortKeys ((p.map RenderedPrompt.toJson).getD null) =
        sortKeys ((q.map RenderedPrompt.toJson).getD null) ↔
      (p.map RenderedPrompt.toJson).map sortKeys = (q.map RenderedPrompt.toJson).map sortKeys := by
  have hobj : ∀ p : RenderedPrompt, ∃ ms, sortKeys p.toJson = obj ms := by
    intro p
    cases p <;> exact ⟨_, sortKeys_obj _⟩
  cases p with
  | none => cases q with
    | none => simp
    | some q =>
      obtain ⟨ms, hq⟩ := hobj q
      simp [hq, sortKeys]
  | some p => cases q with
    | none =>
      obtain ⟨ms, hp⟩ := hobj p
      simp [hp, sortKeys]
    | some q => simp

/-- **What two runs share when their digests agree.** -/
theorem digests_agree_iff {engine : TemplateEngine} {base head : CaseRun} :
    DigestsAgree engine base head ↔ SameQuestion base head := by
  have hfingerprint : ∀ run : CaseRun,
      (run.published engine).fingerprint = run.provider.fingerprint := by
    rintro ⟨key, provider, env, req⟩
    cases provider <;> rfl
  rw [DigestsAgree, CaseRun.recordedPrompt, CaseRun.recordedPrompt, CaseRun.recordedProvider,
    CaseRun.recordedProvider, promptDigest, promptDigest, providerDigest, providerDigest,
    digest_inj, digest_inj, hfingerprint, hfingerprint, ConfiguredProvider.fingerprint_alike,
    promptDocument, promptDocument, sortKeys_obj_cons (by simp) (by simp),
    sortKeys_obj_cons (by simp) (by simp), sortKeys_obj_cons (by simp) (by simp),
    sortKeys_obj_cons (by simp) (by simp), RenderedPrompt.toJson_getD_alike, sortKeys_getD_str]
  constructor
  · rintro ⟨⟨prompt, vars, params, caseSalt, -⟩, provider⟩
    exact ⟨⟨prompt, vars, params⟩, caseSalt, provider⟩
  · exact fun h => ⟨⟨h.prompt.prompt, h.prompt.vars, h.prompt.params, h.caseSalt, rfl⟩, h.provider⟩

/-! ### What they leave out -/

/-- What the digests leave out is the same: for a vendor the path, the declared headers, and
what tools and overlay make of the body; for `http` what the templates render to; for `exec`
the declared tools. -/
def ContributesAlike (engine : TemplateEngine) (base head : CaseRun) : Prop :=
  match base.provider, head.provider with
  | .openai p, .openai q => ∀ a b, base.req.prompt = some a → head.req.prompt = some b →
      -- the arguments of a call are sent as text, which keeps the order of their members
      p.SendsAlike ["tools", "messages"] q (OpenAi.buildBody p a base.req.tools)
        (OpenAi.buildBody q b head.req.tools)
  | .anthropic p, .anthropic q => ∀ a b, base.req.prompt = some a → head.req.prompt = some b →
      p.SendsAlike ["tools"] q (Anthropic.buildBody p a base.req.tools)
        (Anthropic.buildBody q b head.req.tools)
  | .http p, .http q => p.RendersAlike engine base.env q head.env base.req head.req
  | .exec p, .exec _ => p.command ≠ [] →
      (base.req.tools.map ExecProvider.toolJson).map sortKeys =
        (head.req.tools.map ExecProvider.toolJson).map sortKeys
  | _, _ => False

/-- Documents made from the prompt are one when those of two prompts are. -/
theorem map_prompt_alike {req req' : ProviderRequest} (h : req.SamePrompt req')
    {f g : RenderedPrompt → Json} :
    (req.prompt.map f).map sortKeys = (req'.prompt.map g).map sortKeys ↔
      ∀ a b, req.prompt = some a → req'.prompt = some b → sortKeys (f a) = sortKeys (g b) := by
  have hprompt := h.prompt
  cases hp : req.prompt <;> cases hq : req'.prompt <;> simp_all

theorem sameRequest_iff {engine : TemplateEngine} {base head : CaseRun}
    (h : SameQuestion base head) :
    SameRequest engine base head ↔ ContributesAlike engine base head := by
  obtain ⟨key, provider, env, req⟩ := base
  obtain ⟨key', provider', env', req'⟩ := head
  obtain ⟨hprompt, -, hprovider⟩ := h
  dsimp only at hprompt hprovider
  -- the same question is asked of one kind of provider
  cases provider <;> cases provider'
  case openai.openai p q =>
    rw [SameRequest, CaseRun.canonicalRequest, CaseRun.canonicalRequest, CaseRun.published,
      CaseRun.published, OpenAi.canonicalRequest_eq, OpenAi.canonicalRequest_eq]
    refine (map_prompt_alike hprompt).trans (forall₄_congr fun a b _ _ => ?_)
    exact VendorProvider.canonicalDocument_iff (OpenAi.nodup_buildBody _ _ _)
      (OpenAi.nodup_buildBody _ _ _) (OpenAi.buildBody_alike hprovider _ _ _ _)
  case anthropic.anthropic p q =>
    rw [SameRequest, CaseRun.canonicalRequest, CaseRun.canonicalRequest, CaseRun.published,
      CaseRun.published, Anthropic.canonicalRequest_eq, Anthropic.canonicalRequest_eq]
    refine (map_prompt_alike hprompt).trans (forall₄_congr fun a b ha hb => ?_)
    have halike : sortKeys a.toJson = sortKeys b.toJson := by
      simpa [ha, hb] using hprompt.prompt
    exact VendorProvider.canonicalDocument_iff (Anthropic.nodup_buildBody _ _ _)
      (Anthropic.nodup_buildBody _ _ _) (Anthropic.buildBody_alike hprovider halike _ _)
  case http.http p q => exact HttpProvider.canonicalRequest_alike engine env hprovider env' req req'
  case exec.exec p q => exact ExecProvider.canonicalRequest_alike hprovider hprompt
  all_goals exact absurd hprovider not_false

/-- **The attribution is sound exactly when runs with one digest leave nothing out
differently.** -/
theorem attributionSound_iff (engine : TemplateEngine) (base head : CaseRun) :
    AttributionSound engine base head ↔
      (SameQuestion base head → ContributesAlike engine base head) := by
  constructor
  · intro h hsame
    exact (sameRequest_iff hsame).mp (h.digests (digests_agree_iff.mpr hsame))
  · intro h
    refine attributionSound_of_digests fun hdigests => ?_
    have hsame := digests_agree_iff.mp hdigests
    exact (sameRequest_iff hsame).mpr (h hsame)

/-! ### A declared tool moves no digest -/

/-- A template engine that leaves every template as it is. -/
def verbatimEngine : TemplateEngine := ⟨fun template _ => .ok template, fun _ _ => .ok true⟩

/-- A call of one cell with the given tools. -/
def toolRun (tools : List ToolDef) : CaseRun :=
  { key := ⟨"gpt", some "ask", "t1", 0⟩
    provider := .openai
      { id := "gpt", model := "gpt-5", baseUrl := "https://api.openai.com/v1", params := .empty
        rate := none, request := .vendorDefault OpenAi.defaultPath, cacheSalt := none }
    env := obj []
    req := { ProviderRequest.default with prompt := some (.text "hi"), tools } }

/-- A suite that declares a tool between two runs is told that the model drifted. -/
theorem tool_declared_unnoticed :
    let base := toolRun []
    let head := toolRun [⟨"search", none, none⟩]
    base.key = head.key ∧ DigestsAgree verbatimEngine base head ∧
      classifyChange (recordedChange verbatimEngine base head (some ⟨""⟩, some ⟨""⟩)
        (some ⟨""⟩, some ⟨""⟩) true true) = .modelDrift ∧
      ¬SameRequest verbatimEngine base head ∧ ¬AttributionSound verbatimEngine base head := by
  intro base head
  have hdigests : DigestsAgree verbatimEngine base head := ⟨rfl, rfl⟩
  have hrequest : ¬SameRequest verbatimEngine base head := by
    unfold SameRequest
    decide +kernel
  exact ⟨rfl, hdigests, by decide +kernel, hrequest, fun h => hrequest (h.digests hdigests)⟩
