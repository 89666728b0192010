/-
The `http` provider: a black box behind templates.

Url, headers and body are templates over the vars, the prompt and the environment.  The
fingerprint has the templates as they are written; the document of a call has what they
render to, with placeholders for the environment, and there is no document when one of them
does not render.

* **`canonicalRequest_alike`** — for providers with one fingerprint the documents agree exactly
  when the templates render alike.
-/
import Domarinn.ChatWire
import Domarinn.RequestCfg
import Domarinn.Template

open Json

/-- `HttpMethod`. -/
inductive HttpMethod where
  | get
  | post
  | put
  | patch
  | delete
  | head
deriving DecidableEq

def HttpMethod.asStr : HttpMethod → String
  | get => "GET"
  | post => "POST"
  | put => "PUT"
  | patch => "PATCH"
  | delete => "DELETE"
  | head => "HEAD"

theorem HttpMethod.asStr_inj {m n : HttpMethod} : m.asStr = n.asStr ↔ m = n := by
  cases m <;> cases n <;> decide

structure HttpProvider where
  id : String
  url : String
  method : HttpMethod
  headers : List (String × String)
  body : Option Json
  outputExpr : Option String

/-- One rendered request. -/
structure BuiltHttpRequest where
  url : String
  method : HttpMethod
  headers : List (String × String)
  body : Option Json

/-- The `prompt` of the template context: the prose of each turn after its role. -/
def RenderedPrompt.contextText : RenderedPrompt → String
  | text t => t
  | messages ms =>
    "\n".intercalate (ms.map fun m => m.role.asStr ++ ": " ++ m.content.prose)

/-- The `messages` of the template context. -/
def RenderedPrompt.contextMessages : RenderedPrompt → Json
  | text t => arr [obj [("role", str "user"), ("content", str t)]]
  | messages ms => arr (ms.map ChatMessage.toJson)

/-- `render_context`: a var named `messages` wins over the turns. -/
def renderContext (req : ProviderRequest) (env : Json) : Json :=
  let context := insertMember "env" env req.vars
  match req.prompt with
  | some prompt =>
    let context := insertMember "prompt" (str prompt.contextText) context
    obj (insertAbsent "messages" prompt.contextMessages context)
  | none => obj context

namespace HttpProvider

variable (engine : TemplateEngine) (env : Json)

/-- The failure of a template. -/
def renderFailed (what message : String) : ProviderError :=
  .fatal s!"rendering {what}: {message}" .renderFailed none

def renderHeaders (context : Json) :
    List (String × String) → Except ProviderError (List (String × String))
  | [] => return []
  | (name, template) :: headers => do
    let value ← (engine.renderStr template context).mapError (renderFailed s!"header {name}")
    let rest ← renderHeaders context headers
    return (name, value) :: rest

/-- `build_request`. -/
def buildRequest (p : HttpProvider) (req : ProviderRequest) :
    Except ProviderError BuiltHttpRequest := do
  let context := renderContext req env
  let url ← (engine.renderStr p.url context).mapError (renderFailed "url")
  let headers ← renderHeaders engine context p.headers
  match p.body with
  | some body =>
    let body ← (engine.renderVal context (.tpl body)).mapError (renderFailed "body")
    return ⟨url, p.method, headers, some body⟩
  | none => return ⟨url, p.method, headers, none⟩

/-- `fingerprint`: the templates, unrendered. -/
def fingerprint (p : HttpProvider) : Json :=
  obj ([("type", str "http"), ("url", str p.url), ("method", str p.method.asStr),
      ("body", p.body.getD null), ("output_expr", (p.outputExpr.map str).getD null)] ++
    optMember "headers" ((mapDigest p.headers).map Digest.toJson))

/-- The document of a rendered request. -/
def canonicalDocument (p : HttpProvider) (built : BuiltHttpRequest) : Json :=
  obj ([("transport", str "http"), ("method", str built.method.asStr), ("url", str built.url)] ++
    optMember "body" built.body ++
    optMember "headers_digest" ((mapDigest built.headers).map Digest.toJson) ++
    optMember "output_expr" (p.outputExpr.map str))

/-- `canonical_request`. -/
def canonicalRequest (p : HttpProvider) (req : ProviderRequest) : Option Json :=
  match p.buildRequest engine env req with
  | .ok built => some (p.canonicalDocument built)
  | .error _ => none

/-- `request_preview`. -/
def requestPreview (p : HttpProvider) (req : ProviderRequest) : Option Json :=
  match p.buildRequest engine env req with
  | .ok built => some (httpRequestPreview built.method.asStr built.url (built.body.getD null))
  | .error _ => none

/-- The `http` provider; `env` is the placeholder environment. -/
def provider (p : HttpProvider) : Provider :=
  { Provider.withDefaults p.id p.fingerprint with
    requestPreview := p.requestPreview engine env
    canonicalRequest := p.canonicalRequest engine env }

/-- One set of templates, for one method, read back by one expression. -/
structure SameTemplates (p q : HttpProvider) : Prop where
  url : p.url = q.url
  method : p.method = q.method
  headers : mapDigest p.headers = mapDigest q.headers
  body : sortKeys (p.body.getD null) = sortKeys (q.body.getD null)
  outputExpr : p.outputExpr = q.outputExpr

theorem fingerprint_eq (p : HttpProvider) : p.fingerprint =
    obj (optMembers [("type", some (str "http")), ("url", some (str p.url)),
      ("method", some (str p.method.asStr)), ("body", some (p.body.getD null)),
      ("output_expr", some ((p.outputExpr.map str).getD null)),
      ("headers", (mapDigest p.headers).map Digest.toJson)]) := by
  rw [fingerprint, ← List.append_nil (optMember "headers" _)]
  rfl

theorem fingerprint_alike {p q : HttpProvider} :
    sortKeys p.fingerprint = sortKeys q.fingerprint ↔ p.SameTemplates q := by
  rw [fingerprint_eq, fingerprint_eq, sortKeys_optMembers (by rfl) (by simp)]
  simp only [List.map_cons, List.map_nil, Option.map_some, List.cons.injEq, Option.some.injEq,
    and_true, true_and]
  rw [map_digest_toJson, str_sortKeys_inj, str_sortKeys_inj, HttpMethod.asStr_inj,
    sortKeys_getD_str]
  constructor
  · rintro ⟨url, method, body, outputExpr, headers⟩
    exact ⟨url, method, headers, body, outputExpr⟩
  · exact fun h => ⟨h.url, h.method, h.body, h.outputExpr, h.headers⟩

/-- Two calls render alike: neither renders, or both render to one url, one set of headers and
one body. -/
def RendersAlike (p q : HttpProvider) (env' : Json) (req req' : ProviderRequest) : Prop :=
  match p.buildRequest engine env req, q.buildRequest engine env' req' with
  | .ok built, .ok built' => built.url = built'.url ∧
      built.body.map sortKeys = built'.body.map sortKeys ∧
      mapDigest built.headers = mapDigest built'.headers
  | .error _, .error _ => True
  | _, _ => False

theorem buildRequest_method {p : HttpProvider} {req : ProviderRequest} {built : BuiltHttpRequest}
    (h : p.buildRequest engine env req = .ok built) : built.method = p.method := by
  simp only [buildRequest, bind, Except.bind, pure, Except.pure] at h
  -- the url, the headers and the body may each fail to render
  split at h
  · cases h
  split at h
  · cases h
  split at h
  · split at h
    · cases h
    · rw [← Except.ok.inj h]
  · rw [← Except.ok.inj h]

theorem canonicalDocument_eq (p : HttpProvider) (built : BuiltHttpRequest) :
    p.canonicalDocument built =
      obj (optMembers [("transport", some (str "http")), ("method", some (str built.method.asStr)),
        ("url", some (str built.url)), ("body", built.body),
        ("headers_digest", (mapDigest built.headers).map Digest.toJson),
        ("output_expr", p.outputExpr.map str)]) := by
  rw [canonicalDocument, ← List.append_nil (optMember "output_expr" _)]
  simp only [List.append_assoc]
  rfl

/-- **The documents agree exactly when the templates render alike.** -/
theorem canonicalRequest_alike {p q : HttpProvider} (h : p.SameTemplates q) (env' : Json)
    (req req' : ProviderRequest) :
    (p.canonicalRequest engine env req).map sortKeys =
        (q.canonicalRequest engine env' req').map sortKeys ↔
      p.RendersAlike engine env q env' req req' := by
  rw [canonicalRequest, canonicalRequest, RendersAlike]
  -- a request that cannot be built has no canonical form
  cases hbuilt : p.buildRequest engine env req with
  | error e => cases q.buildRequest engine env' req' <;> simp
  | ok built => cases hbuilt' : q.buildRequest engine env' req' with
    | error e => simp
    | ok built' =>
      dsimp only
      rw [Option.map_some, Option.map_some, Option.some.injEq, canonicalDocument_eq,
        canonicalDocument_eq, sortKeys_optMembers (by rfl) (by simp)]
      simp only [List.map_cons, List.map_nil, Option.map_some, List.cons.injEq, Option.some.injEq,
        and_true, true_and]
      rw [map_digest_toJson, str_sortKeys_inj, str_sortKeys_inj,
        buildRequest_method engine env hbuilt, buildRequest_method engine env' hbuilt', h.method,
        h.outputExpr]
      constructor
      · rintro ⟨-, url, body, headers, -⟩
        exact ⟨url, body, headers⟩
      · rintro ⟨url, body, headers⟩
        exact ⟨rfl, url, body, headers, rfl⟩

end HttpProvider
