/-
The two vendor providers, `openai` and `anthropic`: what each publishes about itself, and the
document each publishes for a call.

Both publish type, model, base url and params as their fingerprint.  The document of a call
has the path, the body and a digest of the declared headers; the body has the params, the
model, the transcript and the declared tools, patched by the overlay of the `request:` block.

* **`canonicalDocument_iff`** — two documents are one exactly when path, headers and patched
  body agree;
* **`OpenAi.buildBody_alike`**, **`Anthropic.buildBody_alike`** — what can still differ in the
  body when model and prompt agree.
-/
import Domarinn.ChatWire
import Domarinn.RequestCfg

open Json

/-- A vendor provider, as a run builds it from the suite. -/
structure VendorProvider where
  id : String
  model : String
  baseUrl : String
  params : Members
  rate : Option ModelRate
  request : ResolvedRequest
  cacheSalt : Option String

namespace VendorProvider

/-- `redacted_endpoint`. -/
def redactedEndpoint (p : VendorProvider) : String := trimEndSlashes p.baseUrl ++ p.request.path

/-- `fingerprint`, of either vendor. -/
def fingerprint (type : String) (p : VendorProvider) : Json :=
  obj [("type", str type), ("model", str p.model), ("base_url", str p.baseUrl),
    ("params", obj p.params.list)]

/-- The document of a call: `headers` are those of the vendor that are part of the question. -/
def canonicalDocument (p : VendorProvider) (headers : Option Json) (body : Json) : Json :=
  obj (httpCanonicalRequest "POST" p.request.path (p.request.applyKeyedBody body) ++
    optMember "headers" headers ++
    optMember "headers_digest" ((mapDigest p.request.headers).map Digest.toJson))

/-- The trait record of a vendor, from what it publishes for a request. -/
def provider (p : VendorProvider) (type : String) (body : ProviderRequest → Option Json)
    (headers : Option Json) : Provider :=
  let canonicalRequest := fun req => (body req).map (p.canonicalDocument headers)
  { Provider.withDefaults p.id (p.fingerprint type) with
    rate := p.rate
    requestPreview := fun req => (body req).map fun b =>
      httpRequestPreview "POST" p.redactedEndpoint (p.request.applyKeyedBody b)
    canonicalRequest := canonicalRequest
    address := some p.redactedEndpoint
    legacyCanonicalRequests := fun req => legacyUrlShape (canonicalRequest req) p.redactedEndpoint
    cacheSalt := p.cacheSalt }

/-- One model, at one address, with one set of params. -/
def SameModel (p q : VendorProvider) : Prop :=
  p.model = q.model ∧ p.baseUrl = q.baseUrl ∧
    sortKeys (obj p.params.list) = sortKeys (obj q.params.list)

theorem fingerprint_alike {type : String} {p q : VendorProvider} :
    sortKeys (p.fingerprint type) = sortKeys (q.fingerprint type) ↔ p.SameModel q := by
  rw [fingerprint, fingerprint, sortKeys_obj_cons (by simp) (by simp),
    sortKeys_obj_cons (by simp) (by simp), sortKeys_obj_cons (by simp) (by simp),
    sortKeys_obj_cons (by simp) (by simp)]
  simp [SameModel, str_sortKeys_inj]

theorem canonicalDocument_eq (p : VendorProvider) (headers : Option Json) (body : Json) :
    p.canonicalDocument headers body =
      obj (optMembers [("transport", some (str "http")), ("method", some (str "POST")),
        ("path", some (str p.request.path)), ("body", some (p.request.applyKeyedBody body)),
        ("headers", headers),
        ("headers_digest", (mapDigest p.request.headers).map Digest.toJson)]) := by
  rw [canonicalDocument, ← List.append_nil (optMember "headers_digest" _)]
  simp only [List.append_assoc]
  rfl

theorem canonicalDocument_alike {p q : VendorProvider} {headers : Option Json} {body body' : Json} :
    sortKeys (p.canonicalDocument headers body) = sortKeys (q.canonicalDocument headers body') ↔
      p.request.path = q.request.path ∧
        sortKeys (p.request.applyKeyedBody body) = sortKeys (q.request.applyKeyedBody body') ∧
        mapDigest p.request.headers = mapDigest q.request.headers := by
  rw [canonicalDocument_eq, canonicalDocument_eq, sortKeys_optMembers (by rfl) (by simp)]
  simp only [List.map_cons, List.map_nil, Option.map_some, List.cons.injEq, Option.some.injEq,
    and_true, true_and]
  rw [map_digest_toJson, str_sortKeys_inj]

/-- Two calls are sent alike: one path, one set of declared headers, and bodies that the
overlays make alike. -/
structure SendsAlike (apart : List String) (p q : VendorProvider) (ms ns : List (String × Json)) :
    Prop where
  path : p.request.path = q.request.path
  headers : mapDigest p.request.headers = mapDigest q.request.headers
  body : p.request.SendsAlike apart q.request ms ns

/-- **Documents are one exactly when the calls are sent alike.** -/
theorem canonicalDocument_iff {apart : List String} {p q : VendorProvider} {headers : Option Json}
    {ms ns : List (String × Json)} (hms : (names ms).Nodup) (hns : (names ns).Nodup)
    (hrest : AlikeBut apart ms ns) :
    sortKeys (p.canonicalDocument headers (obj ms)) =
      sortKeys (q.canonicalDocument headers (obj ns)) ↔ p.SendsAlike apart q ms ns := by
  rw [canonicalDocument_alike, ResolvedRequest.applyKeyedBody_alike hms hns hrest]
  exact ⟨fun h => ⟨h.1, h.2.2, h.2.1⟩, fun h => ⟨h.path, h.body, h.headers⟩⟩

end VendorProvider

/-- The schema of a tool that declares none. -/
def anyObject : Json := obj [("type", str "object")]

/-! ### OpenAI -/

namespace OpenAi

def defaultPath : String := "/chat/completions"

/-- `to_messages`. -/
def toMessages : RenderedPrompt → List Json
  | .text text => [obj [("role", str "user"), ("content", str text)]]
  | .messages ms => openaiMessages ms

/-- A declared tool, in this vendor's shape. -/
def toolJson (t : ToolDef) : Json :=
  obj [("type", str "function"),
    ("function", obj [("name", str t.name), ("description", str (t.description.getD "")),
      ("parameters", t.inputSchema.getD anyObject)])]

/-- `build_body`. -/
def buildBody (p : VendorProvider) (prompt : RenderedPrompt) (tools : List ToolDef) :
    List (String × Json) :=
  let body := insertAll p.params.list []
  let body := insertMember "model" (str p.model) body
  let body := insertMember "messages" (arr (toMessages prompt)) body
  insertOption "tools" (toolsMember toolJson tools) body

/-- The `openai` provider. -/
def provider (p : VendorProvider) : Provider :=
  p.provider "openai" (fun req => req.prompt.map fun prompt => obj (buildBody p prompt req.tools))
    none

theorem canonicalRequest_eq (p : VendorProvider) (req : ProviderRequest) :
    (provider p).canonicalRequest req = req.prompt.map fun prompt =>
      p.canonicalDocument none (obj (buildBody p prompt req.tools)) :=
  Option.map_map _ _ _

theorem nodup_buildBody (p : VendorProvider) (prompt : RenderedPrompt) (tools : List ToolDef) :
    (names (buildBody p prompt tools)).Nodup :=
  nodup_insertOption _ _ (nodup_insertMember _ _ (nodup_insertMember _ _
    (nodup_insertAll _ _ List.nodup_nil)))

/-- What no digest covers is in the tools and in the text of call arguments. -/
theorem buildBody_alike {p q : VendorProvider} (h : p.SameModel q) (a b : RenderedPrompt)
    (ts us : List ToolDef) :
    AlikeBut ["tools", "messages"] (buildBody p a ts) (buildBody q b us) := by
  refine .insertOption_apart ?_ (by simp)
  refine .insertOption_apart (v := some _) (w := some _) ?_ (by simp)
  refine .insert (.of_params p.params.nodup q.params.nodup h.2.2) ?_
  rw [h.1]

end OpenAi

/-! ### Anthropic -/

namespace Anthropic

def defaultPath : String := "/v1/messages"

/-- `to_messages`: the system text is not a message. -/
def toMessages : RenderedPrompt → Option String × List Json
  | .text text => (none, [obj [("role", str "user"), ("content", str text)]])
  | .messages ms => anthropicMessages ms

/-- A declared tool, in this vendor's shape. -/
def toolJson (t : ToolDef) : Json :=
  obj [("name", str t.name), ("description", str (t.description.getD "")),
    ("input_schema", t.inputSchema.getD anyObject)]

/-- `build_body`. -/
def buildBody (p : VendorProvider) (prompt : RenderedPrompt) (tools : List ToolDef) :
    List (String × Json) :=
  let turns := toMessages prompt
  let body := insertAll p.params.list []
  let body := insertMember "model" (str p.model) body
  let body := insertMember "messages" (arr turns.2) body
  let body := insertOption "system" (turns.1.map str) body
  let body := insertAbsent "max_tokens" (nat 4096) body
  insertOption "tools" (toolsMember toolJson tools) body

/-- The one header of a call that is part of the question. -/
def versionHeader : Json := obj [("anthropic-version", str "2023-06-01")]

/-- The `anthropic` provider. -/
def provider (p : VendorProvider) : Provider :=
  p.provider "anthropic"
    (fun req => req.prompt.map fun prompt => obj (buildBody p prompt req.tools))
    (some versionHeader)

theorem canonicalRequest_eq (p : VendorProvider) (req : ProviderRequest) :
    (provider p).canonicalRequest req = req.prompt.map fun prompt =>
      p.canonicalDocument (some versionHeader) (obj (buildBody p prompt req.tools)) :=
  Option.map_map _ _ _

theorem toMessages_congr {a b : RenderedPrompt} (h : sortKeys a.toJson = sortKeys b.toJson) :
    (toMessages a).1 = (toMessages b).1 ∧
      (toMessages a).2.map sortKeys = (toMessages b).2.map sortKeys := by
  have hsorted := RenderedPrompt.sorted_eq h
  cases a with
  | text s => cases b with
    | text t => simp_all [RenderedPrompt.sorted]
    | messages ns => cases hsorted
  | messages ms => cases b with
    | text t => cases hsorted
    | messages ns => exact anthropicMessages_congr (RenderedPrompt.messages.inj hsorted)

theorem nodup_buildBody (p : VendorProvider) (prompt : RenderedPrompt) (tools : List ToolDef) :
    (names (buildBody p prompt tools)).Nodup :=
  nodup_insertOption _ _ (nodup_insertAbsent _ _ (nodup_insertOption _ _
    (nodup_insertMember _ _ (nodup_insertMember _ _ (nodup_insertAll _ _ List.nodup_nil)))))

/-- What no digest covers is in the tools. -/
theorem buildBody_alike {p q : VendorProvider} (h : p.SameModel q) {a b : RenderedPrompt}
    (hprompt : sortKeys a.toJson = sortKeys b.toJson) (ts us : List ToolDef) :
    AlikeBut ["tools"] (buildBody p a ts) (buildBody q b us) := by
  obtain ⟨hsystem, hmessages⟩ := toMessages_congr hprompt
  refine .insertOption_apart (.insertAbsent ?_ (by simp)) (by simp)
  rw [hsystem]
  refine .insertOption (.insert (.insert (.of_params p.params.nodup q.params.nodup h.2.2) ?_) ?_)
  · rw [h.1]
  · rw [sortKeys_arr, sortKeys_arr, hmessages]

end Anthropic
