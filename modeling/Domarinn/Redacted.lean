/-
What of the environment a vendor call stores, and what it sends.

A provider is built from its configuration and the environment, which is read three times: for the
headers that are injected into every request, for the templates of the `request:` block, and for
the credential.  The block is rendered with placeholders for everything that is published.

* **`renderRequest_eq`** — a rendered block is its templates, each replaced by what it renders to;
* **`published_eq`** — what is published depends on the names of the environment only, and on the
  injected headers;
* **`wireRequest_eq`** — what is sent depends on what the templates render to, and the credential;
* **`environment_not_stored`** — both, for two environments;
* **`injected_headers_stored`** — the injected headers are templates, and their text is stored.
-/
import Domarinn.CacheKey
import Domarinn.CallHeaders
import Domarinn.Fallible
import Domarinn.VendorProviders

open Json Std

/-! ### The environment -/

/-- The variables of a process, by name. -/
abbrev Environment := TreeMap String String

/-- `env_object`. -/
def envObject (env : Environment) : Json := obj (env.toList.map fun e => (e.1, str e.2))

/-- `env_placeholder_object`: the names of the environment. -/
def envPlaceholderObject (env : Environment) : Json :=
  obj (env.keys.map fun name => (name, str ("$\x7benv:" ++ name ++ "\x7d")))

/-- `GLOBAL_HEADERS_ENV`. -/
def globalHeadersEnv : String := "DOMARINN_PROVIDER_HEADERS"

/-- `api_key`: the first variable of these that is set and not blank. -/
def apiKey (env : Environment) (names : List String) : Except (ErrorClass × String) String :=
  match names.findSome? fun name => env[name]?.filter fun v => !isBlank v with
  | some value => .ok value
  | none => .error (ErrorClass.providerAuth,
      match names with
      | [name] => "API key environment variable '" ++ name ++ "' is not set"
      | _ => "none of these API key environment variables are set: " ++ ", ".intercalate names)

/-! ### The vendors -/

/-- A vendor: its defaults, its own headers on the wire, and what it makes of a provider. -/
structure Vendor where
  name : String
  defaultBaseUrl : String
  defaultKeyEnv : String
  defaultPath : String
  defaultAuth : AuthMode
  headers : List (String × String)
  buildBody : VendorProvider → RenderedPrompt → List ToolDef → List (String × Json)
  provider : VendorProvider → Provider

def Vendor.openai : Vendor where
  name := "openai"
  defaultBaseUrl := "https://api.openai.com/v1"
  defaultKeyEnv := "OPENAI_API_KEY"
  defaultPath := OpenAi.defaultPath
  defaultAuth := .bearer
  headers := []
  buildBody := OpenAi.buildBody
  provider := OpenAi.provider

def Vendor.anthropic : Vendor where
  name := "anthropic"
  defaultBaseUrl := "https://api.anthropic.com"
  defaultKeyEnv := "ANTHROPIC_API_KEY"
  defaultPath := Anthropic.defaultPath
  defaultAuth := .apiKey
  headers := [("anthropic-version", "2023-06-01")]
  buildBody := Anthropic.buildBody
  provider := Anthropic.provider

/-- A provider as it is configured; the names of an overlay are distinct. -/
structure VendorConfig where
  id : String
  model : String
  baseUrl : Option String
  apiKeyEnv : Option (List String)
  params : Members
  rate : Option ModelRate
  request : Option RequestCfg
  cacheSalt : Option String
  overlay_distinct : ∀ body ∈ request.bind RequestCfg.body, body.distinct = true

/-- A provider that is built: its block, rendered twice. -/
structure BuiltVendor where
  config : VendorConfig
  request : SendableRequest

/-- A value as a document, if the names in it are distinct. -/
def Document.ofJson? (v : Json) : Option Document :=
  if h : v.distinct = true then some ⟨v, h⟩ else none

/-- The block as it is stored. -/
def SendableRequest.stored (request : SendableRequest) : ResolvedRequest where
  headers := request.keyed.headers.toList
  path := request.keyed.path
  body := request.keyed.body.bind Document.ofJson?

/-- `apply_body`: the overlay as it is sent. -/
def SendableRequest.applyBody (request : SendableRequest) (body : Json) : Json :=
  match request.wire.body with
  | some overlay => deepMerge body overlay
  | none => body

/-- What is sent. -/
structure WireRequest where
  method : String
  url : String
  headers : HeaderMap
  body : Json

namespace Vendor

variable (vendor : Vendor) (engine : TemplateEngine) (fromStr : String → Except String Json)

/-- `new`, and `with_request`. -/
def build (config : VendorConfig) (env : Environment) : Except RequestError BuiltVendor := do
  let request ← resolveRequest engine fromStr env[globalHeadersEnv]? (envObject env)
    (envPlaceholderObject env) config.request vendor.defaultPath vendor.defaultAuth
  return { config, request }

/-- The fields of the provider that is built, with the block as it is stored. -/
def fields (built : BuiltVendor) : VendorProvider where
  id := built.config.id
  model := built.config.model
  baseUrl := built.config.baseUrl.getD vendor.defaultBaseUrl
  params := built.config.params
  rate := built.config.rate
  request := built.request.stored
  cacheSalt := built.config.cacheSalt

/-- What the provider publishes. -/
def published (built : BuiltVendor) : Provider := vendor.provider (vendor.fields built)

/-- The credential of a call, where the mode needs one. -/
def credential (built : BuiltVendor) (env : Environment) :
    Except (ErrorClass × String) (Option String) :=
  if built.request.auth = .none then .ok none
  else (apiKey env (built.config.apiKeyEnv.getD [vendor.defaultKeyEnv])).map some

/-- The request that `call` sends. -/
def wireRequest (built : BuiltVendor) (env : Environment) (req : ProviderRequest) :
    Except (ErrorClass × String) WireRequest :=
  match req.prompt with
  | none => .error (ErrorClass.providerRequest, vendor.name ++ " provider requires a prompt")
  | some prompt => do
    let key ← vendor.credential built env
    return {
      method := "POST"
      url := trimEndSlashes (vendor.fields built).baseUrl ++ built.request.wire.path
      headers := built.request.callHeaders vendor.headers key
      body := built.request.applyBody (obj (vendor.buildBody (vendor.fields built) prompt
        req.tools)) }

end Vendor

/-! ### A rendered block is its templates, replaced -/

mutual

/-- A value with every string in it replaced; names and other values stay. -/
def mapStrings (f : String → String) : Json → Json
  | .str s => .str (f s)
  | .arr items => .arr (mapStringsItems f items)
  | .obj members => .obj (mapStringsMembers f members)
  | other => other

def mapStringsItems (f : String → String) : List Json → List Json
  | [] => []
  | v :: vs => mapStrings f v :: mapStringsItems f vs

def mapStringsMembers (f : String → String) : List (String × Json) → List (String × Json)
  | [] => []
  | (k, v) :: ms => (k, mapStrings f v) :: mapStringsMembers f ms

end

theorem names_mapStringsMembers (f : String → String) (ms : List (String × Json)) :
    (mapStringsMembers f ms).map Prod.fst = ms.map Prod.fst := by
  induction ms with
  | nil => rfl
  | cons m ms ih => rw [mapStringsMembers, List.map_cons, ih, List.map_cons]

mutual

/-- Names stay, so they stay distinct. -/
theorem distinct_mapStrings (f : String → String) (v : Json) :
    (mapStrings f v).distinct = v.distinct := by
  cases v with
  | arr items => exact distinct_mapStringsItems f items
  | obj members =>
    rw [mapStrings, distinct, distinct, names_mapStringsMembers,
      distinct_mapStringsMembers f members]
  | null | bool | num | str => rfl

theorem distinct_mapStringsItems (f : String → String) (items : List Json) :
    distinctItems (mapStringsItems f items) = distinctItems items := by
  cases items with
  | nil => rfl
  | cons v vs =>
    rw [mapStringsItems, distinctItems, distinctItems, distinct_mapStrings f v,
      distinct_mapStringsItems f vs]

theorem distinct_mapStringsMembers (f : String → String) (ms : List (String × Json)) :
    distinctMembers (mapStringsMembers f ms) = distinctMembers ms := by
  cases ms with
  | nil => rfl
  | cons m ms =>
    obtain ⟨k, v⟩ := m
    rw [mapStringsMembers, distinctMembers, distinctMembers, distinct_mapStrings f v,
      distinct_mapStringsMembers f ms]

end

/-- A block with every template in it replaced. -/
def replaced (f : String → String) (cfg : RequestCfg) (declared : HeaderMap)
    (defaultPath : String) : Rendered where
  headers := declared.toList.foldl (fun headers h => headers.insert h.1 (f h.2)) ∅
  path := withQuery ((cfg.path.map f).getD defaultPath)
    (cfg.query.toList.map fun q => urlencode q.1 ++ "=" ++ urlencode (f q.2))
  body := cfg.body.map (mapStrings f)

/-- What a template renders to in an environment, if it does. -/
def valueIn (engine : TemplateEngine) (env : Json) (template : String) : String :=
  (engine.renderStr template (obj [("env", env)])).toOption.getD ""

section
variable {engine : TemplateEngine} {env : Json}

theorem valueIn_eq {template s : String}
    (h : engine.renderStr template (obj [("env", env)]) = .ok s) :
    valueIn engine env template = s := by
  rw [valueIn, h]
  rfl

theorem renderOne_eq {field template s : String}
    (h : renderOne engine (obj [("env", env)]) field template = .ok s) :
    s = valueIn engine env template := by
  rw [renderOne] at h
  cases hr : engine.renderStr template (obj [("env", env)]) with
  | error e =>
    rw [hr] at h
    cases h
  | ok v =>
    rw [hr] at h
    rw [valueIn_eq hr]
    exact (Except.ok.inj h).symm

mutual

theorem renderJson_eq (v : Json) {j : Json}
    (h : engine.renderJson (obj [("env", env)]) v = .ok j) :
    j = mapStrings (valueIn engine env) v := by
  cases v with
  | str s =>
    obtain ⟨value, hvalue, hret⟩ := bind_ok h
    obtain rfl := Except.ok.inj hret
    rw [mapStrings, valueIn_eq hvalue]
  | arr items =>
    obtain ⟨rendered, hrendered, hret⟩ := bind_ok h
    obtain rfl := Except.ok.inj hret
    rw [mapStrings, renderItems_eq items hrendered]
  | obj members =>
    obtain ⟨rendered, hrendered, hret⟩ := bind_ok h
    obtain rfl := Except.ok.inj hret
    rw [mapStrings, renderMembers_eq members hrendered]
  | null => exact (Except.ok.inj h).symm
  | bool b => exact (Except.ok.inj h).symm
  | num n => exact (Except.ok.inj h).symm

theorem renderItems_eq (items : List Json) {js : List Json}
    (h : engine.renderItems (obj [("env", env)]) items = .ok js) :
    js = mapStringsItems (valueIn engine env) items := by
  cases items with
  | nil => exact (Except.ok.inj h).symm
  | cons v vs =>
    obtain ⟨value, hvalue, h⟩ := bind_ok h
    obtain ⟨rest, hrest, hret⟩ := bind_ok h
    obtain rfl := Except.ok.inj hret
    rw [mapStringsItems, renderJson_eq v hvalue, renderItems_eq vs hrest]

theorem renderMembers_eq (members : List (String × Json)) {js : List (String × Json)}
    (h : engine.renderMembers (obj [("env", env)]) members = .ok js) :
    js = mapStringsMembers (valueIn engine env) members := by
  cases members with
  | nil => exact (Except.ok.inj h).symm
  | cons m ms =>
    obtain ⟨k, v⟩ := m
    obtain ⟨value, hvalue, h⟩ := bind_ok h
    obtain ⟨rest, hrest, hret⟩ := bind_ok h
    obtain rfl := Except.ok.inj hret
    rw [mapStringsMembers, renderJson_eq v hvalue, renderMembers_eq ms hrest]

end

theorem renderHeaders_eq (declared : List (String × String)) {acc headers : HeaderMap}
    (h : renderHeaders engine (obj [("env", env)]) declared acc = .ok headers) :
    headers = declared.foldl (fun headers h => headers.insert h.1 (valueIn engine env h.2)) acc := by
  induction declared generalizing acc with
  | nil => exact (Except.ok.inj h).symm
  | cons e declared ih =>
    rw [renderHeaders, List.foldlM_cons] at h
    obtain ⟨inserted, hinserted, h⟩ := bind_ok h
    obtain ⟨value, hvalue, hret⟩ := bind_ok hinserted
    obtain rfl := Except.ok.inj hret
    rw [List.foldl_cons, ← renderOne_eq hvalue]
    exact ih h

theorem renderQuery_eq {cfg : RequestCfg} {query : List String}
    (h : renderQuery engine (obj [("env", env)]) cfg = .ok query) : query =
      cfg.query.toList.map fun q => urlencode q.1 ++ "=" ++ urlencode (valueIn engine env q.2) := by
  rw [renderQuery] at h
  have hpair : ∀ (q : String × String) (pair : String), (do
      let value ← renderOne engine (obj [("env", env)]) ("query." ++ q.1) q.2
      return urlencode q.1 ++ "=" ++ urlencode value) = .ok pair →
      pair = urlencode q.1 ++ "=" ++ urlencode (valueIn engine env q.2) := by
    intro q pair hpair
    obtain ⟨value, hvalue, hret⟩ := bind_ok hpair
    obtain rfl := Except.ok.inj hret
    rw [renderOne_eq hvalue]
  have hmap := mapM_ok_map (h := id) (fun q pair => hpair q pair) h
  rwa [List.map_id] at hmap

/-- **A rendered block is its templates, each replaced by what it renders to.** -/
theorem renderRequest_eq {cfg : RequestCfg} {declared : HeaderMap} {defaultPath : String}
    {rendered : Rendered}
    (h : renderRequest engine cfg declared defaultPath env = .ok rendered) :
    rendered = replaced (valueIn engine env) cfg declared defaultPath := by
  obtain ⟨headers, hheaders, h⟩ := bind_ok h
  obtain ⟨path, hpath, h⟩ := bind_ok h
  obtain ⟨query, hquery, h⟩ := bind_ok h
  obtain ⟨body, hbody, h⟩ := bind_ok h
  obtain rfl := Except.ok.inj h
  have hpath : path = (cfg.path.map (valueIn engine env)).getD defaultPath := by
    rw [renderPath] at hpath
    cases hcfg : cfg.path with
    | none =>
      rw [hcfg] at hpath
      exact (Except.ok.inj hpath).symm
    | some template =>
      rw [hcfg] at hpath
      exact renderOne_eq hpath
  have hbody : body = cfg.body.map (mapStrings (valueIn engine env)) := by
    rw [renderBody] at hbody
    cases hcfg : cfg.body with
    | none =>
      rw [hcfg] at hbody
      exact (Except.ok.inj hbody).symm
    | some overlay =>
      rw [hcfg] at hbody
      cases hr : engine.renderVal (obj [("env", env)]) (.tpl overlay) with
      | error e =>
        simp only [hr] at hbody
        cases hbody
      | ok v =>
        simp only [hr] at hbody
        rw [Option.map_some, ← renderJson_eq overlay hr]
        exact (Except.ok.inj hbody).symm
  rw [replaced, ← hpath, ← hbody, ← renderQuery_eq hquery, ← renderHeaders_eq _ hheaders]

end

/-! ### A resolved request, in each environment -/

section
variable {engine : TemplateEngine} {env placeholders : Json} {cfg : Option RequestCfg}
  {defaultPath : String} {defaultAuth : AuthMode} {global : HeaderMap} {request : SendableRequest}

/-- A block that declares nothing, and no header that is injected. -/
theorem replaced_empty (f : String → String) (hcfg : cfg.all RequestCfg.isEmpty = true)
    (hglobal : global.isEmpty = true) :
    replaced f (cfg.getD .empty) (declaredHeaders global (suiteHeaders cfg)) defaultPath =
      { headers := ∅, path := defaultPath, body := none } := by
  have hglobal : global.toList = [] :=
    List.isEmpty_iff.mp (TreeMap.isEmpty_toList.trans hglobal)
  obtain ⟨hpath, hquery, hheaders, hbody⟩ : (cfg.getD .empty).path = none ∧
      (cfg.getD .empty).query.toList = [] ∧ (suiteHeaders cfg).toList = [] ∧
        (cfg.getD .empty).body = none := by
    cases cfg with
    | none => exact ⟨rfl, rfl, rfl, rfl⟩
    | some cfg =>
      simp only [Option.all_some, RequestCfg.isEmpty, Bool.and_eq_true, Option.isNone_iff_eq_none]
        at hcfg
      exact ⟨hcfg.1.1.1.2, List.isEmpty_iff.mp (TreeMap.isEmpty_toList.trans hcfg.1.1.2),
        List.isEmpty_iff.mp (TreeMap.isEmpty_toList.trans hcfg.1.2), hcfg.2⟩
  rw [replaced, declaredHeaders, hheaders, List.foldl_nil, hglobal, List.foldl_nil, hpath, hquery,
    hbody]
  rfl

/-- Both renderings, the digest of what is declared, and how the credential is presented. -/
theorem resolved_eq
    (h : resolveWithGlobal engine env placeholders cfg defaultPath defaultAuth global =
      .ok request) :
    request.wire = replaced (valueIn engine env) (cfg.getD .empty)
        (declaredHeaders global (suiteHeaders cfg)) defaultPath ∧
      request.keyed = replaced (valueIn engine placeholders) (cfg.getD .empty)
        (declaredHeaders global (suiteHeaders cfg)) defaultPath ∧
      request.headersDigest = mapDigest request.keyed.headers.toList ∧
      request.auth = (cfg.bind RequestCfg.auth).getD defaultAuth := by
  have hauth := (resolve_spec h).2
  rw [resolveWithGlobal] at h
  split_ifs at h with hempty
  · obtain rfl := Except.ok.inj h
    obtain ⟨hcfg, hglobal⟩ := Bool.and_eq_true_iff.mp hempty
    rw [replaced_empty _ hcfg hglobal, replaced_empty _ hcfg hglobal]
    exact ⟨rfl, rfl, rfl, hauth⟩
  · obtain ⟨wire, hwire, h⟩ := bind_ok h
    obtain ⟨keyed, hkeyed, h⟩ := bind_ok h
    obtain rfl := Except.ok.inj h
    exact ⟨renderRequest_eq hwire, renderRequest_eq hkeyed, rfl, hauth⟩

end

/-! ### Two environments -/

namespace Vendor

section
variable {vendor : Vendor} {engine : TemplateEngine} {fromStr : String → Except String Json}
  {config : VendorConfig} {env env' : Environment} {built built' : BuiltVendor}

/-- What a provider is built from. -/
theorem build_eq (h : vendor.build engine fromStr config env = .ok built) :
    built.config = config ∧ ∃ global, globalHeaders fromStr env[globalHeadersEnv]? = .ok global ∧
      resolveWithGlobal engine (envObject env) (envPlaceholderObject env) config.request
        vendor.defaultPath vendor.defaultAuth global = .ok built.request := by
  obtain ⟨request, hrequest, hret⟩ := bind_ok h
  obtain rfl := Except.ok.inj hret
  obtain ⟨global, hglobal, hresolve⟩ := bind_ok hrequest
  exact ⟨rfl, global, hglobal, hresolve⟩

/-- The overlay is stored as it is keyed. -/
theorem stored_body (h : vendor.build engine fromStr config env = .ok built) :
    built.request.stored.body.map Subtype.val = built.request.keyed.body := by
  obtain ⟨-, global, -, hresolve⟩ := build_eq h
  obtain ⟨-, hkeyed, -⟩ := resolved_eq hresolve
  rw [SendableRequest.stored, hkeyed, replaced]
  cases hcfg : config.request with
  | none => rfl
  | some cfg =>
    dsimp only [Option.getD_some]
    cases hoverlay : cfg.body with
    | none => rfl
    | some overlay =>
      have hdistinct : overlay.distinct = true :=
        config.overlay_distinct overlay (by rw [hcfg]; exact hoverlay)
      rw [← distinct_mapStrings (valueIn engine (envPlaceholderObject env))] at hdistinct
      rw [Option.map_some, Option.bind_some, Document.ofJson?, dif_pos hdistinct]
      rfl

/-- **What is published depends on the names of the environment only**, and on the headers that are
injected. -/
theorem published_eq (hnames : env.keys = env'.keys)
    (hglobal : env[globalHeadersEnv]? = env'[globalHeadersEnv]?)
    (h : vendor.build engine fromStr config env = .ok built)
    (h' : vendor.build engine fromStr config env' = .ok built') :
    vendor.fields built = vendor.fields built' ∧
      built.request.headersDigest = built'.request.headersDigest := by
  obtain ⟨hconfig, global, hinjected, hresolve⟩ := build_eq h
  obtain ⟨hconfig', global', hinjected', hresolve'⟩ := build_eq h'
  obtain rfl : global = global' := by
    rw [← hglobal, hinjected] at hinjected'
    exact Except.ok.inj hinjected'
  obtain ⟨-, hkeyed, hdigest, -⟩ := resolved_eq hresolve
  obtain ⟨-, hkeyed', hdigest', -⟩ := resolved_eq hresolve'
  -- the placeholders are those of the names
  have hsame : built.request.keyed = built'.request.keyed := by
    rw [hkeyed, hkeyed', envPlaceholderObject, envPlaceholderObject, hnames]
  refine ⟨?_, by rw [hdigest, hdigest', hsame]⟩
  rw [fields, fields, hconfig, hconfig', SendableRequest.stored, SendableRequest.stored, hsame]

variable (vendor) in
/-- The request that is sent, when every template is replaced by this text and the credential is
this. -/
def sent (p : VendorProvider) (config : VendorConfig) (global : HeaderMap) (f : String → String)
    (key : Option String) (prompt : RenderedPrompt) (tools : List ToolDef) : WireRequest :=
  let wire := replaced f (config.request.getD .empty)
    (declaredHeaders global (suiteHeaders config.request)) vendor.defaultPath
  let auth := (config.request.bind RequestCfg.auth).getD vendor.defaultAuth
  let request : SendableRequest := { wire, keyed := wire, headersDigest := none, auth }
  { method := "POST"
    url := trimEndSlashes p.baseUrl ++ wire.path
    headers := request.callHeaders vendor.headers key
    body := request.applyBody (obj (vendor.buildBody p prompt tools)) }

/-- **What is sent depends on what the templates render to**, and on the credential. -/
theorem wireRequest_eq (h : vendor.build engine fromStr config env = .ok built)
    {req : ProviderRequest} {w : WireRequest} (hsent : vendor.wireRequest built env req = .ok w) :
    ∃ global key prompt, globalHeaders fromStr env[globalHeadersEnv]? = .ok global ∧
      req.prompt = some prompt ∧ w = vendor.sent (vendor.fields built) config global
        (valueIn engine (envObject env)) key prompt req.tools := by
  obtain ⟨hconfig, global, hinjected, hresolve⟩ := build_eq h
  obtain ⟨hwire, -, -, hauth⟩ := resolved_eq hresolve
  rw [wireRequest] at hsent
  cases hprompt : req.prompt with
  | none =>
    rw [hprompt] at hsent
    cases hsent
  | some prompt =>
    rw [hprompt] at hsent
    obtain ⟨key, -, hret⟩ := bind_ok hsent
    obtain rfl := Except.ok.inj hret
    refine ⟨global, key, prompt, hinjected, rfl, ?_⟩
    simp only [sent, SendableRequest.callHeaders, SendableRequest.applyBody, ← hwire, ← hauth]

end

end Vendor

/-- A template reads the environment, of which these are two values. -/
def ReadsEnv (engine : TemplateEngine) (env env' : Environment) (template : String) : Prop :=
  engine.renderStr template (obj [("env", envObject env)]) ≠
    engine.renderStr template (obj [("env", envObject env')])

/-- **The environment is not stored**: of two environments with the same names and the same
injected headers, a provider publishes the same; and what it sends differs only in what templates
that read the environment render to, and in the credential. -/
theorem environment_not_stored (vendor : Vendor) (engine : TemplateEngine)
    (fromStr : String → Except String Json) (config : VendorConfig) (env env' : Environment)
    (hnames : env.keys = env'.keys)
    (hglobal : env[globalHeadersEnv]? = env'[globalHeadersEnv]?) (built built' : BuiltVendor)
    (h : vendor.build engine fromStr config env = .ok built)
    (h' : vendor.build engine fromStr config env' = .ok built') (req : ProviderRequest) :
    ((vendor.published built).canonicalRequest req =
        (vendor.published built').canonicalRequest req ∧
      (∀ repeatIdx, ((vendor.published built).canonicalRequest req).map (fun request =>
          requestCacheKey request repeatIdx (vendor.published built).cacheSalt req.caseSalt) =
        ((vendor.published built').canonicalRequest req).map fun request =>
          requestCacheKey request repeatIdx (vendor.published built').cacheSalt req.caseSalt) ∧
      (vendor.published built).requestPreview req = (vendor.published built').requestPreview req ∧
      (vendor.published built).address = (vendor.published built').address ∧
      built.request.headersDigest = built'.request.headersDigest) ∧
    ∀ w w', vendor.wireRequest built env req = .ok w → vendor.wireRequest built' env' req = .ok w' →
      ∃ global prompt f f' key key',
        w = vendor.sent (vendor.fields built) config global f key prompt req.tools ∧
        w' = vendor.sent (vendor.fields built) config global f' key' prompt req.tools ∧
        ∀ template, f template ≠ f' template → ReadsEnv engine env env' template := by
  obtain ⟨hfields, hdigest⟩ := Vendor.published_eq hnames hglobal h h'
  have hpublished : vendor.published built = vendor.published built' := by
    rw [Vendor.published, Vendor.published, hfields]
  refine ⟨⟨by rw [hpublished], fun _ => by rw [hpublished], by rw [hpublished], by rw [hpublished],
    hdigest⟩, fun w w' hw hw' => ?_⟩
  obtain ⟨global, key, prompt, hinjected, hprompt, hsent⟩ := Vendor.wireRequest_eq h hw
  obtain ⟨global', key', prompt', hinjected', hprompt', hsent'⟩ := Vendor.wireRequest_eq h' hw'
  obtain rfl : global = global' := by
    rw [← hglobal, hinjected] at hinjected'
    exact Except.ok.inj hinjected'
  obtain rfl : prompt = prompt' := Option.some.inj (hprompt.symm.trans hprompt')
  refine ⟨global, prompt, _, _, key, key', hsent, by rw [hfields]; exact hsent',
    fun template hne hsame => hne ?_⟩
  rw [valueIn, valueIn, hsame]

/-! ### A template that reads a token -/

def tokenTemplate : String := "Bearer \x7b\x7b env.TOKEN \x7d\x7d"

/-- An engine that renders this template. -/
def tokenEngine : TemplateEngine where
  renderStr := fun template ctx =>
    if template = tokenTemplate then
      match (getMember ctx "env").bind fun env => (getMember env "TOKEN").bind asStr? with
      | some token => .ok ("Bearer " ++ token)
      | none => .error "undefined value"
    else .ok template
  evalBool := fun _ _ => .ok true

/-- A provider that sends its credential in a header of its own. -/
def tokenConfig : VendorConfig where
  id := "p"
  model := "m"
  baseUrl := none
  apiKeyEnv := none
  params := .empty
  rate := none
  request := some { oneHeader "authorization" tokenTemplate with auth := some .none }
  cacheSalt := none
  overlay_distinct := fun _ h => by cases h

def tokenEnv (token : String) : Environment := .ofList [("TOKEN", token)]

def noJson (_ : String) : Except String Json := .error "expected value"

/-- Two tokens are one stored request. -/
theorem token_not_stored : ∃ built built',
    Vendor.anthropic.build tokenEngine noJson tokenConfig (tokenEnv "a") = .ok built ∧
    Vendor.anthropic.build tokenEngine noJson tokenConfig (tokenEnv "b") = .ok built' ∧
    built.request.wire.headers.toList ≠ built'.request.wire.headers.toList ∧
    built.request.headersDigest = built'.request.headersDigest := by
  have hbuilt : (Vendor.anthropic.build tokenEngine noJson tokenConfig
      (tokenEnv "a")).toOption.any (fun built => built.request.wire.headers.toList ==
        [("authorization", "Bearer a")]) = true := by decide +kernel
  have hbuilt' : (Vendor.anthropic.build tokenEngine noJson tokenConfig
      (tokenEnv "b")).toOption.any (fun built => built.request.wire.headers.toList ==
        [("authorization", "Bearer b")]) = true := by decide +kernel
  obtain ⟨built, hok, hwire⟩ := exists_ok hbuilt
  obtain ⟨built', hok', hwire'⟩ := exists_ok hbuilt'
  refine ⟨built, built', hok, hok', ?_, (environment_not_stored .anthropic tokenEngine noJson
    tokenConfig _ _ (by decide +kernel) (by decide +kernel) built built' hok hok'
      .default).1.2.2.2.2⟩
  rw [eq_of_beq hwire, eq_of_beq hwire']
  decide

/-! ### What is read besides the templates -/

/-- A provider that configures nothing. -/
def plainConfig : VendorConfig where
  id := "p"
  model := "m"
  baseUrl := none
  apiKeyEnv := none
  params := .empty
  rate := none
  request := none
  cacheSalt := none
  overlay_distinct := fun _ h => by cases h

/-- One header, injected with this value. -/
def injection (value : String) : Environment :=
  .ofList [(globalHeadersEnv, "\x7b\"x-egress\":\"" ++ value ++ "\"\x7d")]

/-- The parser, on these texts. -/
def parseInjection (raw : String) : Except String Json :=
  if raw = "\x7b\"x-egress\":\"gw-1\"\x7d" then .ok (obj [("x-egress", str "gw-1")])
  else if raw = "\x7b\"x-egress\":\"gw-2\"\x7d" then .ok (obj [("x-egress", str "gw-2")])
  else .error "expected value"

def greeting : ProviderRequest := { ProviderRequest.default with prompt := some (.text "hi") }

/-- The headers that are sent with this key. -/
def sentHeaders (key : String) : Option (List (String × String)) := do
  let env : Environment := .ofList [("OPENAI_API_KEY", key)]
  let built ← (Vendor.openai.build literalEngine parseInjection plainConfig env).toOption
  let sent ← (Vendor.openai.wireRequest built env greeting).toOption
  return sent.headers.toList

/-- **Injected headers are stored**: two environments that inject different ones publish different
digests.  And a credential is sent, though no template reads the environment. -/
theorem injected_headers_stored :
    (¬ ∀ (config : VendorConfig) (env env' : Environment) (built built' : BuiltVendor),
      env.keys = env'.keys → Vendor.openai.build literalEngine parseInjection config env = .ok built →
      Vendor.openai.build literalEngine parseInjection config env' = .ok built' →
      built.request.headersDigest = built'.request.headersDigest) ∧
    (∀ env env' template, ¬ ReadsEnv literalEngine env env' template) ∧
    sentHeaders "a" = some [("authorization", "Bearer a")] ∧
    sentHeaders "b" = some [("authorization", "Bearer b")] := by
  refine ⟨fun hall => ?_, fun _ _ _ h => h rfl, by decide +kernel, by decide +kernel⟩
  have hbuilt : (Vendor.openai.build literalEngine parseInjection plainConfig
      (injection "gw-1")).toOption.any (fun built => built.request.headersDigest ==
        some ⟨"\x7b\"x-egress\":\"gw-1\"\x7d"⟩) = true := by decide +kernel
  have hbuilt' : (Vendor.openai.build literalEngine parseInjection plainConfig
      (injection "gw-2")).toOption.any (fun built => built.request.headersDigest ==
        some ⟨"\x7b\"x-egress\":\"gw-2\"\x7d"⟩) = true := by decide +kernel
  obtain ⟨built, hok, hdigest⟩ := exists_ok hbuilt
  obtain ⟨built', hok', hdigest'⟩ := exists_ok hbuilt'
  have hsame := hall plainConfig _ _ built built' (by decide +kernel) hok hok'
  rw [eq_of_beq hdigest, eq_of_beq hdigest'] at hsame
  revert hsame
  decide
