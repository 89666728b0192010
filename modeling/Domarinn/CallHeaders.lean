/-
The headers of a call.

A `request:` block and the headers injected from the environment are merged into one map of
templates, the suite's over the injected ones, and rendered twice: with the environment for the
wire, with placeholders for what is stored.  A call starts from the headers of the vendor, then
the credential, then what was declared.  Names are matched without case.

* **`call_headers_layered_iff`** — every name is sent once, with the value of the most specific
  layer, exactly when no injected header outspells the suite's.
-/
import Domarinn.RequestCfg
import Domarinn.SpelledMap
import Domarinn.Template

open Json Std SpelledMap

/-- Headers by the spelling of their names, in byte order. -/
abbrev HeaderMap := TreeMap String String

/-- `AuthMode`. -/
inductive AuthMode where
  | apiKey
  | bearer
  | none
deriving DecidableEq

/-- `header`: the header this mode sets, if it sets one. -/
def AuthMode.header (auth : AuthMode) (credential : String) : Option (String × String) :=
  match auth with
  | .apiKey => some ("x-api-key", credential)
  | .bearer => some ("authorization", "Bearer " ++ credential)
  | .none => Option.none

/-- A `request:` block as it is configured.  Every text is a template. -/
structure RequestCfg where
  auth : Option AuthMode
  path : Option String
  query : TreeMap String String
  headers : HeaderMap
  body : Option Json

/-- The default block. -/
def RequestCfg.empty : RequestCfg := ⟨none, none, ∅, ∅, none⟩

/-- `is_empty`. -/
def RequestCfg.isEmpty (cfg : RequestCfg) : Bool :=
  cfg.auth.isNone && cfg.path.isNone && cfg.query.isEmpty && cfg.headers.isEmpty &&
    cfg.body.isNone

/-- `RequestError`. -/
inductive RequestError where
  | render (field source : String)
  | globalHeadersJson (source : String)
  | globalHeadersShape (problem : String)

/-- `insert_ci`: insert `name`, removing the first entry that differs only in (ASCII) case. -/
def insertCi (headers : HeaderMap) (name value : String) : HeaderMap :=
  put String.toLower headers name value

/-! ### The injected headers -/

def jsonKind : Json → String
  | .null => "null"
  | .bool _ => "boolean"
  | .num _ => "number"
  | .str _ => "string"
  | .arr _ => "array"
  | .obj _ => "object"

/-- `parse_global_headers`, with the parser of JSON texts. -/
def parseGlobalHeaders (fromStr : String → Except String Json) (raw : String) :
    Except RequestError HeaderMap := do
  match fromStr raw with
  | .error source => throw (.globalHeadersJson source)
  | .ok (.obj object) =>
    object.foldlM (fun headers (name, value) =>
      match value with
      | .str value => return headers.insert name value
      | other => throw (.globalHeadersShape ("`" ++ name ++ "` is a " ++ jsonKind other))) ∅
  | .ok parsed => throw (.globalHeadersShape ("it is a " ++ jsonKind parsed))

/-- `global_headers`: the value of the variable, unless it is unset or blank. -/
def globalHeaders (fromStr : String → Except String Json) (var : Option String) :
    Except RequestError HeaderMap :=
  match var.filter fun v => !isBlank v with
  | none => .ok ∅
  | some raw => parseGlobalHeaders fromStr raw

/-! ### Rendering a block -/

/-- One rendering of a block. -/
structure Rendered where
  headers : HeaderMap
  path : String
  body : Option Json

/-- The two digits of a byte in a percent escape. -/
def hexByte (b : UInt8) : String :=
  String.ofList [(Nat.digitChar (b.toNat / 16)).toUpper, (Nat.digitChar (b.toNat % 16)).toUpper]

/-- `urlencode`: everything but the unreserved characters is escaped, byte by byte. -/
def urlencode (raw : String) : String :=
  String.join <| raw.toUTF8.toList.map fun byte =>
    let c := Char.ofNat byte.toNat
    if byte < 128 ∧ (c.isAlphanum ∨ c ∈ ['-', '_', '.', '~']) then c.toString
    else "%" ++ hexByte byte

section
variable (engine : TemplateEngine)

/-- `render_one`. -/
def renderOne (ctx : Json) (field template : String) : Except RequestError String :=
  (engine.renderStr template ctx).mapError (.render field)

/-- The headers of `render`. -/
def renderHeaders (ctx : Json) (declared : List (String × String)) (headers : HeaderMap) :
    Except RequestError HeaderMap :=
  declared.foldlM (fun headers header => do
    let value ← renderOne engine ctx ("headers." ++ header.1) header.2
    return headers.insert header.1 value) headers

/-- The path of `render`, the vendor's own unless the block replaces it. -/
def renderPath (ctx : Json) (cfg : RequestCfg) (defaultPath : String) :
    Except RequestError String :=
  match cfg.path with
  | some path => renderOne engine ctx "path" path
  | none => .ok defaultPath

/-- The pairs of the query, in the order of their names. -/
def renderQuery (ctx : Json) (cfg : RequestCfg) : Except RequestError (List String) :=
  cfg.query.toList.mapM fun (name, template) => do
    let value ← renderOne engine ctx ("query." ++ name) template
    return urlencode name ++ "=" ++ urlencode value

/-- A path with the pairs of a query after it. -/
def withQuery (path : String) (query : List String) : String :=
  if query.isEmpty then path
  else path ++ (if '?' ∈ path.toList then "&" else "?") ++ "&".intercalate query

/-- The overlay of `render`. -/
def renderBody (ctx : Json) (cfg : RequestCfg) : Except RequestError (Option Json) :=
  match cfg.body with
  | some body => ((engine.renderVal ctx (.tpl body)).mapError (.render "body")).map some
  | none => .ok none

/-- `render`: a block against one environment. -/
def renderRequest (cfg : RequestCfg) (declared : HeaderMap) (defaultPath : String) (env : Json) :
    Except RequestError Rendered := do
  let ctx := obj [("env", env)]
  let headers ← renderHeaders engine ctx declared.toList ∅
  let path ← renderPath engine ctx cfg defaultPath
  let query ← renderQuery engine ctx cfg
  let body ← renderBody engine ctx cfg
  return { headers, path := withQuery path query, body }

/-- `ResolvedRequest`: a block rendered for the wire and for what is stored. -/
structure SendableRequest where
  wire : Rendered
  keyed : Rendered
  headersDigest : Option Digest
  auth : AuthMode

/-- `vendor_default`: no headers, no overlay. -/
def SendableRequest.vendorDefault (defaultPath : String) (auth : AuthMode) : SendableRequest :=
  let rendered : Rendered := { headers := ∅, path := defaultPath, body := none }
  { wire := rendered, keyed := rendered, headersDigest := none, auth }

/-- The headers a block declares. -/
def suiteHeaders (cfg : Option RequestCfg) : HeaderMap := (cfg.getD .empty).headers

/-- The injected headers with the suite's inserted over them. -/
def declaredHeaders (global suite : HeaderMap) : HeaderMap :=
  suite.toList.foldl (fun declared header => insertCi declared header.1 header.2) global

/-- `resolve_with_global`, with the environment and its placeholders. -/
def resolveWithGlobal (env placeholders : Json) (cfg : Option RequestCfg) (defaultPath : String)
    (defaultAuth : AuthMode) (global : HeaderMap) : Except RequestError SendableRequest :=
  if cfg.all RequestCfg.isEmpty && global.isEmpty then
    .ok (.vendorDefault defaultPath defaultAuth)
  else do
    let declared := declaredHeaders global (suiteHeaders cfg)
    let cfg := cfg.getD .empty
    let wire ← renderRequest engine cfg declared defaultPath env
    let keyed ← renderRequest engine cfg declared defaultPath placeholders
    return { wire, keyed, headersDigest := mapDigest keyed.headers.toList,
             auth := cfg.auth.getD defaultAuth }

/-- `resolve`: with the headers injected by the variable. -/
def resolveRequest (fromStr : String → Except String Json) (var : Option String)
    (env placeholders : Json) (cfg : Option RequestCfg) (defaultPath : String)
    (defaultAuth : AuthMode) : Except RequestError SendableRequest := do
  let global ← globalHeaders fromStr var
  resolveWithGlobal engine env placeholders cfg defaultPath defaultAuth global

end

/-- `call_headers`: the vendor's, then the credential, then the declared ones. -/
def SendableRequest.callHeaders (request : SendableRequest)
    (vendorDefaults : List (String × String)) (credential : Option String) : HeaderMap :=
  let headers := vendorDefaults.foldl (fun headers h => insertCi headers h.1 h.2) ∅
  let headers := match credential.bind request.auth.header with
    | some (name, value) => insertCi headers name value
    | none => headers
  request.wire.headers.toList.foldl (fun headers h => insertCi headers h.1 h.2) headers

/-! ### What the recipient reads -/

/-- What a list of headers says under a name: its last header of that name. -/
def headerValue (headers : List (String × String)) (name : String) : Option String :=
  (last? String.toLower headers name.toLower).map Prod.snd

section
variable (engine : TemplateEngine) (env : Json)

/-- What a template renders to for the wire. -/
def renderedValue (template : String) : Option String :=
  (engine.renderStr template (obj [("env", env)])).toOption

/-- What a layer of templates says under a name. -/
def layerValue (layer : HeaderMap) (name : String) : Option String :=
  (headerValue layer.toList name).bind (renderedValue engine env)

/-- **The headers of a call**: every name once, with the value of the first layer that has it. -/
structure Layered (suite injected : HeaderMap) (credential vendor : List (String × String))
    (headers : HeaderMap) : Prop where
  once : ∀ name : String, Single String.toLower headers name.toLower
  value : ∀ name, headerValue headers.toList name =
    (layerValue engine env suite name).or ((layerValue engine env injected name).or
      ((headerValue credential name).or (headerValue vendor name)))

/-- No injected header outspells the suite's: of a name that both layers have, the injection has
one spelling, or none after the suite's last one, or its last spelling says the same. -/
def NotOutspelled (suite injected : HeaderMap) : Prop :=
  ∀ (name : String) (s g : String × String),
    last? String.toLower suite.toList name.toLower = some s →
    last? String.toLower injected.toList name.toLower = some g →
    Single String.toLower injected name.toLower ∨ (compare g.1 s.1).isLE ∨
      renderedValue engine env g.2 = renderedValue engine env s.2

end

/-- The headers of a call are the layers put one after another. -/
theorem callHeaders_eq (request : SendableRequest) (vendor : List (String × String))
    (credential : Option String) :
    request.callHeaders vendor credential = putAll String.toLower ∅
      (vendor ++ (credential.bind request.auth.header).toList ++ request.wire.headers.toList) := by
  rw [SendableRequest.callHeaders, putAll, List.foldl_append, List.foldl_append]
  cases credential.bind request.auth.header <;> rfl

theorem declaredHeaders_eq (global suite : HeaderMap) :
    declaredHeaders global suite = putAll String.toLower global suite.toList := rfl

theorem single_empty (name : String) : Single String.toLower (∅ : HeaderMap) name :=
  fun _ hk => absurd hk TreeMap.not_mem_emptyc

/-- **A call reads under a name** what was declared, then the credential, then the vendor's. -/
theorem headerValue_callHeaders (request : SendableRequest) (vendor : List (String × String))
    (credential : Option String) (name : String) :
    headerValue (request.callHeaders vendor credential).toList name =
      (headerValue request.wire.headers.toList name).or
        ((headerValue (credential.bind request.auth.header).toList name).or
          (headerValue vendor name)) := by
  have hempty : last? String.toLower (∅ : HeaderMap).toList name.toLower = none :=
    last_toList_eq_none.mpr fun y hy => absurd hy TreeMap.not_mem_emptyc
  rw [headerValue, callHeaders_eq, last_putAll_of_single (single_empty _), last_append, last_append,
    hempty, Option.or_none]
  simp only [headerValue, Option.map_or]

/-! ### Rendering keeps the names -/

section
variable {engine : TemplateEngine} {env ctx : Json}

/-- The loop that renders headers: each is set to what its template renders to. -/
theorem renderHeaders_spec {declared : List (String × String)} {acc headers : HeaderMap}
    (hdistinct : (declared.map Prod.fst).Nodup)
    (h : renderHeaders engine ctx declared acc = .ok headers) :
    (∀ e ∈ declared, ∃ v, engine.renderStr e.2 ctx = .ok v ∧ headers[e.1]? = some v) ∧
      ∀ k, k ∉ declared.map Prod.fst → headers[k]? = acc[k]? := by
  induction declared generalizing acc with
  | nil =>
    obtain rfl : acc = headers := Except.ok.inj h
    exact ⟨by simp, fun _ _ => rfl⟩
  | cons e declared ih =>
    rw [List.map_cons, List.nodup_cons] at hdistinct
    rw [renderHeaders, List.foldlM_cons] at h
    obtain ⟨inserted, hinserted, h⟩ := bind_ok h
    obtain ⟨value, hvalue, hret⟩ := bind_ok hinserted
    obtain rfl : acc.insert e.1 value = inserted := Except.ok.inj hret
    obtain ⟨hmem, hrest⟩ := ih hdistinct.2 h
    have hrendered : engine.renderStr e.2 ctx = .ok value := by
      rw [renderOne] at hvalue
      cases hr : engine.renderStr e.2 ctx with
      | error e => rw [hr] at hvalue; cases hvalue
      | ok v => rw [hr] at hvalue; exact congrArg _ (Except.ok.inj hvalue)
    refine ⟨fun f hf => ?_, fun k hk => ?_⟩
    · rcases List.mem_cons.mp hf with rfl | hf
      · exact ⟨value, hrendered, by rw [hrest _ hdistinct.1]; simp⟩
      · exact hmem f hf
    · rw [List.map_cons, List.mem_cons, not_or] at hk
      rw [hrest k hk.2, TreeMap.getElem?_insert, if_neg]
      rw [Std.compare_eq_iff_eq]
      exact fun heq => hk.1 heq.symm

/-- **Rendering keeps the last spelling of a name**, and renders its template. -/
theorem last_renderHeaders {declared headers : HeaderMap}
    (h : renderHeaders engine ctx declared.toList ∅ = .ok headers) (name : String) :
    (∀ e, last? String.toLower declared.toList name = some e →
      ∃ v, engine.renderStr e.2 ctx = .ok v ∧
        last? String.toLower headers.toList name = some (e.1, v)) ∧
    (last? String.toLower declared.toList name = none →
      last? String.toLower headers.toList name = none) := by
  have hdistinct : (declared.toList.map Prod.fst).Nodup := by
    rw [TreeMap.map_fst_toList_eq_keys]
    exact TreeMap.nodup_keys
  obtain ⟨hmem, hrest⟩ := renderHeaders_spec hdistinct h
  -- nothing is sent that was not declared
  have hkeys (y : String) (hy : y ∈ headers) : y ∈ declared := by
    by_contra hd
    rw [← TreeMap.mem_keys, ← TreeMap.map_fst_toList_eq_keys] at hd
    rw [← TreeMap.isSome_getElem?_iff_mem, hrest y hd] at hy
    simp at hy
  constructor
  · intro e he
    obtain ⟨hget, hname, hmax⟩ := last_toList_eq_some.mp he
    obtain ⟨v, hv, hsent⟩ := hmem e (last_spells he).1
    exact ⟨v, hv, last_toList_eq_some.mpr ⟨hsent, hname, fun y hy => hmax y (hkeys y hy)⟩⟩
  · intro hnone
    exact last_toList_eq_none.mpr fun y hy => last_toList_eq_none.mp hnone y (hkeys y hy)

end

/-! ### The layers of a call -/

section
variable {engine : TemplateEngine} {env placeholders : Json} {cfg : Option RequestCfg}
  {defaultPath : String} {defaultAuth : AuthMode} {global : HeaderMap} {request : SendableRequest}

/-- What a resolved request declares is rendered from the merged templates, and its credential is
presented as the block says. -/
theorem resolve_spec
    (h : resolveWithGlobal engine env placeholders cfg defaultPath defaultAuth global =
      .ok request) :
    renderHeaders engine (obj [("env", env)]) (declaredHeaders global (suiteHeaders cfg)).toList ∅
      = .ok request.wire.headers ∧ request.auth = (cfg.bind RequestCfg.auth).getD defaultAuth := by
  rw [resolveWithGlobal] at h
  split_ifs at h with hempty
  · -- nothing is declared, and the block does not say how to present the credential
    obtain rfl := Except.ok.inj h
    rw [Bool.and_eq_true, ← TreeMap.isEmpty_toList, List.isEmpty_iff] at hempty
    obtain ⟨hcfg, hglobal⟩ := hempty
    obtain ⟨hheaders, hauth⟩ :
        (suiteHeaders cfg).toList = [] ∧ cfg.bind RequestCfg.auth = none := by
      cases cfg with
      | none => exact ⟨rfl, rfl⟩
      | some cfg =>
        simp only [Option.all_some, RequestCfg.isEmpty, Bool.and_eq_true, Option.isNone_iff_eq_none]
          at hcfg
        exact ⟨List.isEmpty_iff.mp (TreeMap.isEmpty_toList.trans hcfg.1.2), hcfg.1.1.1.1⟩
    rw [declaredHeaders, hheaders, List.foldl_nil, hglobal, hauth]
    exact ⟨rfl, rfl⟩
  · obtain ⟨wire, hwire, h⟩ := bind_ok h
    obtain ⟨keyed, -, h⟩ := bind_ok h
    obtain rfl := Except.ok.inj h
    obtain ⟨headers, hheaders, hwire⟩ := bind_ok hwire
    obtain ⟨path, -, hwire⟩ := bind_ok hwire
    obtain ⟨query, -, hwire⟩ := bind_ok hwire
    obtain ⟨body, -, hwire⟩ := bind_ok hwire
    obtain rfl := Except.ok.inj hwire
    refine ⟨hheaders, ?_⟩
    cases cfg <;> rfl

/-- Everything that is declared renders. -/
theorem declared_renders
    (h : resolveWithGlobal engine env placeholders cfg defaultPath defaultAuth global = .ok request)
    {e : String × String} (he : e ∈ (declaredHeaders global (suiteHeaders cfg)).toList) :
    ∃ v, renderedValue engine env e.2 = some v := by
  have hdistinct : ((declaredHeaders global (suiteHeaders cfg)).toList.map Prod.fst).Nodup := by
    rw [TreeMap.map_fst_toList_eq_keys]
    exact TreeMap.nodup_keys
  obtain ⟨v, hv, -⟩ := (renderHeaders_spec hdistinct (resolve_spec h).1).1 e he
  exact ⟨v, by rw [renderedValue, hv, Except.toOption]⟩

/-- **The wire says under a name** what was declared last, rendered. -/
theorem headerValue_wire
    (h : resolveWithGlobal engine env placeholders cfg defaultPath defaultAuth global = .ok request)
    (name : String) : headerValue request.wire.headers.toList name =
      layerValue engine env (declaredHeaders global (suiteHeaders cfg)) name := by
  obtain ⟨hsome, hnone⟩ := last_renderHeaders (resolve_spec h).1 name.toLower
  rw [headerValue, layerValue, headerValue]
  cases hd : last? String.toLower (declaredHeaders global (suiteHeaders cfg)).toList
      name.toLower with
  | none =>
    rw [hnone hd]
    rfl
  | some e =>
    obtain ⟨v, hv, hsent⟩ := hsome e hd
    rw [hsent, Option.map_some, Option.map_some, Option.bind_some, renderedValue, hv,
      Except.toOption]

/-- One name of the declared headers, over whatever the layers below say: the suite's value is
read exactly when no injected spelling of it outspells the suite's. -/
theorem layerValue_declared_iff {suite : HeaderMap}
    (hrenders : ∀ e ∈ (declaredHeaders global suite).toList,
      ∃ v, renderedValue engine env e.2 = some v) (name : String) (below : Option String) :
    (layerValue engine env (declaredHeaders global suite) name).or below =
        (layerValue engine env suite name).or ((layerValue engine env global name).or below) ↔
      ∀ s g : String × String, last? String.toLower suite.toList name.toLower = some s →
        last? String.toLower global.toList name.toLower = some g →
        Single String.toLower global name.toLower ∨ (compare g.1 s.1).isLE ∨
          renderedValue engine env g.2 = renderedValue engine env s.2 := by
  have hsorted := suite.ordered_keys_toList
  cases hs : last? String.toLower suite.toList name.toLower with
  | none =>
    have hlast : last? String.toLower (putAll String.toLower global suite.toList).toList
        name.toLower = last? String.toLower global.toList name.toLower :=
      last_putAll_of_last_eq_none hs
    simp [layerValue, headerValue, declaredHeaders_eq, hs, hlast]
  | some s =>
    -- the suite's last spelling is declared, whether it is read or not
    obtain ⟨v, hv⟩ := hrenders s
      (TreeMap.mem_toList_iff_getElem?_eq_some.mpr (getElem?_putAll_last hs))
    have hsuite : layerValue engine env suite name = some v := by
      rw [layerValue, headerValue, hs, Option.map_some, Option.bind_some, hv]
    have hreached
        (hlast : last? String.toLower (declaredHeaders global suite).toList name.toLower = some s) :
        layerValue engine env (declaredHeaders global suite) name = some v := by
      rw [layerValue, headerValue, hlast, Option.map_some, Option.bind_some, hv]
    rw [hsuite, Option.some_or]
    cases hg : last? String.toLower global.toList name.toLower with
    | none =>
      rw [hreached (last_putAll_of_reaches hsorted hs (Or.inl (single_of_last_eq_none hg)))]
      simp
    | some g =>
      by_cases hreach : Single String.toLower global name.toLower ∨ (compare g.1 s.1).isLE
      · have hle := hreach.imp_right fun hle y hy hyn =>
          TransCmp.isLE_trans ((last_toList_eq_some.mp hg).2.2 y hy hyn) hle
        rw [hreached (last_putAll_of_reaches hsorted hs hle), Option.some_or]
        refine iff_of_true rfl ?_
        rintro _ _ ⟨⟩ ⟨⟩
        exact or_assoc.mp (Or.inl hreach)
      · -- an injected spelling is greater and stays, so it is read
        obtain ⟨hmany, hgreater⟩ := not_or.mp hreach
        have hlast : last? String.toLower (declaredHeaders global suite).toList name.toLower =
            some g :=
          last_putAll_of_outspelled hsorted hs hg (OrientedCmp.lt_of_not_isLE hgreater) hmany
        obtain ⟨u, hu⟩ := hrenders g (last_spells hlast).1
        rw [layerValue, headerValue, hlast, Option.map_some, Option.bind_some, hu, Option.some_or]
        constructor
        · rintro heq _ _ ⟨⟩ ⟨⟩
          exact Or.inr (Or.inr (by rw [hu, hv, heq]))
        · intro hcond
          rcases hcond s g rfl rfl with hsingle | hle | heq
          · exact absurd hsingle hmany
          · exact absurd hle hgreater
          · rw [← hu, ← hv, heq]

/-- **The layers of a call.**  Every name is sent once, with the value of the suite's last
spelling of it, else the injected one, else the credential's, else the vendor's, exactly when no
injected header outspells the suite's. -/
theorem call_headers_layered_iff
    (h : resolveWithGlobal engine env placeholders cfg defaultPath defaultAuth global = .ok request)
    (vendorDefaults : List (String × String)) (credential : Option String) :
    Layered engine env (suiteHeaders cfg) global
        (credential.bind ((cfg.bind RequestCfg.auth).getD defaultAuth).header).toList vendorDefaults
        (request.callHeaders vendorDefaults credential) ↔
      NotOutspelled engine env (suiteHeaders cfg) global := by
  have hname (name : String) := layerValue_declared_iff (fun e he => declared_renders h he) name
  rw [← (resolve_spec h).2]
  constructor
  · intro hlayered name
    have hvalue := hlayered.value name
    rw [headerValue_callHeaders, headerValue_wire h] at hvalue
    exact (hname name _).mp hvalue
  · intro hspelled
    refine ⟨fun name => ?_, fun name => ?_⟩
    · rw [callHeaders_eq]
      exact single_putAll (single_empty _)
    · rw [headerValue_callHeaders, headerValue_wire h]
      exact (hname name _).mpr (hspelled name)

end

/-- An injection that spells every name one way never outspells the suite. -/
theorem notOutspelled_of_nodup {engine : TemplateEngine} {env : Json} {suite global : HeaderMap}
    (h : (global.keys.map String.toLower).Nodup) : NotOutspelled engine env suite global := by
  intro name s g _ _
  refine Or.inl fun k hk k' hk' hkn hkn' => ?_
  exact List.inj_on_of_nodup_map h (TreeMap.mem_keys.mpr hk) (TreeMap.mem_keys.mpr hk')
    (hkn.trans hkn'.symm)

/-- An engine for templates without expressions. -/
def literalEngine : TemplateEngine := ⟨fun template _ => .ok template, fun _ _ => .ok true⟩

theorem exists_ok {ε α : Type} {x : Except ε α} {p : α → Bool}
    (h : x.toOption.any p = true) : ∃ a, x = .ok a ∧ p a = true := by
  cases x with
  | error e => cases h
  | ok a => exact ⟨a, rfl, h⟩

/-- A block that declares one header. -/
def oneHeader (name value : String) : RequestCfg :=
  { RequestCfg.empty with headers := insertCi ∅ name value }

/-- An injected header is replaced by the suite's, whatever its case. -/
theorem suite_replaces_injected : ∃ request : SendableRequest,
    resolveWithGlobal literalEngine null null (some (oneHeader "Authorization" "Bearer mine"))
      "/v1/messages" .apiKey (insertCi ∅ "authorization" "Bearer gateway") = .ok request ∧
    Layered literalEngine null (insertCi ∅ "Authorization" "Bearer mine")
      (insertCi ∅ "authorization" "Bearer gateway") [("x-api-key", "k")]
      [("anthropic-version", "2023-06-01")]
      (request.callHeaders [("anthropic-version", "2023-06-01")] (some "k")) := by
  have hok : (resolveWithGlobal literalEngine null null
      (some (oneHeader "Authorization" "Bearer mine")) "/v1/messages" .apiKey
      (insertCi ∅ "authorization" "Bearer gateway")).toOption.any (fun _ => true) = true := by
    decide +kernel
  obtain ⟨request, hrequest, -⟩ := exists_ok hok
  refine ⟨request, hrequest, (call_headers_layered_iff hrequest _ (some "k")).mpr ?_⟩
  exact notOutspelled_of_nodup (by decide +kernel)

/-- **Two injected spellings outspell the suite's.**  The suite's header takes the place of the
first of them, and the second is inserted after it. -/
theorem injected_header_outspells_suite :
    ¬ ∀ (engine : TemplateEngine) (env placeholders : Json) (cfg : Option RequestCfg)
        (defaultPath : String) (defaultAuth : AuthMode) (global : HeaderMap)
        (request : SendableRequest) (vendorDefaults : List (String × String))
        (credential : Option String),
      resolveWithGlobal engine env placeholders cfg defaultPath defaultAuth global = .ok request →
      Layered engine env (suiteHeaders cfg) global
        (credential.bind ((cfg.bind RequestCfg.auth).getD defaultAuth).header).toList vendorDefaults
        (request.callHeaders vendorDefaults credential) := by
  intro hall
  have hsent : (resolveWithGlobal literalEngine null null
      (some (oneHeader "Authorization" "Bearer mine")) "/v1/messages" .none
      (.ofList [("Authorization", "Bearer gw-1"), ("authorization", "Bearer gw-2")])).toOption.any
        (fun request => headerValue (request.callHeaders [] none).toList "Authorization" ==
          some "Bearer gw-2") = true := by
    decide +kernel
  obtain ⟨request, hrequest, hsent⟩ := exists_ok hsent
  have hvalue := (hall _ _ _ _ _ _ _ _ [] none hrequest).value "Authorization"
  rw [eq_of_beq hsent] at hvalue
  revert hvalue
  decide +kernel
