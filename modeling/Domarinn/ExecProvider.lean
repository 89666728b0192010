/-
The `exec` provider: a command that speaks the JSON protocol on stdin and stdout.

The fingerprint has the command, a digest of the environment it sets, and the cache salt.
The document of a call has the command and what is written to stdin, without the test the
call belongs to.

* **`canonicalRequest_alike`** — for providers with one fingerprint, asked for one prompt, one
  set of vars and one set of params, the documents agree exactly when there is no command or
  the declared tools agree.
-/
import Domarinn.RequestCfg

open Json

structure ExecProvider where
  id : String
  command : List String
  env : List (String × String)
  cacheSalt : Option String
  programDigest : Option String
  /-- The fingerprints of earlier versions, oldest last. -/
  legacyFingerprints : List Json

/-- Two calls ask for one prompt, with one set of vars and of params, up to the order of
members. -/
structure ProviderRequest.SamePrompt (req req' : ProviderRequest) : Prop where
  prompt : (req.prompt.map RenderedPrompt.toJson).map sortKeys =
    (req'.prompt.map RenderedPrompt.toJson).map sortKeys
  vars : sortKeys (obj req.vars) = sortKeys (obj req'.vars)
  params : sortKeys (obj req.params) = sortKeys (obj req'.params)

namespace ExecProvider

/-- A declared tool, in the protocol's shape; a missing schema is `null`. -/
def toolJson (t : ToolDef) : Json :=
  obj ([("name", str t.name)] ++ optMember "description" (t.description.map str) ++
    [("input_schema", t.inputSchema.getD null)])

/-- `Envelope::new(Kind::Provider)`. -/
def envelope : Json := obj [("protocol", nat 1), ("kind", str "provider")]

/-- The members of `protocol_request`; `test` is there on the wire only. -/
def protocolRequest (req : ProviderRequest) (test : Option Json) : List (String × Json) :=
  [("domarinn", envelope)] ++ optMember "prompt" (req.prompt.map RenderedPrompt.toJson) ++
    [("vars", obj req.vars), ("params", obj req.params)] ++ optMember "test" test ++
    optMember "tools" (toolsMember toolJson req.tools)

/-- The test a call belongs to. -/
def testJson (test : TestMeta) : Json :=
  obj [("id", str test.id), ("tags", arr (test.tags.map str))]

/-- `fingerprint`. -/
def fingerprint (p : ExecProvider) : Json :=
  obj [("type", str "exec"), ("command", arr (p.command.map str)),
    ("env", ((mapDigest p.env).map Digest.toJson).getD null),
    ("cache_salt", (p.cacheSalt.map str).getD null)]

/-- `request_preview`. -/
def requestPreview (p : ExecProvider) (req : ProviderRequest) : Option Json :=
  match p.command with
  | command :: args =>
    some (obj (execRequestPreview command args (obj (protocolRequest req (some (testJson req.test))))))
  | [] => none

/-- `canonical_request`: the test is correlation metadata, not part of the question. -/
def canonicalRequest (p : ExecProvider) (req : ProviderRequest) : Option Json :=
  match p.command with
  | command :: args =>
    some (obj (execRequestPreview command args (obj (protocolRequest req none)) ++
      optMember "env_digest" ((mapDigest p.env).map Digest.toJson)))
  | [] => none

/-- The `exec` provider. -/
def provider (p : ExecProvider) : Provider :=
  { Provider.withDefaults p.id p.fingerprint with
    programDigest := p.programDigest
    legacyFingerprints := p.fingerprint :: p.legacyFingerprints
    requestPreview := p.requestPreview
    canonicalRequest := p.canonicalRequest
    cacheSalt := p.cacheSalt }

/-- One command, in one environment, with one salt. -/
structure SameProgram (p q : ExecProvider) : Prop where
  command : p.command = q.command
  env : mapDigest p.env = mapDigest q.env
  cacheSalt : p.cacheSalt = q.cacheSalt

theorem fingerprint_alike {p q : ExecProvider} :
    sortKeys p.fingerprint = sortKeys q.fingerprint ↔ p.SameProgram q := by
  have hcommand : ∀ xs ys : List String,
      sortKeys (arr (xs.map str)) = sortKeys (arr (ys.map str)) ↔ xs = ys := by
    intro xs ys
    simp only [sortKeys_arr, List.map_map, Function.comp_def, sortKeys_str, Json.arr.injEq]
    exact (List.map_injective_iff.mpr fun _ _ => Json.str.inj).eq_iff
  have hdigest : ∀ d e : Option Digest, sortKeys ((d.map Digest.toJson).getD null) =
      sortKeys ((e.map Digest.toJson).getD null) ↔ d = e := by
    intro d e
    rw [← map_digest_toJson]
    cases d <;> cases e <;> simp [Digest.toJson, sortKeys]
  rw [fingerprint, fingerprint, sortKeys_obj_cons (by simp) (by simp),
    sortKeys_obj_cons (by simp) (by simp), sortKeys_obj_cons (by simp) (by simp),
    sortKeys_obj_cons (by simp) (by simp), hcommand, hdigest, sortKeys_getD_str]
  constructor
  · rintro ⟨-, command, env, cacheSalt, -⟩
    exact ⟨command, env, cacheSalt⟩
  · exact fun h => ⟨rfl, h.command, h.env, h.cacheSalt, rfl⟩

theorem protocolRequest_eq (req : ProviderRequest) : protocolRequest req none =
    optMembers [("domarinn", some envelope), ("prompt", req.prompt.map RenderedPrompt.toJson),
      ("vars", some (obj req.vars)), ("params", some (obj req.params)),
      ("tools", toolsMember toolJson req.tools)] := by
  rw [protocolRequest, ← List.append_nil (optMember "tools" _)]
  simp only [List.append_assoc]
  rfl

theorem protocolRequest_alike {req req' : ProviderRequest} (h : req.SamePrompt req') :
    sortKeys (obj (protocolRequest req none)) = sortKeys (obj (protocolRequest req' none)) ↔
      (req.tools.map toolJson).map sortKeys = (req'.tools.map toolJson).map sortKeys := by
  rw [protocolRequest_eq, protocolRequest_eq, sortKeys_optMembers (by rfl) (by simp)]
  simp only [List.map_cons, List.map_nil, Option.map_some, List.cons.injEq, Option.some.injEq,
    and_true, true_and]
  rw [toolsMember_alike]
  exact ⟨fun halike => halike.2.2.2, fun halike => ⟨h.prompt, h.vars, h.params, halike⟩⟩

/-- **The documents agree exactly when the declared tools do.** -/
theorem canonicalRequest_alike {p q : ExecProvider} (h : p.SameProgram q)
    {req req' : ProviderRequest} (hreq : req.SamePrompt req') :
    (p.canonicalRequest req).map sortKeys = (q.canonicalRequest req').map sortKeys ↔
      (p.command ≠ [] → (req.tools.map toolJson).map sortKeys =
        (req'.tools.map toolJson).map sortKeys) := by
  rw [canonicalRequest, canonicalRequest, ← h.command, ← h.env]
  cases p.command with
  | nil => simp
  | cons command args =>
    dsimp only
    rw [Option.map_some, Option.map_some, Option.some.injEq]
    simp only [execRequestPreview, List.cons_append, List.nil_append]
    rw [sortKeys_obj_cons, sortKeys_obj_cons, sortKeys_obj_cons, sortKeys_obj_cons,
      protocolRequest_alike hreq]
    · simp
    all_goals cases mapDigest p.env <;> simp [optMember]

end ExecProvider
