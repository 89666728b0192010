/-
The `request:` block of a vendor provider, and the documents a call is published as.

A block is rendered twice, with the real environment for the wire and with placeholders for
everything that is stored.  Only the second rendering is kept here.

* **`applyKeyedBody_alike`** — two bodies, patched by their overlays, are one document exactly
  when the members that may differ are sent with the same values, or both bodies are replaced
  by the same value.
-/
import Domarinn.Digests
import Domarinn.JsonMembers
import Mathlib.Data.List.DropRight

open Json

/-- `headers_digest` and `env_digest`: the digest of a map of strings, if it has any. -/
def mapDigest (entries : List (String × String)) : Option Digest :=
  if entries.isEmpty then none
  else some (digest (obj (entries.map fun (name, value) => (name, str value))))

/-- A digest as it is written into a document. -/
def Digest.toJson (d : Digest) : Json := str d.preimage

theorem map_digest_toJson {d e : Option Digest} :
    (d.map Digest.toJson).map sortKeys = (e.map Digest.toJson).map sortKeys ↔ d = e := by
  constructor
  · intro h
    rcases d with _ | ⟨⟨d⟩⟩ <;> rcases e with _ | ⟨⟨e⟩⟩ <;> simp_all [Digest.toJson, sortKeys]
  · rintro rfl
    rfl

/-- An optional text is written as itself or as `null`. -/
theorem sortKeys_getD_str {s t : Option String} :
    sortKeys ((s.map str).getD null) = sortKeys ((t.map str).getD null) ↔ s = t := by
  cases s <;> cases t <;> simp [sortKeys]

/-! ### The block -/

/-- A `request:` block: headers, the path with its query, and the overlay of the body. -/
structure ResolvedRequest where
  headers : List (String × String)
  path : String
  body : Option Document

/-- What an overlay does to a body. -/
inductive Patch where
  | members (overlay : Members)
  | whole (value : Json)

namespace ResolvedRequest

/-- `vendor_default`: no headers, no overlay. -/
def vendorDefault (defaultPath : String) : ResolvedRequest := ⟨[], defaultPath, none⟩

/-- `apply_keyed_body`. -/
def applyKeyedBody (request : ResolvedRequest) (body : Json) : Json :=
  match request.body with
  | some overlay => deepMerge body overlay.1
  | none => body

/-- An overlay that is an object writes its members, any other replaces the body. -/
def patch (request : ResolvedRequest) : Patch :=
  match request.body with
  | some ⟨.obj members, h⟩ => .members ⟨members, (distinct_obj.mp h).1⟩
  | some ⟨value, _⟩ => .whole value
  | none => .members .empty

/-- **What an overlay makes of a body.** -/
theorem applyKeyedBody_eq (request : ResolvedRequest) (base : List (String × Json)) :
    request.applyKeyedBody (obj base) = match request.patch with
      | .members overlay => obj (mergeMembers base overlay.list)
      | .whole value => value := by
  rw [applyKeyedBody, patch]
  match request.body with
  | none => simp [Members.empty, mergeMembers]
  | some ⟨.obj _, _⟩ | some ⟨.null, _⟩ | some ⟨.bool _, _⟩ | some ⟨.num _, _⟩
  | some ⟨.str _, _⟩ | some ⟨.arr _, _⟩ => simp [deepMerge]

theorem patch_whole_ne {request : ResolvedRequest} {value : Json} (h : request.patch = .whole value)
    (ms : List (String × Json)) : sortKeys value ≠ sortKeys (obj ms) := by
  rw [patch] at h
  match hbody : request.body with
  | none => simp [hbody] at h
  | some ⟨.obj _, _⟩ => simp [hbody] at h
  | some ⟨.null, _⟩ | some ⟨.bool _, _⟩ | some ⟨.num _, _⟩ | some ⟨.str _, _⟩
  | some ⟨.arr _, _⟩ =>
    simp only [hbody, Patch.whole.injEq] at h
    simp [← h, sortKeys]

/-- Two patched bodies are sent alike: they send the same values under the names in `apart`
and under every name that an overlay writes. -/
def SendsAlike (apart : List String) (p q : ResolvedRequest) (ms ns : List (String × Json)) :
    Prop :=
  match p.patch, q.patch with
  | .members o, .members o' => ∀ k ∈ apart ++ names o.list ++ names o'.list,
      (mergedMember ms o.list k).map sortKeys = (mergedMember ns o'.list k).map sortKeys
  | .whole value, .whole value' => sortKeys value = sortKeys value'
  | _, _ => False

/-- **Patched bodies are one document exactly when they are sent alike.** -/
theorem applyKeyedBody_alike {apart : List String} {p q : ResolvedRequest}
    {ms ns : List (String × Json)} (hms : (names ms).Nodup) (hns : (names ns).Nodup)
    (hrest : AlikeBut apart ms ns) :
    sortKeys (p.applyKeyedBody (obj ms)) = sortKeys (q.applyKeyedBody (obj ns)) ↔
      SendsAlike apart p q ms ns := by
  rw [applyKeyedBody_eq, applyKeyedBody_eq, SendsAlike]
  cases hp : p.patch with
  | members o => cases hq : q.patch with
    | members o' =>
      dsimp only
      rw [sortKeys_obj_iff (nodup_mergeMembers o.list ms hms) (nodup_mergeMembers o'.list ns hns)]
      simp only [member?_mergeMembers o.nodup, member?_mergeMembers o'.nodup]
      refine ⟨fun h k _ => h k, fun h k => ?_⟩
      by_cases hk : k ∈ apart ++ names o.list ++ names o'.list
      · exact h k hk
      · -- a name no overlay writes has the value of the body below
        simp only [List.mem_append, not_or] at hk
        rw [mergedMember, mergedMember, member?_eq_none.mpr hk.1.2, member?_eq_none.mpr hk.2]
        exact hrest k hk.1.1
    | whole value => exact iff_of_false (patch_whole_ne hq _).symm not_false
  | whole value => cases hq : q.patch with
    | members o' => exact iff_of_false (patch_whole_ne hp _) not_false
    | whole value' => exact Iff.rfl

end ResolvedRequest

/-! ### Documents a call is published as -/

/-- `http_request_preview`. -/
def httpRequestPreview (method url : String) (body : Json) : Json :=
  obj [("transport", str "http"), ("method", str method), ("url", str url), ("body", body)]

/-- `http_canonical_request`: the members of the document, which a provider adds to. -/
def httpCanonicalRequest (method path : String) (body : Json) : List (String × Json) :=
  [("transport", str "http"), ("method", str method), ("path", str path), ("body", body)]

/-- `exec_request_preview`: the members of the document. -/
def execRequestPreview (command : String) (args : List String) (stdin : Json) :
    List (String × Json) :=
  [("transport", str "exec"), ("command", str command), ("args", arr (args.map str)),
    ("stdin", stdin)]

/-- `legacy_url_shape`: the `path` member swapped back for the full `url`. -/
def legacyUrlShape (canonical : Option Json) (fullUrl : String) : List Json :=
  match canonical with
  | some (.obj members) =>
    [obj (insertMember "url" (str fullUrl) (members.filter fun m => m.1 ≠ "path"))]
  | _ => []

/-- The `tools` member, written only when the suite declared any. -/
def toolsMember (toolJson : ToolDef → Json) (tools : List ToolDef) : Option Json :=
  if tools.isEmpty then none else some (arr (tools.map toolJson))

theorem toolsMember_alike {toolJson : ToolDef → Json} {ts us : List ToolDef} :
    (toolsMember toolJson ts).map sortKeys = (toolsMember toolJson us).map sortKeys ↔
      (ts.map toolJson).map sortKeys = (us.map toolJson).map sortKeys := by
  cases ts <;> cases us <;> simp [toolsMember, sortKeys_arr]

/-- `trim_end_matches('/')`. -/
def trimEndSlashes (url : String) : String := String.ofList (url.toList.rdropWhile (· = '/'))
