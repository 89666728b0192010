/-
Cache keys: which calls are interchangeable.

A key is the SHA-256 of a canonical text.  The hash is taken as injective, so a key is
represented by the text it hashes; where the program prints a key, the model prints that
text.  The live key hashes `{request, repeat, provider_salt?, case_salt?}`; the two
frozen layouts of the versions before hash other objects.

* **`requestCacheKey_identifies`** — two live keys agree exactly when the requests are
  reorderings of each other and the repeat index and both salts agree;
* **`request_not_legacyProvider`**, **`request_not_legacyGrader`** — no live key is a key of
  either frozen layout.

All of it rests on one fact about objects with distinct member names: equal canonical texts
mean the same members, up to reordering inside the values.
-/
import Domarinn.Provider

open Json

/-- A content-addressed key, by the text it is the hash of. -/
structure CacheKey where
  preimage : String
deriving DecidableEq

namespace CacheKey

/-- `CacheKey::compute`. -/
def compute (parts : Json) : CacheKey := ⟨canonicalJson parts⟩

/-- The bytes that are hashed. -/
def bytes (key : CacheKey) : ByteArray := key.preimage.toByteArray

theorem bytes_inj {k l : CacheKey} : k.bytes = l.bytes ↔ k = l := by
  rw [bytes, bytes, String.toByteArray_inj, mk.injEq]

end CacheKey

/-- `request_cache_key`: the key every cached call is stored under. -/
def requestCacheKey (request : Json) (repeatIdx : ℕ) (providerSalt caseSalt : Option String) :
    CacheKey :=
  let parts := [("request", request), ("repeat", nat repeatIdx)]
  let parts := match providerSalt with
    | some salt => insertMember "provider_salt" (str salt) parts
    | none => parts
  let parts := match caseSalt with
    | some salt => insertMember "case_salt" (str salt) parts
    | none => parts
  CacheKey.compute (obj parts)

/-- `legacy_provider_key`: the provider key of the versions through 0.4. -/
def legacyProviderKey (fingerprint : Json) (req : ProviderRequest) (repeatIdx : ℕ) : CacheKey :=
  let prompt := (req.prompt.map RenderedPrompt.toJson).getD null
  let parts := [("fingerprint", fingerprint), ("prompt", prompt), ("vars", obj req.vars),
    ("params", obj req.params), ("repeat", nat repeatIdx)]
  let parts := if req.tools.isEmpty then parts
    else insertMember "tools" (arr (req.tools.map ToolDef.toJson)) parts
  let parts := match req.caseSalt with
    | some salt => insertMember "case_salt" (str salt) parts
    | none => parts
  CacheKey.compute (obj parts)

/-- `legacy_grader_verdict_key`: the grading key of the versions through 0.4. -/
def legacyGraderVerdictKey (fingerprint graded : Json) (repeatIdx : ℕ) : CacheKey :=
  CacheKey.compute (obj [("kind", str "grader-verdict"), ("fingerprint", fingerprint),
    ("graded", graded), ("repeat", nat repeatIdx)])

/-! ### Members of keyed objects -/

/-- Keys of two objects agree only when the objects have the same members, up to
reordering inside the values. -/
theorem compute_obj_perm {ms ns : List (String × Json)}
    (h : CacheKey.compute (obj ms) = CacheKey.compute (obj ns)) :
    (ms.map fun m => (m.1, sortKeys m.2)).Perm (ns.map fun m => (m.1, sortKeys m.2)) := by
  have hsorted := canonicalJson_inj.mp (congrArg CacheKey.preimage h)
  rw [sortKeys_obj, sortKeys_obj] at hsorted
  exact ((perm_sortMembersByKey _).symm.trans (.of_eq (Json.obj.inj hsorted))).trans
    (perm_sortMembersByKey _)

/-- Objects whose keys agree have the same member names. -/
theorem compute_obj_names {ms ns : List (String × Json)}
    (h : CacheKey.compute (obj ms) = CacheKey.compute (obj ns)) {k : String}
    (hk : k ∈ ms.map Prod.fst) : k ∈ ns.map Prod.fst := by
  have hp := (compute_obj_perm h).map Prod.fst
  simp only [List.map_map, Function.comp_def] at hp
  exact hp.mem_iff.mp hk

theorem str_sortKeys_inj {s t : String} : sortKeys (str s) = sortKeys (str t) ↔ s = t := by
  rw [sortKeys, sortKeys, Json.str.injEq]

theorem nat_sortKeys_inj {n m : ℕ} : sortKeys (nat n) = sortKeys (nat m) ↔ n = m := by
  rw [nat, nat, sortKeys, sortKeys, Json.num.injEq, JsonNumber.posInt.injEq]

/-- The object a live key hashes, with the salts as optional members. -/
theorem requestCacheKey_eq (request : Json) (repeatIdx : ℕ)
    (providerSalt caseSalt : Option String) :
    requestCacheKey request repeatIdx providerSalt caseSalt =
      CacheKey.compute (obj ([("request", request), ("repeat", nat repeatIdx)] ++
        optMember "provider_salt" (providerSalt.map str) ++
        optMember "case_salt" (caseSalt.map str))) := by
  cases providerSalt <;> cases caseSalt <;> rfl

/-- The object a frozen provider key hashes, with `tools` and `case_salt` optional. -/
theorem legacyProviderKey_eq (fingerprint : Json) (req : ProviderRequest) (repeatIdx : ℕ) :
    legacyProviderKey fingerprint req repeatIdx =
      CacheKey.compute (obj ([("fingerprint", fingerprint),
        ("prompt", (req.prompt.map RenderedPrompt.toJson).getD null), ("vars", obj req.vars),
        ("params", obj req.params), ("repeat", nat repeatIdx)] ++
        optMember "tools" (if req.tools.isEmpty then none
          else some (arr (req.tools.map ToolDef.toJson))) ++
        optMember "case_salt" (req.caseSalt.map str))) := by
  rw [legacyProviderKey]
  by_cases ht : req.tools.isEmpty
  · rw [if_pos ht, if_pos ht]
    cases req.caseSalt <;> rfl
  · rw [if_neg ht, if_neg ht]
    cases req.caseSalt <;> rfl

theorem mem_optMember_names {k name : String} {v : Option Json} :
    name ∈ (optMember k v).map Prod.fst → name = k := by
  cases v <;> simp [optMember]

/-- A member of the object a live key hashes, read by its name. -/
theorem mem_request_parts {request v : Json} {repeatIdx : ℕ}
    {providerSalt caseSalt : Option String} {k : String} :
    (k, v) ∈ ([("request", request), ("repeat", nat repeatIdx)] ++
        optMember "provider_salt" (providerSalt.map str) ++
        optMember "case_salt" (caseSalt.map str)).map (fun m => (m.1, sortKeys m.2)) ↔
      (k = "request" ∧ v = sortKeys request) ∨ (k = "repeat" ∧ v = sortKeys (nat repeatIdx)) ∨
      (k = "provider_salt" ∧ ∃ s ∈ providerSalt, v = sortKeys (str s)) ∨
      (k = "case_salt" ∧ ∃ s ∈ caseSalt, v = sortKeys (str s)) := by
  cases providerSalt <;> cases caseSalt <;> simp [optMember]

/-- Live keys agree exactly when the parts do, the requests by their key-sorted forms. -/
theorem requestCacheKey_inj {a b : Json} {r r' : ℕ} {ps ps' cs cs' : Option String} :
    requestCacheKey a r ps cs = requestCacheKey b r' ps' cs' ↔
      sortKeys a = sortKeys b ∧ r = r' ∧ ps = ps' ∧ cs = cs' := by
  constructor
  · intro h
    rw [requestCacheKey_eq, requestCacheKey_eq] at h
    have hmem : ∀ k v, _ ↔ _ := fun k v => (compute_obj_perm h).mem_iff (a := (k, v))
    simp only [mem_request_parts] at hmem
    refine ⟨?_, ?_, ?_, ?_⟩
    · simpa using (hmem "request" (sortKeys a)).mp (by simp)
    · have := (hmem "repeat" (sortKeys (nat r))).mp (by simp)
      simpa [nat_sortKeys_inj] using this
    · ext s
      simpa [str_sortKeys_inj] using hmem "provider_salt" (sortKeys (str s))
    · ext s
      simpa [str_sortKeys_inj] using hmem "case_salt" (sortKeys (str s))
  · rintro ⟨hreq, rfl, rfl, rfl⟩
    rw [requestCacheKey_eq, requestCacheKey_eq, CacheKey.compute, CacheKey.compute,
      canonicalJson_inj.mpr]
    rw [sortKeys_obj, sortKeys_obj]
    simp only [List.map_append, List.map_cons, hreq]

/-! ### What keys identify -/

/-- No live key is a key of the frozen provider layout: `request` is a member of one
object and not of the other. -/
theorem request_not_legacyProvider {request fingerprint : Json} {req : ProviderRequest}
    {r r' : ℕ} {ps cs : Option String} :
    requestCacheKey request r ps cs ≠ legacyProviderKey fingerprint req r' := by
  intro h
  rw [requestCacheKey_eq, legacyProviderKey_eq] at h
  have hname := compute_obj_names h (k := "request") (by simp)
  rw [List.map_append, List.map_append, List.mem_append, List.mem_append] at hname
  rcases hname with (hname | hname) | hname
  · simp at hname
  · exact absurd (mem_optMember_names hname) (by decide)
  · exact absurd (mem_optMember_names hname) (by decide)

/-- No live key is a key of the frozen grading layout. -/
theorem request_not_legacyGrader {request fingerprint graded : Json} {r r' : ℕ}
    {ps cs : Option String} :
    requestCacheKey request r ps cs ≠ legacyGraderVerdictKey fingerprint graded r' := by
  intro h
  rw [requestCacheKey_eq, legacyGraderVerdictKey] at h
  have hname := compute_obj_names h (k := "request") (by simp)
  simp at hname

/-- **Cache keys identify requests.**  The bytes two live keys hash are equal exactly when
the requests are equal up to the order of object members at every depth and the repeat
index and both salts are equal; and they are never the bytes of a frozen layout. -/
theorem requestCacheKey_identifies :
    (∀ (a b : Document) (r r' : ℕ) (ps ps' cs cs' : Option String),
      (requestCacheKey a.1 r ps cs).bytes = (requestCacheKey b.1 r' ps' cs').bytes ↔
        a.Reorder b ∧ r = r' ∧ ps = ps' ∧ cs = cs') ∧
    (∀ (a : Document) (r : ℕ) (ps cs : Option String) (fingerprint : Json)
      (req : ProviderRequest) (r' : ℕ),
      (requestCacheKey a.1 r ps cs).bytes ≠ (legacyProviderKey fingerprint req r').bytes) ∧
    (∀ (a : Document) (r : ℕ) (ps cs : Option String) (fingerprint graded : Json) (r' : ℕ),
      (requestCacheKey a.1 r ps cs).bytes ≠
        (legacyGraderVerdictKey fingerprint graded r').bytes) := by
  refine ⟨fun a b r r' ps ps' cs cs' => ?_, fun a r ps cs fingerprint req r' => ?_,
    fun a r ps cs fingerprint graded r' => ?_⟩
  · rw [CacheKey.bytes_inj, requestCacheKey_inj, sortKeys_eq_iff a.2, Document.Reorder]
  · rw [ne_eq, CacheKey.bytes_inj]
    exact request_not_legacyProvider
  · rw [ne_eq, CacheKey.bytes_inj]
    exact request_not_legacyGrader
