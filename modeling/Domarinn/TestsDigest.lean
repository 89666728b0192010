/-
The tests digest and the asserts digest of a suite.

`splitTests` writes every test as a document, takes its assertions and its expected failure
out of it, and sorts both halves by test id.  A digest is its preimage, so the questions are
what the halves keep of a test, and what the sort keeps of their order.

* **`body_iff`**, **`assertPart_iff`** — what each half says of a test;
* **`testsDigest_grading_iff`** — the threshold stays in the half that should not have it, and
  a template object `{$raw: v}` is written like the raw value `v`;
* **`configDigests_orderFree_iff`** — the order of tests is lost exactly when tests of one id
  are written alike;
* **`asked_perm_of_written`** — lists that digest alike ask the same tests.
-/
import Domarinn.Digests
import Domarinn.JsonMembers
import Domarinn.StableSort
import Domarinn.Suite
import Mathlib.Data.Rat.Denumerable
import Mathlib.Data.String.Basic

open Json

/-- The text of a finite `f64`, which determines it. -/
structure F64Text where
  text : ℚ → FloatText
  injective : Function.Injective text

/-- Such texts exist: there are as many as there are numbers. -/
instance : Nonempty F64Text := by
  obtain ⟨index, hindex⟩ := exists_injective_nat ℚ
  refine ⟨⟨fun q => ⟨List.replicate (index q) '1' ++ ['.'], fun c hc => ?_, by simp⟩,
    fun p q h => hindex ?_⟩⟩
  · rcases List.mem_append.mp hc with hc | hc
    · rw [List.eq_of_mem_replicate hc]
      decide
    · rw [List.mem_singleton.mp hc]
      decide
  · simpa using congrArg (fun t => t.text.length) h

/-! ### Tests, as they are written -/

/-- `Val`: a raw value is written under its marker. -/
def Val.toJson : Val → Json
  | tpl v => v
  | raw v => obj [("$raw", v)]

/-- `skip_serializing_if = "is_empty"`. -/
def unlessEmpty {α : Type} (xs : List α) (v : Json) : Option Json :=
  if xs.isEmpty then none else some v

/-- `expect_fail_enabled`: any reason is a yes. -/
def TestCase.expectFailEnabled (t : TestCase) : Bool :=
  match t.expectFail with
  | some (.bool flag) => flag
  | some _ => true
  | none => false

section
variable (f64 : F64Text)

/-- The fields of a test, each absent when it says nothing. -/
def TestCase.fields (t : TestCase) : List (String × Option Json) :=
  [("id", t.id.map str), ("tags", unlessEmpty t.tags (arr (t.tags.map str))),
    ("description", t.description.map str),
    ("vars", unlessEmpty t.vars (obj (t.vars.map fun m => (m.1, m.2.toJson)))),
    ("matrix", unlessEmpty t.matrix (obj (t.matrix.map fun m => (m.1, arr (m.2.map Val.toJson))))),
    ("matrix_id", t.matrixId.map str), ("assert", unlessEmpty t.assert (arr t.assert)),
    ("threshold", t.threshold.map fun q => num (.float (f64.text q))),
    ("cache_salt", t.cacheSalt.map str),
    ("only_providers", unlessEmpty t.onlyProviders (arr (t.onlyProviders.map str))),
    ("skip_providers", unlessEmpty t.skipProviders (arr (t.skipProviders.map str))),
    ("history", t.history), ("expect_fail", t.expectFail)]

/-- `to_value` of a test. -/
def TestCase.members (t : TestCase) : List (String × Json) := optMembers (t.fields f64)

/-- `test.id.clone().unwrap_or_default()`. -/
def TestCase.sortId (t : TestCase) : String := t.id.getD ""

/-- What is asked: the test without the two members that grade it. -/
def TestCase.body (t : TestCase) : Json :=
  obj (removeMember "assert" (removeMember "expect_fail" (t.members f64)))

/-- How it is graded: the assertions, and an expected failure when it is enabled. -/
def TestCase.assertPart (t : TestCase) : Json :=
  let assert := (member? "assert" (removeMember "expect_fail" (t.members f64))).getD null
  if t.expectFailEnabled then obj [("assert", assert), ("expect_fail", bool true)] else assert

/-- A half of the tests, in the order of their ids. -/
def asJson (rows : List (String × Json)) : Json :=
  arr ((sortBy Prod.fst rows).map fun (id, body) => obj [("id", str id), ("body", body)])

/-- `split_tests`. -/
def splitTests (tests : List TestCase) : Json × Json :=
  (asJson (tests.map fun t => (t.sortId, t.body f64)),
    asJson (tests.map fun t => (t.sortId, t.assertPart f64)))

/-- `ConfigDigests`. -/
structure ConfigDigests where
  prompts : Digest
  providers : Digest
  tests : Digest
  asserts : Digest
  grader : Digest
deriving DecidableEq

/-- `config_digests`.  The suite is given by the documents its prompts, its providers and its
grader are written as. -/
def configDigests (prompts providers grader : Json) (tests : List TestCase) : ConfigDigests :=
  let (testBodies, assertBodies) := splitTests f64 tests
  { prompts := digest prompts
    providers := digest providers
    tests := digest testBodies
    asserts := digest assertBodies
    grader := digest grader }

end

/-! ### What a test asks -/

/-- The fields of a test that say what is asked, with values of any kind. -/
structure Asked (V : Type) where
  id : Option String
  tags : List String
  description : Option String
  vars : List (String × V)
  matrix : List (String × List V)
  matrixId : Option String
  cacheSalt : Option String
  onlyProviders : List String
  skipProviders : List String
  history : Option Json

/-- Values written differently. -/
def Asked.map {V W : Type} (f : V → W) (a : Asked V) : Asked W :=
  { a with
    vars := a.vars.map fun m => (m.1, f m.2)
    matrix := a.matrix.map fun m => (m.1, m.2.map f) }

/-- A value up to the order of members. -/
def Val.sorted : Val → Val
  | tpl v => tpl (sortKeys v)
  | raw v => raw (sortKeys v)

/-- What a test asks, documents up to the order of their members. -/
def TestCase.asked (t : TestCase) : Asked Val where
  id := t.id
  tags := t.tags
  description := t.description
  vars := (sortBy Prod.fst t.vars).map fun m => (m.1, m.2.sorted)
  matrix := (sortBy Prod.fst t.matrix).map fun m => (m.1, m.2.map Val.sorted)
  matrixId := t.matrixId
  cacheSalt := t.cacheSalt
  onlyProviders := t.onlyProviders
  skipProviders := t.skipProviders
  history := t.history.map sortKeys

/-- What the tests half says of a test. -/
def TestCase.written (t : TestCase) : Asked Json × Option ℚ :=
  (t.asked.map Val.toJson, t.threshold)

/-- What the asserts half says of a test. -/
def TestCase.graded (t : TestCase) : List Json × Bool :=
  (t.assert.map sortKeys, t.expectFailEnabled)

/-! ### What the halves say of a test -/

/-- An absent list is an empty one, when its document tells an empty list from others. -/
theorem unlessEmpty_iff {α γ : Type} (d : List α → Json) (n : List α → γ)
    (hd : ∀ xs ys, sortKeys (d xs) = sortKeys (d ys) ↔ n xs = n ys)
    (hn : ∀ xs, n xs = n [] → xs = []) (xs ys : List α) :
    (unlessEmpty xs (d xs)).map sortKeys = (unlessEmpty ys (d ys)).map sortKeys ↔
      n xs = n ys := by
  rw [unlessEmpty, unlessEmpty]
  cases xs with
  | nil => cases ys with
    | nil => simp
    | cons y ys => simpa using fun h => List.cons_ne_nil y ys (hn _ h.symm)
  | cons x xs => cases ys with
    | nil => simpa using fun h => List.cons_ne_nil x xs (hn _ h)
    | cons y ys => simpa using hd (x :: xs) (y :: ys)

theorem sortKeys_arr_iff {α : Type} (f : α → Json) (xs ys : List α) :
    sortKeys (arr (xs.map f)) = sortKeys (arr (ys.map f)) ↔
      xs.map (fun x => sortKeys (f x)) = ys.map fun y => sortKeys (f y) := by
  rw [sortKeys_arr, sortKeys_arr, Json.arr.injEq, List.map_map, List.map_map]
  rfl

theorem sortKeys_map_iff {V : Type} (f : V → Json) (xs ys : List (String × V)) :
    sortKeys (obj (xs.map fun m => (m.1, f m.2))) = sortKeys (obj (ys.map fun m => (m.1, f m.2))) ↔
      (sortBy Prod.fst xs).map (fun m => (m.1, sortKeys (f m.2))) =
        (sortBy Prod.fst ys).map fun m => (m.1, sortKeys (f m.2)) := by
  have hsort : ∀ zs : List (String × V), sortKeys (obj (zs.map fun m => (m.1, f m.2))) =
      obj ((sortBy Prod.fst zs).map fun m => (m.1, sortKeys (f m.2))) := by
    intro zs
    rw [sortKeys_obj, List.map_map]
    exact congrArg obj (insertionSort_map_snd (fun v => sortKeys (f v)) zs)
  rw [hsort, hsort, Json.obj.injEq]

theorem strings_iff (xs ys : List String) :
    (unlessEmpty xs (arr (xs.map str))).map sortKeys =
      (unlessEmpty ys (arr (ys.map str))).map sortKeys ↔ xs = ys := by
  refine unlessEmpty_iff (fun xs => arr (xs.map str)) (fun xs => xs) (fun xs ys => ?_)
    (fun _ h => h) xs ys
  rw [sortKeys_arr_iff]
  simp only [sortKeys_str]
  exact (List.map_injective_iff.mpr fun _ _ => Json.str.inj).eq_iff

theorem string_iff (s t : Option String) :
    (s.map str).map sortKeys = (t.map str).map sortKeys ↔ s = t := by
  cases s <;> cases t <;> simp [sortKeys_str]

theorem Val.sortKeys_toJson (v : Val) : sortKeys v.toJson = v.sorted.toJson := by
  cases v with
  | tpl v => rfl
  | raw v =>
    rw [Val.toJson, sortKeys_obj]
    rfl

theorem vars_iff (xs ys : List (String × Val)) :
    (unlessEmpty xs (obj (xs.map fun m => (m.1, m.2.toJson)))).map sortKeys =
      (unlessEmpty ys (obj (ys.map fun m => (m.1, m.2.toJson)))).map sortKeys ↔
      (sortBy Prod.fst xs).map (fun m => (m.1, m.2.sorted.toJson)) =
        (sortBy Prod.fst ys).map fun m => (m.1, m.2.sorted.toJson) := by
  refine unlessEmpty_iff (fun xs => obj (xs.map fun m => (m.1, m.2.toJson)))
    (fun xs => (sortBy Prod.fst xs).map fun m => (m.1, m.2.sorted.toJson))
    (fun xs ys => ?_) (fun xs h => sortBy_eq_nil (List.map_eq_nil_iff.mp h)) xs ys
  rw [sortKeys_map_iff]
  simp only [Val.sortKeys_toJson]

theorem matrix_iff (xs ys : List (String × List Val)) :
    (unlessEmpty xs (obj (xs.map fun m => (m.1, arr (m.2.map Val.toJson))))).map sortKeys =
      (unlessEmpty ys (obj (ys.map fun m => (m.1, arr (m.2.map Val.toJson))))).map sortKeys ↔
      (sortBy Prod.fst xs).map (fun m => (m.1, (m.2.map Val.sorted).map Val.toJson)) =
        (sortBy Prod.fst ys).map fun m => (m.1, (m.2.map Val.sorted).map Val.toJson) := by
  refine unlessEmpty_iff (fun xs => obj (xs.map fun m => (m.1, arr (m.2.map Val.toJson))))
    (fun xs => (sortBy Prod.fst xs).map fun m => (m.1, (m.2.map Val.sorted).map Val.toJson))
    (fun xs ys => ?_) (fun xs h => sortBy_eq_nil (List.map_eq_nil_iff.mp h)) xs ys
  rw [sortKeys_map_iff (fun vs : List Val => arr (vs.map Val.toJson))]
  -- an array of values is the array of their documents, and no more
  have hvalues : ∀ vs : List Val, sortKeys (arr (vs.map Val.toJson)) =
      arr ((vs.map Val.sorted).map Val.toJson) := by
    intro vs
    rw [sortKeys_arr, List.map_map, List.map_map]
    exact congrArg arr (List.map_congr_left fun v _ => v.sortKeys_toJson)
  simp only [hvalues]
  have hinj : Function.Injective fun m : String × List Json => (m.1, arr m.2) := by
    rintro ⟨k, vs⟩ ⟨k', vs'⟩ h
    rw [Prod.mk.injEq, Json.arr.injEq] at h
    exact Prod.ext h.1 h.2
  have := (List.map_injective_iff.mpr hinj).eq_iff
    (a := (sortBy Prod.fst xs).map fun m => (m.1, (m.2.map Val.sorted).map Val.toJson))
    (b := (sortBy Prod.fst ys).map fun m => (m.1, (m.2.map Val.sorted).map Val.toJson))
  rwa [List.map_map, List.map_map] at this

section
variable (f64 : F64Text)

theorem threshold_iff (p q : Option ℚ) :
    (p.map fun q => num (.float (f64.text q))).map sortKeys =
      (q.map fun q => num (.float (f64.text q))).map sortKeys ↔ p = q := by
  cases p <;> cases q <;> simp [sortKeys, f64.injective.eq_iff]

/-- The fields the tests half keeps. -/
def TestCase.bodyFields (t : TestCase) : List (String × Option Json) :=
  [("id", t.id.map str), ("tags", unlessEmpty t.tags (arr (t.tags.map str))),
    ("description", t.description.map str),
    ("vars", unlessEmpty t.vars (obj (t.vars.map fun m => (m.1, m.2.toJson)))),
    ("matrix", unlessEmpty t.matrix (obj (t.matrix.map fun m => (m.1, arr (m.2.map Val.toJson))))),
    ("matrix_id", t.matrixId.map str),
    ("threshold", t.threshold.map fun q => num (.float (f64.text q))),
    ("cache_salt", t.cacheSalt.map str),
    ("only_providers", unlessEmpty t.onlyProviders (arr (t.onlyProviders.map str))),
    ("skip_providers", unlessEmpty t.skipProviders (arr (t.skipProviders.map str))),
    ("history", t.history)]

theorem body_eq (t : TestCase) : t.body f64 = obj (optMembers (t.bodyFields f64)) := by
  rw [TestCase.body, TestCase.members, removeMember_optMembers, removeMember_optMembers]
  simp [TestCase.fields, TestCase.bodyFields]

/-- **The tests half says of a test what it asks, and its threshold.** -/
theorem body_iff (t u : TestCase) :
    sortKeys (t.body f64) = sortKeys (u.body f64) ↔ t.written = u.written := by
  have hnames : (t.bodyFields f64).map Prod.fst = (u.bodyFields f64).map Prod.fst := rfl
  rw [body_eq, body_eq, sortKeys_optMembers hnames (by simp [TestCase.bodyFields])]
  simp only [TestCase.bodyFields, List.map_cons, List.map_nil, List.cons.injEq, and_true,
    string_iff, strings_iff, vars_iff, matrix_iff, threshold_iff]
  simp only [TestCase.written, TestCase.asked, Asked.map, Prod.mk.injEq, Asked.mk.injEq,
    List.map_map, Function.comp_def]
  tauto

/-- The assertions, or nothing when there are none. -/
theorem assertPart_eq (t : TestCase) : t.assertPart f64 =
    if t.expectFailEnabled then
      obj [("assert", (unlessEmpty t.assert (arr t.assert)).getD null), ("expect_fail", bool true)]
    else (unlessEmpty t.assert (arr t.assert)).getD null := by
  have hassert : member? "assert" (removeMember "expect_fail" (t.members f64)) =
      unlessEmpty t.assert (arr t.assert) := by
    rw [TestCase.members, removeMember_optMembers]
    simp [TestCase.fields, optMembers, member?_append]
  rw [TestCase.assertPart, hassert]

/-- **The asserts half says how a test is graded**: its assertions and whether it is expected
to fail. -/
theorem assertPart_iff (t u : TestCase) :
    sortKeys (t.assertPart f64) = sortKeys (u.assertPart f64) ↔ t.graded = u.graded := by
  have hdocument : ∀ xs ys : List Json,
      sortKeys ((unlessEmpty xs (arr xs)).getD null) =
        sortKeys ((unlessEmpty ys (arr ys)).getD null) ↔ xs.map sortKeys = ys.map sortKeys := by
    intro xs ys
    cases xs <;> cases ys <;> simp [unlessEmpty, sortKeys, sortKeysItems_eq]
  -- a bare half is a list or nothing, never an object
  have hbare : ∀ (xs : List Json) (ms : List (String × Json)),
      sortKeys ((unlessEmpty xs (arr xs)).getD null) ≠ sortKeys (obj ms) := by
    intro xs ms
    cases xs <;> simp [unlessEmpty, sortKeys]
  rw [assertPart_eq, assertPart_eq, TestCase.graded, TestCase.graded, Prod.mk.injEq]
  cases t.expectFailEnabled <;> cases u.expectFailEnabled
  · simpa using hdocument t.assert u.assert
  · simpa using hbare t.assert _
  · simpa using (hbare u.assert _).symm
  · simp only [if_true, and_true]
    rw [sortKeys_obj_cons (by simp) (by simp), hdocument]
    simp

end

/-! ### What a half keeps of its rows -/

/-- Rows up to the order of members. -/
def sortedRow (r : String × Json) : String × Json := (r.1, sortKeys r.2)

/-- **A half is its sorted rows.** -/
theorem digest_asJson (rows rows' : List (String × Json)) :
    digest (asJson rows) = digest (asJson rows') ↔
      sortBy Prod.fst (rows.map sortedRow) = sortBy Prod.fst (rows'.map sortedRow) := by
  have hhalf : ∀ rows : List (String × Json), sortKeys (asJson rows) =
      arr ((sortBy Prod.fst (rows.map sortedRow)).map fun r =>
        obj [("body", r.2), ("id", str r.1)]) := by
    intro rows
    rw [asJson, sortKeys_arr, List.map_map, sortBy_map, List.map_map]
    refine congrArg arr (List.map_congr_left fun r _ => ?_)
    change sortKeys (obj [("id", str r.1), ("body", r.2)]) = _
    have hless : ¬"id" ≤ "body" := by decide
    rw [sortKeys_obj]
    simp [sortMembersByKey, List.orderedInsert, hless, sortedRow, sortKeys_str]
  have hinj : Function.Injective fun r : String × Json => obj [("body", r.2), ("id", str r.1)] := by
    rintro ⟨id, body⟩ ⟨id', body'⟩ h
    simpa [and_comm] using h
  rw [digest_inj, hhalf, hhalf, Json.arr.injEq, (List.map_injective_iff.mpr hinj).eq_iff]

/-- The rows of a half, one a test. -/
def halfRow (part : TestCase → Json) (t : TestCase) : String × Json := (t.sortId, part t)

/-- A half forgets the order of the tests exactly when it says one thing of all tests of an
id. -/
theorem half_order_free {γ : Type} {part : TestCase → Json} {meaning : TestCase → γ}
    (hpart : ∀ t u, sortKeys (part t) = sortKeys (part u) ↔ meaning t = meaning u)
    (tests : List TestCase) :
    (∀ tests' : List TestCase, tests.Perm tests' →
      digest (asJson (tests'.map (halfRow part))) = digest (asJson (tests.map (halfRow part)))) ↔
      ∀ t ∈ tests, ∀ u ∈ tests, t.sortId = u.sortId → meaning t = meaning u := by
  simp only [digest_asJson, List.map_map]
  rw [sortBy_order_free]
  refine forall₂_congr fun t _ => forall₂_congr fun u _ => forall_congr' fun hid => ?_
  rw [← hpart]
  exact ⟨fun h => (Prod.mk.inj h).2, fun h => Prod.ext hid h⟩

/-! ### The order of the tests -/

/-- Reordering the tests leaves their digest and the digest of their assertions alone. -/
def OrderFree (f64 : F64Text) (prompts providers grader : Json) (tests : List TestCase) : Prop :=
  ∀ tests' : List TestCase, tests.Perm tests' →
    (configDigests f64 prompts providers grader tests').tests =
        (configDigests f64 prompts providers grader tests).tests ∧
      (configDigests f64 prompts providers grader tests').asserts =
        (configDigests f64 prompts providers grader tests).asserts

/-- **The digests forget the order of the tests exactly when tests of one id are one test**, in
what they ask and in how they are graded: the sort keeps the rest in the order it came. -/
theorem configDigests_orderFree_iff (f64 : F64Text) (prompts providers grader : Json)
    (tests : List TestCase) : OrderFree f64 prompts providers grader tests ↔
      ∀ t ∈ tests, ∀ u ∈ tests, t.sortId = u.sortId →
        t.written = u.written ∧ t.graded = u.graded := by
  have hbodies := half_order_free (body_iff f64) tests
  have hasserts := half_order_free (assertPart_iff f64) tests
  constructor
  · intro h t ht u hu hid
    exact ⟨hbodies.mp (fun tests' hperm => (h tests' hperm).1) t ht u hu hid,
      hasserts.mp (fun tests' hperm => (h tests' hperm).2) t ht u hu hid⟩
  · intro h tests' hperm
    exact ⟨hbodies.mpr (fun t ht u hu hid => (h t ht u hu hid).1) tests' hperm,
      hasserts.mpr (fun t ht u hu hid => (h t ht u hu hid).2) tests' hperm⟩

/-- **Two tests without an id are kept in the order they came.** -/
theorem unnamed_tests_keep_order : ¬∃ f64 : F64Text, OrderFree f64 null null null
    [{ TestCase.default with description := some "first" },
      { TestCase.default with description := some "second" }] := by
  rintro ⟨f64, h⟩
  have hwritten := (half_order_free (body_iff f64) _).mp (fun tests' hperm => (h tests' hperm).1)
    _ List.mem_cons_self _ (List.mem_cons_of_mem _ List.mem_cons_self) rfl
  have hdescription := congrArg (fun w => w.1.description) hwritten
  exact absurd hdescription (by decide)

/-! ### What is asked, and how it is graded -/

/-- What the tests digest of two configurations of a suite should tell. -/
structure TellsAsking (f64 : F64Text) (prompts providers grader : Json) (ts us : List TestCase) :
    Prop where
  /-- tests that differ in grading only have one digest -/
  ignoresGrading : ts.map TestCase.asked = us.map TestCase.asked →
    (configDigests f64 prompts providers grader ts).tests =
      (configDigests f64 prompts providers grader us).tests
  /-- tests that ask something else, in any order, have another -/
  seesAsking : ¬(ts.map TestCase.asked).Perm (us.map TestCase.asked) →
    (configDigests f64 prompts providers grader ts).tests ≠
      (configDigests f64 prompts providers grader us).tests

/-- **Two lists have one tests digest exactly when they are written alike under each id.** -/
theorem testsDigest_eq_iff (f64 : F64Text) (prompts providers grader : Json)
    (ts us : List TestCase) :
    (configDigests f64 prompts providers grader ts).tests =
        (configDigests f64 prompts providers grader us).tests ↔
      ∀ id, (under TestCase.sortId id ts).map TestCase.written =
        (under TestCase.sortId id us).map TestCase.written := by
  change digest (asJson (ts.map (halfRow (TestCase.body f64)))) =
    digest (asJson (us.map (halfRow (TestCase.body f64)))) ↔ _
  rw [digest_asJson, List.map_map, List.map_map, sortBy_eq_iff]
  refine forall_congr' fun id => ?_
  rw [under_map, under_map]
  -- a row is decided by what is written, which has the id in it
  constructor
  · exact map_eq_of_decides fun t u h => (body_iff f64 t u).mp (Prod.mk.inj h).2
  · refine map_eq_of_decides fun t u h => Prod.ext ?_ ((body_iff f64 t u).mpr h)
    have hid : t.id = u.id := congrArg (fun w => w.1.id) h
    change t.id.getD "" = u.id.getD ""
    rw [hid]

/-- The id of what is written. -/
def writtenId (w : Asked Json × Option ℚ) : String := w.1.id.getD ""

theorem under_written (id : String) (ts : List TestCase) :
    (under TestCase.sortId id ts).map TestCase.written =
      under writtenId id (ts.map TestCase.written) := by
  rw [under_map]
  rfl

/-- Lists that ask the same have one digest exactly when their thresholds are the same: the
sort moves both alike. -/
theorem written_of_asked {ts us : List TestCase}
    (hasked : ts.map TestCase.asked = us.map TestCase.asked) :
    (∀ id, (under TestCase.sortId id ts).map TestCase.written =
        (under TestCase.sortId id us).map TestCase.written) ↔
      ts.map TestCase.threshold = us.map TestCase.threshold := by
  have hzip : ∀ ts : List TestCase, ts.map TestCase.written =
      ((ts.map TestCase.asked).map (Asked.map Val.toJson)).zip (ts.map TestCase.threshold) := by
    intro ts
    rw [List.map_map, List.zip_map']
    rfl
  simp only [under_written]
  constructor
  · intro h
    -- the id is asked, so both lists are sorted by the same keys
    have hkey : ∀ ts : List TestCase, (ts.map TestCase.written).map writtenId =
        (ts.map TestCase.asked).map fun a => a.id.getD "" := by
      intro ts
      rw [List.map_map, List.map_map]
      rfl
    have hids : (ts.map TestCase.written).map writtenId =
        (us.map TestCase.written).map writtenId := by
      rw [hkey, hkey, hasked]
    have hwritten := eq_of_sortBy_eq hids (sortBy_eq_iff.mpr h)
    have hthreshold := congrArg (List.map Prod.snd) hwritten
    rw [List.map_map, List.map_map] at hthreshold
    exact hthreshold
  · intro h id
    rw [hzip, hzip, hasked, h]

/-- **The tests digest tells asking from grading exactly when** lists that ask the same, test
for test, have the same thresholds, and lists that are written alike ask the same. -/
theorem testsDigest_grading_iff (f64 : F64Text) (prompts providers grader : Json)
    (ts us : List TestCase) : TellsAsking f64 prompts providers grader ts us ↔
      (ts.map TestCase.asked = us.map TestCase.asked →
        ts.map TestCase.threshold = us.map TestCase.threshold) ∧
      ((∀ id, (under TestCase.sortId id ts).map TestCase.written =
          (under TestCase.sortId id us).map TestCase.written) →
        (ts.map TestCase.asked).Perm (us.map TestCase.asked)) := by
  have hdigest := testsDigest_eq_iff f64 prompts providers grader ts us
  constructor
  · intro h
    refine ⟨fun hasked => (written_of_asked hasked).mp (hdigest.mp (h.ignoresGrading hasked)),
      fun hwritten => ?_⟩
    by_contra hperm
    exact h.seesAsking hperm (hdigest.mpr hwritten)
  · rintro ⟨hthreshold, hperm⟩
    exact ⟨fun hasked => hdigest.mpr ((written_of_asked hasked).mpr (hthreshold hasked)),
      fun hne heq => hne (hperm (hdigest.mp heq))⟩

/-- **A threshold is grading, and moves the tests digest.** -/
theorem threshold_moves_tests_digest : ¬∃ f64 : F64Text, TellsAsking f64 null null null
    [TestCase.default] [{ TestCase.default with threshold := some (1 / 2) }] := by
  rintro ⟨f64, h⟩
  have hasked : [TestCase.default].map TestCase.asked =
      [{ TestCase.default with threshold := some (1 / 2) }].map TestCase.asked := rfl
  have hwritten := (testsDigest_eq_iff f64 null null null _ _).mp (h.ignoresGrading hasked)
  have hthreshold := (written_of_asked hasked).mp hwritten
  exact absurd hthreshold (by simp [TestCase.default])

/-! ### Raw values and template objects -/

/-- A template object that looks like the marker of a raw value. -/
def Val.LooksRaw : Val → Prop
  | tpl v => ∃ w, v = obj [("$raw", w)]
  | raw _ => False

/-- A raw value is written like a template object of the marker's form, and like no other. -/
theorem Val.toJson_inj {v w : Val} (hv : ¬v.LooksRaw) (hw : ¬w.LooksRaw)
    (h : v.toJson = w.toJson) : v = w := by
  cases v with
  | tpl v => cases w with
    | tpl w => exact congrArg Val.tpl h
    | raw w => exact absurd ⟨w, h⟩ hv
  | raw v => cases w with
    | tpl w => exact absurd ⟨v, h.symm⟩ hw
    | raw w => simpa [Val.toJson] using h

/-- No value looks raw. -/
structure Asked.Plain (a : Asked Val) : Prop where
  vars : ∀ m ∈ a.vars, ¬m.2.LooksRaw
  matrix : ∀ m ∈ a.matrix, ∀ v ∈ m.2, ¬v.LooksRaw

/-- Apart from such objects, what is written says what is asked. -/
theorem Asked.eq_of_map_toJson {a b : Asked Val} (ha : a.Plain) (hb : b.Plain)
    (h : a.map Val.toJson = b.map Val.toJson) : a = b := by
  have hvars : a.vars = b.vars := by
    have hmap : a.vars.map (fun m => (m.1, m.2.toJson)) = b.vars.map fun m => (m.1, m.2.toJson) :=
      congrArg Asked.vars h
    have := map_eq_of_decides_on (g := fun x => x) (fun m hm n hn heq =>
      Prod.ext (Prod.mk.inj heq).1
        (Val.toJson_inj (ha.vars m hm) (hb.vars n hn) (Prod.mk.inj heq).2)) hmap
    simpa using this
  have hmatrix : a.matrix = b.matrix := by
    have hmap : a.matrix.map (fun m => (m.1, m.2.map Val.toJson)) =
        b.matrix.map fun m => (m.1, m.2.map Val.toJson) := congrArg Asked.matrix h
    have := map_eq_of_decides_on (g := fun x => x) (fun m hm n hn heq => ?_) hmap
    · simpa using this
    · have hvalues := map_eq_of_decides_on (g := fun x => x) (fun v hv w hw hvw =>
        Val.toJson_inj (ha.matrix m hm v hv) (hb.matrix n hn w hw) hvw) (Prod.mk.inj heq).2
      exact Prod.ext (Prod.mk.inj heq).1 (by simpa using hvalues)
  obtain ⟨hid, htags, hdescription, -, -, hmatrixId, hsalt, honly, hskip, hhistory⟩ :=
    (Asked.mk.injEq ..).mp h
  cases a
  cases b
  simp_all

/-- **Lists written alike ask the same**, when no value of theirs looks raw. -/
theorem asked_perm_of_written {ts us : List TestCase} (hts : ∀ t ∈ ts, t.asked.Plain)
    (hus : ∀ u ∈ us, u.asked.Plain)
    (h : ∀ id, (under TestCase.sortId id ts).map TestCase.written =
      (under TestCase.sortId id us).map TestCase.written) :
    (ts.map TestCase.asked).Perm (us.map TestCase.asked) := by
  have hsort : sortBy (fun a : Asked Val => a.id.getD "") (ts.map TestCase.asked) =
      sortBy (fun a : Asked Val => a.id.getD "") (us.map TestCase.asked) := by
    refine sortBy_eq_iff.mpr fun id => ?_
    rw [under_map, under_map]
    refine map_eq_of_decides_on (fun t ht u hu hwritten => ?_) (h id)
    exact Asked.eq_of_map_toJson (hts t ((mem_under _).mp ht).1) (hus u ((mem_under _).mp hu).1)
      (congrArg Prod.fst hwritten)
  exact (perm_sortBy _ _).symm.trans ((List.Perm.of_eq hsort).trans (perm_sortBy _ _))
