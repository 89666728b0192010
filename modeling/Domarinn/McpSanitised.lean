/-
What leaves the tools is sanitised, cut and accounted for by the tools that render last.

* **`located_clean`** — a path is clean where the names on it are;
* **`run_late`** — six of the eight tools hand the payload to the pass first, and render their
  text from what the pass made of it;
* **`not_rendersSanitised_of_early`** — the other two render from the payload itself: the same
  sanitised payload goes out with two different texts;
* **`sanitised_exactly`** — a call is sanitised exactly when its tool is one of the six, the
  arguments that it repeats and the member names of the payload are clean, the paths that
  `_truncated` lists are within the budget, and no preview was long enough to be clamped.
-/
import Domarinn.McpTools

open Json

namespace Mcp

/-! ### Paths and cuts -/

/-- A path as `_truncated` writes it. -/
def shownPath (path : String) : String := if path.isEmpty then "/" else path

mutual

/-- A path is clean where the names on it are. -/
theorem located_clean : ∀ (v : Json) (path : String), Clean path.toList →
    (∀ k ∈ keys v, Clean k.toList) → ∀ place ∈ located path v, Clean place.1.toList
  | .null, _, _, _ | .bool _, _, _, _ | .num _, _, _, _ => by rw [located] <;> nofun
  | .str s, path, hpath, _ => by
    rw [located, List.forall_mem_singleton]
    exact hpath
  | .arr items, path, hpath, hkeys => by
    rw [located]
    rw [keys] at hkeys
    exact located_cleanItems items path 0 hpath hkeys
  | .obj members, path, hpath, hkeys => by
    rw [located]
    rw [keys] at hkeys
    exact located_cleanMembers members path hpath hkeys

theorem located_cleanItems : ∀ (xs : List Json) (path : String) (i : ℕ), Clean path.toList →
    (∀ k ∈ keysOfItems xs, Clean k.toList) → ∀ place ∈ locatedItems path i xs, Clean place.1.toList
  | [], _, _, _, _ => by rw [locatedItems]; nofun
  | x :: xs, path, i, hpath, hkeys => by
    rw [keysOfItems, List.forall_mem_append] at hkeys
    rw [locatedItems, List.forall_mem_append]
    refine ⟨located_clean x _ ?_ hkeys.1, located_cleanItems xs path (i + 1) hpath hkeys.2⟩
    have hi : (toString i).toList = Nat.toDigits 10 i := by
      rw [Nat.toString_eq_ofList_toDigits, String.toList_ofList]
    rw [String.toList_append, String.toList_append, clean_append, clean_append, hi]
    exact ⟨⟨hpath, by decide⟩, clean_digits i⟩

theorem located_cleanMembers : ∀ (ms : List (String × Json)) (path : String), Clean path.toList →
    (∀ k ∈ keysOfMembers ms, Clean k.toList) →
      ∀ place ∈ locatedMembers path ms, Clean place.1.toList
  | [], _, _, _ => by rw [locatedMembers]; nofun
  | (k, v) :: ms, path, hpath, hkeys => by
    rw [keysOfMembers, List.cons_append, List.forall_mem_cons, List.forall_mem_append] at hkeys
    obtain ⟨hk, hv, hms⟩ := hkeys
    rw [locatedMembers, List.forall_mem_append]
    refine ⟨located_clean v _ ?_ hv, located_cleanMembers ms path hpath hms⟩
    rw [String.toList_append, String.toList_append, clean_append, clean_append]
    exact ⟨⟨hpath, by decide⟩, hk⟩

end

theorem clean_shownPath {path : String} (h : Clean path.toList) : Clean (shownPath path).toList := by
  rw [shownPath]
  split_ifs
  · decide
  · exact h

/-- The cuts of a pass stand at the strings that are over the limit. -/
theorem mem_cuts_walk {max : ℕ} {v : Json} {cut : Cut} :
    cut ∈ (walk max "" v).2 ↔ ∃ place ∈ located "" v, max < (sanitize place.2).length ∧
      cut = ⟨shownPath place.1, max, (sanitize place.2).length⟩ := by
  rw [cuts_walk, List.mem_filterMap]
  refine exists_congr fun place => and_congr_right fun _ => ?_
  rw [cutOf, truncate, ← shownPath]
  split_ifs with h
  · have hnot : ¬ max < (sanitize place.2).length := Nat.not_lt.mpr h
    simp [hnot]
  · have hlt : max < (sanitize place.2).length := Nat.lt_of_not_le h
    simp only [Option.map_some, Option.some.injEq, hlt, true_and]
    exact eq_comm

/-! ### What is attached -/

/-- The entries of `_truncated`. -/
def listedCuts (v : Json) : List Json :=
  match getMember v "_truncated" with
  | some (.arr items) => items
  | _ => []

section
variable {b : Budget} {ms : List (String × Json)}

theorem keys_cut (cut : Cut) : keys cut.toJson = ["path", "kept", "total"] := by
  simp [Cut.toJson, keys_obj, nat, keys]

theorem strings_cut (cut : Cut) : strings cut.toJson = [cut.path] := by
  simp [Cut.toJson, strings_obj, nat, strings]

/-- The attached entries add one string each: the path. -/
theorem strings_annotate (hplain : "_truncated" ∉ names ms) :
    strings (b.annotate (obj ms)) = strings (obj ms) ++ b.truncations.map Cut.path := by
  rw [Budget.annotate]
  split_ifs with hnone
  · rw [List.isEmpty_iff.mp hnone, List.map_nil, List.append_nil]
  · rw [insertMember_fresh hplain, strings_obj_append]
    congr 1
    rw [strings_obj, List.flatMap_cons, List.flatMap_nil, List.append_nil, strings_arr,
      List.flatMap_map]
    simp only [strings_cut]
    exact List.map_eq_flatMap.symm

/-- The names that an entry adds are the pass's own. -/
theorem clean_keys_annotate (hplain : "_truncated" ∉ names ms) :
    (∀ k ∈ keys (b.annotate (obj ms)), Clean k.toList) ↔ ∀ k ∈ keys (obj ms), Clean k.toList := by
  rw [Budget.annotate]
  split_ifs with hnone
  · exact Iff.rfl
  · rw [insertMember_fresh hplain, keys_obj_append, List.forall_mem_append, and_iff_left]
    rw [keys_obj, List.flatMap_cons, List.flatMap_nil, List.append_nil, List.forall_mem_cons]
    refine ⟨(by decide : Clean "_truncated".toList), ?_⟩
    rw [keys_arr]
    intro k hk
    obtain ⟨entry, hentry, hk⟩ := List.mem_flatMap.mp hk
    obtain ⟨cut, -, rfl⟩ := List.mem_map.mp hentry
    rw [keys_cut] at hk
    have hall : ∀ k ∈ ["path", "kept", "total"], Clean k.toList := by decide
    exact hall k hk

theorem listedCuts_annotate (hplain : "_truncated" ∉ names ms) :
    listedCuts (b.annotate (obj ms)) = b.truncations.map Cut.toJson := by
  rw [Budget.annotate]
  split_ifs with hnone
  · have hmissing : member? "_truncated" ms = none := member?_eq_none.mpr hplain
    rw [listedCuts, getMember, hmissing, List.isEmpty_iff.mp hnone, List.map_nil]
  · have hfound := member?_insertMember "_truncated" "_truncated"
      (arr (b.truncations.map Cut.toJson)) ms
    rw [if_pos rfl] at hfound
    rw [listedCuts, getMember, hfound]

end

theorem finish_ok {b : Budget} {v : Json} {text : List Char}
    (h : (finish b v text).isError = false) : finish b v text = .ok (b.annotate v) text := by
  rw [finish] at h ⊢
  split_ifs at h ⊢
  · rfl
  · cases h

/-! ### The property, and when it holds -/

section
variable (platform : Platform) (s : AppState) (vis : RunVisibility)

/-- The limit on strings that a call sets. -/
def Call.maxChars : Call → ℕ
  | .getCase args => (Budget.new args.limit).maxString
  | _ => (Budget.new maxString).maxString

/-- The tools that render after the pass. -/
def Call.late : Call → Bool
  | .findRuns _ | .getRun _ => false
  | _ => true

/-- The arguments that a late tool's text repeats. -/
def Call.echoes : Call → List String
  | .listCases args => [args.runId]
  | .getCase args => [args.caseKey]
  | .caseHistory args => [args.caseKey]
  | .compareRuns args => [args.baseRunId, args.headRunId]
  | .search args => [args.q]
  | _ => []

/-- The text that a late tool makes of a document. -/
def Call.render : Call → Json → List Char
  | .listCases args, v => casesTable (index v "cases") args.runId
  | .getCase args, v => caseDetail (index v "case") args.caseKey
  | .caseHistory args, v =>
    historyTable (((getMember v "points").or (getMember v "history")).getD null) args.caseKey
  | .compareRuns args, v =>
    compareTable args.baseRunId args.headRunId (index v "cases") (index v "summary")
  | .search args, v => searchText platform.printable v args.q
  | _, v => jsonBlock v

/-- The previews of a page of cases, with their rows. -/
def previewsOf (page : Response) : List (ℕ × String) :=
  match member? "cases" page.fields with
  | some (.arr rows) => rows.zipIdx.filterMap fun row =>
      ((getMember row.1 "output_preview").bind asStr?).map fun preview => (row.2, preview)
  | _ => []

/-- The previews that a call clamps. -/
def Call.previews : Call → List (ℕ × String)
  | .listCases args => match casesPage s vis args with
    | .ok page => previewsOf page
    | .error _ => []
  | _ => []

/-- What `clamp_previews` cuts. -/
def previewCut (preview : ℕ × String) : Option Cut :=
  (truncate preview.2 previewString).2.map
    (Cut.mk ("/cases/" ++ toString preview.1 ++ "/output_preview") previewString)

/-- Everything that is cut between what the storage answers and what goes out. -/
def Call.cuts (c : Call) : List Cut :=
  (c.previews s vis).filterMap previewCut ++ match c.payload platform s vis with
    | .ok payload => (walk c.maxChars "" payload).2
    | .error _ => []

/-- The text of a call is a function of what the pass makes of the payload: whatever the storage
holds, the payload itself does not reach it. -/
def RendersSanitised (c : Call) : Prop :=
  ∃ render : Json → List Char, ∀ s payload, c.payload platform s vis = .ok payload →
    (c.run platform s vis).isError = false →
    (c.run platform s vis).text = render (walk c.maxChars "" payload).1

/-- What every result is meant to be. -/
structure Sanitised (c : Call) : Prop where
  text : Clean (callTool platform s vis c).text
  content : CleanDoc (callTool platform s vis c).structured
  budgeted : ∀ t ∈ strings (callTool platform s vis c).structured, WithinBudget c.maxChars t
  listed : ∀ cut ∈ c.cuts platform s vis,
    cut.toJson ∈ listedCuts (callTool platform s vis c).structured
  rendered : RendersSanitised platform vis c

/-- A call that the tools get right: of a tool that renders last, with arguments and member names
that need no sanitising, short paths and short previews. -/
structure Tame (c : Call) : Prop where
  late : c.late = true
  echoes : ∀ e ∈ c.echoes, Clean e.toList
  names : ∀ payload, c.payload platform s vis = .ok payload → ∀ k ∈ keys payload, Clean k.toList
  paths : ∀ payload, c.payload platform s vis = .ok payload → ∀ place ∈ located "" payload,
    c.maxChars < (sanitize place.2).length → WithinBudget c.maxChars (shownPath place.1)
  previews : ∀ preview ∈ c.previews s vis, preview.2.length ≤ previewString

end

/-! ### The tools that render last -/

section
variable {platform : Platform} {s : AppState} {vis : RunVisibility} {c : Call}

/-- The last part of every tool that renders last. -/
theorem budgeted_ok {max : ℕ} {v : Json} {f : Json → List Char}
    (h : (finish ((Budget.new max).apply v).1 ((Budget.new max).apply v).2
      (f ((Budget.new max).apply v).2)).isError = false) :
    finish ((Budget.new max).apply v).1 ((Budget.new max).apply v).2
        (f ((Budget.new max).apply v).2) =
      .ok ((Budget.mk (Budget.new max).maxString (walk (Budget.new max).maxString "" v).2).annotate
          (walk (Budget.new max).maxString "" v).1)
        (f (walk (Budget.new max).maxString "" v).1) := by
  rw [finish_ok h]
  rfl

theorem plain_insertMember {k : String} {v : Json} {ms : List (String × Json)}
    (hk : "_truncated" ≠ k) (h : "_truncated" ∉ names ms) :
    "_truncated" ∉ names (insertMember k v ms) := by
  rw [mem_names_insertMember, not_or]
  exact ⟨hk, h⟩

theorem plain_clampPreviews {fields : List (String × Json)} (h : "_truncated" ∉ names fields) :
    "_truncated" ∉ names (clampPreviews fields) := by
  rw [clampPreviews]
  split
  · exact plain_insertMember (by decide) h
  · exact h

theorem plain_filterCaseRows {wanted : List String} {limit : ℤ} {fields : List (String × Json)}
    (h : "_truncated" ∉ names fields) :
    "_truncated" ∉ names (filterCaseRows wanted limit fields).1 := by
  rw [filterCaseRows]
  split
  · exact plain_insertMember (by decide) h
  · exact h

theorem fields_casePayload {args : GetCaseArgs} {v : Json} (h : casePayload s vis args = .ok v) :
    ∃ fields, v = obj fields ∧ "_truncated" ∉ names fields := by
  unfold casePayload at h
  dsimp only at h
  cases hunknown : (args.fields.getD []).find? fun f => f ∉ optionalFields with
  | some unknown =>
    rw [hunknown] at h
    cases h
  | none =>
    rw [hunknown] at h
    cases hdetail : orInternal "loading case" (s.getCase args.runId args.caseKey vis) with
    | error message =>
      rw [hdetail] at h
      cases h
    | ok detail =>
      rw [hdetail] at h
      cases detail with
      | none => cases h
      | some detail =>
        cases h
        exact ⟨_, rfl, by simp [names]⟩

theorem fields_comparePayload {args : CompareRunsArgs} {v : Json}
    (h : comparePayload s vis args = .ok v) :
    ∃ fields, v = obj fields ∧ "_truncated" ∉ names fields := by
  unfold comparePayload at h
  cases hwanted : wantedDeltas args with
  | error message =>
    rw [hwanted] at h
    cases h
  | ok wanted =>
    rw [hwanted] at h
    cases hcompare : orInternal "comparing runs"
        (s.compareRuns args.baseRunId args.headRunId vis) with
    | error message =>
      simp only [hcompare] at h
      cases h
    | ok compare =>
      simp only [hcompare] at h
      cases compare with
      | none => cases h
      | some compare =>
        cases h
        exact ⟨_, rfl, plain_insertMember (by decide) (plain_insertMember (by decide)
          (plain_filterCaseRows compare.plain))⟩

theorem fields_searchPayload {args : SearchArgs} {v : Json}
    (h : searchPayload platform s vis args = .ok v) :
    ∃ fields, v = obj fields ∧ "_truncated" ∉ names fields := by
  unfold searchPayload at h
  by_cases hblank : isBlank args.q = true
  · rw [if_pos hblank] at h
    cases h
  · rw [if_neg hblank] at h
    cases hresults : s.search args.q (clampLimit args.limit 10 25) vis args.cached with
    | error message =>
      simp only [hresults] at h
      cases h
    | ok results =>
      simp only [hresults] at h
      cases h
      exact ⟨_, rfl, plain_insertMember (by decide) results.plain⟩

theorem fields_serverPayload {args : GetServerInfoArgs} {v : Json}
    (h : serverPayload s args = .ok v) :
    ∃ fields, v = obj fields ∧ "_truncated" ∉ names fields := by
  unfold serverPayload at h
  cases hserver : orInternal "reading server metadata" s.metaView with
  | error message =>
    rw [hserver] at h
    cases h
  | ok server =>
    rw [hserver] at h
    by_cases hcache : ServerInclude.cache ∈ args.include.getD []
    · cases hstats : orInternal "reading cache stats" s.cacheStats with
      | error message =>
        simp only [hcache, if_true, hstats] at h
        cases h
      | ok stats =>
        simp only [hcache, if_true, hstats] at h
        cases h
        exact ⟨_, rfl, by simp [names]⟩
    · simp only [hcache, if_false] at h
      cases h
      exact ⟨_, rfl, by simp [names]⟩

/-- **Six of the eight tools render last**: what goes out is the payload after the pass, with what
was cut, and a text made of the payload after the pass. -/
theorem run_late (hlate : c.late = true) (hok : (c.run platform s vis).isError = false) :
    ∃ fields, c.payload platform s vis = .ok (obj fields) ∧ "_truncated" ∉ names fields ∧
      c.run platform s vis = .ok
        ((Budget.mk c.maxChars (walk c.maxChars "" (obj fields)).2).annotate
          (walk c.maxChars "" (obj fields)).1)
        (c.render platform (walk c.maxChars "" (obj fields)).1) := by
  -- an error of the payload would be the answer; what is left of each tool goes through its budget
  cases c with
  | findRuns args => cases hlate
  | getRun args => cases hlate
  | listCases args =>
    rw [Call.run, Mcp.listCases] at hok ⊢
    rw [Call.payload]
    cases hpage : casesPage s vis args with
    | error message =>
      rw [hpage] at hok
      cases hok
    | ok page =>
      rw [hpage] at hok
      exact ⟨_, rfl, plain_insertMember (by decide) (plain_clampPreviews page.plain),
        budgeted_ok (f := fun v => casesTable (index v "cases") args.runId) hok⟩
  | getCase args =>
    rw [Call.run, Mcp.getCase] at hok ⊢
    rw [Call.payload]
    cases hpayload : casePayload s vis args with
    | error message =>
      rw [hpayload] at hok
      cases hok
    | ok payload =>
      rw [hpayload] at hok
      obtain ⟨fields, rfl, hplain⟩ := fields_casePayload hpayload
      exact ⟨fields, rfl, hplain,
        budgeted_ok (f := fun v => caseDetail (index v "case") args.caseKey) hok⟩
  | caseHistory args =>
    rw [Call.run, Mcp.caseHistory] at hok ⊢
    rw [Call.payload]
    cases hhistory : historyPayload s vis args with
    | error message =>
      rw [hhistory] at hok
      cases hok
    | ok history =>
      rw [hhistory] at hok
      exact ⟨_, rfl, history.plain, budgeted_ok (f := fun v => historyTable
        (((getMember v "points").or (getMember v "history")).getD null) args.caseKey) hok⟩
  | compareRuns args =>
    rw [Call.run, Mcp.compareRuns] at hok ⊢
    rw [Call.payload]
    cases hpayload : comparePayload s vis args with
    | error message =>
      rw [hpayload] at hok
      cases hok
    | ok payload =>
      rw [hpayload] at hok
      obtain ⟨fields, rfl, hplain⟩ := fields_comparePayload hpayload
      exact ⟨fields, rfl, hplain, budgeted_ok (f := fun v => compareTable args.baseRunId
        args.headRunId (index v "cases") (index v "summary")) hok⟩
  | search args =>
    rw [Call.run, Mcp.search] at hok ⊢
    rw [Call.payload]
    cases hpayload : searchPayload platform s vis args with
    | error message =>
      rw [hpayload] at hok
      cases hok
    | ok payload =>
      rw [hpayload] at hok
      obtain ⟨fields, rfl, hplain⟩ := fields_searchPayload hpayload
      exact ⟨fields, rfl, hplain,
        budgeted_ok (f := fun v => searchText platform.printable v args.q) hok⟩
  | getServerInfo args =>
    rw [Call.run, Mcp.getServerInfo] at hok ⊢
    rw [Call.payload]
    cases hpayload : serverPayload s args with
    | error message =>
      rw [hpayload] at hok
      cases hok
    | ok payload =>
      rw [hpayload] at hok
      obtain ⟨fields, rfl, hplain⟩ := fields_serverPayload hpayload
      exact ⟨fields, rfl, hplain, budgeted_ok (f := jsonBlock) hok⟩

/-- A late tool's text is clean exactly when the arguments that it repeats are. -/
theorem clean_render (hlate : c.late = true) {v : Json} (hv : CleanDoc v) :
    Clean (c.render platform v) ↔ ∀ e ∈ c.echoes, Clean e.toList := by
  cases c with
  | findRuns args => cases hlate
  | getRun args => cases hlate
  | listCases args =>
    rw [Call.render, Call.echoes, List.forall_mem_singleton]
    exact clean_casesTable (cleanDoc_index hv _)
  | getCase args =>
    rw [Call.render, Call.echoes, List.forall_mem_singleton]
    exact clean_caseDetail (cleanDoc_index hv _)
  | caseHistory args =>
    rw [Call.render, Call.echoes, List.forall_mem_singleton]
    refine clean_historyTable ?_
    cases hpoints : getMember v "points" with
    | some points => exact hv.member hpoints
    | none => exact cleanDoc_index hv "history"
  | compareRuns args =>
    rw [Call.render, Call.echoes, List.forall_mem_cons, List.forall_mem_singleton]
    exact clean_compareTable (cleanDoc_index hv _) (cleanDoc_index hv _)
  | search args =>
    rw [Call.render, Call.echoes, List.forall_mem_singleton]
    exact clean_searchText hv
  | getServerInfo args =>
    exact iff_of_true (clean_jsonBlock hv) (fun _ he => absurd he List.not_mem_nil)

/-- The ceiling on the whole result lets a result through as it is, or replaces it by an error. -/
theorem callTool_ok (hok : (callTool platform s vis c).isError = false) :
    callTool platform s vis c = c.run platform s vis ∧ (c.run platform s vis).isError = false := by
  rw [callTool] at hok ⊢
  split_ifs at hok ⊢
  · exact ⟨rfl, hok⟩
  · cases hok

/-- A clamped preview is recorded with its own limit, which the pass never uses. -/
theorem previewCut_not_listed {preview : ℕ × String} {cut : Cut} {path : String} {v : Json}
    (hcut : previewCut preview = some cut) {max : ℕ} (hmax : max ≠ previewString) :
    cut.toJson ∉ (walk max path v).2.map Cut.toJson := by
  intro hmem
  obtain ⟨total, -, rfl⟩ := Option.map_eq_some_iff.mp hcut
  obtain ⟨other, hother, heq⟩ := List.mem_map.mp hmem
  rw [cuts_walk] at hother
  obtain ⟨place, -, hplace⟩ := List.mem_filterMap.mp hother
  obtain ⟨total', -, rfl⟩ := Option.map_eq_some_iff.mp hplace
  simp only [Cut.toJson, nat, obj.injEq, List.cons.injEq, Prod.mk.injEq, true_and, num.injEq,
    JsonNumber.posInt.injEq] at heq
  exact hmax heq.2.1

/-- Only `list_cases` clamps previews, and its pass has another limit. -/
theorem maxChars_ne_of_preview {preview : ℕ × String} (h : preview ∈ c.previews s vis) :
    c.maxChars ≠ previewString := by
  cases c with
  | listCases args => exact (by decide : (Budget.new maxString).maxString ≠ previewString)
  | _ => exact absurd h List.not_mem_nil

theorem previewCut_eq_none {preview : ℕ × String} :
    previewCut preview = none ↔ preview.2.length ≤ previewString := by
  rw [previewCut, truncate]
  split_ifs with h <;> simp [h]

theorem mem_cuts_of_payload {payload : Json} (hpayload : c.payload platform s vis = .ok payload)
    (cut : Cut) : cut ∈ c.cuts platform s vis ↔
      (∃ preview ∈ c.previews s vis, previewCut preview = some cut) ∨
        cut ∈ (walk c.maxChars "" payload).2 := by
  rw [Call.cuts, hpayload, List.mem_append, List.mem_filterMap]

/-- What a late call sends: its text is rendered from the payload after the pass, and its document
is that payload with the cuts. -/
theorem callTool_late (hlate : c.late = true) (hok : (callTool platform s vis c).isError = false) :
    ∃ fields, c.payload platform s vis = .ok (obj fields) ∧
      "_truncated" ∉ names (walkMembers c.maxChars "" fields).1 ∧
      (callTool platform s vis c).text =
        c.render platform (obj (walkMembers c.maxChars "" fields).1) ∧
      (callTool platform s vis c).structured =
        (Budget.mk c.maxChars (walk c.maxChars "" (obj fields)).2).annotate
          (obj (walkMembers c.maxChars "" fields).1) := by
  obtain ⟨hcall, hrun⟩ := callTool_ok hok
  obtain ⟨fields, hpayload, hplain, hresult⟩ := run_late hlate hrun
  have hwalk : (walk c.maxChars "" (obj fields)).1 =
      obj (walkMembers c.maxChars "" fields).1 := by rw [walk]
  rw [hwalk] at hresult
  refine ⟨fields, hpayload, ?_, ?_, ?_⟩
  · rw [names_walkMembers]
    exact hplain
  · rw [hcall, hresult]
    rfl
  · rw [hcall, hresult]
    rfl

theorem keys_pass {max : ℕ} {fields : List (String × Json)} :
    keys (obj (walkMembers max "" fields).1) = keys (obj fields) := by
  have h : keys (walk max "" (obj fields)).1 = keys (obj fields) := keys_walk _ _
  rwa [walk] at h

theorem strings_pass {max : ℕ} {fields : List (String × Json)} :
    strings (obj (walkMembers max "" fields).1) = (strings (obj fields)).map (shownAs max) := by
  have h : strings (walk max "" (obj fields)).1 = (strings (obj fields)).map (shownAs max) :=
    strings_walk _ _
  rwa [walk] at h

theorem clean_pass {max : ℕ} {fields : List (String × Json)}
    (h : ∀ k ∈ keys (obj fields), Clean k.toList) :
    Throughout (Clean ·.toList) (obj (walkMembers max "" fields).1) := by
  have hclean : Throughout (Clean ·.toList) (walk max "" (obj fields)).1 := clean_walk h
  rwa [walk] at hclean

theorem tame_of_sanitised (hlate : c.late = true)
    (hok : (callTool platform s vis c).isError = false) (h : Sanitised platform s vis c) :
    Tame platform s vis c := by
  obtain ⟨fields, hpayload, hplain, htext, hstructured⟩ := callTool_late hlate hok
  have hnames : ∀ k ∈ keys (obj fields), Clean k.toList := by
    have hcontent := h.content.keys
    rw [hstructured, clean_keys_annotate hplain, keys_pass] at hcontent
    exact hcontent
  refine ⟨hlate, ?_, ?_, ?_, ?_⟩
  · have hshown := h.text
    rw [htext, clean_render hlate (clean_pass hnames)] at hshown
    exact hshown
  · intro payload hother
    obtain rfl := Except.ok.inj (hpayload.symm.trans hother)
    exact hnames
  · intro payload hother place hplace hlong
    obtain rfl := Except.ok.inj (hpayload.symm.trans hother)
    -- the path of a cut is a string of the result
    refine h.budgeted _ ?_
    rw [hstructured, strings_annotate hplain]
    have hcut := mem_cuts_walk.mpr ⟨place, hplace, hlong, rfl⟩
    exact List.mem_append_right _ (List.mem_map_of_mem (f := Cut.path) hcut)
  · intro preview hpreview
    by_contra hlong
    obtain ⟨cut, hcut⟩ : ∃ cut, previewCut preview = some cut :=
      Option.ne_none_iff_exists'.mp fun hnone => hlong (previewCut_eq_none.mp hnone)
    have hlisted := h.listed cut
      ((mem_cuts_of_payload hpayload cut).mpr (.inl ⟨preview, hpreview, hcut⟩))
    rw [hstructured, listedCuts_annotate hplain] at hlisted
    exact previewCut_not_listed hcut (maxChars_ne_of_preview hpreview) hlisted

theorem sanitised_of_tame (hok : (callTool platform s vis c).isError = false)
    (h : Tame platform s vis c) : Sanitised platform s vis c := by
  obtain ⟨fields, hpayload, hplain, htext, hstructured⟩ := callTool_late h.late hok
  have hnames := h.names _ hpayload
  have hdoc : Throughout (Clean ·.toList) (obj (walkMembers c.maxChars "" fields).1) :=
    clean_pass hnames
  refine ⟨?_, ⟨?_, ?_⟩, ?_, ?_, ?_⟩
  · rw [htext, clean_render h.late hdoc]
    exact h.echoes
  · rw [hstructured, clean_keys_annotate hplain, keys_pass]
    exact hnames
  · -- the notice adds the paths of what was cut to the strings of the document
    rw [hstructured, strings_annotate hplain, List.forall_mem_append]
    refine ⟨hdoc.strings, ?_⟩
    intro path hpath
    obtain ⟨cut, hcut, rfl⟩ := List.mem_map.mp hpath
    obtain ⟨place, hplace, -, rfl⟩ := mem_cuts_walk.mp hcut
    exact clean_shownPath (located_clean _ "" (by decide) hnames place hplace)
  · rw [hstructured, strings_annotate hplain, strings_pass, List.forall_mem_append,
      List.forall_mem_map]
    refine ⟨fun raw _ => withinBudget_shownAs _ raw, ?_⟩
    intro path hpath
    obtain ⟨cut, hcut, rfl⟩ := List.mem_map.mp hpath
    obtain ⟨place, hplace, hlong, rfl⟩ := mem_cuts_walk.mp hcut
    exact h.paths _ hpayload place hplace hlong
  · intro cut hcut
    rw [hstructured, listedCuts_annotate hplain]
    obtain ⟨preview, hpreview, hclamped⟩ | hcut := (mem_cuts_of_payload hpayload cut).mp hcut
    · -- no preview is long enough to be clamped
      have hnone := previewCut_eq_none.mpr (h.previews preview hpreview)
      rw [hclamped] at hnone
      cases hnone
    · exact List.mem_map_of_mem hcut
  · refine ⟨c.render platform, fun s' payload hpayload' hok' => ?_⟩
    obtain ⟨fields', hfields, -, hresult⟩ := run_late h.late hok'
    obtain rfl := Except.ok.inj (hpayload'.symm.trans hfields)
    rw [hresult]
    rfl

/-- A late call is sanitised exactly when it is tame. -/
theorem sanitised_iff_of_late (hlate : c.late = true)
    (hok : (callTool platform s vis c).isError = false) :
    Sanitised platform s vis c ↔ Tame platform s vis c :=
  ⟨tame_of_sanitised hlate hok, sanitised_of_tame hok⟩

end

/-! ### The tools that render first -/

/-- A server whose every run and project has the one name. -/
def answering (name : String) : AppState where
  listRuns _ := .ok ⟨[obj [("id", str name)]], none, none⟩
  listProjects _ := .ok ⟨[("projects", arr [obj [("project", str name)]])], by simp [names]⟩
  listSuites _ _ := .ok ⟨[("suites", arr [obj [("suite", str name)]])], by simp [names]⟩
  getRun _ _ := .ok (some (obj [("id", str name)]))
  runMatrix _ := .ok null
  getRunConfig _ _ := .ok none
  runExists _ _ := .error ""
  listCases _ := .error ""
  getCase _ _ _ := .error ""
  caseHistory _ _ _ _ _ := .error ""
  compareRuns _ _ _ := .error ""
  search _ _ _ _ := .error ""
  metaView := .error ""
  cacheStats := .error ""

/-- A name that the pass makes `a` of. -/
def rung : String := "a\x07"

section
variable {platform : Platform} {s : AppState} {vis : RunVisibility} {c : Call}

/-- Two servers that differ in what the pass removes, and two different texts. -/
theorem not_rendersSanitised_of_apart {p q : Json} {a b : AppState}
    (hp : c.payload platform a vis = .ok p) (hq : c.payload platform b vis = .ok q)
    (ha : (c.run platform a vis).isError = false) (hb : (c.run platform b vis).isError = false)
    (hsame : (walk c.maxChars "" p).1 = (walk c.maxChars "" q).1)
    (hapart : (c.run platform a vis).text ≠ (c.run platform b vis).text) :
    ¬ RendersSanitised platform vis c := by
  rintro ⟨render, hrender⟩
  refine hapart ?_
  rw [hrender a p hp ha, hrender b q hq hb, hsame]

/-- A listing that fits goes out with its text. -/
theorem finish_of_fits {v : Json} (h : fits (((Budget.new maxString).apply v).1.annotate
      ((Budget.new maxString).apply v).2) = true) (text : List Char) :
    finish ((Budget.new maxString).apply v).1 ((Budget.new maxString).apply v).2 text =
      .ok (((Budget.new maxString).apply v).1.annotate ((Budget.new maxString).apply v).2) text := by
  rw [finish, if_pos h]

/-- Two documents that fit, that the pass makes the same of, and that render differently. -/
theorem not_rendersSanitised_of_finish {p q : Json} {a b : AppState} {f : Json → List Char}
    (hmax : c.maxChars = (Budget.new maxString).maxString)
    (hp : c.payload platform a vis = .ok p) (hq : c.payload platform b vis = .ok q)
    (ha : c.run platform a vis = finish ((Budget.new maxString).apply p).1
      ((Budget.new maxString).apply p).2 (f p))
    (hb : c.run platform b vis = finish ((Budget.new maxString).apply q).1
      ((Budget.new maxString).apply q).2 (f q))
    (hfits : fits (((Budget.new maxString).apply p).1.annotate
      ((Budget.new maxString).apply p).2) = true)
    (hfits' : fits (((Budget.new maxString).apply q).1.annotate
      ((Budget.new maxString).apply q).2) = true)
    (hsame : (walk (Budget.new maxString).maxString "" p).1 =
      (walk (Budget.new maxString).maxString "" q).1)
    (hapart : f p ≠ f q) : ¬ RendersSanitised platform vis c := by
  rw [finish_of_fits hfits] at ha
  rw [finish_of_fits hfits'] at hb
  refine not_rendersSanitised_of_apart hp hq ?_ ?_ ?_ ?_
  · rw [ha]
    rfl
  · rw [hb]
    rfl
  · rw [hmax, hsame]
  · rw [ha, hb]
    exact hapart

theorem not_rendersSanitised_listing {args : FindRunsArgs} (hgroup : args.groupBy = none)
    {filter : RunListFilter} (hfilter : listingFilter platform vis args = .ok filter) :
    ¬ RendersSanitised platform vis (.findRuns args) := by
  have hlisting : ∀ name, listingPayload platform (answering name) vis args =
      .ok (RunListResponse.toJson ⟨[obj [("id", str name)]], none, none⟩) := by
    intro name
    rw [listingPayload, hfilter]
    rfl
  have hpayload : ∀ name, (Call.findRuns args).payload platform (answering name) vis =
      .ok (RunListResponse.toJson ⟨[obj [("id", str name)]], none, none⟩) := by
    intro name
    rw [Call.payload, hgroup]
    exact hlisting name
  refine not_rendersSanitised_of_finish (f := fun v => runsTable (index v "runs")) rfl
    (hpayload rung) (hpayload "a") ?_ ?_ (by decide +kernel) (by decide +kernel) rfl
    (by decide +kernel)
  all_goals
    rw [Call.run, findRuns, hgroup]
    dsimp only
    rw [hlisting]
    rfl

theorem not_rendersSanitised_projects {args : FindRunsArgs}
    (hgroup : args.groupBy = some .project) :
    ¬ RendersSanitised platform vis (.findRuns args) := by
  have hpayload : ∀ name, (Call.findRuns args).payload platform (answering name) vis =
      .ok (obj [("projects", arr [obj [("project", str name)]])]) := by
    intro name
    rw [Call.payload, hgroup]
    rfl
  have hrun : ∀ name, (Call.findRuns args).run platform (answering name) vis =
      .ok (obj [("projects", arr [obj [("project", str name)]])])
        (projectsTable (arr [obj [("project", str name)]])) := by
    intro name
    rw [Call.run, findRuns, hgroup]
    rfl
  refine not_rendersSanitised_of_apart (hpayload rung) (hpayload "a") ?_ ?_ rfl ?_
  · rw [hrun]
    rfl
  · rw [hrun]
    rfl
  · rw [hrun, hrun]
    exact (by decide +kernel : projectsTable (arr [obj [("project", str rung)]]) ≠
      projectsTable (arr [obj [("project", str "a")]]))

theorem not_rendersSanitised_suites {args : FindRunsArgs} (hgroup : args.groupBy = some .suite)
    {project : String} (hproject : args.project = some project) :
    ¬ RendersSanitised platform vis (.findRuns args) := by
  have hpayload : ∀ name, (Call.findRuns args).payload platform (answering name) vis =
      .ok (obj [("suites", arr [obj [("suite", str name)]])]) := by
    intro name
    rw [Call.payload, hgroup]
    dsimp only
    rw [hproject]
    rfl
  have hrun : ∀ name, (Call.findRuns args).run platform (answering name) vis =
      .ok (obj [("suites", arr [obj [("suite", str name)]])])
        (suitesTable project (arr [obj [("suite", str name)]])) := by
    intro name
    rw [Call.run, findRuns, hgroup]
    dsimp only
    rw [hproject]
    rfl
  refine not_rendersSanitised_of_apart (hpayload rung) (hpayload "a") ?_ ?_ rfl ?_
  · rw [hrun]
    rfl
  · rw [hrun]
    rfl
  · -- the heading repeats the project, so the texts differ in the tables
    rw [hrun, hrun]
    intro heq
    have htable := List.append_cancel_left heq
    exact absurd htable (by decide +kernel)

/-- `find_runs`, in each of its three forms. -/
theorem not_rendersSanitised_findRuns {args : FindRunsArgs}
    (hok : (findRuns platform s vis args).isError = false) :
    ¬ RendersSanitised platform vis (.findRuns args) := by
  cases hgroup : args.groupBy with
  | none =>
    cases hfilter : listingFilter platform vis args with
    | error message =>
      have herror : findRuns platform s vis args = .error message := by
        rw [findRuns, hgroup]
        dsimp only
        rw [listingPayload, hfilter]
        rfl
      rw [herror] at hok
      cases hok
    | ok filter => exact not_rendersSanitised_listing hgroup hfilter
  | some group =>
    cases group with
    | project => exact not_rendersSanitised_projects hgroup
    | suite =>
      cases hproject : args.project with
      | none =>
        rw [findRuns, hgroup] at hok
        dsimp only at hok
        rw [hproject] at hok
        cases hok
      | some project => exact not_rendersSanitised_suites hgroup hproject

/-- The document that `get_run` assembles of a run that has only its name. -/
def bareRunDoc (name : String) (matrix config : Bool) : Json :=
  obj (("run", obj [("id", str name)]) :: (if matrix then [("matrix", null)] else []) ++
    if config then [("config", null)] else [])

/-- `get_run`, whatever sections it is asked for. -/
theorem not_rendersSanitised_getRun (args : GetRunArgs) :
    ¬ RendersSanitised platform vis (.getRun args) := by
  have hpayload : ∀ name, runPayload (answering name) vis args =
      .ok (bareRunDoc name (.matrix ∈ args.include.getD []) (.config ∈ args.include.getD [])) := by
    intro name
    by_cases hmatrix : RunInclude.matrix ∈ args.include.getD [] <;>
      by_cases hconfig : RunInclude.config ∈ args.include.getD [] <;>
      simp only [runPayload, bareRunDoc, hmatrix, hconfig, if_true, if_false, decide_true,
        decide_false, Bool.false_eq_true] <;> rfl
  have hapart : ∀ matrix config, runSummary (bareRunDoc rung matrix config) ≠
      runSummary (bareRunDoc "a" matrix config) := by decide +kernel
  have hfits : ∀ name ∈ [rung, "a"], ∀ matrix config,
      fits (((Budget.new maxString).apply (bareRunDoc name matrix config)).1.annotate
        ((Budget.new maxString).apply (bareRunDoc name matrix config)).2) = true := by
    decide +kernel
  have hsame : ∀ matrix config,
      (walk (Budget.new maxString).maxString "" (bareRunDoc rung matrix config)).1 =
        (walk (Budget.new maxString).maxString "" (bareRunDoc "a" matrix config)).1 := by
    intro matrix config
    cases matrix <;> cases config <;> rfl
  refine not_rendersSanitised_of_finish (f := runSummary) rfl (hpayload rung) (hpayload "a")
    ?_ ?_ (hfits _ (by simp) _ _) (hfits _ (by simp) _ _) (hsame _ _) (hapart _ _)
  all_goals
    rw [Call.run, Mcp.getRun, hpayload]
    rfl

/-- **Two of the eight tools render first**: what the pass removes reaches their text. -/
theorem not_rendersSanitised_of_early (hlate : c.late = false)
    (hok : (c.run platform s vis).isError = false) : ¬ RendersSanitised platform vis c := by
  cases c with
  | findRuns args => exact not_rendersSanitised_findRuns hok
  | getRun args => exact not_rendersSanitised_getRun args
  | _ => cases hlate

/-- **Exactly the tame calls are sanitised.** -/
theorem sanitised_exactly (platform : Platform) (s : AppState) (vis : RunVisibility) (c : Call)
    (hok : (callTool platform s vis c).isError = false) :
    Sanitised platform s vis c ↔ Tame platform s vis c := by
  cases hlate : c.late with
  | true => exact sanitised_iff_of_late hlate hok
  | false =>
    refine iff_of_false (fun h => ?_) fun h => ?_
    · exact not_rendersSanitised_of_early hlate (callTool_ok hok).2 h.rendered
    · rw [h.late] at hlate
      cases hlate

end

/-- A platform that knows no timestamps and writes every character as it is. -/
def plainPlatform : Platform := ⟨fun _ => none, fun _ => true⟩

/-- A server that only tells its version. -/
def versionOnly : AppState := { answering "a" with metaView := .ok (obj [("version", str "1")]) }

theorem server_info_sanitised :
    Sanitised plainPlatform versionOnly .full (.getServerInfo ⟨none⟩) := by
  refine (sanitised_exactly _ _ _ _ (by decide +kernel)).mpr ?_
  have hpayload : (Call.getServerInfo ⟨none⟩).payload plainPlatform versionOnly .full =
      .ok (obj [("server", obj [("version", str "1")])]) := rfl
  refine ⟨rfl, fun _ he => absurd he List.not_mem_nil, ?_, ?_, fun _ h => absurd h List.not_mem_nil⟩
  · intro payload h
    obtain rfl := Except.ok.inj (hpayload.symm.trans h)
    decide +kernel
  · intro payload h place hplace hlong
    obtain rfl := Except.ok.inj (hpayload.symm.trans h)
    have hshort : ∀ place ∈ located "" (obj [("server", obj [("version", str "1")])]),
        (sanitize place.2).length ≤ 2000 := by decide +kernel
    exact absurd hlong (Nat.not_lt.mpr (hshort place hplace))

/-- The catalog of projects, asked for without any filter. -/
def catalogCall : Call :=
  .findRuns ⟨none, none, none, none, none, none, none, none, none, none, none, none, some .project⟩

/-- **A project's name reaches the agent as it was uploaded**, bell and all: in the text, and in
the structured content. -/
theorem catalog_is_raw :
    (callTool plainPlatform (answering rung) .full catalogCall).isError = false ∧
      ¬ Clean (callTool plainPlatform (answering rung) .full catalogCall).text ∧
      ¬ CleanDoc (callTool plainPlatform (answering rung) .full catalogCall).structured ∧
      ¬ Sanitised plainPlatform (answering rung) .full catalogCall := by
  have htext : ¬ Clean (callTool plainPlatform (answering rung) .full catalogCall).text := by
    decide +kernel
  refine ⟨by decide +kernel, htext, fun h => ?_, fun h => htext h.text⟩
  have hname : Clean rung.toList := by
    refine h.strings rung ?_
    decide +kernel
  revert hname
  decide +kernel

end Mcp
