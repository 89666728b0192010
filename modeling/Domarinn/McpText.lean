/-
Text renderings of tool results: tables, indented JSON, and the fence around stored output.

* **`clean_pretty`**, **`clean_table`** — the text of a document whose names and strings are clean
  is clean;
* **`clean_casesTable`** and its siblings — each tool's text is clean exactly when, besides, the
  arguments that it repeats are.
-/
import Domarinn.McpBudget
import Domarinn.Numerals
import Mathlib.Data.List.DropRight

open Json

/-- Every name and string of the document is clean. -/
abbrev CleanDoc (v : Json) : Prop := Throughout (Clean ·.toList) v

/-- `v[k]`: a missing member reads as null. -/
def index (v : Json) (k : String) : Json := (getMember v k).getD null

theorem cleanDoc_index {v : Json} (h : CleanDoc v) (k : String) : CleanDoc (index v k) := by
  rw [index]
  cases hv : getMember v k with
  | none => exact throughout_null
  | some w => exact h.member hv

/-! ### Tables -/

structure Column where
  header : String
  key : String

/-- `scalar`: a value as a cell. -/
def scalar : Json → List Char
  | .null => ['-']
  | .str s => s.toList
  | .bool b => (toString b).toList
  | .num n => renderNumber n
  | .arr items => Nat.toDigits 10 items.length
  | .obj _ => "\x7b…\x7d".toList

/-- `push_row`: every cell but the last is filled up to its column's width. -/
def pushRow : List ℕ → List (List Char) → List Char
  | _, [] => ['\n']
  | _, [cell] => cell ++ ['\n']
  | widths, cell :: cells =>
    cell ++ List.replicate (widths.headD 0 - cell.length + 2) ' ' ++ pushRow widths.tail cells

/-- `table`. -/
def table (rows : Json) (columns : List Column) : List Char :=
  match rows with
  | arr (row :: rest) =>
    let cells := (row :: rest).map fun row => columns.map fun c => scalar (index row c.key)
    let widths := columns.map fun c =>
      ((row :: rest).map fun row => (scalar (index row c.key)).length).foldl max c.header.length
    (pushRow widths (columns.map fun c => c.header.toList) ++
      cells.flatMap (pushRow widths)).rdropWhile isWhitespace
  | _ => "(no rows)".toList

/-! ### Indented JSON -/

/-- A new line, indented. -/
def newline (depth : ℕ) : List Char := '\n' :: List.replicate (2 * depth) ' '

mutual

/-- `to_string_pretty`, inside `depth` brackets. -/
def pretty (depth : ℕ) : Json → List Char
  | arr [] => ['[', ']']
  | arr (x :: xs) => '[' :: (prettyItems (depth + 1) true (x :: xs) ++ newline depth ++ [']'])
  | obj [] => ['{', '}']
  | obj (m :: ms) => '{' :: (prettyMembers (depth + 1) true (m :: ms) ++ newline depth ++ ['}'])
  | .null => render .null
  | .bool b => render (.bool b)
  | .num n => render (.num n)
  | .str s => render (.str s)

def prettyItems (depth : ℕ) : Bool → List Json → List Char
  | _, [] => []
  | first, x :: xs =>
    (if first then [] else [',']) ++ newline depth ++ pretty depth x ++ prettyItems depth false xs

def prettyMembers (depth : ℕ) : Bool → List (String × Json) → List Char
  | _, [] => []
  | first, (k, v) :: ms =>
    (if first then [] else [',']) ++ newline depth ++ renderString k ++ ':' :: ' ' ::
      pretty depth v ++ prettyMembers depth false ms

end

/-- `json_block`. -/
def jsonBlock (v : Json) : List Char := pretty 0 v

/-! ### The fence -/

/-- `text.replace("</untrusted", …)`: the text that is replaced begins with the only `<` it has,
so it never overlaps itself, and what replaces it differs by one invisible character. -/
def neutralize : List Char → List Char
  | [] => []
  | c :: rest =>
    if c = '<' ∧ "/untrusted".toList.isPrefixOf rest then
      c :: Char.ofNat 0x200B :: neutralize rest
    else c :: neutralize rest

/-- `fence`. -/
def fence (text : List Char) (source : String) (subject : List Char) : List Char :=
  ["<untrusted source=\"".toList, source.toList, "\" subject=\"".toList, subject, "\">\n".toList,
    neutralize text, "\n</untrusted>".toList].flatten

example : fence "a </untrusted> b".toList "s" "c".toList =
    "<untrusted source=\"s\" subject=\"c\">\na <\u200b/untrusted> b\n</untrusted>".toList := by decide

/-! ### The tools' texts -/

/-- `runs_table`. -/
def runsTable (runs : Json) : List Char :=
  "runs (newest first)\n".toList ++ table runs
    [⟨"id", "id"⟩, ⟨"project", "project"⟩, ⟨"suite", "suite"⟩, ⟨"pass", "pass_count"⟩,
      ⟨"fail", "fail_count"⟩, ⟨"err", "error_count"⟩, ⟨"rate", "pass_rate"⟩,
      ⟨"branch", "git_branch"⟩, ⟨"created_at", "created_at"⟩]

/-- `projects_table`. -/
def projectsTable (projects : Json) : List Char :=
  "projects\n".toList ++ table projects
    [⟨"project", "project"⟩, ⟨"runs", "run_count"⟩, ⟨"suites", "suite_count"⟩,
      ⟨"last_run_at", "last_run_at"⟩]

/-- `suites_table`. -/
def suitesTable (project : String) (suites : Json) : List Char :=
  "suites in project '".toList ++ project.toList ++ "'\n".toList ++ table suites
    [⟨"suite", "suite"⟩, ⟨"runs", "run_count"⟩, ⟨"last_run_at", "last_run_at"⟩]

/-- `run_summary`. -/
def runSummary (structured : Json) : List Char := jsonBlock structured

/-- `EFFECTIVE_ANSWERER`. -/
def effectiveAnswerer : String := "__answered_by_effective"

/-- The answerer that a case row shows: the one that stood in, else the configured one. -/
def effectiveOf (row : Json) : Json :=
  match index row "answered_by_provider_id" with
  | str s => if s.isEmpty then index row "provider_id" else str s
  | _ => index row "provider_id"

/-- `with_effective_answerer`. -/
def withEffectiveAnswerer : Json → Json
  | arr rows => arr (rows.map fun row => match row with
    | obj members => obj (insertMember effectiveAnswerer (effectiveOf row) members)
    | row => row)
  | cases => cases

/-- `cases_table`. -/
def casesTable (cases : Json) (runId : String) : List Char :=
  let body := table (withEffectiveAnswerer cases)
    [⟨"case_key", "case_key"⟩, ⟨"status", "status"⟩, ⟨"score", "score"⟩,
      ⟨"provider", "provider_id"⟩, ⟨"prompt", "prompt_id"⟩, ⟨"test", "test_id"⟩,
      ⟨"stop", "stop_reason"⟩, ⟨"empty", "empty_reason"⟩, ⟨"answered_by", effectiveAnswerer⟩,
      ⟨"preview", "output_preview"⟩]
  ["cases in run ".toList, runId.toList, ['\n'], fence body "stored_model_output" runId.toList,
    "\n\n".toList, untrustedWarning.toList].flatten

/-- `case_detail`. -/
def caseDetail (detail : Json) (caseKey : String) : List Char :=
  [fence (jsonBlock detail) "stored_model_output" caseKey.toList, "\n\n".toList,
    untrustedWarning.toList].flatten

/-- `history_table`. -/
def historyTable (points : Json) (caseKey : String) : List Char :=
  let body := table points
    [⟨"run_id", "run_id"⟩, ⟨"status", "status"⟩, ⟨"score", "score"⟩, ⟨"created_at", "created_at"⟩]
  ["history for case ".toList, caseKey.toList, " (newest first)\n".toList, body].flatten

/-- `compare_table`. -/
def compareTable (base head : String) (rows summary : Json) : List Char :=
  let body := table rows
    [⟨"case_key", "case_key"⟩, ⟨"delta", "delta"⟩, ⟨"base", "base_status"⟩,
      ⟨"head", "head_status"⟩, ⟨"score_delta", "score_delta"⟩, ⟨"change", "change"⟩]
  ["compare ".toList, base.toList, " -> ".toList, head.toList, "\nsummary: ".toList,
    jsonBlock summary, "\n\n".toList, body].flatten

/-- One character of `{query:?}`, where `printable` tells which characters stand for themselves. -/
def debugChar (printable : Char → Bool) (c : Char) : List Char :=
  if c = Char.ofNat 0 then ['\\', '0']
  else if c = '\t' then ['\\', 't']
  else if c = '\r' then ['\\', 'r']
  else if c = '\n' then ['\\', 'n']
  else if c = '"' ∨ c = '\\' then ['\\', c]
  else if printable c then [c]
  else '\\' :: 'u' :: '{' :: (Nat.toDigits 16 c.toNat ++ ['}'])

/-- `search_text`. -/
def searchText (printable : Char → Bool) (structured : Json) (query : String) : List Char :=
  ["search results for \"".toList, query.toList.flatMap (debugChar printable), "\"\n".toList,
    fence (jsonBlock structured) "stored_model_output" query.toList, "\n\n".toList,
    untrustedWarning.toList].flatten

/-! ### Clean text -/

section
variable {a : List Char} {lists : List (List Char)}

theorem clean_flatten : Clean lists.flatten ↔ ∀ text ∈ lists, Clean text := by
  constructor
  · intro h text htext c hc
    exact h c (List.mem_flatten_of_mem htext hc)
  · intro h c hc
    obtain ⟨text, htext, hc⟩ := List.mem_flatten.mp hc
    exact h text htext c hc

theorem clean_flatMap {α : Type} {f : α → List Char} {xs : List α} :
    Clean (xs.flatMap f) ↔ ∀ x ∈ xs, Clean (f x) := by
  rw [List.flatMap, clean_flatten, List.forall_mem_map]

theorem clean_spaces (n : ℕ) : Clean (List.replicate n ' ') := by
  intro c hc
  obtain rfl := List.eq_of_mem_replicate hc
  rfl

theorem clean_renderNumber (n : JsonNumber) : Clean (renderNumber n) := by
  intro c hc
  exact isDirty_numChar (numeric_renderNumber n c hc)

/-- Escapes are written with letters, digits and a backslash. -/
theorem clean_escapeChar {c : Char} (hc : isDirty c = false) : Clean (escapeChar c) := by
  -- a clean character below 32 is a newline or a tab, so the hexadecimal escape is not used
  by_cases hlow : c.toNat < 32
  · have hcontrol : isControl c = true := by simp [isControl, hlow]
    rw [isDirty, hcontrol, Bool.true_and, Bool.or_eq_false_iff, Bool.and_eq_false_iff] at hc
    obtain hn | ht := hc.2
    · obtain rfl : c = '\n' := by simpa using hn
      decide
    · obtain rfl : c = '\t' := by simpa using ht
      decide
  · unfold escapeChar
    split_ifs
    · decide
    · decide
    · decide
    · decide
    · decide
    · decide
    · decide
    · exact clean_cons.mpr ⟨hc, clean_nil⟩

theorem clean_renderString {s : String} (h : Clean s.toList) : Clean (renderString s) := by
  rw [renderString, clean_cons, clean_append, clean_flatMap]
  exact ⟨rfl, fun c hc => clean_escapeChar (h c hc), clean_cons.mpr ⟨rfl, clean_nil⟩⟩

theorem clean_newline (depth : ℕ) : Clean (newline depth) := by
  rw [newline, clean_cons]
  exact ⟨rfl, clean_spaces _⟩

mutual

/-- **Indented JSON of a clean document is clean.** -/
theorem clean_pretty : ∀ (v : Json) (depth : ℕ), CleanDoc v → Clean (pretty depth v)
  | .null, _, _ => by rw [pretty, render]; decide
  | .bool b, _, _ => by cases b <;> rw [pretty, render] <;> decide
  | .num n, _, _ => by
    rw [pretty, render]
    exact clean_renderNumber n
  | .str s, _, h => by
    rw [pretty, render]
    exact clean_renderString (throughout_str s |>.mp h)
  | .arr [], _, _ => by rw [pretty]; decide
  | .arr (x :: xs), depth, h => by
    rw [pretty, clean_cons, clean_append, clean_append]
    exact ⟨rfl, ⟨clean_prettyItems (x :: xs) (depth + 1) true (throughout_arr.mp h),
      clean_newline depth⟩, by decide⟩
  | .obj [], _, _ => by rw [pretty]; decide
  | .obj (m :: ms), depth, h => by
    rw [pretty, clean_cons, clean_append, clean_append]
    exact ⟨rfl, ⟨clean_prettyMembers (m :: ms) (depth + 1) true (throughout_obj.mp h),
      clean_newline depth⟩, by decide⟩

theorem clean_prettyItems : ∀ (xs : List Json) (depth : ℕ) (first : Bool),
    (∀ x ∈ xs, CleanDoc x) → Clean (prettyItems depth first xs)
  | [], _, _, _ => by
    rw [prettyItems]
    exact clean_nil
  | x :: xs, depth, first, h => by
    obtain ⟨hx, hrest⟩ := List.forall_mem_cons.mp h
    rw [prettyItems, clean_append, clean_append, clean_append]
    exact ⟨⟨⟨by cases first <;> decide, clean_newline depth⟩, clean_pretty x depth hx⟩,
      clean_prettyItems xs depth false hrest⟩

theorem clean_prettyMembers : ∀ (ms : List (String × Json)) (depth : ℕ) (first : Bool),
    (∀ m ∈ ms, Clean m.1.toList ∧ CleanDoc m.2) → Clean (prettyMembers depth first ms)
  | [], _, _, _ => by
    rw [prettyMembers]
    exact clean_nil
  | (k, v) :: ms, depth, first, h => by
    obtain ⟨⟨hk, hv⟩, hrest⟩ := List.forall_mem_cons.mp h
    have hcomma : Clean (if first then [] else [',']) := by cases first <;> decide
    have hvalue := clean_pretty v depth hv
    have hmembers := clean_prettyMembers ms depth false hrest
    have hname := clean_renderString hk
    have hnewline := clean_newline depth
    rw [prettyMembers]
    simp only [clean_append, clean_cons]
    exact ⟨⟨⟨⟨hcomma, hnewline⟩, hname⟩, rfl, rfl, hvalue⟩, hmembers⟩

end

theorem clean_jsonBlock {v : Json} (h : CleanDoc v) : Clean (jsonBlock v) := clean_pretty v 0 h

theorem clean_scalar {v : Json} (h : CleanDoc v) : Clean (scalar v) := by
  cases v with
  | null => decide
  | bool b => cases b <;> decide
  | num n => exact clean_renderNumber n
  | str s => exact (throughout_str s).mp h
  | arr items => exact clean_digits _
  | obj members => exact clean_text rfl (by decide)

theorem clean_pushRow : ∀ (cells : List (List Char)) (widths : List ℕ),
    (∀ cell ∈ cells, Clean cell) → Clean (pushRow widths cells)
  | [], widths, _ => by
    rw [pushRow]
    decide
  | [cell], widths, h => by
    rw [pushRow, clean_append]
    exact ⟨h cell List.mem_cons_self, by decide⟩
  | cell :: next :: cells, widths, h => by
    obtain ⟨hcell, hrest⟩ := List.forall_mem_cons.mp h
    rw [pushRow, clean_append, clean_append]
    · exact ⟨⟨hcell, clean_spaces _⟩, clean_pushRow (next :: cells) widths.tail hrest⟩
    · nofun

/-- **A table of clean rows is clean.** -/
theorem clean_table {rows : Json} {columns : List Column} (h : CleanDoc rows)
    (hheaders : ∀ c ∈ columns, Clean c.header.toList) : Clean (table rows columns) := by
  have hnone : Clean "(no rows)".toList := by decide
  unfold table
  split
  case h_2 => exact hnone
  case h_1 row rest =>
    refine Clean.sublist ?_ (List.rdropWhile_prefix _ _).sublist
    rw [clean_append, clean_flatMap]
    constructor
    · refine clean_pushRow _ _ ?_
      rw [List.forall_mem_map]
      exact hheaders
    · rw [List.forall_mem_map]
      intro row hrow
      refine clean_pushRow _ _ ?_
      rw [List.forall_mem_map]
      intro c _
      exact clean_scalar (cleanDoc_index (throughout_arr.mp h row hrow) c.key)

theorem clean_neutralize {text : List Char} (h : Clean text) : Clean (neutralize text) := by
  induction text with
  | nil =>
    rw [neutralize]
    exact clean_nil
  | cons c rest ih =>
    obtain ⟨hc, hrest⟩ := clean_cons.mp h
    rw [neutralize]
    split_ifs
    · exact clean_cons.mpr ⟨hc, clean_cons.mpr ⟨by decide, ih hrest⟩⟩
    · exact clean_cons.mpr ⟨hc, ih hrest⟩

theorem clean_fence {text subject : List Char} (h : Clean text) (hsubject : Clean subject) :
    Clean (fence text "stored_model_output" subject) := by
  have hopen : Clean "<untrusted source=\"".toList := by decide
  have hsource : Clean "stored_model_output".toList := by decide
  have hmiddle : Clean "\" subject=\"".toList := by decide
  have hbody : Clean "\">\n".toList := by decide
  have hclose : Clean "\n</untrusted>".toList := by decide
  unfold fence
  rw [clean_flatten]
  simp only [List.forall_mem_cons, List.not_mem_nil, false_implies, implies_true, and_true]
  exact ⟨hopen, hsource, hmiddle, hsubject, hbody, clean_neutralize h, hclose⟩

/-- The subject of a fence stands in it as it was given. -/
theorem clean_subject {text subject : List Char} {source : String}
    (h : Clean (fence text source subject)) : Clean subject := by
  unfold fence at h
  refine clean_flatten.mp h subject ?_
  simp only [List.mem_cons, true_or, or_true]

theorem clean_untrustedWarning : Clean untrustedWarning.toList :=
  .append_text (clean_text rfl (by decide)) (clean_text rfl (by decide))

theorem clean_digitChar : ∀ n < 16, isDirty (Nat.digitChar n) = false := by decide

theorem clean_hexDigits (n : ℕ) : Clean (Nat.toDigits 16 n) :=
  @Numerals.forall_mem_toDigits 16 (isDirty · = false) (by decide) clean_digitChar n

theorem clean_debugChar {printable : Char → Bool} {c : Char} (hc : isDirty c = false) :
    Clean (debugChar printable c) := by
  unfold debugChar
  split_ifs
  · decide
  · decide
  · decide
  · decide
  · exact clean_cons.mpr ⟨rfl, clean_cons.mpr ⟨hc, clean_nil⟩⟩
  · exact clean_cons.mpr ⟨hc, clean_nil⟩
  · simp only [clean_cons, clean_append]
    exact ⟨by decide, by decide, by decide, clean_hexDigits _, by decide, clean_nil⟩

end

/-! ### Each tool's text -/

section
variable {v w : Json} {name other : String}

theorem throughout_insertMember {P : String → Prop} {k : String} {ms : List (String × Json)}
    (h : Throughout P (obj ms)) (hk : P k) (hv : Throughout P v) :
    Throughout P (obj (insertMember k v ms)) := by
  rw [throughout_obj] at h ⊢
  induction ms with
  | nil =>
    rw [insertMember, List.forall_mem_singleton]
    exact ⟨hk, hv⟩
  | cons m ms ih =>
    obtain ⟨hm, hrest⟩ := List.forall_mem_cons.mp h
    rw [insertMember]
    split_ifs
    · exact List.forall_mem_cons.mpr ⟨⟨hk, hv⟩, hrest⟩
    · exact List.forall_mem_cons.mpr ⟨hm, ih hrest⟩

theorem cleanDoc_effectiveOf (h : CleanDoc v) : CleanDoc (effectiveOf v) := by
  have hanswered := cleanDoc_index h "answered_by_provider_id"
  have hprovider := cleanDoc_index h "provider_id"
  rw [effectiveOf]
  split
  · rename_i s hs
    rw [hs] at hanswered
    split_ifs
    · exact hprovider
    · exact hanswered
  · exact hprovider

theorem cleanDoc_withEffectiveAnswerer (h : CleanDoc v) : CleanDoc (withEffectiveAnswerer v) := by
  cases v with
  | arr rows =>
    rw [withEffectiveAnswerer]
    refine throughout_arr.mpr (List.forall_mem_map.mpr ?_)
    intro row hrow
    have hclean := throughout_arr.mp h row hrow
    cases row with
    | obj members =>
      exact throughout_insertMember hclean (by decide +kernel) (cleanDoc_effectiveOf hclean)
    | _ => exact hclean
  | _ => exact h

theorem clean_casesTable (h : CleanDoc v) : Clean (casesTable v name) ↔ Clean name.toList := by
  have hopen : Clean "cases in run ".toList := by decide
  have hrows := cleanDoc_withEffectiveAnswerer h
  unfold casesTable
  rw [clean_flatten]
  simp only [List.forall_mem_cons, List.not_mem_nil, false_implies, implies_true, and_true]
  constructor
  · exact fun h => h.2.1
  · intro hname
    exact ⟨hopen, hname, by decide, clean_fence (clean_table hrows (by decide +kernel)) hname,
      by decide, clean_untrustedWarning⟩

theorem clean_caseDetail (h : CleanDoc v) : Clean (caseDetail v name) ↔ Clean name.toList := by
  unfold caseDetail
  rw [clean_flatten]
  simp only [List.forall_mem_cons, List.not_mem_nil, false_implies, implies_true, and_true]
  constructor
  · exact fun h => clean_subject h.1
  · intro hname
    exact ⟨clean_fence (clean_jsonBlock h) hname, by decide, clean_untrustedWarning⟩

theorem clean_historyTable (h : CleanDoc v) : Clean (historyTable v name) ↔ Clean name.toList := by
  unfold historyTable
  rw [clean_flatten]
  simp only [List.forall_mem_cons, List.not_mem_nil, false_implies, implies_true, and_true]
  constructor
  · exact fun h => h.2.1
  · intro hname
    exact ⟨by decide, hname, by decide, clean_table h (by decide +kernel)⟩

theorem clean_compareTable (h : CleanDoc v) (hw : CleanDoc w) :
    Clean (compareTable name other v w) ↔ Clean name.toList ∧ Clean other.toList := by
  unfold compareTable
  rw [clean_flatten]
  simp only [List.forall_mem_cons, List.not_mem_nil, false_implies, implies_true, and_true]
  constructor
  · exact fun h => ⟨h.2.1, h.2.2.2.1⟩
  · rintro ⟨hname, hother⟩
    exact ⟨by decide, hname, by decide, hother, by decide, clean_jsonBlock hw, by decide,
      clean_table h (by decide +kernel)⟩

theorem clean_searchText {printable : Char → Bool} (h : CleanDoc v) :
    Clean (searchText printable v name) ↔ Clean name.toList := by
  unfold searchText
  rw [clean_flatten]
  simp only [List.forall_mem_cons, List.not_mem_nil, false_implies, implies_true, and_true]
  constructor
  · exact fun h => clean_subject h.2.2.2.1
  · intro hname
    have hquery : Clean (name.toList.flatMap (debugChar printable)) :=
      clean_flatMap.mpr fun c hc => clean_debugChar (hname c hc)
    exact ⟨by decide, hquery, by decide, clean_fence (clean_jsonBlock h) hname, by decide,
      clean_untrustedWarning⟩

end
