/-
Test files: the tests of a table against those of a JSON file.

Each column of a table that is no var has its own rule for its cells.  Blank leaves a field unset
in most of them; in `id`, `description` and `cache_salt` it is a value, and no id is given to the
row and no default of the suite reaches it.  A `threshold` that is no number is left away.

* **`parseRow_tabular`**, **`tabular_of_parseRow`** — the rows that are read back;
* **`table_agrees_iff`** — when a table gives the tests of the JSON file that spells them, which
  blank cells leave their fields unset, and which thresholds are left away.

Reading tables, JSON, YAML and numbers is a parameter, and so is what is made of the documents.
-/
import Domarinn.Fallible
import Domarinn.GeneratedTests
import Domarinn.Resolve

open Json

namespace TableTests

/-- What reading test files takes from elsewhere. -/
structure Readers where
  /-- The `csv` crate: a table's header and its records. -/
  records : Char → String → Except String (List String × List (Except String (List String)))
  /-- `serde_json::from_str`. -/
  fromStr : String → Except String Json
  /-- `parse_suite_value`. -/
  yaml : String → Except String Json
  /-- The `Deserialize` of a test case. -/
  testOf : Json → Except String TestCase
  /-- `serde_json::from_str` of a list of assertions. -/
  assertsOf : String → Except String (List Json)
  /-- The `Deserialize` of a history. -/
  historyOf : Json → Except String Json
  /-- `str::parse` of a number. -/
  parseF64 : String → Option ℚ

variable (readers : Readers) (path : String)

/-- `parse_err`. -/
def parseErr {α : Type} : Except String α → Except ResolveError α
  | .ok a => .ok a
  | .error e => .error (.parse path e)

/-! ### Tables -/

/-- `str::eq_ignore_ascii_case`. -/
def eqIgnoreAsciiCase (s t : String) : Bool := s.toList.map Char.toLower = t.toList.map Char.toLower

/-- The `expect_fail` column. -/
def readExpectFail (field : String) : Option Json :=
  let cell := trimText field
  if cell = "" then none
  else if eqIgnoreAsciiCase cell "true" then some (.bool true)
  else if eqIgnoreAsciiCase cell "false" then some (.bool false)
  else some (.str cell)

/-- The `tags` column. -/
def readTags (field : String) : List String :=
  (Pieces.pieces isWhitespace ',' field.toList).map String.ofList

/-- The `__assert` column. -/
def readAssert (tc : TestCase) (field : String) : Except ResolveError TestCase :=
  if trimText field = "" then .ok tc
  else do
    let assert ← parseErr path (readers.assertsOf field)
    return { tc with assert }

/-- A history as its cell spells it: a list, or a text. -/
def historyValue (cell : String) : Except ResolveError Json :=
  if startsWithText cell "[" then parseErr path (readers.fromStr cell) else .ok (.str cell)

/-- The `__history` column. -/
def readHistory (tc : TestCase) (field : String) : Except ResolveError TestCase :=
  if trimText field = "" then .ok tc
  else do
    let value ← historyValue readers path (trimText field)
    let history ← parseErr path (readers.historyOf value)
    return { tc with history := some history }

/-- One cell of a record, with the header of its column. -/
def setCell (tc : TestCase) (column : String × String) : Except ResolveError TestCase :=
  if column.1 = "id" then .ok { tc with id := some column.2 }
  else if column.1 = "description" then .ok { tc with description := some column.2 }
  else if column.1 = "threshold" then
    .ok { tc with threshold := readers.parseF64 (trimText column.2) }
  else if column.1 = "cache_salt" then .ok { tc with cacheSalt := some column.2 }
  else if column.1 = "expect_fail" then .ok { tc with expectFail := readExpectFail column.2 }
  else if column.1 = "tags" then .ok { tc with tags := readTags column.2 }
  else if column.1 = "__assert" then readAssert readers path tc column.2
  else if column.1 = "__history" then readHistory readers path tc column.2
  else .ok { tc with vars := insertVar column.1 (.tpl (.str column.2)) tc.vars }

/-- A record under its headers. -/
def parseRecord (headers record : List String) : Except ResolveError TestCase :=
  (headers.zip record).foldlM (setCell readers path) TestCase.default

/-- `parse_delimited_tests`. -/
def parseDelimitedTests (text : String) (delimiter : Char) :
    Except ResolveError (List TestCase) := do
  let (headers, records) ← parseErr path (readers.records delimiter text)
  records.mapM fun record => do
    let record ← parseErr path record
    parseRecord readers path headers record

/-! ### Other formats -/

/-- The tests of a document: its items, or those of its `tests`. -/
def testItems (noTests noSequence : String) : Json → Except ResolveError (List Json)
  | .arr items => .ok items
  | .obj members =>
    match (members.find? fun m => m.1 = "tests").map Prod.snd with
    | some (.arr items) => .ok items
    | _ => .error (.parse path noTests)
  | _ => .error (.parse path noSequence)

/-- `parse_json_tests`. -/
def parseJsonTests (text : String) : Except ResolveError (List TestCase) := do
  let value ← parseErr path (readers.fromStr text)
  let items ← testItems path
    "expected an array of tests or an object with a 'tests' array"
    "expected a JSON array or object" value
  items.mapM fun item => parseErr path (readers.testOf item)

/-- `parse_yaml_tests`. -/
def parseYamlTests (text : String) : Except ResolveError (List TestCase) := do
  let value ← parseErr path (readers.yaml text)
  let items ← testItems path
    "expected a sequence of tests or a mapping with a 'tests' list"
    "expected a sequence or mapping" value
  items.mapM fun item => parseErr path (readers.testOf item)

/-- `parse_jsonl_tests`. -/
def parseJsonlTests (text : String) : Except ResolveError (List TestCase) :=
  ((lines text.toList).filter fun line => !(Pieces.trim isWhitespace line).isEmpty).mapM fun line =>
    do
      let value ← parseErr path (readers.fromStr (String.ofList line))
      parseErr path (readers.testOf value)

/-- `Path::extension` of a file name, in lower case. -/
def extensionOfName (name : String) : String :=
  match name.toList.reverse.dropWhile (· ≠ '.') with
  | '.' :: _ :: _ =>
    String.ofList ((name.toList.reverse.takeWhile (· ≠ '.')).reverse.map Char.toLower)
  | _ => ""

/-- The lower-case extension of a path. -/
def extension (path : String) : String := ((fileName path).map extensionOfName).getD ""

/-- The tests of a file by its extension. -/
def parseTestFile (text : String) : Except ResolveError (List TestCase) :=
  if extension path = "yaml" ∨ extension path = "yml" then parseYamlTests readers path text
  else if extension path = "json" then parseJsonTests readers path text
  else if extension path = "jsonl" ∨ extension path = "ndjson" then
    parseJsonlTests readers path text
  else if extension path = "csv" then parseDelimitedTests readers path text ','
  else if extension path = "tsv" then parseDelimitedTests readers path text '\t'
  else .error (.parse path s!"unsupported test file extension '.{extension path}'")

/-- `load_test_file`, of a file with a given text. -/
def loadTestFile (text : String) : Except ResolveError (List TestCase) := do
  let cases ← parseTestFile readers path text
  return numberCases ((fileStem path).getD "tests") cases

/-! ### Tests as a table -/

/-- The columns that are no vars. -/
def reserved : List String :=
  ["id", "description", "threshold", "cache_salt", "expect_fail", "tags", "__assert", "__history"]

/-- The cell of an `expect_fail`: its flag or its reason. -/
def expectFailCell : Option Json → String
  | some (.bool true) => "true"
  | some (.bool false) => "false"
  | some (.str reason) => reason
  | _ => ""

/-- The cell of the tags: with commas between them. -/
def tagsCell (tags : List String) : String :=
  String.ofList ([','].intercalate (tags.map String.toList))

/-- The cell of a list of assertions: its document. -/
def assertCell (assert : List Json) : String :=
  if assert = [] then "" else (Json.arr assert).text

/-- The cell of a history: its file, or its document. -/
def historyCell : Option Json → String
  | some (.str file) => file
  | some (.arr turns) => (Json.arr turns).text
  | _ => ""

/-- The cell of a var. -/
def varCell : Val → String
  | .tpl (.str s) => s
  | _ => ""

/-- The cells of a test in those columns, `showF64` being how numbers are written. -/
def fieldCells (showF64 : ℚ → String) (tc : TestCase) : List String :=
  [tc.id.getD "", tc.description.getD "", (tc.threshold.map showF64).getD "",
    tc.cacheSalt.getD "", expectFailCell tc.expectFail, tagsCell tc.tags, assertCell tc.assert,
    historyCell tc.history]

/-- The row of a test. -/
def tableRow (showF64 : ℚ → String) (tc : TestCase) : List String :=
  fieldCells showF64 tc ++ tc.vars.map fun v => varCell v.2

/-- A test with given vars, each a string, and what is known of the documents in it. -/
structure IsRow (showF64 : ℚ → String) (keys : List String) (tc : TestCase) : Prop where
  keys_eq : tc.vars.map Prod.fst = keys
  strings : ∀ v ∈ tc.vars, ∃ s, v.2 = .tpl (.str s)
  expectFail : ∀ e, tc.expectFail = some e → (∃ flag, e = .bool flag) ∨ ∃ reason, e = .str reason
  history : ∀ h, tc.history = some h →
    (∃ rest, h = .str ("file://" ++ rest)) ∨ ∃ turns, h = .arr turns
  number : ∀ q, tc.threshold = some q → readers.parseF64 (trimText (showF64 q)) = some q
  assert : tc.assert ≠ [] → readers.assertsOf (Json.arr tc.assert).text = .ok tc.assert
  read : ∀ h, tc.history = some h → readers.historyOf h = .ok h
  readText : ∀ turns, tc.history = some (.arr turns) →
    readers.fromStr (Json.arr turns).text = .ok (.arr turns)

/-- A test that its row spells. -/
structure Tabular (tc : TestCase) : Prop where
  id : tc.id ≠ none
  description : tc.description ≠ none
  cacheSalt : tc.cacheSalt ≠ none
  tags : ∀ tag ∈ tc.tags, tag ≠ "" ∧ trimText tag = tag ∧ ',' ∉ tag.toList
  reason : ∀ reason, tc.expectFail = some (.str reason) → reason ≠ "" ∧ trimText reason = reason ∧
    eqIgnoreAsciiCase reason "true" = false ∧ eqIgnoreAsciiCase reason "false" = false
  history : ∀ file, tc.history = some (.str file) → trimText file = file
  vars : ∀ v ∈ tc.vars, v.1 ∉ reserved
  matrix : tc.matrix = []
  matrixId : tc.matrixId = none
  onlyProviders : tc.onlyProviders = []
  skipProviders : tc.skipProviders = []

variable {readers path} {tc row : TestCase} {showF64 : ℚ → String} {keys : List String}

/-! ### The cells of one row -/

theorem trimText_empty : trimText "" = "" := rfl

theorem readExpectFail_cell (h : ∀ e, tc.expectFail = some e →
      (∃ flag, e = .bool flag) ∨ ∃ reason, e = .str reason) :
    readExpectFail (expectFailCell tc.expectFail) = tc.expectFail ↔
      ∀ reason, tc.expectFail = some (.str reason) → reason ≠ "" ∧ trimText reason = reason ∧
        eqIgnoreAsciiCase reason "true" = false ∧ eqIgnoreAsciiCase reason "false" = false := by
  cases he : tc.expectFail with
  | none => exact iff_of_true rfl fun reason hr => by cases hr
  | some e =>
    obtain ⟨flag, rfl⟩ | ⟨reason, rfl⟩ := h e he
    · refine iff_of_true ?_ fun reason hr => by cases hr
      cases flag with
      | false => decide
      | true => decide
    · rw [expectFailCell, readExpectFail]
      constructor
      · intro h reason' hreason
        obtain rfl : reason = reason' := Json.str.inj (Option.some.inj hreason)
        split_ifs at h with hempty htrue hfalse
        · cases Option.some.inj h
        · cases Option.some.inj h
        · have htrim : trimText reason = reason := Json.str.inj (Option.some.inj h)
          rw [htrim] at hempty htrue hfalse
          exact ⟨hempty, htrim, Bool.not_eq_true _ ▸ htrue, Bool.not_eq_true _ ▸ hfalse⟩
      · intro h
        obtain ⟨hempty, htrim, htrue, hfalse⟩ := h reason rfl
        rw [htrim, if_neg hempty, htrue, hfalse]
        rfl

section Rows

-- Of this column only that lemma is used.
attribute [local irreducible] readExpectFail

theorem trimText_eq_self {s : String} : trimText s = s ↔
    Pieces.trim isWhitespace s.toList = s.toList := by
  conv_lhs => rw [← @String.ofList_toList s, trimText_ofList]
  exact ⟨fun h => String.ofList_injective h, congrArg String.ofList⟩

/-- The tags are read back where each is a piece of its own. -/
theorem readTags_cell (tags : List String) : readTags (tagsCell tags) = tags ↔
    ∀ tag ∈ tags, tag ≠ "" ∧ trimText tag = tag ∧ ',' ∉ tag.toList := by
  constructor
  · intro h tag htag
    rw [← h, readTags] at htag
    obtain ⟨piece, hpiece, rfl⟩ := List.mem_map.mp htag
    obtain ⟨hmem, hne⟩ := List.mem_filter.mp hpiece
    obtain ⟨part, hpart, rfl⟩ := List.mem_map.mp hmem
    rw [trimText_ofList, Pieces.trim_trim, String.toList_ofList]
    refine ⟨fun hempty => ?_, rfl, fun hcomma => ?_⟩
    · rw [String.ofList_injective hempty] at hne
      cases hne
    · exact Pieces.not_mem_part hpart (Pieces.mem_of_mem_trim hcomma)
  · intro h
    have hcomma : ∀ l ∈ tags.map String.toList, ',' ∉ l := by
      intro l hl
      obtain ⟨tag, htag, rfl⟩ := List.mem_map.mp hl
      exact (h tag htag).2.2
    have htrim : (tags.map String.toList).map (Pieces.trim isWhitespace) =
        tags.map String.toList := by
      conv_rhs => rw [← List.map_id (tags.map String.toList)]
      refine List.map_congr_left fun l hl => ?_
      obtain ⟨tag, htag, rfl⟩ := List.mem_map.mp hl
      exact trimText_eq_self.mp (h tag htag).2.1
    have hfull : (tags.map String.toList).filter (fun piece => !piece.isEmpty) =
        tags.map String.toList := by
      refine List.filter_eq_self.mpr fun l hl => ?_
      obtain ⟨tag, htag, rfl⟩ := List.mem_map.mp hl
      rw [Bool.not_eq_true', List.isEmpty_eq_false_iff]
      exact fun hnil => (h tag htag).1 (String.toList_eq_nil_iff.mp hnil)
    rw [readTags, tagsCell, String.toList_ofList, Pieces.pieces_intercalate hcomma, htrim, hfull,
      List.map_map]
    conv_rhs => rw [← List.map_id tags]
    exact List.map_congr_left fun tag _ => String.ofList_toList

theorem threshold_cell (hrow : IsRow readers showF64 keys tc) (hempty : readers.parseF64 "" = none) :
    readers.parseF64 (trimText ((tc.threshold.map showF64).getD "")) = tc.threshold := by
  cases hq : tc.threshold with
  | none => exact hempty
  | some q => exact hrow.number q hq

theorem trimText_arr (items : List Json) : trimText (Json.arr items).text = (Json.arr items).text := by
  rw [Json.text, trimText_ofList, trim_render_arr]

theorem readAssert_cell (hrow : IsRow readers showF64 keys tc) (hrow' : row.assert = []) :
    readAssert readers path row (assertCell tc.assert) = .ok { row with assert := tc.assert } := by
  rw [readAssert, assertCell]
  by_cases hnil : tc.assert = []
  · rw [if_pos hnil, if_pos trimText_empty, hnil, ← hrow']
  · rw [if_neg hnil, trimText_arr, if_neg (text_ne_empty _), hrow.assert hnil]
    rfl

/-- A text that starts with a letter that is not blank still does when it is trimmed. -/
theorem trimText_cons {c : Char} {rest : List Char} (hc : isWhitespace c = false) :
    ∃ rest', trimText (String.ofList (c :: rest)) = String.ofList (c :: rest') := by
  have htrim := Pieces.trim_cons_of_neg (l := rest) hc
  rw [trimText_ofList]
  cases h : Pieces.trim isWhitespace (c :: rest) with
  | nil =>
    have hempty := @Pieces.isEmpty_trim _ isWhitespace (c :: rest)
    rw [h, List.all_cons, hc] at hempty
    cases hempty
  | cons first rest' =>
    rw [h] at htrim
    obtain ⟨tail, htail⟩ := List.rdropWhile_prefix isWhitespace (c :: rest)
    rw [← htrim, List.cons_append] at htail
    rw [(List.cons_eq_cons.mp htail).1]
    exact ⟨rest', rfl⟩

/-- A file's path, with the blanks after it taken off, is what is read of it. -/
theorem readHistory_file {rest : String} :
    readHistory readers path row ("file://" ++ rest) = (do
      let history ← parseErr path (readers.historyOf (.str (trimText ("file://" ++ rest))))
      return { row with history := some history }) := by
  have hfile : "file://" ++ rest = String.ofList ('f' :: ("ile://".toList ++ rest.toList)) := by
    rw [← @String.ofList_toList ("file://" ++ rest), String.toList_append]
    rfl
  obtain ⟨rest', htrim⟩ := @trimText_cons 'f' ("ile://".toList ++ rest.toList) rfl
  rw [readHistory, hfile, htrim, if_neg (by
    intro heq
    cases String.ofList_injective (heq.trans String.ofList_nil.symm))]
  have hvalue : historyValue readers path (String.ofList ('f' :: rest')) =
      .ok (.str (String.ofList ('f' :: rest'))) := by
    rw [historyValue, startsWithText, String.toList_ofList, String.toList_ofList]
    rfl
  rw [hvalue]
  rfl

theorem readHistory_cell (hrow : IsRow readers showF64 keys tc)
    (hfile : ∀ file, tc.history = some (.str file) → trimText file = file)
    (hrow' : row.history = none) :
    readHistory readers path row (historyCell tc.history) =
      .ok { row with history := tc.history } := by
  cases hh : tc.history with
  | none =>
    rw [show historyCell none = "" from rfl, readHistory, if_pos trimText_empty, ← hrow']
  | some h =>
    obtain ⟨rest, rfl⟩ | ⟨turns, rfl⟩ := hrow.history h hh
    · rw [historyCell, readHistory_file, hfile _ hh, hrow.read _ hh]
      rfl
    · rw [historyCell, readHistory, trimText_arr, if_neg (text_ne_empty _), historyValue]
      have hstarts : startsWithText (Json.arr turns).text "[" = true := by
        rw [startsWithText, Json.text, String.toList_ofList, String.toList_ofList, render]
        rfl
      rw [if_pos hstarts, hrow.readText turns hh]
      show (do
        let history ← parseErr path (readers.historyOf (.arr turns))
        return { row with history := some history }) = _
      rw [hrow.read _ hh]
      rfl

/-! ### Vars -/

theorem setCell_var {key s : String} (hkey : key ∉ reserved) :
    setCell readers path row (key, s) =
      .ok { row with vars := insertVar key (.tpl (.str s)) row.vars } := by
  simp only [reserved, List.mem_cons, List.not_mem_nil, or_false, not_or] at hkey
  obtain ⟨hid, hdescription, hthreshold, hsalt, hfail, htags, hassert, hhistory⟩ := hkey
  rw [setCell, if_neg hid, if_neg hdescription, if_neg hthreshold, if_neg hsalt, if_neg hfail,
    if_neg htags, if_neg hassert, if_neg hhistory]

/-- A var that comes last is put last. -/
theorem insertVar_of_lt {key : String} {value : Val} {vars : List (String × Val)}
    (h : ∀ v ∈ vars, v.1 < key) : insertVar key value vars = vars ++ [(key, value)] := by
  induction vars with
  | nil => rfl
  | cons v vars ih =>
    obtain ⟨hv, hvars⟩ := List.forall_mem_cons.mp h
    have hne : v.1 ≠ key := fun heq => String.lt_irrefl key (heq ▸ hv)
    rw [insertVar, if_neg hne, if_neg (String.lt_asymm hv), ih hvars]
    rfl

/-- The cells of the vars, in the order of their keys. -/
theorem foldlM_vars {vars : List (String × Val)} (hvars : ∀ v ∈ vars, v.1 ∉ reserved)
    (hstrings : ∀ v ∈ vars, ∃ s, v.2 = .tpl (.str s))
    (hsorted : ((row.vars ++ vars).map Prod.fst).Pairwise (· < ·)) :
    (vars.map fun v => (v.1, varCell v.2)).foldlM (setCell readers path) row =
      .ok { row with vars := row.vars ++ vars } := by
  induction vars generalizing row with
  | nil =>
    rw [List.append_nil]
    rfl
  | cons v vars ih =>
    obtain ⟨key, value⟩ := v
    obtain ⟨hkey, hrest⟩ := List.forall_mem_cons.mp hvars
    obtain ⟨⟨s, hs⟩, hrestStrings⟩ := List.forall_mem_cons.mp hstrings
    obtain rfl : value = .tpl (.str s) := hs
    have hlast : ∀ w ∈ row.vars, w.1 < key := by
      intro w hw
      rw [List.map_append, List.pairwise_append] at hsorted
      exact hsorted.2.2 w.1 (List.mem_map_of_mem hw) key List.mem_cons_self
    have hset : setCell readers path row (key, varCell (.tpl (.str s))) =
        .ok { row with vars := row.vars ++ [(key, .tpl (.str s))] } := by
      rw [varCell, setCell_var hkey, insertVar_of_lt hlast]
    rw [List.map_cons, List.foldlM_cons, hset]
    show (vars.map fun v => (v.1, varCell v.2)).foldlM (setCell readers path)
      { row with vars := row.vars ++ [(key, .tpl (.str s))] } = _
    have happend : row.vars ++ [(key, Val.tpl (.str s))] ++ vars =
        row.vars ++ (key, .tpl (.str s)) :: vars := List.append_assoc ..
    rw [ih hrest hrestStrings (by rw [happend]; exact hsorted), happend]

theorem mem_insertVar {key : String} {value : Val} {v : String × Val}
    {vars : List (String × Val)} (h : v ∈ insertVar key value vars) :
    v = (key, value) ∨ v ∈ vars := by
  induction vars with
  | nil => exact .inl (List.mem_singleton.mp h)
  | cons w vars ih =>
    rw [insertVar] at h
    split_ifs at h
    · exact (List.mem_cons.mp h).imp_right (List.mem_cons_of_mem w)
    · exact List.mem_cons.mp h
    · obtain rfl | h := List.mem_cons.mp h
      · exact .inr List.mem_cons_self
      · exact (ih h).imp_right (List.mem_cons_of_mem w)

theorem readAssert_vars {field : String} (h : readAssert readers path tc field = .ok row) :
    row.vars = tc.vars := by
  rw [readAssert] at h
  split_ifs at h
  · rw [← Except.ok.inj h]
  · cases ha : readers.assertsOf field with
    | error e =>
      rw [ha] at h
      cases h
    | ok assert =>
      rw [ha] at h
      rw [← Except.ok.inj h]

/-- The history column sets nothing else. -/
theorem exists_of_readHistory {field : String}
    (h : readHistory readers path tc field = .ok row) :
    ∃ history, row = { tc with history := history } := by
  rw [readHistory] at h
  split_ifs at h
  · exact ⟨tc.history, (Except.ok.inj h).symm⟩
  · cases hv : historyValue readers path (trimText field) with
    | error e =>
      rw [hv] at h
      cases h
    | ok value =>
      rw [hv] at h
      cases hh : readers.historyOf value with
      | error e =>
        simp only [bind, Except.bind, hh] at h
        cases h
      | ok history =>
        simp only [bind, Except.bind, hh] at h
        exact ⟨some history, (Except.ok.inj h).symm⟩

theorem readHistory_vars {field : String} (h : readHistory readers path tc field = .ok row) :
    row.vars = tc.vars := by
  obtain ⟨history, rfl⟩ := exists_of_readHistory h
  rfl

/-- No column that is not a var's puts a var. -/
theorem setCell_vars {column : String × String} (h : setCell readers path tc column = .ok row) :
    row.vars = tc.vars ∨ column.1 ∉ reserved ∧
      row.vars = insertVar column.1 (.tpl (.str column.2)) tc.vars := by
  by_cases hkey : column.1 ∈ reserved
  · refine .inl ?_
    rw [setCell] at h
    split_ifs at h with h₁ h₂ h₃ h₄ h₅ h₆ h₇ h₈
    · rw [← Except.ok.inj h]
    · rw [← Except.ok.inj h]
    · rw [← Except.ok.inj h]
    · rw [← Except.ok.inj h]
    · rw [← Except.ok.inj h]
    · rw [← Except.ok.inj h]
    · exact readAssert_vars h
    · exact readHistory_vars h
    · simp only [reserved, List.mem_cons, h₁, h₂, h₃, h₄, h₅, h₆, h₇, h₈, List.not_mem_nil,
        or_self] at hkey
  · refine .inr ⟨hkey, ?_⟩
    rw [show column = (column.1, column.2) from rfl, setCell_var hkey] at h
    rw [← Except.ok.inj h]

theorem foldlM_reserved {columns : List (String × String)}
    (h : columns.foldlM (setCell readers path) tc = .ok row) (htc : ∀ v ∈ tc.vars, v.1 ∉ reserved) :
    ∀ v ∈ row.vars, v.1 ∉ reserved := by
  induction columns generalizing tc with
  | nil =>
    rw [← Except.ok.inj h]
    exact htc
  | cons column columns ih =>
    rw [List.foldlM_cons] at h
    cases hset : setCell readers path tc column with
    | error e =>
      rw [hset] at h
      cases h
    | ok next =>
      rw [hset] at h
      refine ih h ?_
      obtain hvars | ⟨hkey, hvars⟩ := setCell_vars hset
      · rw [hvars]
        exact htc
      · rw [hvars]
        intro v hv
        obtain rfl | hv := mem_insertVar hv
        · exact hkey
        · exact htc v hv

/-! ### Rows -/

/-- What the columns before the history make of a test. -/
def baseRow (tc : TestCase) : TestCase :=
  { TestCase.default with
    id := some (tc.id.getD "")
    description := some (tc.description.getD "")
    threshold := tc.threshold
    cacheSalt := some (tc.cacheSalt.getD "")
    expectFail := readExpectFail (expectFailCell tc.expectFail)
    tags := readTags (tagsCell tc.tags)
    assert := tc.assert }

/-- The columns that are no vars. -/
theorem foldlM_fields (hrow : IsRow readers showF64 keys tc) (hempty : readers.parseF64 "" = none) :
    (reserved.zip (fieldCells showF64 tc)).foldlM (setCell readers path) TestCase.default =
      readHistory readers path (baseRow tc) (historyCell tc.history) := by
  have hassert : readAssert readers path { baseRow tc with assert := [] } (assertCell tc.assert) =
      .ok (baseRow tc) := readAssert_cell hrow rfl
  have hthreshold := threshold_cell hrow hempty
  simp only [baseRow, TestCase.default] at hassert
  simp only [reserved, fieldCells, List.zip_cons_cons, List.zip_nil_left, List.foldlM_cons,
    List.foldlM_nil, setCell, String.reduceEq, if_true, if_false, hthreshold, TestCase.default,
    bind, Except.bind, hassert, baseRow]
  cases readHistory readers path _ (historyCell tc.history) with
  | error e => rfl
  | ok last => rfl

/-- The row of a test is read up to its history, and then its vars. -/
theorem parseRow_eq (hrow : IsRow readers showF64 keys tc) (hempty : readers.parseF64 "" = none)
    (hsorted : keys.Pairwise (· < ·)) (hvars : ∀ v ∈ tc.vars, v.1 ∉ reserved) :
    parseRecord readers path (reserved ++ keys) (tableRow showF64 tc) = (do
      let next ← readHistory readers path (baseRow tc) (historyCell tc.history)
      return { next with vars := next.vars ++ tc.vars }) := by
  have hlength : reserved.length = (fieldCells showF64 tc).length := rfl
  have hzip : (reserved ++ keys).zip (tableRow showF64 tc) =
      reserved.zip (fieldCells showF64 tc) ++ tc.vars.map fun v => (v.1, varCell v.2) := by
    rw [tableRow, List.zip_append hlength, ← hrow.keys_eq, List.zip_map']
  rw [parseRecord, hzip, List.foldlM_append, foldlM_fields hrow hempty]
  cases hnext : readHistory readers path (baseRow tc) (historyCell tc.history) with
  | error e => rfl
  | ok next =>
    have hnone : next.vars = [] := readHistory_vars hnext
    have hkeys : ((next.vars ++ tc.vars).map Prod.fst).Pairwise (· < ·) := by
      rw [hnone, List.nil_append, hrow.keys_eq]
      exact hsorted
    exact foldlM_vars hvars hrow.strings hkeys

theorem some_getD_of_ne_none {o : Option String} (h : o ≠ none) : some (o.getD "") = o := by
  obtain ⟨s, rfl⟩ := Option.ne_none_iff_exists'.mp h
  rfl

theorem eq_of_unset (hmatrix : tc.matrix = []) (hid : tc.matrixId = none)
    (honly : tc.onlyProviders = []) (hskip : tc.skipProviders = []) :
    { tc with matrix := [], matrixId := none, onlyProviders := [], skipProviders := [] } = tc := by
  cases tc
  simp only at hmatrix hid honly hskip
  rw [hmatrix, hid, honly, hskip]

/-- **A test that its row spells is read back.** -/
theorem parseRow_tabular (hrow : IsRow readers showF64 keys tc)
    (hempty : readers.parseF64 "" = none) (hsorted : keys.Pairwise (· < ·)) (h : Tabular tc) :
    parseRecord readers path (reserved ++ keys) (tableRow showF64 tc) = .ok tc := by
  have hid : some (tc.id.getD "") = tc.id := some_getD_of_ne_none h.id
  have hdescription : some (tc.description.getD "") = tc.description :=
    some_getD_of_ne_none h.description
  have hsalt : some (tc.cacheSalt.getD "") = tc.cacheSalt := some_getD_of_ne_none h.cacheSalt
  have hfail := (readExpectFail_cell hrow.expectFail).mpr h.reason
  have htags := (readTags_cell tc.tags).mpr h.tags
  rw [parseRow_eq hrow hempty hsorted h.vars, readHistory_cell hrow h.history rfl]
  refine congrArg Except.ok ?_
  simp only [baseRow, TestCase.default, hid, hdescription, hsalt, hfail, htags, List.nil_append]
  exact eq_of_unset h.matrix h.matrixId h.onlyProviders h.skipProviders

/-- **And a row that gives its test, but for a missing id, spells it.** -/
theorem tabular_of_parseRow {fallback : String} (hrow : IsRow readers showF64 keys tc)
    (hempty : readers.parseF64 "" = none) (hsorted : keys.Pairwise (· < ·))
    (hkeeps : ∀ v h, readers.historyOf v = .ok h → h = v)
    (hrun : parseRecord readers path (reserved ++ keys) (tableRow showF64 tc) = .ok row)
    (hfallback : fallback ≠ "") (hsame : ensureId fallback row = ensureId fallback tc) :
    Tabular tc := by
  simp only [ensureId, TestCase.mk.injEq, Option.some.injEq] at hsame
  obtain ⟨hid, htags, hvars, hmatrix, hmatrixId, honly, hskip, hdescription, -, -, hsalt, hhistory,
    hfail⟩ := hsame
  have hreserved : ∀ v ∈ tc.vars, v.1 ∉ reserved := by
    rw [← hvars]
    exact foldlM_reserved hrun (List.forall_mem_nil _)
  rw [parseRow_eq hrow hempty hsorted hreserved] at hrun
  cases hnext : readHistory readers path (baseRow tc) (historyCell tc.history) with
  | error e =>
    rw [hnext] at hrun
    cases hrun
  | ok next =>
    rw [hnext] at hrun
    obtain rfl := Except.ok.inj hrun
    have hfile : ∀ file, tc.history = some (.str file) → trimText file = file := by
      intro file hfile
      obtain ⟨rest, hrest⟩ | ⟨turns, hturns⟩ := hrow.history _ hfile
      · obtain rfl := Json.str.inj hrest
        rw [hfile, historyCell, readHistory_file] at hnext
        cases hread : readers.historyOf (.str (trimText ("file://" ++ rest))) with
        | error e =>
          simp only [bind, Except.bind, hread, parseErr] at hnext
          cases hnext
        | ok h =>
          simp only [bind, Except.bind, hread, parseErr] at hnext
          rw [← Except.ok.inj hnext, hkeeps _ _ hread, hfile] at hhistory
          exact Json.str.inj (Option.some.inj hhistory)
      · cases hturns
    obtain ⟨history, rfl⟩ := exists_of_readHistory hnext
    exact {
      id := by
        intro hnone
        have hfilled : tc.id.getD "" = tc.id.getD fallback := hid
        rw [hnone] at hfilled
        exact hfallback hfilled.symm
      description := by
        intro hnone
        have hset : some (tc.description.getD "") = tc.description := hdescription
        rw [hnone] at hset
        cases hset
      cacheSalt := by
        intro hnone
        have hset : some (tc.cacheSalt.getD "") = tc.cacheSalt := hsalt
        rw [hnone] at hset
        cases hset
      tags := (readTags_cell tc.tags).mp htags
      reason := (readExpectFail_cell hrow.expectFail).mp hfail
      history := hfile
      vars := hreserved
      matrix := hmatrix.symm
      matrixId := hmatrixId.symm
      onlyProviders := honly.symm
      skipProviders := hskip.symm }

end Rows

/-! ### Whole files -/

/-- A table and a JSON file of the same name that spell the same tests. -/
structure SameTests (readers : Readers) (showF64 : ℚ → String) (keys : List String)
    (tests : List TestCase) (tablePath tableText jsonPath jsonText : String) : Prop where
  rows : ∀ tc ∈ tests, IsRow readers showF64 keys tc
  sorted : keys.Pairwise (· < ·)
  table : ∃ delimiter, (extension tablePath, delimiter) ∈ [("csv", ','), ("tsv", '\t')] ∧
    readers.records delimiter tableText =
      .ok (reserved ++ keys, tests.map fun tc => .ok (tableRow showF64 tc))
  json : extension jsonPath = "json" ∧ ∃ docs, readers.fromStr jsonText = .ok (.arr docs) ∧
    docs.mapM readers.testOf = .ok tests
  stem : fileStem tablePath = fileStem jsonPath
  empty : readers.parseF64 "" = none
  keeps : ∀ v h, readers.historyOf v = .ok h → h = v

/-- A table each of whose records is read. -/
theorem parseDelimitedTests_records {delimiter : Char} {text : String} {headers : List String}
    {tests : List TestCase} {rowOf : TestCase → List String}
    (h : readers.records delimiter text = .ok (headers, tests.map fun tc => .ok (rowOf tc))) :
    parseDelimitedTests readers path text delimiter =
      tests.mapM fun tc => parseRecord readers path headers (rowOf tc) := by
  rw [parseDelimitedTests, h]
  exact List.mapM_map

section Files

variable {tests : List TestCase} {tablePath tableText jsonPath jsonText : String}
  (same : SameTests readers showF64 keys tests tablePath tableText jsonPath jsonText)
include same

theorem SameTests.loadJson : loadTestFile readers jsonPath jsonText =
    .ok (numberCases ((fileStem jsonPath).getD "tests") tests) := by
  obtain ⟨hextension, docs, htext, hdocs⟩ := same.json
  have hparse : parseTestFile readers jsonPath jsonText = .ok tests := by
    have hitems : docs.mapM (fun item => parseErr jsonPath (readers.testOf item)) = .ok tests := by
      refine mapM_ok_iff.mpr ((mapM_ok_iff.mp hdocs).imp fun doc tc hdoc => ?_)
      rw [hdoc]
      rfl
    rw [parseTestFile, hextension]
    simp only [String.reduceEq, or_self, if_false, if_true]
    rw [parseJsonTests, htext]
    exact hitems
  rw [loadTestFile, hparse]
  rfl

theorem SameTests.loadTable : loadTestFile readers tablePath tableText = (do
    let rows ← tests.mapM fun tc =>
      parseRecord readers tablePath (reserved ++ keys) (tableRow showF64 tc)
    return numberCases ((fileStem jsonPath).getD "tests") rows) := by
  obtain ⟨delimiter, hformat, hrecords⟩ := same.table
  have hparse : parseTestFile readers tablePath tableText =
      parseDelimitedTests readers tablePath tableText delimiter := by
    rw [parseTestFile]
    simp only [List.mem_cons, List.not_mem_nil, or_false, Prod.mk.injEq] at hformat
    obtain ⟨hextension, rfl⟩ | ⟨hextension, rfl⟩ := hformat
    · rw [hextension]
      simp only [String.reduceEq, or_self, if_false, if_true]
    · rw [hextension]
      simp only [String.reduceEq, or_self, if_false, if_true]
  rw [loadTestFile, hparse, parseDelimitedTests_records hrecords, same.stem]

end Files

theorem ensureId_of_numberCases {stem : String} {rows tests : List TestCase}
    (h : numberCases stem rows = numberCases stem tests) {i : ℕ} (hrow : rows[i]? = some row)
    (htc : tests[i]? = some tc) :
    ensureId s!"{stem}/{i}" row = ensureId s!"{stem}/{i}" tc := by
  have hat := congrArg (·[i]?) h
  simp only [numberCases, List.getElem?_mapIdx, hrow, htc, Option.map_some] at hat
  exact Option.some.inj hat

theorem numbered_ne_empty (stem : String) (i : ℕ) : s!"{stem}/{i}" ≠ "" := by
  intro h
  have hlist := congrArg String.toList h
  simp at hlist

theorem SameTests.agrees_iff {tests : List TestCase}
    {tablePath tableText jsonPath jsonText : String}
    (same : SameTests readers showF64 keys tests tablePath tableText jsonPath jsonText) :
    loadTestFile readers tablePath tableText = loadTestFile readers jsonPath jsonText ↔
      ∀ tc ∈ tests, Tabular tc := by
  rw [same.loadTable, same.loadJson]
  constructor
  · intro h tc htc
    cases hrows : tests.mapM fun tc =>
        parseRecord readers tablePath (reserved ++ keys) (tableRow showF64 tc) with
    | error e =>
      rw [hrows] at h
      cases h
    | ok rows =>
      rw [hrows] at h
      obtain ⟨i, hi, rfl⟩ := List.mem_iff_getElem.mp htc
      have hall := mapM_ok_iff.mp hrows
      have hrow : i < rows.length := hall.length_eq ▸ hi
      exact tabular_of_parseRow (same.rows _ htc) same.empty same.sorted same.keeps
        (hall.get hi hrow) (numbered_ne_empty _ i) (ensureId_of_numberCases (Except.ok.inj h)
          (List.getElem?_eq_getElem hrow) (List.getElem?_eq_getElem hi))
  · intro h
    have hrows : tests.mapM (fun tc =>
        parseRecord readers tablePath (reserved ++ keys) (tableRow showF64 tc)) = .ok tests :=
      mapM_ok_iff.mpr (List.forall₂_same.mpr fun tc htc =>
        parseRow_tabular (same.rows tc htc) same.empty same.sorted (h tc htc))
    rw [hrows]
    rfl

/-! ### Single cells -/

/-- The blank cells of three columns are values. -/
theorem setCell_blank (hempty : readers.parseF64 "" = none) {column cell : String}
    (hcolumn : column ∈ reserved) (hcell : trimText cell = "") :
    setCell readers path TestCase.default (column, cell) = .ok TestCase.default ↔
      column ∉ ["id", "description", "cache_salt"] := by
  have htags : readTags cell = [] := by
    have hnil : Pieces.trim isWhitespace cell.toList = [] := by
      rw [← @String.ofList_toList cell, trimText_ofList] at hcell
      exact String.ofList_injective (hcell.trans String.ofList_nil.symm)
    rw [readTags, ← Pieces.pieces_trim, hnil, Pieces.pieces_nil, List.map_nil]
  have hfail : readExpectFail cell = none := by
    rw [readExpectFail, hcell]
    rfl
  have hassert : readAssert readers path TestCase.default cell = .ok TestCase.default := by
    rw [readAssert, if_pos hcell]
  have hhistory : readHistory readers path TestCase.default cell = .ok TestCase.default := by
    rw [readHistory, if_pos hcell]
  simp only [reserved, List.mem_cons, List.not_mem_nil, or_false] at hcolumn
  obtain rfl | rfl | rfl | rfl | rfl | rfl | rfl | rfl := hcolumn
  · refine iff_of_false (fun h => ?_) (by decide)
    cases congrArg TestCase.id (Except.ok.inj h)
  · refine iff_of_false (fun h => ?_) (by decide)
    cases congrArg TestCase.description (Except.ok.inj h)
  · refine iff_of_true ?_ (by decide)
    simp only [setCell, String.reduceEq, if_true, if_false, hcell, hempty]
    rfl
  · refine iff_of_false (fun h => ?_) (by decide)
    cases congrArg TestCase.cacheSalt (Except.ok.inj h)
  · refine iff_of_true ?_ (by decide)
    simp only [setCell, String.reduceEq, if_true, if_false, hfail]
    rfl
  · refine iff_of_true ?_ (by decide)
    simp only [setCell, String.reduceEq, if_true, if_false, htags]
    rfl
  · refine iff_of_true ?_ (by decide)
    simp only [setCell, String.reduceEq, if_true, if_false, hassert]
  · refine iff_of_true ?_ (by decide)
    simp only [setCell, String.reduceEq, if_true, if_false, hhistory]

/-- A threshold is used where it is a number, and never rejected. -/
theorem setCell_threshold {cell : String} :
    ((∃ q, setCell readers path TestCase.default ("threshold", cell) =
        .ok { TestCase.default with threshold := some q }) ∨
      ∃ e, setCell readers path TestCase.default ("threshold", cell) = .error e) ↔
      readers.parseF64 (trimText cell) ≠ none := by
  simp only [setCell, String.reduceEq, if_true, if_false]
  cases readers.parseF64 (trimText cell) with
  | none =>
    refine iff_of_false ?_ (not_not_intro rfl)
    rintro (⟨q, h⟩ | ⟨e, h⟩)
    · cases congrArg TestCase.threshold (Except.ok.inj h)
    · cases h
  | some q => exact iff_of_true (.inl ⟨q, rfl⟩) (Option.some_ne_none q)

/-! ### Two small files -/

/-- A member that is a text. -/
def memberText (members : List (String × Json)) (key : String) : Option String :=
  match (members.find? fun m => m.1 = key).map Prod.snd with
  | some (.str s) => some s
  | _ => none

/-- A test of an id, a description, a salt and vars. -/
def plainTestOf : Json → Except String TestCase
  | .obj members => .ok { TestCase.default with
      id := memberText members "id"
      description := memberText members "description"
      cacheSalt := memberText members "cache_salt"
      vars := match (members.find? fun m => m.1 = "vars").map Prod.snd with
        | some (.obj vars) => vars.map fun v => (v.1, .tpl v.2)
        | _ => [] }
  | _ => .error "expected an object"

/-- Readers of one table of one row, of one JSON text, and of the number `1`. -/
def plainReaders (table : String) (row : List String) (doc : Json) : Readers where
  records _ text := if text = table then .ok (reserved ++ ["q"], [.ok row]) else .error "no table"
  fromStr text := if text = (Json.arr [doc]).text then .ok (.arr [doc]) else .error "not JSON"
  yaml _ := .error "not YAML"
  testOf := plainTestOf
  assertsOf _ := .error "not a list of assertions"
  historyOf := .ok
  parseF64 text := if text = "1" then some 1 else none

section Plain

variable {table s : String} {cells : List String} {doc : Json}

/-- What is known of a test of one var without assertions, history and more. -/
theorem isRow_plain (hvars : tc.vars = [("q", .tpl (.str s))]) (hfail : tc.expectFail = none)
    (hhistory : tc.history = none) (hthreshold : tc.threshold = none) (hassert : tc.assert = []) :
    IsRow readers showF64 ["q"] tc where
  keys_eq := by rw [hvars]; rfl
  strings := by
    rw [hvars]
    exact List.forall_mem_singleton.mpr ⟨s, rfl⟩
  expectFail e h := by rw [hfail] at h; cases h
  history h heq := by rw [hhistory] at heq; cases heq
  number q h := by rw [hthreshold] at h; cases h
  assert h := absurd hassert h
  read h heq := by rw [hhistory] at heq; cases heq
  readText turns h := by rw [hhistory] at h; cases h

/-- A table of the row of such a test beside a JSON file of its document. -/
theorem plain_sameTests (hrow : cells = tableRow showF64 tc) (hdoc : plainTestOf doc = .ok tc)
    (hplain : IsRow (plainReaders table cells doc) showF64 ["q"] tc) :
    SameTests (plainReaders table cells doc) showF64 ["q"] [tc] "t.csv" table "t.json"
      (Json.arr [doc]).text where
  rows := List.forall_mem_singleton.mpr hplain
  sorted := List.pairwise_singleton _ _
  table := by
    refine ⟨',', by decide, ?_⟩
    rw [List.map_singleton, ← hrow]
    exact if_pos rfl
  json := by
    refine ⟨by decide, [doc], if_pos rfl, ?_⟩
    show [doc].mapM plainTestOf = _
    rw [List.mapM_cons, hdoc]
    rfl
  stem := by decide
  empty := rfl
  keeps _ _ heq := (Except.ok.inj heq).symm

end Plain

/-- A test of one var. -/
def bareTest : TestCase := { TestCase.default with vars := [("q", .tpl (.str "x"))] }

def bareDoc : Json := .obj [("vars", .obj [("q", .str "x")])]

def bareTable : String :=
  "id,description,threshold,cache_salt,expect_fail,tags,__assert,__history,q\n,,,,,,,,x\n"

def bareReaders : Readers := plainReaders bareTable ["", "", "", "", "", "", "", "", "x"] bareDoc

/-- Where its table has blanks, the test of the table has an empty id, description and salt, and
keeps that salt; and a threshold that is no number is away. -/
theorem bare_table_differs :
    SameTests bareReaders (fun _ => "1") ["q"] [bareTest] "t.csv" bareTable "t.json"
      (Json.arr [bareDoc]).text ∧
    loadTestFile bareReaders "t.csv" bareTable =
      .ok [{ bareTest with id := some "", description := some "", cacheSalt := some "" }] ∧
    loadTestFile bareReaders "t.json" (Json.arr [bareDoc]).text =
      .ok [{ bareTest with id := some "t/0" }] ∧
    (mergeDefaults { vars := [], tags := [], cacheSalt := some "v2" }
      { bareTest with id := some "", description := some "", cacheSalt := some "" }).cacheSalt =
      some "" ∧
    setCell bareReaders "t.csv" TestCase.default ("threshold", "high") = .ok TestCase.default := by
  have same : SameTests bareReaders (fun _ => "1") ["q"] [bareTest] "t.csv" bareTable "t.json"
      (Json.arr [bareDoc]).text := plain_sameTests rfl rfl (isRow_plain rfl rfl rfl rfl rfl)
  refine ⟨same, ?_, same.loadJson, rfl, rfl⟩
  rw [SameTests.loadTable same]
  rfl

/-- **A table gives the tests of the JSON file that spells the same if and only if each of them is
spelled by its row;** a blank cell leaves its field unset in every column but three, and a threshold
that is not blank is used or rejected if and only if it is a number. -/
theorem table_agrees_iff {tests : List TestCase} {tablePath tableText jsonPath jsonText : String}
    (same : SameTests readers showF64 keys tests tablePath tableText jsonPath jsonText) :
    (loadTestFile readers tablePath tableText = loadTestFile readers jsonPath jsonText ↔
      ∀ tc ∈ tests, Tabular tc) ∧
    (∀ column ∈ reserved, ∀ cell, trimText cell = "" →
      (setCell readers tablePath TestCase.default (column, cell) = .ok TestCase.default ↔
        column ∉ ["id", "description", "cache_salt"])) ∧
    ∀ cell, trimText cell ≠ "" →
      (((∃ q, setCell readers tablePath TestCase.default ("threshold", cell) =
          .ok { TestCase.default with threshold := some q }) ∨
        ∃ e, setCell readers tablePath TestCase.default ("threshold", cell) = .error e) ↔
        readers.parseF64 (trimText cell) ≠ none) :=
  ⟨same.agrees_iff, fun _ hcolumn _ hcell => setCell_blank same.empty hcolumn hcell,
    fun _ _ => setCell_threshold⟩

/-- A test with an id, a description and a salt. -/
def fullTest : TestCase :=
  { bareTest with id := some "a", description := some "d", cacheSalt := some "s" }

def fullDoc : Json :=
  .obj [("id", .str "a"), ("description", .str "d"), ("cache_salt", .str "s"),
    ("vars", .obj [("q", .str "x")])]

def fullTable : String :=
  "id,description,threshold,cache_salt,expect_fail,tags,__assert,__history,q\na,d,,s,,,,,x\n"

def fullReaders : Readers := plainReaders fullTable ["a", "d", "", "s", "", "", "", "", "x"] fullDoc

theorem full_table_agrees :
    loadTestFile fullReaders "t.csv" fullTable =
      loadTestFile fullReaders "t.json" (Json.arr [fullDoc]).text := by
  have same : SameTests fullReaders (fun _ => "1") ["q"] [fullTest] "t.csv" fullTable "t.json"
      (Json.arr [fullDoc]).text := plain_sameTests rfl rfl (isRow_plain rfl rfl rfl rfl rfl)
  refine (table_agrees_iff same).1.mpr (List.forall_mem_singleton.mpr ?_)
  exact {
    id := Option.some_ne_none _
    description := Option.some_ne_none _
    cacheSalt := Option.some_ne_none _
    tags := fun tag htag => by cases htag
    reason := fun reason h => by cases h
    history := fun file h => by cases h
    vars := List.forall_mem_singleton.mpr (by decide)
    matrix := rfl
    matrixId := rfl
    onlyProviders := rfl
    skipProviders := rfl }

end TableTests
