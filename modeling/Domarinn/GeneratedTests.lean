/-
The test cases a generator prints: one object with a `tests` array, or one test object a line.

`parseTests` tells the two apart by trial: a text that starts as an object is read whole first.

* **`parseTests_formats`** — a list of test objects is returned from the object form, and from one
  object a line with blank lines anywhere unless there is exactly one; an array in one line is one
  item;
* **`json_array_is_one_item`** — so the three encodings do not agree.
-/
import Domarinn.Asserts
import Domarinn.Pieces

open Json Pieces

/-- `GenerateError`, for a generator that ran. -/
inductive GenerateError where
  | badTests (command : List String) (message : String)
deriving DecidableEq

/-! ### Reading the tests -/

/-- A line without the `\r` before its end. -/
def stripCr (line : List Char) : List Char :=
  if line.getLast? = some '\r' then line.dropLast else line

/-- `str::lines`: the last line is no line when it is empty. -/
def lines (text : List Char) : List (List Char) :=
  let split := text.splitOn '\n'
  split.dropLast.map stripCr ++ split.getLast?.toList.filter fun line => !line.isEmpty

/-- The JSONL form: the items of the lines that are not blank, up to the first that is no JSON. -/
def parseLines (fromStr : String → Except String Json) (command : List String) :
    List (List Char) → Except GenerateError (List Json)
  | [] => .ok []
  | line :: rest =>
    let line := trim isWhitespace line
    if line.isEmpty then parseLines fromStr command rest
    else
      match fromStr (String.ofList line) with
      | .error e => .error (.badTests command s!"invalid JSONL line: {e}")
      | .ok value =>
        match parseLines fromStr command rest with
        | .error e => .error e
        | .ok items => .ok (value :: items)

/-- `parse_tests`, with `serde_json::from_str` as a parameter. -/
def parseTests (fromStr : String → Except String Json) (stdout : String) (command : List String) :
    Except GenerateError (List Json) :=
  let trimmed := trimText stdout
  if trimmed = "" then .ok []
  else
    -- a text that starts as an object but is none goes on to the lines
    let whole? : Option (List (String × Json)) :=
      if startsWithText trimmed "\x7b" then
        match fromStr trimmed with
        | .ok (.obj members) => some members
        | _ => none
      else none
    match whole? with
    | some members =>
      match member? "tests" members with
      | some (.arr items) => .ok items
      | _ => .error (.badTests command "object form must have a 'tests' array")
    | none => parseLines fromStr command (lines trimmed.toList)

/-! ### Lines -/

theorem trim_stripCr (line : List Char) :
    trim isWhitespace (stripCr line) = trim isWhitespace line := by
  rw [stripCr]
  split_ifs with h
  · -- the character that was taken off is white space
    obtain ⟨init, rfl⟩ := List.getLast?_eq_some_iff.mp h
    rw [List.dropLast_concat, trim_append_of_pos (by decide)]
  · rfl

/-- The lines that are not blank are the pieces of the text. -/
theorem pieces_lines (text : List Char) :
    ((lines text).map (trim isWhitespace)).filter (fun piece => !piece.isEmpty) =
      pieces isWhitespace '\n' text := by
  obtain ⟨init, last, hsplit⟩ := (List.eq_nil_or_concat (text.splitOn '\n')).resolve_left
    (List.splitOn_ne_nil _ _)
  rw [List.concat_eq_append] at hsplit
  have hinit : (init.map stripCr).map (trim isWhitespace) = init.map (trim isWhitespace) := by
    rw [List.map_map]
    exact List.map_congr_left fun line _ => trim_stripCr line
  rw [lines, pieces, hsplit, List.dropLast_concat, List.getLast?_concat, List.map_append,
    List.map_append, List.filter_append, List.filter_append, hinit]
  congr 1
  -- an empty last line is blank
  cases last <;> rfl

/-- Lines that are blank, and else the texts of documents that can be read. -/
theorem parseLines_eq_ok {fromStr : String → Except String Json} {command : List String} :
    ∀ {ls : List (List Char)} {vs : List Json},
      ((ls.map (trim isWhitespace)).filter fun piece => !piece.isEmpty) = vs.map render →
        (∀ v ∈ vs, fromStr v.text = .ok v) → parseLines fromStr command ls = .ok vs
  | [], vs, h, _ => by
    rw [List.map_eq_nil_iff.mp h.symm]
    rfl
  | line :: ls, vs, h, hreads => by
    rw [List.map_cons] at h
    rw [parseLines]
    cases hline : (trim isWhitespace line).isEmpty with
    | true =>
      rw [List.filter_cons_of_neg (by rw [hline]; exact Bool.false_ne_true)] at h
      exact parseLines_eq_ok h hreads
    | false =>
      rw [List.filter_cons_of_pos (by rw [hline]; rfl)] at h
      obtain ⟨v, vs, rfl, hv, hvs⟩ := List.map_eq_cons_iff.mp h.symm
      rw [List.forall_mem_cons] at hreads
      have hread : fromStr (String.ofList (trim isWhitespace line)) = .ok v := hv ▸ hreads.1
      simp only [Bool.false_eq_true, if_false, hread, parseLines_eq_ok hvs.symm hreads.2]

/-! ### Texts of documents -/

theorem newline_free_renderString (s : String) : '\n' ∉ renderString s := by
  have hchar (c : Char) : '\n' ∉ escapeChar c := by
    unfold escapeChar
    split_ifs with h1 h2 h3 h4 h5 h6 h7 h8
    · decide
    · decide
    · decide
    · decide
    · decide
    · decide
    · decide
    · -- the digits of a control character
      have hhigh : c.toNat / 16 < 2 := by omega
      have hlow : c.toNat % 16 < 16 := Nat.mod_lt _ (by omega)
      generalize c.toNat / 16 = high at hhigh
      generalize c.toNat % 16 = low at hlow
      interval_cases high <;> interval_cases low <;> decide
    · rw [List.mem_singleton]
      exact fun hc => h5 hc.symm
  rw [renderString, List.mem_cons, List.mem_append, List.mem_flatMap]
  rintro (h | ⟨c, -, hc⟩ | h)
  · cases h
  · exact hchar c hc
  · exact absurd h (by decide)

/-- **The text of a document is one line.** -/
theorem newline_free_render (v : Json) : '\n' ∉ render v := by
  induction v using Json.induct with
  | null => rw [render]; decide
  | bool b => cases b <;> rw [render] <;> decide
  | num n =>
    -- a number has digits, signs, a point and an exponent
    rw [render]
    exact fun h => absurd (numeric_renderNumber n _ h) (by decide)
  | str s =>
    rw [render]
    exact newline_free_renderString s
  | arr items ih =>
    have hitems : ∀ first, '\n' ∉ renderItems first items := by
      induction items with
      | nil => exact fun first => by rw [renderItems]; exact List.not_mem_nil
      | cons x xs ihxs =>
        rw [List.forall_mem_cons] at ih
        intro first
        rw [renderItems, List.mem_append, List.mem_append]
        rintro ((h | h) | h)
        · cases first <;> exact absurd h (by decide)
        · exact ih.1 h
        · exact ihxs ih.2 false h
    rw [render, List.mem_cons, List.mem_append]
    rintro (h | h | h)
    · cases h
    · exact hitems true h
    · exact absurd h (by decide)
  | obj members ih =>
    have hmembers : ∀ first, '\n' ∉ renderMembers first members := by
      induction members with
      | nil => exact fun first => by rw [renderMembers]; exact List.not_mem_nil
      | cons m ms ihms =>
        rw [List.forall_mem_cons] at ih
        intro first
        rw [renderMembers, List.mem_append, List.mem_append, List.mem_append, List.mem_cons]
        rintro (((h | h) | h | h) | h)
        · cases first <;> exact absurd h (by decide)
        · exact newline_free_renderString _ h
        · cases h
        · exact ih.1 h
        · exact ihms ih.2 false h
    rw [render, List.mem_cons, List.mem_append]
    rintro (h | h | h)
    · cases h
    · exact hmembers true h
    · exact absurd h (by decide)

theorem trimText_ofList (text : List Char) :
    trimText (String.ofList text) = String.ofList (trim isWhitespace text) := by
  rw [trimText, String.toList_ofList]
  rfl

/-- No white space is around a text in brackets. -/
theorem trim_bracketed {first last : Char} (hfirst : isWhitespace first = false)
    (hlast : isWhitespace last = false) (text : List Char) :
    trim isWhitespace (first :: (text ++ [last])) = first :: (text ++ [last]) := by
  rw [← List.cons_append]
  refine trim_eq_self (fun c hc => ?_) fun c hc => ?_
  · rwa [← Option.some_inj.mp hc]
  · rw [List.getLast?_concat] at hc
    rwa [← Option.some_inj.mp hc]

theorem trim_render_obj (members : List (String × Json)) :
    trim isWhitespace (render (.obj members)) = render (.obj members) := by
  rw [render]
  exact trim_bracketed rfl rfl _

theorem trim_render_arr (items : List Json) :
    trim isWhitespace (render (.arr items)) = render (.arr items) := by
  rw [render]
  exact trim_bracketed rfl rfl _

theorem text_ne_empty (v : Json) : v.text ≠ "" := by
  intro h
  obtain ⟨c, t, hrender, -⟩ := render_head v
  have hnil : render v = [] := String.ofList_injective h
  rw [hrender] at hnil
  cases hnil

/-! ### The encodings of a list of tests -/

/-- What `serde_json` promises of a text it has written: it is read back, and it is refused where
anything but white space follows it. -/
structure ReadsAlone (fromStr : String → Except String Json) (v : Json) : Prop where
  back : fromStr v.text = .ok v
  trailing : ∀ t, (∃ c ∈ t, isWhitespace c = false) →
    ∀ w, fromStr (String.ofList (render v ++ t)) ≠ .ok w

/-- `{"tests": [...]}`. -/
def testsDocument (objs : List Json) : Json := .obj [("tests", .arr objs)]

/-- Lines that are the texts of the documents, with blank lines between them. -/
structure JsonLines (objs : List Json) (ls : List (List Char)) : Prop where
  separate : ∀ l ∈ ls, '\n' ∉ l
  items : (ls.filter fun l => !l.all isWhitespace) = objs.map render

section Encodings

variable {fromStr : String → Except String Json} {objs : List Json} {ls : List (List Char)}

theorem parseTests_object (command : List String)
    (h : fromStr (testsDocument objs).text = .ok (testsDocument objs)) :
    parseTests fromStr (testsDocument objs).text command = .ok objs := by
  have htrim : trimText (testsDocument objs).text = (testsDocument objs).text := by
    rw [Json.text, trimText_ofList, testsDocument, trim_render_obj]
  have hstarts : startsWithText (testsDocument objs).text "\x7b" = true := by
    rw [Json.text, testsDocument, render, startsWithText, String.toList_ofList,
      String.toList_ofList]
    rfl
  simp only [parseTests, htrim, if_neg (text_ne_empty _), hstarts, if_true, h]
  rfl

/-- An array in one line is one item. -/
theorem parseTests_array (command : List String)
    (h : fromStr (Json.arr objs).text = .ok (.arr objs)) :
    parseTests fromStr (Json.arr objs).text command = .ok [.arr objs] := by
  have htrim : trimText (Json.arr objs).text = (Json.arr objs).text := by
    rw [Json.text, trimText_ofList, trim_render_arr]
  have hstarts : startsWithText (Json.arr objs).text "\x7b" = false := by
    rw [Json.text, startsWithText, String.toList_ofList, String.toList_ofList, render]
    rfl
  have hpiece : ((lines (render (.arr objs))).map (trim isWhitespace)).filter
      (fun piece => !piece.isEmpty) = [Json.arr objs].map render := by
    rw [pieces_lines, pieces_of_not_mem (newline_free_render _), trim_render_arr]
    refine List.filter_cons_of_pos ?_
    rw [render]
    rfl
  have hlines : parseLines fromStr command (lines (Json.arr objs).text.toList) =
      .ok [.arr objs] := by
    rw [Json.text, String.toList_ofList]
    exact parseLines_eq_ok hpiece (List.forall_mem_singleton.mpr h)
  simp only [parseTests, htrim, if_neg (text_ne_empty _), hstarts, Bool.false_eq_true, if_false,
    hlines]

/-- The pieces of the joined lines are the texts of the objects. -/
theorem JsonLines.pieces (hobj : ∀ v ∈ objs, ∃ members, v = .obj members)
    (h : JsonLines objs ls) :
    pieces isWhitespace '\n' (['\n'].intercalate ls) = objs.map render := by
  have hkeep : (ls.map (trim isWhitespace)).filter (fun piece => !piece.isEmpty) =
      (ls.filter fun l => !l.all isWhitespace).map (trim isWhitespace) := by
    rw [List.filter_map]
    congr 1
    exact List.filter_congr fun l _ => congrArg not isEmpty_trim
  rw [pieces_intercalate h.separate, hkeep, h.items, List.map_map]
  refine List.map_congr_left fun v hv => ?_
  obtain ⟨members, rfl⟩ := hobj v hv
  exact trim_render_obj members

/-- Two objects or more are not read as one: after the first comes more than white space. -/
theorem JsonLines.not_whole (hobj : ∀ v ∈ objs, ∃ members, v = .obj members)
    (hreads : ∀ v ∈ objs, ReadsAlone fromStr v) (hlen : 1 < objs.length)
    (h : JsonLines objs ls) (w : Json) :
    fromStr (String.ofList (trim isWhitespace (['\n'].intercalate ls))) ≠ .ok w := by
  obtain ⟨v, v', rest, rfl⟩ : ∃ v v' rest, objs = v :: v' :: rest := by
    match objs, hlen with
    | v :: v' :: rest, _ => exact ⟨v, v', rest, rfl⟩
  obtain ⟨before, after, rfl, hblank, -, hafter⟩ := List.filter_eq_cons_iff.mp h.items
  obtain ⟨members, rfl⟩ := hobj v List.mem_cons_self
  obtain ⟨members', rfl⟩ := hobj v' (List.mem_cons_of_mem _ List.mem_cons_self)
  -- the second object is in a line behind the first
  have hsecond : render (.obj members') ∈ after := by
    have hmem : render (.obj members') ∈ after.filter fun l => !l.all isWhitespace := by
      rw [hafter]
      exact List.mem_cons_self
    exact List.mem_of_mem_filter hmem
  have hne : after ≠ [] := List.ne_nil_of_mem hsecond
  have hbrace : '{' ∈ '\n' :: ['\n'].intercalate after := by
    refine List.mem_cons_of_mem _ (mem_intercalate hsecond ?_)
    rw [render]
    exact List.mem_cons_self
  have hblank : ∀ l ∈ before, ∀ c ∈ l, isWhitespace c = true := fun l hl => by
    have hl := hblank l hl
    rwa [Bool.not_eq_true, Bool.not_eq_false', List.all_eq_true] at hl
  have hnewline : isWhitespace '\n' = true := rfl
  obtain ⟨ws, hws, hjoin⟩ := exists_intercalate_append hnewline
    (List.cons_ne_nil (render (.obj members)) after) hblank
  have htrim : trim isWhitespace (['\n'].intercalate (before ++ render (.obj members) :: after)) =
      render (.obj members) ++ ('\n' :: ['\n'].intercalate after).rdropWhile isWhitespace := by
    rw [hjoin, List.intercalate_cons_of_ne_nil hne, List.append_assoc, List.singleton_append]
    rw [← rdropWhile_append_of_mem hbrace rfl, render, List.cons_append]
    exact trim_eq_cons hws rfl
  rw [htrim]
  exact (hreads _ List.mem_cons_self).trailing _ ⟨_, mem_rdropWhile hbrace rfl, rfl⟩ w

/-- One object a line, unless there is only one. -/
theorem parseTests_jsonl (command : List String)
    (hobj : ∀ v ∈ objs, ∃ members, v = .obj members) (hreads : ∀ v ∈ objs, ReadsAlone fromStr v)
    (hlen : objs.length ≠ 1) (h : JsonLines objs ls) :
    parseTests fromStr (String.ofList (['\n'].intercalate ls)) command = .ok objs := by
  have hlines : parseLines fromStr command (lines (trim isWhitespace (['\n'].intercalate ls))) =
      .ok objs := by
    refine parseLines_eq_ok ?_ fun v hv => (hreads v hv).back
    rw [pieces_lines, pieces_trim, h.pieces hobj]
  rw [parseTests, trimText_ofList]
  by_cases hnil : objs = []
  · -- without an object every line is blank
    have hblank : trim isWhitespace (['\n'].intercalate ls) = [] := by
      refine trim_of_all (blank_intercalate rfl fun l hl => ?_)
      have hitems := h.items
      rw [hnil, List.map_nil, List.filter_eq_nil_iff] at hitems
      have hl := hitems l hl
      rwa [Bool.not_eq_true, Bool.not_eq_false', List.all_eq_true] at hl
    rw [hblank, hnil]
    rfl
  · have hpos := List.length_pos_iff.mpr hnil
    have hwhole := h.not_whole hobj hreads (by omega)
    dsimp only
    split_ifs with hempty hstarts
    · have htrim : trim isWhitespace (['\n'].intercalate ls) = [] := String.ofList_injective hempty
      rw [htrim] at hlines
      exact hlines
    · -- the text starts as an object and is none
      cases hfrom : fromStr (String.ofList (trim isWhitespace (['\n'].intercalate ls))) with
      | ok w => exact absurd hfrom (hwhole w)
      | error e => rwa [String.toList_ofList]
    · rwa [String.toList_ofList]

/-- **The formats a generator can print in**: for every list of test objects the object form, and
for every list but those of one object the lines.  An array is no format: it is read as a line. -/
theorem parseTests_formats (command : List String)
    (hobj : ∀ v ∈ objs, ∃ members, v = .obj members) (hreads : ∀ v ∈ objs, ReadsAlone fromStr v)
    (hdocument : fromStr (testsDocument objs).text = .ok (testsDocument objs))
    (harray : fromStr (Json.arr objs).text = .ok (.arr objs)) :
    parseTests fromStr (testsDocument objs).text command = .ok objs ∧
      (objs.length ≠ 1 → ∀ ls, JsonLines objs ls →
        parseTests fromStr (String.ofList (['\n'].intercalate ls)) command = .ok objs) ∧
      parseTests fromStr (Json.arr objs).text command = .ok [.arr objs] :=
  ⟨parseTests_object command hdocument,
    fun hlen _ hls => parseTests_jsonl command hobj hreads hlen hls,
    parseTests_array command harray⟩

end Encodings

/-! ### Two tests in each encoding -/

/-- A parser that reads the texts of these documents, and no other. -/
def readerOfAll (docs : List Json) (s : String) : Except String Json :=
  match docs.find? fun v => s = v.text with
  | some v => .ok v
  | none => .error "expected value at line 1 column 1"

theorem readsAlone_readerOfAll {docs : List Json} {v : Json} (hv : v ∈ docs)
    (h : ∀ w ∈ docs, render v <+: render w → w = v) : ReadsAlone (readerOfAll docs) v where
  back := by
    have hsome : (docs.find? fun w => v.text = w.text).isSome = true :=
      List.find?_isSome.mpr ⟨v, hv, decide_eq_true rfl⟩
    obtain ⟨w, hw⟩ := Option.isSome_iff_exists.mp hsome
    have heq := List.find?_some hw
    have htext : render v = render w := String.ofList_injective (of_decide_eq_true heq)
    rw [readerOfAll, hw, render_inj.mp htext]
  trailing t ht w hread := by
    rw [readerOfAll] at hread
    cases hfind : docs.find? fun w => String.ofList (render v ++ t) = w.text with
    | none =>
      rw [hfind] at hread
      cases hread
    | some u =>
      have heq := List.find?_some hfind
      have htext : render v ++ t = render u := String.ofList_injective (of_decide_eq_true heq)
      -- the text that was read is the document's own
      have hu := h u (List.mem_of_find?_eq_some hfind) ⟨t, htext⟩
      rw [hu, List.append_right_eq_self] at htext
      obtain ⟨c, hc, -⟩ := ht
      rw [htext] at hc
      cases hc

/-- Two test objects. -/
def twoTests : List Json := [.obj [("id", .str "a")], .obj [("id", .str "b")]]

/-- A parser that reads the two tests, and both ways to put them into one document. -/
def twoTestsReader : String → Except String Json :=
  readerOfAll (testsDocument twoTests :: .arr twoTests :: twoTests)

theorem readsAlone_twoTests : (∀ v ∈ twoTests, ∃ members, v = .obj members) ∧
    (∀ v ∈ testsDocument twoTests :: .arr twoTests :: twoTests,
      ReadsAlone twoTestsReader v) := by
  refine ⟨?_, fun v hv => readsAlone_readerOfAll hv ?_⟩
  · rw [twoTests, List.forall_mem_cons, List.forall_mem_singleton]
    exact ⟨⟨_, rfl⟩, _, rfl⟩
  · revert v
    decide +kernel

/-- The two tests as lines, with a blank line at both ends and between them. -/
def twoTestsLines : List (List Char) :=
  [[], render (.obj [("id", .str "a")]), [' '], render (.obj [("id", .str "b")]), []]

theorem jsonLines_twoTests : JsonLines twoTests twoTestsLines where
  separate := by decide +kernel
  items := by decide +kernel

theorem parseTests_formats_two :
    parseTests twoTestsReader (testsDocument twoTests).text ["gen"] = .ok twoTests ∧
      parseTests twoTestsReader (String.ofList (['\n'].intercalate twoTestsLines)) ["gen"] =
        .ok twoTests ∧
      parseTests twoTestsReader (Json.arr twoTests).text ["gen"] = .ok [.arr twoTests] := by
  obtain ⟨hobj, hreads⟩ := readsAlone_twoTests
  have hdocument := (hreads _ List.mem_cons_self).back
  have harray := (hreads _ (List.mem_cons_of_mem _ List.mem_cons_self)).back
  have hitems : ∀ v ∈ twoTests, ReadsAlone twoTestsReader v := fun v hv =>
    hreads v (List.mem_cons_of_mem _ (List.mem_cons_of_mem _ hv))
  obtain ⟨hobject, hjsonl, hline⟩ := parseTests_formats ["gen"] hobj hitems hdocument harray
  exact ⟨hobject, hjsonl (by decide) _ jsonLines_twoTests, hline⟩

/-- The three encodings do not agree: an array of two tests is read as a line with one item. -/
theorem json_array_is_one_item : ¬ ∀ (fromStr : String → Except String Json) (objs : List Json)
    (ls : List (List Char)) (command : List String), (∀ v ∈ objs, ∃ members, v = .obj members) →
      (∀ v ∈ testsDocument objs :: .arr objs :: objs, ReadsAlone fromStr v) → JsonLines objs ls →
        parseTests fromStr (Json.arr objs).text command = .ok objs ∧
          parseTests fromStr (testsDocument objs).text command = .ok objs ∧
          parseTests fromStr (String.ofList (['\n'].intercalate ls)) command = .ok objs := by
  intro h
  obtain ⟨hobj, hreads⟩ := readsAlone_twoTests
  have harray := parseTests_array ["gen"]
    (hreads _ (List.mem_cons_of_mem _ List.mem_cons_self)).back
  rw [(h _ _ _ ["gen"] hobj hreads jsonLines_twoTests).1, Except.ok.injEq] at harray
  cases harray
