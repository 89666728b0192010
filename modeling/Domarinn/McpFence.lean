/-
The fence around stored output, and what gets out of it.

A text is fenced when it has one opening and one closing marker, and nothing that is stored
stands outside them.  The fence breaks up the closing marker in what it wraps, but neither the
opening one, nor the subject that it names.

* **`occurrences_neutralize`** — wrapped text has no closing marker, and every opening one;
* **`occurrences_pretty`**, **`occurrences_table`** — the markers of a document's text are those
  of its strings and names, or of the cells shown;
* **`fence_holds_iff`** — exactly when the three texts are fenced.
-/
import Domarinn.McpText
import Domarinn.Occurrences
import Mathlib.Algebra.Order.BigOperators.Group.List

open Json

/-- What the opening marker begins with. -/
def openingMarker : List Char := "<untrusted".toList

/-- What the closing marker begins with. -/
def closingMarker : List Char := "</untrusted".toList

/-- What is stored is rendered between one opening and one closing marker. -/
structure Fenced (render : Json → List Char) (stored : Json) : Prop where
  opening : occurrences openingMarker (render stored) = 1
  closing : occurrences closingMarker (render stored) = 1
  /-- Whatever is stored, the same text stands before the markers, and the warning after them. -/
  outside : ∃ before, ∀ other, ∃ inside, render other =
    before ++ openingMarker ++ inside ++ closingMarker ++ ">\n\n".toList ++ untrustedWarning.toList

/-- Text that does not open a fence. -/
def OpensNone (s : String) : Prop := occurrences openingMarker s.toList = 0

/-- Text with neither marker. -/
def Unmarked (s : String) : Prop := OpensNone s ∧ occurrences closingMarker s.toList = 0

/-- The members of a case that the table of cases shows. -/
def shownMembers : List String :=
  ["case_key", "status", "score", "provider_id", "prompt_id", "test_id", "stop_reason",
    "empty_reason", "answered_by_provider_id", "output_preview"]

/-- No case of a list shows a string that opens a fence. -/
def RowsOpenNone (cases : Json) : Prop :=
  ∀ rows, cases = arr rows → ∀ row ∈ rows, ∀ k ∈ shownMembers, ∀ s, index row k = str s →
    OpensNone s

/-! ### The markers -/

/-- What stands between the parts of a text. -/
def separators : List Char := [' ', '\n', '"', '\\', ':', ',', '[', ']', '{', '}', '>']

section
variable {q : List Char}

/-- A separator of the texts is no character of a marker. -/
theorem notMem_marker (hq : '<' :: q ⊆ closingMarker) {c : Char} (hc : c ∈ separators) :
    c ∉ '<' :: q := by
  have hnone : (separators.all fun c => decide (c ∉ closingMarker)) = true := by decide
  exact fun h => of_decide_eq_true (List.all_eq_true.mp hnone c hc) (hq h)

theorem notMem_text {c : Char} {s : String} {cs : List Char} (h : s = String.ofList cs)
    (hc : c ∉ cs) : c ∉ s.toList := by
  rwa [toList_text h]

/-- Digits, and what else a number is written with. -/
theorem notMem_renderNumber (n : JsonNumber) : '<' ∉ renderNumber n := by
  intro h
  have hnum := numeric_renderNumber n '<' h
  revert hnum
  decide

theorem notMem_hexDigits (n : ℕ) : '<' ∉ Nat.toDigits 16 n := fun h =>
  @Numerals.forall_mem_toDigits 16 (· ≠ '<') (by decide) (by decide) n '<' h rfl

theorem escapeChar_cases (c : Char) :
    escapeChar c = [c] ∨ ∃ e, escapeChar c = '\\' :: e ∧ '<' ∉ e := by
  have hhex : ∀ n < 16, '<' ≠ hexDigit n := by decide
  have hescape : ∀ d : Char, '<' ≠ d →
      ['\\', d] = [c] ∨ ∃ e, ['\\', d] = '\\' :: e ∧ '<' ∉ e :=
    fun d hd => .inr ⟨_, rfl, fun h => hd (List.mem_singleton.mp h)⟩
  rw [escapeChar]
  iterate 7
    refine iteInduction (motive := fun l => l = [c] ∨ ∃ e, l = '\\' :: e ∧ '<' ∉ e)
      (fun _ => hescape _ (by decide)) fun _ => ?_
  split
  case isTrue hcontrol =>
    refine .inr ⟨_, rfl, ?_⟩
    have hhigh := hhex (c.toNat / 16) (by omega)
    have hlow := hhex (c.toNat % 16) (Nat.mod_lt _ (by decide))
    simp [hhigh, hlow]
  case isFalse => exact .inl rfl

theorem debugChar_cases (printable : Char → Bool) (c : Char) :
    debugChar printable c = [c] ∨ ∃ e, debugChar printable c = '\\' :: e ∧ '<' ∉ e := by
  unfold debugChar
  iterate 4
    split
    · exact .inr ⟨_, rfl, by decide⟩
  split
  case isTrue hquoted => obtain rfl | rfl := hquoted <;> exact .inr ⟨_, rfl, by decide⟩
  split
  · exact .inl rfl
  · refine .inr ⟨_, rfl, ?_⟩
    have hdigits := notMem_hexDigits c.toNat
    simp [hdigits]

/-- The characters of a marker stand for themselves in a JSON string. -/
theorem occurrences_escaped (hq : '<' :: q ⊆ closingMarker) (text : List Char) :
    occurrences ('<' :: q) (text.flatMap escapeChar) = occurrences ('<' :: q) text := by
  have hplain : (closingMarker.all fun c => decide (escapeChar c = [c])) = true := by decide
  exact occurrences_flatMap escapeChar_cases (notMem_marker hq (by decide))
    (fun c hc => of_decide_eq_true (List.all_eq_true.mp hplain c (hq hc))) text

theorem occurrences_renderString (hq : '<' :: q ⊆ closingMarker) (s : String) :
    occurrences ('<' :: q) (renderString s) = occurrences ('<' :: q) s.toList := by
  have hp : '<' :: q ≠ [] := List.cons_ne_nil _ _
  rw [renderString, occurrences_cons_of_notMem hp (notMem_marker hq (by decide)),
    occurrences_append_cons hp (notMem_marker hq (by decide)), occurrences_escaped hq]
  rfl

/-! ### What the fence replaces -/

/-- What comes after the first character of a marker is not touched. -/
theorem prefix_neutralize_iff : ∀ {p text : List Char}, '<' ∉ p →
    (p <+: neutralize text ↔ p <+: text)
  | [], _, _ => by simp
  | _ :: _, [], _ => by simp [neutralize]
  | x :: p, c :: text, hp => by
    obtain ⟨hx, hp⟩ := not_or.mp (mt List.mem_cons.mpr hp)
    rw [neutralize]
    split_ifs with h
    · rw [h.1, List.cons_prefix_cons, List.cons_prefix_cons]
      exact iff_of_false (fun h => hx h.1.symm) fun h => hx h.1.symm
    · rw [List.cons_prefix_cons, List.cons_prefix_cons, prefix_neutralize_iff hp]

theorem not_prefix_of_ne {p text : List Char} {x y : Char} (h : x ≠ y) :
    ¬ x :: p <+: y :: text := fun hp => h (List.cons_prefix_cons.mp hp).1

theorem not_prefix_of_second_ne {p text : List Char} {m x y : Char} (h : x ≠ y) :
    ¬ m :: x :: p <+: m :: y :: text :=
  fun hp => not_prefix_of_ne h (List.cons_prefix_cons.mp hp).2

theorem openingMarker_eq : openingMarker = '<' :: 'u' :: "ntrusted".toList := by decide

theorem closingMarker_eq : closingMarker = '<' :: '/' :: "untrusted".toList := by decide

/-- **Wrapped text has no closing marker**, and every opening one. -/
theorem occurrences_neutralize : ∀ text : List Char,
    occurrences closingMarker (neutralize text) = 0 ∧
      occurrences openingMarker (neutralize text) = occurrences openingMarker text
  | [] => ⟨rfl, rfl⟩
  | c :: text => by
    obtain ⟨hclosing, hopening⟩ := occurrences_neutralize text
    have hslash : "/untrusted".toList = '/' :: "untrusted".toList := by decide
    rw [openingMarker_eq] at hopening ⊢
    rw [closingMarker_eq] at hclosing ⊢
    rw [neutralize, hslash]
    split_ifs with h
    · -- a closing marker is broken up
      obtain ⟨rfl, hrest⟩ := h
      obtain ⟨t, rfl⟩ := List.isPrefixOf_iff_prefix.mp hrest
      constructor
      · rw [occurrences, if_neg (not_prefix_of_second_ne (by decide)), occurrences,
          if_neg (not_prefix_of_ne (by decide)), hclosing]
      · rw [occurrences, if_neg (not_prefix_of_second_ne (by decide)), occurrences,
          if_neg (not_prefix_of_ne (by decide)), hopening, occurrences, List.cons_append,
          if_neg (not_prefix_of_second_ne (by decide)), Nat.zero_add]
    · constructor
      · have hno : ¬ '<' :: '/' :: "untrusted".toList <+: c :: neutralize text := by
          rw [List.cons_prefix_cons, prefix_neutralize_iff (by decide)]
          exact fun hc => h ⟨hc.1.symm, List.isPrefixOf_iff_prefix.mpr hc.2⟩
        rw [occurrences, if_neg hno, hclosing]
      · have hsame : '<' :: 'u' :: "ntrusted".toList <+: c :: neutralize text ↔
            '<' :: 'u' :: "ntrusted".toList <+: c :: text := by
          rw [List.cons_prefix_cons, List.cons_prefix_cons, prefix_neutralize_iff (by decide)]
        rw [occurrences, occurrences, hopening, if_congr hsame rfl rfl]

/-! ### Documents -/

/-- A bracket that closes, on a line of its own. -/
theorem occurrences_close (hq : '<' :: q ⊆ closingMarker) {c : Char} (hc : c = ']' ∨ c = '\x7d')
    (text : List Char) (depth : ℕ) :
    occurrences ('<' :: q) (text ++ newline depth ++ [c]) = occurrences ('<' :: q) text := by
  rw [List.append_assoc]
  refine occurrences_append_of_disjoint fun d hd => notMem_marker hq ?_
  rw [newline, List.cons_append, List.mem_cons, List.mem_append, List.mem_replicate,
    List.mem_singleton] at hd
  obtain rfl | ⟨-, rfl⟩ | rfl := hd
  · decide
  · decide
  · obtain rfl | rfl := hc <;> decide

theorem head_prettyItems (xs : List Json) (depth : ℕ) (first : Bool) :
    ∀ c ∈ (prettyItems depth first xs).head?, c = ',' ∨ c = '\n' := by
  cases xs <;> cases first <;> simp [prettyItems, newline]

theorem head_prettyMembers (ms : List (String × Json)) (depth : ℕ) (first : Bool) :
    ∀ c ∈ (prettyMembers depth first ms).head?, c = ',' ∨ c = '\n' := by
  cases ms <;> cases first <;> simp [prettyMembers, newline]

mutual

/-- **The markers of a document's text** are those of its strings and names. -/
theorem occurrences_pretty (hq : '<' :: q ⊆ closingMarker) : ∀ (v : Json) (depth : ℕ),
    occurrences ('<' :: q) (pretty depth v) = 0 ↔
      Throughout (fun s => occurrences ('<' :: q) s.toList = 0) v
  | .null, _ => by
    rw [pretty, render, occurrences_eq_zero (by decide)]
    exact iff_of_true rfl throughout_null
  | .bool b, _ => by
    have hv : Throughout (fun s => occurrences ('<' :: q) s.toList = 0) (bool b) :=
      ⟨by rw [keys] <;> nofun, by rw [strings] <;> nofun⟩
    cases b <;> rw [pretty, render, occurrences_eq_zero (by decide)] <;> exact iff_of_true rfl hv
  | .num n, _ => by
    have hv : Throughout (fun s => occurrences ('<' :: q) s.toList = 0) (num n) :=
      ⟨by rw [keys] <;> nofun, by rw [strings] <;> nofun⟩
    rw [pretty, render, occurrences_eq_zero (notMem_renderNumber n)]
    exact iff_of_true rfl hv
  | .str s, _ => by rw [pretty, render, occurrences_renderString hq, throughout_str]
  | .arr [], _ => by
    rw [pretty, occurrences_eq_zero (by decide), throughout_arr]
    exact iff_of_true rfl nofun
  | .arr (x :: xs), depth => by
    have hp : '<' :: q ≠ [] := List.cons_ne_nil _ _
    rw [pretty, occurrences_cons_of_notMem hp (notMem_marker hq (by decide)),
      occurrences_close hq (by decide), occurrences_prettyItems hq, throughout_arr]
  | .obj [], _ => by
    rw [pretty, occurrences_eq_zero (by decide), throughout_obj]
    exact iff_of_true rfl nofun
  | .obj (m :: ms), depth => by
    have hp : '<' :: q ≠ [] := List.cons_ne_nil _ _
    rw [pretty, occurrences_cons_of_notMem hp (notMem_marker hq (by decide)),
      occurrences_close hq (by decide), occurrences_prettyMembers hq, throughout_obj]

theorem occurrences_prettyItems (hq : '<' :: q ⊆ closingMarker) :
    ∀ (xs : List Json) (depth : ℕ) (first : Bool),
    occurrences ('<' :: q) (prettyItems depth first xs) = 0 ↔
      ∀ x ∈ xs, Throughout (fun s => occurrences ('<' :: q) s.toList = 0) x
  | [], _, _ => by
    rw [prettyItems]
    exact iff_of_true rfl nofun
  | x :: xs, depth, first => by
    have hlead : '<' ∉ (if first then [] else [',']) ++ newline depth := by
      cases first <;> simp [newline]
    have hrest : ∀ c ∈ (prettyItems depth false xs).head?, c ∉ '<' :: q := fun c hc => by
      obtain rfl | rfl := head_prettyItems xs depth false c hc <;>
        exact notMem_marker hq (by decide)
    rw [prettyItems, List.append_assoc _ (pretty depth x), occurrences_append_of_notMem hlead,
      occurrences_append_of_head (List.cons_ne_nil _ _) hrest, Nat.add_eq_zero_iff,
      occurrences_pretty hq x depth, occurrences_prettyItems hq xs depth false,
      List.forall_mem_cons]

theorem occurrences_prettyMembers (hq : '<' :: q ⊆ closingMarker) :
    ∀ (ms : List (String × Json)) (depth : ℕ) (first : Bool),
    occurrences ('<' :: q) (prettyMembers depth first ms) = 0 ↔
      ∀ m ∈ ms, occurrences ('<' :: q) m.1.toList = 0 ∧
        Throughout (fun s => occurrences ('<' :: q) s.toList = 0) m.2
  | [], _, _ => by
    rw [prettyMembers]
    exact iff_of_true rfl nofun
  | (k, v) :: ms, depth, first => by
    have hp : '<' :: q ≠ [] := List.cons_ne_nil _ _
    have hlead : '<' ∉ (if first then [] else [',']) ++ newline depth := by
      cases first <;> simp [newline]
    have hrest : ∀ c ∈ (prettyMembers depth false ms).head?, c ∉ '<' :: q := fun c hc => by
      obtain rfl | rfl := head_prettyMembers ms depth false c hc <;>
        exact notMem_marker hq (by decide)
    have hparts : prettyMembers depth first ((k, v) :: ms) =
        ((if first then [] else [',']) ++ newline depth) ++
          (renderString k ++ ':' :: (' ' :: (pretty depth v ++ prettyMembers depth false ms))) := by
      rw [prettyMembers, List.append_assoc, List.append_assoc]
      rfl
    rw [hparts, occurrences_append_of_notMem hlead,
      occurrences_append_cons hp (notMem_marker hq (by decide)), occurrences_renderString hq,
      occurrences_cons_of_notMem hp (notMem_marker hq (by decide)),
      occurrences_append_of_head hp hrest, Nat.add_eq_zero_iff, Nat.add_eq_zero_iff,
      occurrences_pretty hq v depth, occurrences_prettyMembers hq ms depth false,
      List.forall_mem_cons, and_assoc]

end

/-! ### Tables -/

/-- A row is its cells, apart from one another and from what follows. -/
theorem occurrences_pushRow (hq : '<' :: q ⊆ closingMarker) (rest : List Char)
    (cells : List (List Char)) (widths : List ℕ) :
    occurrences ('<' :: q) (pushRow widths cells ++ rest) =
      (cells.map (occurrences ('<' :: q))).sum + occurrences ('<' :: q) rest := by
  induction cells generalizing widths with
  | nil =>
    rw [pushRow]
    exact occurrences_cons_of_notMem (List.cons_ne_nil _ _) (notMem_marker hq (by decide)) |>.trans
      (Nat.zero_add _).symm
  | cons cell cells ih =>
    cases cells with
    | nil =>
      rw [pushRow, List.append_assoc, List.singleton_append,
        occurrences_append_cons (List.cons_ne_nil _ _) (notMem_marker hq (by decide)),
        List.map_singleton, List.sum_singleton]
    | cons next cells =>
      have hspaces : ∀ n, '<' ∉ List.replicate n ' ' := fun n => by simp
      rw [pushRow, List.append_assoc, List.append_assoc, List.replicate_succ, List.cons_append,
        occurrences_append_cons (List.cons_ne_nil _ _) (notMem_marker hq (by decide)),
        occurrences_append_of_notMem (hspaces _), ih]
      · simp only [List.map_cons, List.sum_cons, Nat.add_assoc]
      · exact List.cons_ne_nil next cells

theorem occurrences_rows (hq : '<' :: q ⊆ closingMarker) (widths : List ℕ) :
    ∀ rows : List (List (List Char)), occurrences ('<' :: q) (rows.flatMap (pushRow widths)) =
      (rows.map fun cells => (cells.map (occurrences ('<' :: q))).sum).sum
  | [] => rfl
  | cells :: rows => by
    rw [List.flatMap_cons, occurrences_pushRow hq, occurrences_rows hq widths rows, List.map_cons,
      List.sum_cons]

/-- Only a string is shown with a marker. -/
theorem occurrences_scalar (v : Json) : occurrences ('<' :: q) (scalar v) = 0 ↔
    ∀ s, v = str s → occurrences ('<' :: q) s.toList = 0 := by
  cases v with
  | str s =>
    constructor
    · intro h t heq
      rwa [← str.inj heq]
    · exact fun h => h s rfl
  | num n => exact iff_of_true (occurrences_eq_zero (notMem_renderNumber n)) fun _ h => by cases h
  | arr items => exact iff_of_true (occurrences_eq_zero (notMem_renderNumber (.posInt _))) fun _ h => by cases h
  | bool b => cases b <;> exact iff_of_true (occurrences_eq_zero (by decide)) fun _ h => by cases h
  | null => exact iff_of_true (occurrences_eq_zero (by decide)) fun _ h => by cases h
  | obj members =>
    have hdots : '<' ∉ "\x7b…\x7d".toList := notMem_text rfl (by decide)
    exact iff_of_true (occurrences_eq_zero hdots) fun _ h => by cases h

/-- **The markers of a table** are those of the cells that it shows. -/
theorem occurrences_table (hq : '<' :: q ⊆ closingMarker) {rows : Json} {columns : List Column}
    (hheaders : ∀ c ∈ columns, '<' ∉ c.header.toList) :
    occurrences ('<' :: q) (table rows columns) = 0 ↔
      ∀ items, rows = arr items → ∀ row ∈ items, ∀ c ∈ columns, ∀ s,
        index row c.key = str s → occurrences ('<' :: q) s.toList = 0 := by
  have hspace : ∀ c ∈ '<' :: q, isWhitespace c = false := fun c hc => by
    have hnone : (closingMarker.all fun c => !isWhitespace c) = true := by decide
    simpa using List.all_eq_true.mp hnone c (hq hc)
  have hnone : occurrences ('<' :: q) "(no rows)".toList = 0 := occurrences_eq_zero (by decide)
  unfold table
  split
  case h_2 hrows =>
    refine iff_of_true hnone ?_
    rintro items rfl row hrow
    cases items with
    | nil => cases hrow
    | cons x items => exact absurd rfl (hrows x items)
  case h_1 row rest =>
    have hzero : ((columns.map fun c => c.header.toList).map
        (occurrences ('<' :: q))).sum = 0 := by
      rw [List.sum_eq_zero_iff, List.map_map]
      exact List.forall_mem_map.mpr fun c hc => occurrences_eq_zero (hheaders c hc)
    rw [occurrences_rdropWhile hspace, occurrences_pushRow hq, hzero, Nat.zero_add,
      occurrences_rows hq, List.map_map, List.sum_eq_zero_iff, List.forall_mem_map]
    simp only [Function.comp_apply, List.map_map, List.sum_eq_zero_iff, List.forall_mem_map,
      occurrences_scalar]
    constructor
    · rintro h items hitems
      rwa [← arr.inj hitems]
    · exact fun h => h _ rfl

/-! ### The three texts -/

/-- A fence, taken apart at the characters that no marker has. -/
theorem fence_eq (text subject : List Char) : fence text "stored_model_output" subject =
    openingMarker ++ ' ' :: ("source=".toList ++ '"' :: ("stored_model_output".toList ++
      '"' :: (" subject=".toList ++ '"' :: (subject ++ '"' :: '>' :: '\n' ::
        (neutralize text ++ '\n' :: (closingMarker ++ ['>'])))))) := by
  have hsource : "source=".toList = ['s', 'o', 'u', 'r', 'c', 'e', '='] := toList_text rfl
  have hattr : " subject=".toList = [' ', 's', 'u', 'b', 'j', 'e', 'c', 't', '='] := toList_text rfl
  have hopen : "<untrusted source=\"".toList =
      openingMarker ++ ' ' :: ("source=".toList ++ ['"']) := by
    rw [hsource]
    exact toList_text rfl
  have hsubject : "\" subject=\"".toList = '"' :: (" subject=".toList ++ ['"']) := by
    rw [hattr]
    exact toList_text rfl
  have hbody : "\">\n".toList = ['"', '>', '\n'] := toList_text rfl
  have hclose : "\n</untrusted>".toList = '\n' :: (closingMarker ++ ['>']) := toList_text rfl
  have hflatten : ∀ a b c d : List Char, a = openingMarker ++ ' ' :: ("source=".toList ++ ['"']) →
      b = '"' :: (" subject=".toList ++ ['"']) → c = ['"', '>', '\n'] →
      d = '\n' :: (closingMarker ++ ['>']) →
      [a, "stored_model_output".toList, b, subject, c, neutralize text, d].flatten =
        openingMarker ++ ' ' :: ("source=".toList ++ '"' :: ("stored_model_output".toList ++
          '"' :: (" subject=".toList ++ '"' :: (subject ++ '"' :: '>' :: '\n' ::
            (neutralize text ++ '\n' :: (closingMarker ++ ['>'])))))) := by
    rintro _ _ _ _ rfl rfl rfl rfl
    simp only [List.flatten_cons, List.flatten_nil, List.append_assoc, List.cons_append,
      List.nil_append, List.append_nil]
  exact hflatten _ _ _ _ hopen hsubject hbody hclose

/-- The markers of a fence: those of its tags, its subject and what it wraps. -/
theorem occurrences_fence (hq : '<' :: q ⊆ closingMarker) (text subject rest : List Char) :
    occurrences ('<' :: q) (fence text "stored_model_output" subject ++ '\n' :: rest) =
      occurrences ('<' :: q) openingMarker + occurrences ('<' :: q) subject +
        occurrences ('<' :: q) (neutralize text) + occurrences ('<' :: q) closingMarker +
          occurrences ('<' :: q) rest := by
  have hp : '<' :: q ≠ [] := List.cons_ne_nil _ _
  have hsep (c : Char) (hc : c ∈ separators) : c ∉ '<' :: q := notMem_marker hq hc
  have hend : occurrences ('<' :: q) (closingMarker ++ ['>']) =
      occurrences ('<' :: q) closingMarker :=
    (occurrences_append_cons hp (hsep '>' (by decide))).trans (Nat.add_zero _)
  rw [occurrences_append_cons hp (hsep '\n' (by decide)), fence_eq,
    occurrences_append_cons hp (hsep ' ' (by decide)),
    occurrences_append_cons hp (hsep '"' (by decide)),
    occurrences_eq_zero (by decide : '<' ∉ "source=".toList), Nat.zero_add,
    occurrences_append_cons hp (hsep '"' (by decide)),
    occurrences_eq_zero (by decide : '<' ∉ "stored_model_output".toList), Nat.zero_add,
    occurrences_append_cons hp (hsep '"' (by decide)),
    occurrences_eq_zero (by decide : '<' ∉ " subject=".toList), Nat.zero_add,
    occurrences_append_cons hp (hsep '"' (by decide)),
    occurrences_cons_of_notMem hp (hsep '>' (by decide)),
    occurrences_cons_of_notMem hp (hsep '\n' (by decide)),
    occurrences_append_cons hp (hsep '\n' (by decide)), hend]
  omega

/-- What follows a fence has no marker. -/
theorem occurrences_warning : occurrences ('<' :: q) ('\n' :: untrustedWarning.toList) = 0 := by
  have happend : ∀ a b : String, '<' ∉ a.toList → '<' ∉ b.toList → '<' ∉ (a ++ b).toList := by
    intro a b ha hb
    rw [String.toList_append, List.mem_append]
    exact not_or.mpr ⟨ha, hb⟩
  refine occurrences_eq_zero (List.not_mem_cons_of_ne_of_not_mem (by decide) ?_)
  exact happend _ _ (notMem_text rfl (by decide)) (notMem_text rfl (by decide))

/-- A text with one fence in it, behind a heading that ends its line. -/
structure OneFence (render body : Json → List Char) (heading subject : List Char) : Prop where
  text : ∀ v, render v = heading ++
    (fence (body v) "stored_model_output" subject ++ '\n' :: '\n' :: untrustedWarning.toList)
  line : heading = [] ∨ ∃ line, heading = line ++ ['\n']

variable {render body : Json → List Char} {heading subject : List Char}

/-- The markers of such a text, beside those of its fence. -/
theorem OneFence.occurrences_eq (h : OneFence render body heading subject) (stored : Json) :
    occurrences openingMarker (render stored) = occurrences openingMarker heading +
        (1 + occurrences openingMarker subject + occurrences openingMarker (body stored)) ∧
      occurrences closingMarker (render stored) = occurrences closingMarker heading +
        (occurrences closingMarker subject + 1) := by
  have hcount : ∀ p q, p = '<' :: q → p ⊆ closingMarker → occurrences p (render stored) =
      occurrences p heading + (occurrences p openingMarker + occurrences p subject +
        occurrences p (neutralize (body stored)) + occurrences p closingMarker) := by
    rintro _ q rfl hq
    have htext := occurrences_fence hq (body stored) subject ('\n' :: untrustedWarning.toList)
    rw [occurrences_warning, Nat.add_zero] at htext
    rw [h.text, ← htext]
    obtain rfl | ⟨line, rfl⟩ := h.line
    · exact (Nat.zero_add _).symm
    · have hp : '<' :: q ≠ [] := List.cons_ne_nil _ _
      have hn : '\n' ∉ '<' :: q := notMem_marker hq (by decide)
      have hline : occurrences ('<' :: q) (line ++ ['\n']) = occurrences ('<' :: q) line :=
        (occurrences_append_cons hp hn).trans (Nat.add_zero _)
      rw [List.append_assoc, List.singleton_append, occurrences_append_cons hp hn, hline]
  have hself : occurrences openingMarker openingMarker = 1 ∧
      occurrences closingMarker closingMarker = 1 := by decide
  have hother : occurrences openingMarker closingMarker = 0 ∧
      occurrences closingMarker openingMarker = 0 := by decide
  obtain ⟨hneutralized, hkept⟩ := occurrences_neutralize (body stored)
  constructor
  · rw [hcount _ _ openingMarker_eq (by decide), hself.1, hother.1, hkept, Nat.add_zero]
  · rw [hcount _ _ closingMarker_eq (List.Subset.refl _), hself.2, hother.2, hneutralized,
      Nat.zero_add, Nat.add_zero]

theorem OneFence.outside (h : OneFence render body heading subject) (stored : Json) :
    ∃ inside, render stored = heading ++ openingMarker ++ inside ++ closingMarker ++
      ">\n\n".toList ++ untrustedWarning.toList := by
  have hend : ">\n\n".toList = ['>', '\n', '\n'] := by decide
  refine ⟨' ' :: ("source=".toList ++ '"' :: ("stored_model_output".toList ++ '"' ::
    (" subject=".toList ++ '"' :: (subject ++ '"' :: '>' :: '\n' ::
      (neutralize (body stored) ++ ['\n']))))), ?_⟩
  rw [h.text, fence_eq, hend]
  simp only [List.append_assoc, List.cons_append, List.nil_append]

/-- **The fence holds** where what stands in it, and beside it, has no marker. -/
theorem OneFence.fenced_iff (h : OneFence render body heading subject) (stored : Json) :
    Fenced render stored ↔ occurrences openingMarker (body stored) = 0 ∧
      (occurrences openingMarker heading = 0 ∧ occurrences closingMarker heading = 0) ∧
        occurrences openingMarker subject = 0 ∧ occurrences closingMarker subject = 0 := by
  obtain ⟨hopening, hclosing⟩ := h.occurrences_eq stored
  constructor
  · intro hfenced
    have ho := hopening.symm.trans hfenced.opening
    have hc := hclosing.symm.trans hfenced.closing
    omega
  · rintro ⟨hbody, ⟨ho, hc⟩, ho', hc'⟩
    exact ⟨by rw [hopening, ho, ho', hbody], by rw [hclosing, hc, hc'], heading, h.outside⟩

end

/-! ### The rows of the table -/

theorem index_insertMember (k k' : String) (v : Json) (members : List (String × Json)) :
    index (obj (insertMember k' v members)) k = if k' = k then v else index (obj members) k := by
  rw [index, getMember, member?_insertMember]
  split_ifs <;> rfl

/-- A case as the table reads it. -/
def withAnswerer : Json → Json
  | obj members => obj (insertMember effectiveAnswerer (effectiveOf (obj members)) members)
  | row => row

theorem withEffectiveAnswerer_arr (rows : List Json) :
    withEffectiveAnswerer (arr rows) = arr (rows.map withAnswerer) := by
  rw [withEffectiveAnswerer]
  congr 1
  refine List.map_congr_left fun row _ => ?_
  cases row <;> rfl

/-- The members that the source reads are still there. -/
theorem index_withAnswerer {k : String} (hk : effectiveAnswerer ≠ k) (row : Json) :
    index (withAnswerer row) k = index row k := by
  cases row with
  | obj members => rw [withAnswerer, index_insertMember, if_neg hk]
  | _ => rfl

/-- **The answerer that is shown** is one of the two members that name one. -/
theorem answerer_iff {P : String → Prop} (hempty : P "") (row : Json)
    (hprovider : ∀ s, index row "provider_id" = str s → P s) :
    (∀ s, index (withAnswerer row) effectiveAnswerer = str s → P s) ↔
      ∀ s, index row "answered_by_provider_id" = str s → P s := by
  have hshown : ∀ s, index (withAnswerer row) effectiveAnswerer = str s →
      index row "answered_by_provider_id" = str s ∨ index row "provider_id" = str s := by
    intro s hs
    cases row with
    | obj members =>
      rw [withAnswerer, index_insertMember, if_pos rfl, effectiveOf] at hs
      split at hs
      case h_1 answerer hanswerer =>
        split_ifs at hs with hblank
        · exact .inr hs
        · exact .inl (hanswerer.trans hs)
      case h_2 => exact .inr hs
    | _ => cases hs
  constructor
  · intro h s hs
    by_cases hblank : s.isEmpty
    · rw [String.isEmpty_iff.mp hblank]
      exact hempty
    · refine h s ?_
      cases row with
      | obj members =>
        rw [withAnswerer, index_insertMember, if_pos rfl, effectiveOf, hs]
        exact if_neg hblank
      | _ => cases hs
  · intro h s hs
    exact (hshown s hs).elim (h s) (hprovider s)

/-- The cells that are shown open no fence exactly when the members do not. -/
theorem rowsOpenNone_iff (stored : Json) :
    occurrences openingMarker (table (withEffectiveAnswerer stored)
        [⟨"case_key", "case_key"⟩, ⟨"status", "status"⟩, ⟨"score", "score"⟩,
          ⟨"provider", "provider_id"⟩, ⟨"prompt", "prompt_id"⟩, ⟨"test", "test_id"⟩,
          ⟨"stop", "stop_reason"⟩, ⟨"empty", "empty_reason"⟩, ⟨"answered_by", effectiveAnswerer⟩,
          ⟨"preview", "output_preview"⟩]) = 0 ↔ RowsOpenNone stored := by
  rw [openingMarker_eq, occurrences_table (by decide) (by decide), ← openingMarker_eq]
  have hrow : ∀ row : Json, (∀ c ∈ ([⟨"case_key", "case_key"⟩, ⟨"status", "status"⟩,
      ⟨"score", "score"⟩, ⟨"provider", "provider_id"⟩, ⟨"prompt", "prompt_id"⟩,
      ⟨"test", "test_id"⟩, ⟨"stop", "stop_reason"⟩, ⟨"empty", "empty_reason"⟩,
      ⟨"answered_by", effectiveAnswerer⟩, ⟨"preview", "output_preview"⟩] : List Column), ∀ s,
        index (withAnswerer row) c.key = str s → OpensNone s) ↔
      ∀ k ∈ shownMembers, ∀ s, index row k = str s → OpensNone s := by
    intro row
    have hempty : OpensNone "" := rfl
    have hanswerer := answerer_iff hempty row
    simp only [shownMembers, List.forall_mem_cons, List.not_mem_nil, false_implies, implies_true,
      and_true]
    simp (disch := decide) only [index_withAnswerer]
    tauto
  cases stored with
  | arr rows =>
    rw [withEffectiveAnswerer_arr]
    constructor
    · intro h items hitems row hmem
      obtain rfl := arr.inj hitems
      exact (hrow row).mp (h _ rfl _ (List.mem_map_of_mem hmem))
    · intro h items hitems row hmem
      obtain rfl := arr.inj hitems
      obtain ⟨row, hin, rfl⟩ := List.mem_map.mp hmem
      exact (hrow row).mpr (h rows rfl row hin)
  | _ => exact iff_of_true nofun nofun

/-! ### When the fence holds -/

theorem flatten_text {a b c d f gap warning : List Char} (hc : c = d) (hgap : gap = ['\n', '\n']) :
    [a, b, c, f, gap, warning].flatten = (a ++ b ++ d) ++ (f ++ '\n' :: '\n' :: warning) := by
  subst hc hgap
  simp only [List.flatten_cons, List.flatten_nil, List.append_assoc, List.cons_append,
    List.nil_append, List.append_nil]

theorem flatten_fence {f gap warning : List Char} (hgap : gap = ['\n', '\n']) :
    [f, gap, warning].flatten = f ++ '\n' :: '\n' :: warning := by
  subst hgap
  simp only [List.flatten_cons, List.flatten_nil, List.cons_append, List.nil_append,
    List.append_nil]

/-- The markers of a heading are those of what it repeats. -/
theorem occurrences_heading {a b c : List Char} (ha : '<' ∉ a) (hc : c ⊆ separators) :
    occurrences openingMarker (a ++ b ++ c) = occurrences openingMarker b ∧
      occurrences closingMarker (a ++ b ++ c) = occurrences closingMarker b := by
  have hcount : ∀ p q, p = '<' :: q → p ⊆ closingMarker →
      occurrences p (a ++ b ++ c) = occurrences p b := by
    rintro _ q rfl hq
    rw [occurrences_append_of_disjoint fun d hd => notMem_marker hq (hc hd),
      occurrences_append_of_notMem ha]
  exact ⟨hcount _ _ openingMarker_eq (by decide),
    hcount _ _ closingMarker_eq (List.Subset.refl _)⟩

theorem opensNone_jsonBlock (stored : Json) :
    occurrences openingMarker (jsonBlock stored) = 0 ↔ Throughout OpensNone stored := by
  rw [openingMarker_eq, jsonBlock, occurrences_pretty (by decide), ← openingMarker_eq]
  rfl

theorem oneFence_caseDetail (subject : String) :
    OneFence (caseDetail · subject) jsonBlock [] subject.toList :=
  ⟨fun _ => flatten_fence (by decide), .inl rfl⟩

theorem fenced_caseDetail_iff (stored : Json) (subject : String) :
    Fenced (caseDetail · subject) stored ↔ Throughout OpensNone stored ∧ Unmarked subject := by
  rw [(oneFence_caseDetail subject).fenced_iff, opensNone_jsonBlock]
  exact and_congr_right fun _ => and_iff_right ⟨rfl, rfl⟩

theorem fenced_casesTable_iff (stored : Json) (subject : String) :
    Fenced (casesTable · subject) stored ↔ RowsOpenNone stored ∧ Unmarked subject := by
  have htext : OneFence (casesTable · subject) _ ("cases in run ".toList ++ subject.toList ++ ['\n'])
      subject.toList := ⟨fun _ => flatten_text rfl (by decide), .inr ⟨_, rfl⟩⟩
  obtain ⟨hopening, hclosing⟩ := @occurrences_heading _ subject.toList ['\n']
    (by decide : '<' ∉ "cases in run ".toList) (by decide)
  rw [htext.fenced_iff, hopening, hclosing, rowsOpenNone_iff, and_self_iff]
  rfl

theorem fenced_searchText_iff (printable : Char → Bool) (stored : Json) (subject : String) :
    Fenced (searchText printable · subject) stored ↔
      Throughout OpensNone stored ∧ Unmarked subject := by
  set query := subject.toList.flatMap (debugChar printable) with hquery
  have hline : "search results for \"".toList ++ query ++ ['"', '\n'] =
      ("search results for \"".toList ++ query ++ ['"']) ++ ['\n'] := by
    rw [List.append_assoc _ ['"']]
    rfl
  have htext : OneFence (searchText printable · subject) jsonBlock
      ("search results for \"".toList ++ query ++ ['"', '\n']) subject.toList :=
    ⟨fun _ => flatten_text (by decide) (by decide), .inr ⟨_, hline⟩⟩
  obtain ⟨hopening, hclosing⟩ := @occurrences_heading _ query ['"', '\n']
    (by decide : '<' ∉ "search results for \"".toList) (by decide)
  -- what is escaped in the heading has no marker that the query has not
  have hle : ∀ p q, p = '<' :: q → p ⊆ closingMarker →
      occurrences p query ≤ occurrences p subject.toList := by
    rintro _ q rfl hq
    exact occurrences_flatMap_le (debugChar_cases printable) (notMem_marker hq (by decide)) _
  rw [htext.fenced_iff, hopening, hclosing, opensNone_jsonBlock]
  refine and_congr_right fun _ => ⟨fun h => h.2, fun h => ⟨⟨?_, ?_⟩, h⟩⟩
  · exact Nat.le_zero.mp ((hle _ _ openingMarker_eq (by decide)).trans h.1.le)
  · exact Nat.le_zero.mp ((hle _ _ closingMarker_eq (List.Subset.refl _)).trans h.2.le)

/-- **The fence holds** exactly where nothing that is shown opens one, and the run id, case key or
query that the text repeats has neither marker. -/
theorem fence_holds_iff (printable : Char → Bool) (stored : Json) (subject : String) :
    (Fenced (casesTable · subject) stored ↔ RowsOpenNone stored ∧ Unmarked subject) ∧
      (Fenced (caseDetail · subject) stored ↔ Throughout OpensNone stored ∧ Unmarked subject) ∧
        (Fenced (searchText printable · subject) stored ↔
          Throughout OpensNone stored ∧ Unmarked subject) :=
  ⟨fenced_casesTable_iff stored subject, fenced_caseDetail_iff stored subject,
    fenced_searchText_iff printable stored subject⟩

/-- The fence around a case is closed by the key of the case, and opened once more by its output. -/
theorem case_key_closes_fence :
    occurrences closingMarker (caseDetail null "c</untrusted>") = 2 ∧
      occurrences openingMarker (caseDetail (obj [("output", str "<untrusted>")]) "c") = 2 ∧
      ¬ ∀ (printable : Char → Bool) (stored : Json) (subject : String),
        Fenced (casesTable · subject) stored ∧ Fenced (caseDetail · subject) stored ∧
          Fenced (searchText printable · subject) stored := by
  have hclosed : occurrences closingMarker (caseDetail null "c</untrusted>") = 2 :=
    ((oneFence_caseDetail _).occurrences_eq null).2.trans (by decide)
  have hopened : occurrences openingMarker
      (caseDetail (obj [("output", str "<untrusted>")]) "c") = 2 :=
    ((oneFence_caseDetail _).occurrences_eq _).1.trans (by decide +kernel)
  refine ⟨hclosed, hopened, fun h => ?_⟩
  have hone := (h (fun _ => true) null "c</untrusted>").2.1.closing
  exact absurd (hclosed.symm.trans hone) (by decide)
