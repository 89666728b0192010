/-
The pieces of a text: what stands between its separators, without the blanks around it.

Letters, the separator and what counts as blank are arbitrary; the separator is blank itself, as the
end of a line is.

* **`pieces_trim`** — the blanks around a whole text are of no matter to its pieces;
* **`pieces_intercalate`** — the pieces of lines that were joined are the lines that are not blank.
-/
import Mathlib.Data.List.DropRight
import Mathlib.Data.List.Induction

namespace Pieces

variable {α : Type*} {p : α → Bool} {sep : α} {l l' ws : List α} {c : α}

/-! ### Blanks around a text -/

/-- A text without the blanks at its ends. -/
def trim (p : α → Bool) (l : List α) : List α := (l.dropWhile p).rdropWhile p

theorem trim_of_all (h : ∀ c ∈ l, p c = true) : trim p l = [] := by
  rw [trim, List.dropWhile_eq_nil_iff.mpr h, List.rdropWhile_nil]

theorem trim_cons_of_pos (h : p c = true) : trim p (c :: l) = trim p l := by
  rw [trim, List.dropWhile_cons_of_pos h, trim]

/-- Nothing is taken off a text that neither starts nor ends with a blank. -/
theorem trim_cons_of_neg (h : p c = false) : trim p (c :: l) = (c :: l).rdropWhile p := by
  rw [trim, List.dropWhile_cons_of_neg (by rw [h]; exact Bool.false_ne_true)]

theorem trim_append_of_pos (h : p c = true) : trim p (l ++ [c]) = trim p l := by
  induction l with
  | nil => rw [List.nil_append, trim_cons_of_pos h]
  | cons x l ih =>
    by_cases hx : p x = true
    · rw [List.cons_append, trim_cons_of_pos hx, trim_cons_of_pos hx, ih]
    · rw [Bool.not_eq_true] at hx
      rw [List.cons_append, trim_cons_of_neg hx, trim_cons_of_neg hx, ← List.cons_append,
        List.rdropWhile_concat_pos _ _ _ h]

/-- A text that starts and ends with other letters. -/
theorem trim_eq_self (hfirst : ∀ c ∈ l.head?, p c = false) (hlast : ∀ c ∈ l.getLast?, p c = false) :
    trim p l = l := by
  cases l with
  | nil => rfl
  | cons c l =>
    rw [trim_cons_of_neg (hfirst c rfl), List.rdropWhile_eq_self_iff]
    intro hne hblank
    rw [hlast _ (List.getLast?_eq_getLast_of_ne_nil hne)] at hblank
    cases hblank

/-- What is left starts with another letter. -/
theorem trim_eq_cons (hws : ∀ c ∈ ws, p c = true) (hc : p c = false) :
    trim p (ws ++ c :: l) = (c :: l).rdropWhile p := by
  rw [trim, List.dropWhile_append_of_pos hws,
    List.dropWhile_cons_of_neg (by rw [hc]; exact Bool.false_ne_true)]

/-- Only blanks are taken off the end. -/
theorem rdropWhile_append_of_mem {x : α} (hx : x ∈ l') (hp : p x = false) :
    (l ++ l').rdropWhile p = l ++ l'.rdropWhile p := by
  induction l' using List.reverseRecOn with
  | nil => cases hx
  | append_singleton t y ih =>
    rw [← List.append_assoc]
    by_cases hy : p y = true
    · rw [List.rdropWhile_concat_pos _ _ _ hy, List.rdropWhile_concat_pos _ _ _ hy]
      obtain ht | rfl := (List.mem_append.mp hx).imp_right List.mem_singleton.mp
      · exact ih ht
      · rw [hp] at hy
        cases hy
    · rw [List.rdropWhile_concat_neg _ _ _ hy, List.rdropWhile_concat_neg _ _ _ hy,
        List.append_assoc]

/-- A letter that is no blank stays. -/
theorem mem_rdropWhile {x : α} (hx : x ∈ l) (hp : p x = false) : x ∈ l.rdropWhile p := by
  induction l using List.reverseRecOn with
  | nil => cases hx
  | append_singleton t y ih =>
    by_cases hy : p y = true
    · rw [List.rdropWhile_concat_pos _ _ _ hy]
      obtain ht | rfl := (List.mem_append.mp hx).imp_right List.mem_singleton.mp
      · exact ih ht
      · rw [hp] at hy
        cases hy
    · rwa [List.rdropWhile_concat_neg _ _ _ hy]

theorem mem_of_mem_trim {x : α} (h : x ∈ trim p l) : x ∈ l :=
  (List.dropWhile_suffix p).subset ((List.rdropWhile_prefix p _).subset h)

/-- What is left starts with no blank. -/
theorem trim_head (h : trim p l = c :: l') : p c = false := by
  have hdrop : (l.dropWhile p).head? = some c := by
    obtain ⟨rest, hrest⟩ := List.rdropWhile_prefix p (l.dropWhile p)
    rw [trim] at h
    rw [← hrest, h, List.cons_append, List.head?_cons]
  have hnot := List.head?_dropWhile_not p l
  rw [hdrop] at hnot
  exact hnot

theorem trim_trim : trim p (trim p l) = trim p l := by
  refine trim_eq_self (fun c hc => ?_) fun c hc => ?_
  · obtain ⟨rest, hrest⟩ := List.head?_eq_some_iff.mp hc
    exact trim_head hrest
  · have hne : trim p l ≠ [] := fun hnil => by rw [hnil] at hc; cases hc
    have hlast := List.rdropWhile_last_not p (l.dropWhile p) hne
    rw [Bool.not_eq_true] at hlast
    rw [List.getLast?_eq_getLast_of_ne_nil hne] at hc
    rw [← Option.some.inj hc]
    exact hlast

theorem isEmpty_trim : (trim p l).isEmpty = l.all p := by
  rw [Bool.eq_iff_iff, List.isEmpty_iff, List.all_eq_true]
  refine ⟨fun h c hc => ?_, trim_of_all⟩
  by_contra hp
  rw [Bool.not_eq_true] at hp
  -- a letter that is no blank is still there
  have hdrop : c ∈ l.dropWhile p := by
    have hsplit : l.takeWhile p ++ l.dropWhile p = l := List.takeWhile_append_dropWhile
    rw [← hsplit, List.mem_append] at hc
    obtain htake | hdrop := hc
    · rw [List.mem_takeWhile_imp htake] at hp
      cases hp
    · exact hdrop
  have hmem := mem_rdropWhile hdrop hp
  rw [trim] at h
  rw [h] at hmem
  cases hmem

/-! ### Lines that are joined -/

theorem mem_intercalate {ls : List (List α)} (hl : l ∈ ls) (hc : c ∈ l) :
    c ∈ [sep].intercalate ls := by
  induction ls with
  | nil => cases hl
  | cons first rest ih =>
    by_cases hrest : rest = []
    · rw [hrest, List.mem_singleton] at hl
      rwa [hrest, List.intercalate_singleton, ← hl]
    · rw [List.intercalate_cons_of_ne_nil hrest]
      obtain rfl | hl := List.mem_cons.mp hl
      · exact List.mem_append_left _ (List.mem_append_left _ hc)
      · exact List.mem_append_right _ (ih hl)

/-- Blank lines that are joined. -/
theorem blank_intercalate (hsep : p sep = true) {ls : List (List α)}
    (h : ∀ l ∈ ls, ∀ c ∈ l, p c = true) : ∀ c ∈ [sep].intercalate ls, p c = true := by
  induction ls with
  | nil => exact List.forall_mem_nil _
  | cons first rest ih =>
    rw [List.forall_mem_cons] at h
    by_cases hrest : rest = []
    · rw [hrest, List.intercalate_singleton]
      exact h.1
    · rw [List.intercalate_cons_of_ne_nil hrest]
      intro c hc
      simp only [List.mem_append, List.mem_singleton] at hc
      obtain (hfirst | rfl) | hrest := hc
      · exact h.1 c hfirst
      · exact hsep
      · exact ih h.2 c hrest

/-- Blank lines before the others. -/
theorem exists_intercalate_append (hsep : p sep = true) {ls ls' : List (List α)} (hls : ls' ≠ [])
    (h : ∀ l ∈ ls, ∀ c ∈ l, p c = true) : ∃ ws, (∀ c ∈ ws, p c = true) ∧
      [sep].intercalate (ls ++ ls') = ws ++ [sep].intercalate ls' := by
  induction ls with
  | nil => exact ⟨[], List.forall_mem_nil _, rfl⟩
  | cons first rest ih =>
    rw [List.forall_mem_cons] at h
    obtain ⟨ws, hws, heq⟩ := ih h.2
    refine ⟨first ++ [sep] ++ ws, fun c hc => ?_, ?_⟩
    · simp only [List.mem_append, List.mem_singleton] at hc
      obtain (hfirst | rfl) | hrest := hc
      · exact h.1 c hfirst
      · exact hsep
      · exact hws c hrest
    · rw [List.cons_append, List.intercalate_cons_of_ne_nil (by simp [hls]), heq,
        ← List.append_assoc]

/-! ### Pieces -/

section Separator

variable [DecidableEq α]

/-- Texts that are joined are split where each of them is. -/
theorem splitOn_join {values : List (List α)} (h : values ≠ []) :
    ([sep].intercalate values).splitOn sep = values.flatMap fun value => value.splitOn sep := by
  induction values with
  | nil => exact absurd rfl h
  | cons value values ih =>
    cases values with
    | nil => simp [List.intercalate]
    | cons next values =>
      have hjoin : [sep].intercalate (value :: next :: values) =
          value ++ sep :: [sep].intercalate (next :: values) := by
        simp [List.intercalate]
      rw [hjoin, List.splitOn_append_cons_self, ih (List.cons_ne_nil next values)]
      rfl

/-- No part holds the separator. -/
theorem not_mem_part {text part : List α} (h : part ∈ text.splitOn sep) : sep ∉ part := by
  induction text generalizing part with
  | nil =>
    rw [List.splitOn_nil, List.mem_singleton] at h
    rw [h]
    exact List.not_mem_nil
  | cons c text ih =>
    rw [List.splitOn_cons_eq_if_modifyHead] at h
    split_ifs at h with hsep
    · obtain rfl | h := List.mem_cons.mp h
      · exact List.not_mem_nil
      · exact ih h
    · cases hparts : text.splitOn sep with
      | nil => exact absurd hparts (List.splitOn_ne_nil sep text)
      | cons first parts =>
        rw [hparts, List.modifyHead_cons] at h
        rw [hparts] at ih
        obtain rfl | h := List.mem_cons.mp h
        · rw [List.mem_cons, not_or]
          exact ⟨fun heq => hsep (by rw [heq, beq_self_eq_true]), ih List.mem_cons_self⟩
        · exact ih (List.mem_cons_of_mem first h)

/-- What stands between the separators and is not blank. -/
def pieces (p : α → Bool) (sep : α) (l : List α) : List (List α) :=
  ((l.splitOn sep).map (trim p)).filter fun piece => !piece.isEmpty

theorem pieces_nil : pieces p sep [] = [] := by
  rw [pieces, List.splitOn_nil]
  rfl

theorem pieces_append_sep : pieces p sep (l ++ sep :: l') = pieces p sep l ++ pieces p sep l' := by
  rw [pieces, List.splitOn_append_cons_self, List.map_append, List.filter_append, pieces, pieces]

theorem pieces_sep_cons : pieces p sep (sep :: l) = pieces p sep l := by
  have h : pieces p sep ([] ++ sep :: l) = pieces p sep [] ++ pieces p sep l := pieces_append_sep
  rwa [pieces_nil, List.nil_append, List.nil_append] at h

theorem pieces_of_not_mem (h : sep ∉ l) :
    pieces p sep l = [trim p l].filter fun piece => !piece.isEmpty := by
  rw [pieces, List.splitOn_eq_singleton h]
  rfl

/-- A blank before the text. -/
theorem pieces_cons_of_pos (h : p c = true) : pieces p sep (c :: l) = pieces p sep l := by
  by_cases hsep : c = sep
  · rw [hsep, pieces_sep_cons]
  · rw [pieces, List.splitOn_cons_eq_if_modifyHead, if_neg (by rwa [beq_iff_eq]), pieces]
    cases l.splitOn sep with
    | nil => rfl
    | cons first rest =>
      rw [List.modifyHead_cons, List.map_cons, List.map_cons, trim_cons_of_pos h]

/-- A blank after the text. -/
theorem pieces_append_of_pos (h : p c = true) : ∀ l : List α,
    pieces p sep (l ++ [c]) = pieces p sep l := by
  intro l
  by_cases hsep : c = sep
  · rw [hsep, pieces_append_sep, pieces_nil, List.append_nil]
  · by_cases hmem : sep ∈ l
    · -- the blank is behind the first separator
      obtain ⟨s, t, hl⟩ := List.append_of_mem hmem
      have hshort : t.length < l.length := by
        rw [hl, List.length_append, List.length_cons]
        omega
      rw [hl, List.append_assoc, List.cons_append, pieces_append_sep, pieces_append_sep,
        pieces_append_of_pos h t]
    · have hboth : sep ∉ l ++ [c] := by
        rw [List.mem_append, List.mem_singleton]
        rintro (hl | hc)
        · exact hmem hl
        · exact hsep hc.symm
      rw [pieces_of_not_mem hboth, pieces_of_not_mem hmem, trim_append_of_pos h]
termination_by l => l.length

theorem pieces_dropWhile : pieces p sep (l.dropWhile p) = pieces p sep l := by
  induction l with
  | nil => rfl
  | cons c l ih =>
    by_cases hc : p c = true
    · rw [List.dropWhile_cons_of_pos hc, ih, pieces_cons_of_pos hc]
    · rw [List.dropWhile_cons_of_neg hc]

theorem pieces_rdropWhile : pieces p sep (l.rdropWhile p) = pieces p sep l := by
  induction l using List.reverseRecOn with
  | nil => rfl
  | append_singleton t c ih =>
    by_cases hc : p c = true
    · rw [List.rdropWhile_concat_pos _ _ _ hc, ih, pieces_append_of_pos hc]
    · rw [List.rdropWhile_concat_neg _ _ _ hc]

/-- **Blanks around the whole text are of no matter to its pieces.** -/
theorem pieces_trim : pieces p sep (trim p l) = pieces p sep l := by
  rw [trim, pieces_rdropWhile, pieces_dropWhile]

/-- **The pieces of lines that were joined.** -/
theorem pieces_intercalate {ls : List (List α)} (h : ∀ l ∈ ls, sep ∉ l) :
    pieces p sep ([sep].intercalate ls) = (ls.map (trim p)).filter fun piece => !piece.isEmpty := by
  by_cases hls : ls = []
  · rw [hls]
    exact pieces_nil
  · rw [pieces, List.splitOn_intercalate sep h hls]

end Separator

end Pieces
