/-
Finding the JSON document that is embedded in an answer.

`extractJson` reads the whole text, and else the text from the first bracket to the one that closes
it.  The brackets are counted without a look at strings.

* **`balanced_eq_some_iff`** — what the count finds;
* **`extractJson_finds_iff`** — the document is found exactly when the whole text reads as it, or
  reads as nothing, and its own brackets are closed at its end and not before;
* **`closesAtEnd_of_plain`** — they are where no string of the document has such a bracket in it.
-/
import Domarinn.Asserts
import Domarinn.JsonStrings

open Json

/-! ### Counting brackets -/

/-- The two kinds of brackets that a document can be in. -/
inductive BracketKind where
  | brace
  | square
deriving DecidableEq

namespace BracketKind

def opening : BracketKind → Char
  | brace => '{'
  | square => '['

def closing : BracketKind → Char
  | brace => '}'
  | square => ']'

theorem opening_ne_closing (b : BracketKind) : b.opening ≠ b.closing := by
  cases b <;> decide

/-- What a character adds to the count. -/
def step (b : BracketKind) (c : Char) : ℤ :=
  if c = b.opening then 1 else if c = b.closing then -1 else 0

/-- With so many brackets open, the count comes down to zero at the end of the text and not
before. -/
def Balances (b : BracketKind) : ℤ → List Char → Prop
  | depth, [] => depth = 0
  | depth, c :: cs => 0 < depth ∧ Balances b (depth + b.step c) cs

theorem not_balances_zero_cons {b : BracketKind} {c : Char} {cs : List Char} :
    ¬ b.Balances 0 (c :: cs) := fun h => lt_irrefl 0 h.1

theorem neg_one_le_step (b : BracketKind) (c : Char) : -1 ≤ b.step c := by
  rw [step]
  split_ifs <;> omega

/-- The count, one character at a time. -/
theorem balanced_cons (b : BracketKind) {depth : ℤ} (hd : 0 < depth) (c : Char) (cs : List Char) :
    balanced b.opening b.closing depth (c :: cs) =
      if depth + b.step c = 0 then some [c]
      else (balanced b.opening b.closing (depth + b.step c) cs).map (c :: ·) := by
  rw [balanced, step]
  by_cases hopen : c = b.opening
  · rw [if_pos hopen, if_pos hopen, if_neg (show depth + 1 ≠ 0 by omega)]
  · rw [if_neg hopen, if_neg hopen]
    by_cases hclose : c = b.closing
    · rw [if_pos hclose, if_pos hclose]
      rfl
    · rw [if_neg hclose, if_neg hclose, add_zero, if_neg hd.ne']

/-- **What the count finds**: the text up to where it comes down to zero. -/
theorem balanced_eq_some_iff (b : BracketKind) : ∀ {depth : ℤ} {cs w : List Char}, 0 < depth →
    (balanced b.opening b.closing depth cs = some w ↔ b.Balances depth w ∧ w <+: cs)
  | depth, [], w, hd => by
    refine iff_of_false nofun fun h => ?_
    rw [List.prefix_nil.mp h.2] at h
    exact hd.ne' h.1
  | depth, c :: cs, w, hd => by
    rw [balanced_cons b hd]
    cases w with
    | nil =>
      -- nothing is found before a character was read
      refine iff_of_false (fun h => ?_) fun h => hd.ne' h.1
      split_ifs at h
      · simp at h
      · simp [Option.map_eq_some_iff] at h
    | cons x w =>
      rw [List.cons_prefix_cons, Balances]
      have hstep := neg_one_le_step b c
      by_cases hzero : depth + b.step c = 0
      · rw [if_pos hzero]
        constructor
        · intro h
          obtain ⟨rfl, rfl⟩ := List.cons.inj (Option.some_inj.mp h)
          exact ⟨⟨hd, hzero⟩, rfl, List.nil_prefix⟩
        · rintro ⟨⟨-, hw⟩, rfl, -⟩
          rw [hzero] at hw
          cases w with
          | nil => rfl
          | cons y w => exact absurd hw not_balances_zero_cons
      · rw [if_neg hzero, Option.map_eq_some_iff]
        simp only [balanced_eq_some_iff b (show 0 < depth + b.step c by omega), List.cons.injEq]
        constructor
        · rintro ⟨_, ⟨hw, hpre⟩, rfl, rfl⟩
          exact ⟨⟨hd, hw⟩, rfl, hpre⟩
        · rintro ⟨⟨-, hw⟩, rfl, hpre⟩
          exact ⟨w, ⟨hw, hpre⟩, rfl, rfl⟩

/-- The text that brings the count down to zero ends with a closing bracket. -/
theorem Balances.getLast? {b : BracketKind} : ∀ {depth : ℤ} {w : List Char}, 0 < depth →
    b.Balances depth w → w.getLast? = some b.closing
  | depth, [], hd, h => absurd h hd.ne'
  | depth, [c], hd, h => by
    -- only a closing bracket takes one away
    have hzero : depth + b.step c = 0 := h.2
    rw [step] at hzero
    split_ifs at hzero with hopen hclose
    · omega
    · rw [hclose]
      rfl
    · omega
  | depth, c :: c' :: w, hd, h => by
    rw [List.getLast?_cons_cons]
    exact Balances.getLast? h.2.1 h.2

/-- How many brackets are open after a text. -/
def depthAfter (b : BracketKind) (t : List Char) : ℤ := t.count b.opening - t.count b.closing

theorem depthAfter_cons (b : BracketKind) (c : Char) (t : List Char) :
    b.depthAfter (c :: t) = b.step c + b.depthAfter t := by
  have hne := b.opening_ne_closing
  rw [depthAfter, depthAfter, step, List.count_cons, List.count_cons]
  simp only [beq_iff_eq]
  split_ifs with h h'
  · exact absurd (h.symm.trans h') hne
  · push_cast
    omega
  · push_cast
    omega
  · push_cast
    omega

/-- The count comes down to zero at the end: every proper prefix leaves brackets open. -/
theorem balances_iff (b : BracketKind) : ∀ {depth : ℤ} {w : List Char},
    b.Balances depth w ↔ depth + b.depthAfter w = 0 ∧
      ∀ t, t <+: w → t ≠ w → 0 < depth + b.depthAfter t
  | depth, [] => by
    refine ⟨fun h => ⟨?_, fun t ht hne => absurd (List.prefix_nil.mp ht) hne⟩, fun h => ?_⟩
    · rw [depthAfter, List.count_nil, List.count_nil, sub_self, add_zero]
      exact h
    · have hzero := h.1
      rw [depthAfter, List.count_nil, List.count_nil, sub_self, add_zero] at hzero
      exact hzero
  | depth, c :: w => by
    rw [Balances, balances_iff b, depthAfter_cons, ← add_assoc]
    constructor
    · rintro ⟨hd, hzero, hpre⟩
      refine ⟨hzero, fun t ht hne => ?_⟩
      cases t with
      | nil =>
        -- the empty prefix leaves what was open before
        simpa [depthAfter] using hd
      | cons x t =>
        obtain ⟨rfl, hrest⟩ := List.cons_prefix_cons.mp ht
        rw [depthAfter_cons, ← add_assoc]
        exact hpre t hrest fun h => hne (congrArg _ h)
    · rintro ⟨hzero, hpre⟩
      refine ⟨?_, hzero, fun t ht hne => ?_⟩
      · simpa [depthAfter] using hpre [] List.nil_prefix (List.cons_ne_nil _ _).symm
      · have h := hpre (c :: t) (List.cons_prefix_cons.mpr ⟨rfl, ht⟩) fun h =>
          hne (List.cons.inj h).2
        rwa [depthAfter_cons, ← add_assoc] at h

end BracketKind

/-! ### The bracket kind of a document -/

/-- The brackets that a document is in, if it is an object or an array. -/
def bracketKind? : Json → Option BracketKind
  | .obj _ => some .brace
  | .arr _ => some .square
  | _ => none

/-- The brackets of its own kind, counted through the text of a document, strings included: they
are closed at its end and not before. -/
def ClosesAtEnd (b : BracketKind) (v : Json) : Prop :=
  (render v).count b.opening = (render v).count b.closing ∧
    ∀ t, t <+: render v → t ≠ [] → t ≠ render v → t.count b.closing < t.count b.opening

/-- What `serde_json` promises of the text of a document: it is not read where it is cut short, nor
where anything but white space follows it. -/
structure ReadsWhole (fromStr : String → Option Json) (v : Json) : Prop where
  cut : ∀ t, t <+: render v → t ≠ render v → fromStr (String.ofList t) = none
  trailing : ∀ t, (∃ c ∈ t, isWhitespace c = false) →
    fromStr (String.ofList (render v ++ t)) = none

theorem render_of_bracketKind {v : Json} {b : BracketKind} (h : bracketKind? v = some b) :
    ∃ body, render v = b.opening :: body := by
  cases v with
  | obj members =>
    obtain rfl := Option.some_inj.mp h
    exact ⟨_, by rw [render]; rfl⟩
  | arr items =>
    obtain rfl := Option.some_inj.mp h
    exact ⟨_, by rw [render]; rfl⟩
  | null | bool b | num n | str s => cases h

theorem closesAtEnd_iff {v : Json} {b : BracketKind} {body : List Char}
    (h : render v = b.opening :: body) : ClosesAtEnd b v ↔ b.Balances 1 body := by
  have hstep : b.step b.opening = 1 := if_pos rfl
  have hdepth (t : List Char) : 0 < 1 + b.depthAfter t ↔
      (b.opening :: t).count b.closing < (b.opening :: t).count b.opening := by
    rw [← hstep, ← BracketKind.depthAfter_cons, BracketKind.depthAfter]
    omega
  have hzero : 1 + b.depthAfter body = 0 ↔
      (render v).count b.opening = (render v).count b.closing := by
    rw [h, ← hstep, ← BracketKind.depthAfter_cons, BracketKind.depthAfter]
    omega
  rw [BracketKind.balances_iff, ClosesAtEnd, hzero, h]
  refine and_congr_right fun _ => ⟨fun hpre t ht hne => ?_, fun hpre t ht hne hfull => ?_⟩
  · exact (hdepth t).mpr (hpre _ (List.cons_prefix_cons.mpr ⟨rfl, ht⟩) (List.cons_ne_nil _ _)
      fun heq => hne (List.cons.inj heq).2)
  · cases t with
    | nil => exact absurd rfl hne
    | cons x t =>
      obtain ⟨rfl, hrest⟩ := List.cons_prefix_cons.mp ht
      exact (hdepth t).mp (hpre t hrest fun heq => hfull (congrArg _ heq))

/-- Where the whole text is no document, the scan reads the text that the count finds. -/
theorem extractJson_scan {libs : Libraries} {v : Json} {b : BracketKind}
    {body before after : List Char} (h : render v = b.opening :: body)
    (hbefore : ∀ c ∈ before, c ≠ '{' ∧ c ≠ '[')
    (hwhole : libs.fromStr (trimText (String.ofList (before ++ render v ++ after))) = none) :
    extractJson libs (String.ofList (before ++ render v ++ after)) =
      (balanced b.opening b.closing 1 (body ++ after)).bind fun w =>
        libs.fromStr (String.ofList (b.opening :: w)) := by
  have hstart : (before ++ render v ++ after).dropWhile (fun c => c != '{' && c != '[') =
      b.opening :: (body ++ after) := by
    rw [List.append_assoc, List.dropWhile_append_of_pos, h, List.cons_append, List.dropWhile_cons]
    · cases b <;> rfl
    · intro c hc
      obtain ⟨hbrace, hsquare⟩ := hbefore c hc
      simp [hbrace, hsquare]
  rw [extractJson, hwhole, String.toList_ofList]
  dsimp only
  rw [hstart]
  have hclosing : (if b.opening = '{' then '}' else ']') = b.closing := by cases b <;> rfl
  simp only [hclosing]
  rw [balanced, if_pos rfl, zero_add]
  cases balanced b.opening b.closing 1 (body ++ after) <;> rfl

/-- A text that the count finds reads as the document exactly when it is the document's text. -/
theorem found_reads_iff {libs : Libraries} {v : Json} {b : BracketKind} {body after w : List Char}
    (hreads : ReadsWhole libs.fromStr v) (h : render v = b.opening :: body)
    (hw : b.Balances 1 w) (hpre : w <+: body ++ after) :
    libs.fromStr (String.ofList (b.opening :: w)) = some v ↔
      w = body ∧ libs.fromStr v.text = some v := by
  by_cases hbody : w = body
  · rw [and_iff_right hbody, hbody, ← h]
    rfl
  · refine iff_of_false (fun hread => ?_) fun hand => hbody hand.1
    obtain hcut | ⟨t, rfl⟩ := List.prefix_or_prefix_of_prefix hpre (List.prefix_append body after)
    · -- cut short
      have hnone := hreads.cut (b.opening :: w) (h ▸ List.cons_prefix_cons.mpr ⟨rfl, hcut⟩)
        (h ▸ fun heq => hbody (List.cons.inj heq).2)
      rw [hnone] at hread
      cases hread
    · -- more text than the document's: it ends with a bracket
      have hlast := hw.getLast? one_pos
      have ht : t ≠ [] := fun ht => hbody (by rw [ht, List.append_nil])
      rw [List.getLast?_append_of_ne_nil _ ht] at hlast
      have hnone := hreads.trailing t ⟨b.closing, List.mem_of_getLast? hlast, by cases b <;> rfl⟩
      rw [h, List.cons_append, hread] at hnone
      cases hnone

/-- **When the embedded document is found.** -/
theorem extractJson_finds_iff {libs : Libraries} {v : Json} {b : BracketKind}
    (hkind : bracketKind? v = some b) (hreads : ReadsWhole libs.fromStr v)
    {before after : List Char} (hbefore : ∀ c ∈ before, c ≠ '{' ∧ c ≠ '[') :
    extractJson libs (String.ofList (before ++ render v ++ after)) = some v ↔
      libs.fromStr (trimText (String.ofList (before ++ render v ++ after))) = some v ∨
      libs.fromStr (trimText (String.ofList (before ++ render v ++ after))) = none ∧
        ClosesAtEnd b v ∧ libs.fromStr v.text = some v := by
  obtain ⟨body, hbody⟩ := render_of_bracketKind hkind
  cases hwhole : libs.fromStr (trimText (String.ofList (before ++ render v ++ after))) with
  | some w =>
    -- the whole text is a document, and there is no scan
    rw [extractJson, hwhole]
    simp
  | none =>
    rw [extractJson_scan hbody hbefore hwhole, Option.bind_eq_some_iff, closesAtEnd_iff hbody]
    simp only [b.balanced_eq_some_iff one_pos]
    constructor
    · rintro ⟨w, ⟨hw, hpre⟩, hread⟩
      obtain ⟨rfl, htext⟩ := (found_reads_iff hreads hbody hw hpre).mp hread
      exact .inr ⟨trivial, hw, htext⟩
    · rintro (h | ⟨-, hw, htext⟩)
      · cases h
      · exact ⟨body, ⟨hw, List.prefix_append _ _⟩,
          (found_reads_iff hreads hbody hw (List.prefix_append body after)).mpr ⟨rfl, htext⟩⟩

/-! ### Documents without brackets in their strings -/

namespace BracketKind

/-- The count passes over a text: it comes back to where it was, and never below. -/
def Passes (b : BracketKind) (t : List Char) : Prop :=
  ∀ depth rest, 0 < depth → (b.Balances depth (t ++ rest) ↔ b.Balances depth rest)

variable {b : BracketKind} {s t : List Char} {c : Char}

theorem passes_nil : b.Passes [] := fun _ _ _ => Iff.rfl

theorem Passes.append (hs : b.Passes s) (ht : b.Passes t) : b.Passes (s ++ t) := by
  intro depth rest hd
  rw [List.append_assoc, hs _ _ hd, ht _ _ hd]

/-- A character that is no bracket of this kind. -/
theorem Passes.cons (hopen : c ≠ b.opening) (hclose : c ≠ b.closing) (ht : b.Passes t) :
    b.Passes (c :: t) := by
  intro depth rest hd
  rw [List.cons_append, Balances, step, if_neg hopen, if_neg hclose, add_zero, ht _ _ hd,
    and_iff_right hd]

/-- A pair of brackets around a text. -/
theorem Passes.bracketed (ht : b.Passes t) : b.Passes (b.opening :: (t ++ [b.closing])) := by
  intro depth rest hd
  have hclose : b.step b.closing = -1 := by
    rw [step, if_neg b.opening_ne_closing.symm, if_pos rfl]
  rw [List.cons_append, Balances, step, if_pos rfl, and_iff_right hd, List.append_assoc,
    ht _ _ (by omega), List.singleton_append, Balances, hclose, add_neg_cancel_right]
  exact and_iff_right (by omega)

/-- No bracket of this kind. -/
def plainChar (b : BracketKind) (c : Char) : Bool := c != b.opening && c != b.closing

theorem passes_of_all (h : t.all b.plainChar = true) : b.Passes t := by
  induction t with
  | nil => exact passes_nil
  | cons c t ih =>
    rw [List.all_cons, Bool.and_eq_true, plainChar, Bool.and_eq_true, bne_iff_ne, bne_iff_ne] at h
    exact .cons h.1.1 h.1.2 (ih h.2)

theorem plainChar_hexDigit {n : ℕ} (h : n < 16) : b.plainChar (hexDigit n) = true := by
  interval_cases n <;> cases b <;> rfl

theorem all_plainChar_escapeChar (h : b.plainChar c = true) :
    (escapeChar c).all b.plainChar = true := by
  unfold escapeChar
  split_ifs with h1 h2 h3 h4 h5 h6 h7 h8
  · cases b <;> rfl
  · cases b <;> rfl
  · cases b <;> rfl
  · cases b <;> rfl
  · cases b <;> rfl
  · cases b <;> rfl
  · cases b <;> rfl
  · -- the two digits of a control character
    have hhigh : b.plainChar (hexDigit (c.toNat / 16)) = true := plainChar_hexDigit (by omega)
    have hlow : b.plainChar (hexDigit (c.toNat % 16)) = true := plainChar_hexDigit (by omega)
    have hstart : (['\\', 'u', '0', '0'].all b.plainChar) = true := by cases b <;> rfl
    simp only [List.all_cons, List.all_nil, Bool.and_true, Bool.and_eq_true] at hstart ⊢
    exact ⟨hstart.1, hstart.2.1, hstart.2.2.1, hstart.2.2.2, hhigh, hlow⟩
  · rw [List.all_cons, h]
    rfl

/-- No such bracket in a text. -/
def Plain (b : BracketKind) (s : String) : Prop := s.toList.all b.plainChar = true

theorem passes_renderString {s : String} (h : b.Plain s) : b.Passes (renderString s) := by
  have hquote : b.plainChar '"' = true := by cases b <;> rfl
  have hchars : (s.toList.flatMap escapeChar).all b.plainChar = true := by
    rw [List.all_flatMap, List.all_eq_true]
    intro c hc
    exact all_plainChar_escapeChar (List.all_eq_true.mp h c hc)
  refine passes_of_all ?_
  rw [renderString, List.all_cons, List.all_append, hquote, hchars, List.all_cons, hquote]
  rfl

theorem passes_renderNumber (n : JsonNumber) : b.Passes (renderNumber n) := by
  refine passes_of_all (List.all_eq_true.mpr fun c hc => ?_)
  -- a bracket is no number character
  have hnum := numeric_renderNumber n c hc
  by_contra hbracket
  rw [Bool.not_eq_true, plainChar, Bool.and_eq_false_iff, bne_eq_false_iff_eq,
    bne_eq_false_iff_eq] at hbracket
  obtain rfl | rfl := hbracket <;> cases b <;> cases hnum

mutual

/-- **The count passes over a document whose strings have no such bracket in them.** -/
theorem passes_render : ∀ v : Json, Throughout b.Plain v → b.Passes (render v)
  | .null, _ => by
    rw [render]
    exact passes_of_all (by cases b <;> rfl)
  | .bool x, _ => by
    cases x <;> rw [render] <;> exact passes_of_all (by cases b <;> rfl)
  | .num n, _ => by
    rw [render]
    exact passes_renderNumber n
  | .str s, h => by
    rw [render]
    exact passes_renderString ((throughout_str s).mp h)
  | .arr items, h => by
    rw [render]
    have hitems := passes_renderItems items true (throughout_arr.mp h)
    cases b with
    | square => exact hitems.bracketed
    | brace =>
      -- brackets of the other kind are not counted
      exact .cons (by decide) (by decide) (hitems.append (.cons (by decide) (by decide) passes_nil))
  | .obj members, h => by
    rw [render]
    have hmembers := passes_renderMembers members true (throughout_obj.mp h)
    cases b with
    | brace => exact hmembers.bracketed
    | square =>
      exact .cons (by decide) (by decide)
        (hmembers.append (.cons (by decide) (by decide) passes_nil))

theorem passes_renderItems : ∀ (xs : List Json) (first : Bool),
    (∀ x ∈ xs, Throughout b.Plain x) → b.Passes (renderItems first xs)
  | [], _, _ => by
    rw [renderItems]
    exact passes_nil
  | x :: xs, first, h => by
    rw [List.forall_mem_cons] at h
    rw [renderItems]
    have hcomma : b.Passes (if first then [] else [',']) :=
      passes_of_all (by cases b <;> cases first <;> rfl)
    exact (hcomma.append (passes_render x h.1)).append (passes_renderItems xs false h.2)

theorem passes_renderMembers : ∀ (ms : List (String × Json)) (first : Bool),
    (∀ m ∈ ms, b.Plain m.1 ∧ Throughout b.Plain m.2) → b.Passes (renderMembers first ms)
  | [], _, _ => by
    rw [renderMembers]
    exact passes_nil
  | (k, v) :: ms, first, h => by
    rw [List.forall_mem_cons] at h
    rw [renderMembers]
    have hcomma : b.Passes (if first then [] else [',']) :=
      passes_of_all (by cases b <;> cases first <;> rfl)
    have hvalue : b.Passes (':' :: render v) :=
      .cons (by cases b <;> decide) (by cases b <;> decide) (passes_render v h.1.2)
    exact ((hcomma.append (passes_renderString h.1.1)).append hvalue).append
      (passes_renderMembers ms false h.2)

end

end BracketKind

/-- **Brackets in strings are all that the count can stumble over.** -/
theorem closesAtEnd_of_plain {v : Json} {b : BracketKind} (hkind : bracketKind? v = some b)
    (h : Throughout b.Plain v) : ClosesAtEnd b v := by
  have hlast : b.Balances 1 [b.closing] := by
    refine ⟨one_pos, ?_⟩
    cases b <;> rfl
  cases v with
  | obj members =>
    obtain rfl := Option.some_inj.mp hkind
    have hrender : render (.obj members) =
        BracketKind.brace.opening ::
          (renderMembers true members ++ [BracketKind.brace.closing]) := by
      rw [render]
      rfl
    rw [closesAtEnd_iff hrender,
      BracketKind.passes_renderMembers members true (throughout_obj.mp h) 1 _ one_pos]
    exact hlast
  | arr items =>
    obtain rfl := Option.some_inj.mp hkind
    have hrender : render (.arr items) =
        BracketKind.square.opening :: (renderItems true items ++ [BracketKind.square.closing]) := by
      rw [render]
      rfl
    rw [closesAtEnd_iff hrender,
      BracketKind.passes_renderItems items true (throughout_arr.mp h) 1 _ one_pos]
    exact hlast
  | null | bool x | num n | str s => cases hkind

/-! ### Two answers -/

/-- A parser that reads the text of this document, and of no other. -/
def readerOf (v : Json) (s : String) : Option Json := if s = v.text then some v else none

/-- Libraries that parse nothing but the text of this document. -/
def librariesFor (v : Json) : Libraries where
  regexNew _ := .error "no pattern"
  fromStr := readerOf v
  toLowercase := id
  debug := id
  toValue _ := none

theorem readerOf_text (v : Json) : readerOf v v.text = some v := if_pos rfl

theorem readsWhole_readerOf (v : Json) : ReadsWhole (readerOf v) v where
  cut t _ hne := by
    rw [readerOf, if_neg]
    intro heq
    exact hne (String.ofList_injective heq)
  trailing t ht := by
    rw [readerOf, if_neg]
    intro heq
    have hnil := String.ofList_injective heq
    rw [List.append_right_eq_self] at hnil
    obtain ⟨c, hc, -⟩ := ht
    rw [hnil] at hc
    cases hc

/-- A lead-in without an opening bracket. -/
theorem no_opening_of_all {t : List Char} (h : (t.all fun c => c != '{' && c != '[') = true) :
    ∀ c ∈ t, c ≠ '{' ∧ c ≠ '[' := by
  intro c hc
  have hchar := List.all_eq_true.mp h c hc
  rwa [Bool.and_eq_true, bne_iff_ne, bne_iff_ne] at hchar

/-- `{"a":"b"}` in prose. -/
theorem extractJson_finds_plain :
    extractJson (librariesFor (.obj [("a", .str "b")]))
      (String.ofList ("Sure: ".toList ++ render (.obj [("a", .str "b")]) ++ " done".toList)) =
        some (.obj [("a", .str "b")]) := by
  have hwhole : readerOf (.obj [("a", .str "b")]) (trimText (String.ofList
      ("Sure: ".toList ++ render (.obj [("a", .str "b")]) ++ " done".toList))) = none := by
    decide +kernel
  have hplain : Throughout BracketKind.brace.Plain (.obj [("a", .str "b")]) := by
    rw [throughout_obj, List.forall_mem_singleton, throughout_str]
    exact ⟨rfl, rfl⟩
  exact (extractJson_finds_iff rfl (readsWhole_readerOf _) (no_opening_of_all rfl)).mpr
    (.inr ⟨hwhole, closesAtEnd_of_plain rfl hplain, readerOf_text (.obj [("a", .str "b")])⟩)

/-- `{"a":"\x7d"}` in prose: the count takes the bracket in the string for the last one. -/
theorem bracket_in_string_is_missed : ¬ ∀ (libs : Libraries) (v : Json) (b : BracketKind)
    (before after : List Char), bracketKind? v = some b → ReadsWhole libs.fromStr v →
      libs.fromStr v.text = some v → (∀ c ∈ before, c ≠ '{' ∧ c ≠ '[') →
        extractJson libs (String.ofList (before ++ render v ++ after)) = some v := by
  intro h
  have hfound := h (librariesFor (.obj [("a", .str "\x7d")])) _ _ "Sure: ".toList [] rfl
    (readsWhole_readerOf _) (readerOf_text (.obj [("a", .str "\x7d")])) (no_opening_of_all rfl)
  have hnone : extractJson (librariesFor (.obj [("a", .str "\x7d")]))
      (String.ofList ("Sure: ".toList ++ render (.obj [("a", .str "\x7d")]) ++ [])) = none := by
    decide +kernel
  rw [hnone] at hfound
  cases hfound
