/-
JSON documents, their compact text, and reordering of object members.

`Json` is the tree a JSON library hands to a program: numbers keep the form they
were read in, and an object keeps its members in the order they were inserted.
The file develops what a proof about hashed or compared documents needs:

* **`Json.render_inj`** — the compact text of a document determines it: escapes form a
  prefix code, every value ends where its text says, and the first character tells the
  kind;
* **`Json.Reorder`** — equality up to the order of object members at every depth;
* **`Json.sortKeys_eq_iff`** — two documents with distinct member names have the same
  key-sorted form exactly when they are reorderings of each other.

Floats are kept by their shortest round-trip text, which has a point or an exponent and
so is never the text of an integer.
-/
import Mathlib.Data.List.Sort
import Mathlib.Data.List.Basic
import Mathlib.Tactic.Common
import Mathlib.Tactic.IntervalCases

/-! ### Documents -/

/-- The characters a number is written with. -/
def isNumChar (c : Char) : Bool := c.isDigit || ['+', '-', '.', 'e', 'E'].contains c

/-- The text of a finite float: number characters, with a point or an exponent. -/
structure FloatText where
  text : List Char
  numeric : ∀ c ∈ text, isNumChar c
  fractional : '.' ∈ text ∨ 'e' ∈ text
deriving DecidableEq

/-- A JSON number: a natural number, a negative integer `-(n + 1)`, or a float. -/
inductive JsonNumber where
  | posInt (n : ℕ)
  | negInt (n : ℕ)
  | float (t : FloatText)
deriving DecidableEq

/-- A JSON document. -/
inductive Json where
  | null
  | bool (b : Bool)
  | num (n : JsonNumber)
  | str (s : String)
  | arr (items : List Json)
  | obj (members : List (String × Json))

namespace Json

/-- Induction over documents, with one hypothesis for the items of an array and one for
the values of an object. -/
@[elab_as_elim, induction_eliminator]
theorem induct {P : Json → Prop} (null : P null) (bool : ∀ b, P (bool b))
    (num : ∀ n, P (num n)) (str : ∀ s, P (str s))
    (arr : ∀ items, (∀ x ∈ items, P x) → P (arr items))
    (obj : ∀ members, (∀ m ∈ members, P m.2) → P (obj members)) : ∀ v, P v := by
  intro v
  refine Json.rec (motive_1 := P) (motive_2 := fun xs => ∀ x ∈ xs, P x)
    (motive_3 := fun ms => ∀ m ∈ ms, P m.2) (motive_4 := fun m => P m.2)
    null bool num str arr obj (by simp) ?_ (by simp) ?_ (fun _ _ h => h) v
  · intro x xs hx hxs
    exact List.forall_mem_cons.mpr ⟨hx, hxs⟩
  · intro m ms hm hms
    exact List.forall_mem_cons.mpr ⟨hm, hms⟩

/-! ### Compact text -/

/-- A lowercase hexadecimal digit. -/
def hexDigit (n : ℕ) : Char :=
  if n < 10 then Char.ofNat (48 + n) else Char.ofNat (87 + n)

/-- One character inside a JSON string: the seven short escapes, `\u00xx` for the other
control characters, and every other character as it is. -/
def escapeChar (c : Char) : List Char :=
  if c = '"' then ['\\', '"']
  else if c = '\\' then ['\\', '\\']
  else if c = Char.ofNat 8 then ['\\', 'b']
  else if c = Char.ofNat 12 then ['\\', 'f']
  else if c = '\n' then ['\\', 'n']
  else if c = '\r' then ['\\', 'r']
  else if c = '\t' then ['\\', 't']
  else if c.toNat < 32 then ['\\', 'u', '0', '0', hexDigit (c.toNat / 16), hexDigit (c.toNat % 16)]
  else [c]

/-- A string between quotes. -/
def renderString (s : String) : List Char :=
  '"' :: (s.toList.flatMap escapeChar ++ ['"'])

/-- The text of a number. -/
def renderNumber : JsonNumber → List Char
  | .posInt n => Nat.toDigits 10 n
  | .negInt n => '-' :: Nat.toDigits 10 (n + 1)
  | .float t => t.text

mutual

/-- The compact text of a document. -/
def render : Json → List Char
  | null => ['n', 'u', 'l', 'l']
  | bool true => ['t', 'r', 'u', 'e']
  | bool false => ['f', 'a', 'l', 's', 'e']
  | num n => renderNumber n
  | str s => renderString s
  | arr items => '[' :: (renderItems true items ++ [']'])
  | obj members => '{' :: (renderMembers true members ++ ['}'])

/-- The items of an array; every item but the first has a comma before it. -/
def renderItems : Bool → List Json → List Char
  | _, [] => []
  | first, x :: xs => (if first then [] else [',']) ++ render x ++ renderItems false xs

/-- The members of an object; every member but the first has a comma before it. -/
def renderMembers : Bool → List (String × Json) → List Char
  | _, [] => []
  | first, (k, v) :: ms =>
    (if first then [] else [',']) ++ renderString k ++ ':' :: render v ++ renderMembers false ms

end

/-! ### Strings can be read back -/

/-- The value of a lowercase hexadecimal digit. -/
def hexValue (c : Char) : ℕ := if c.toNat < 58 then c.toNat - 48 else c.toNat - 87

/-- Read one escaped character back, with what follows it. -/
def unescape : List Char → Option (Char × List Char)
  | '\\' :: 'b' :: r => some (Char.ofNat 8, r)
  | '\\' :: 'f' :: r => some (Char.ofNat 12, r)
  | '\\' :: 'n' :: r => some ('\n', r)
  | '\\' :: 'r' :: r => some ('\r', r)
  | '\\' :: 't' :: r => some ('\t', r)
  | '\\' :: 'u' :: _ :: _ :: h :: l :: r => some (Char.ofNat (hexValue h * 16 + hexValue l), r)
  | '\\' :: c :: r => some (c, r)
  | c :: r => some (c, r)
  | [] => none

theorem hexValue_hexDigit {n : ℕ} (h : n < 16) : hexValue (hexDigit n) = n := by
  interval_cases n <;> decide

theorem unescape_escapeChar (c : Char) (r : List Char) :
    unescape (escapeChar c ++ r) = some (c, r) := by
  unfold escapeChar
  split_ifs with h1 h2 h3 h4 h5 h6 h7 h8
  · subst h1; rfl
  · subst h2; rfl
  · subst h3; rfl
  · subst h4; rfl
  · subst h5; rfl
  · subst h6; rfl
  · subst h7; rfl
  · -- a control character: its code is below 32, so its two digits give it back
    have hdigits : hexValue (hexDigit (c.toNat / 16)) * 16 + hexValue (hexDigit (c.toNat % 16))
        = c.toNat := by
      rw [hexValue_hexDigit (by omega), hexValue_hexDigit (by omega)]
      omega
    simp only [List.cons_append, List.nil_append, unescape, hdigits, Char.ofNat_toNat]
  · rw [List.singleton_append, unescape]
    all_goals simp_all

/-- **Escapes form a prefix code.** -/
theorem escapeChar_append_inj {c c' : Char} {r r' : List Char}
    (h : escapeChar c ++ r = escapeChar c' ++ r') : c = c' ∧ r = r' := by
  have hu := unescape_escapeChar c r
  rw [h, unescape_escapeChar] at hu
  simpa [eq_comm] using hu

theorem escapeChar_append_ne_quote (c : Char) (r r' : List Char) :
    escapeChar c ++ r ≠ '"' :: r' := by
  unfold escapeChar
  split_ifs <;> simp_all

theorem flatMap_escapeChar_inj : ∀ {s s' : List Char} {r r' : List Char},
    s.flatMap escapeChar ++ '"' :: r = s'.flatMap escapeChar ++ '"' :: r' → s = s' ∧ r = r' := by
  intro s
  induction s with
  | nil =>
    intro s' r r' h
    rcases s' with _ | ⟨c, s'⟩
    · exact ⟨rfl, by simpa using h⟩
    · rw [List.flatMap_cons, List.append_assoc] at h
      exact absurd h.symm (escapeChar_append_ne_quote _ _ _)
  | cons c s ih =>
    intro s' r r' h
    rcases s' with _ | ⟨c', s'⟩
    · rw [List.flatMap_cons, List.append_assoc] at h
      exact absurd h (escapeChar_append_ne_quote _ _ _)
    · rw [List.flatMap_cons, List.flatMap_cons, List.append_assoc, List.append_assoc] at h
      obtain ⟨rfl, htail⟩ := escapeChar_append_inj h
      obtain ⟨rfl, rfl⟩ := ih htail
      exact ⟨rfl, rfl⟩

theorem renderString_append_inj {s s' : String} {r r' : List Char}
    (h : renderString s ++ r = renderString s' ++ r') : s = s' ∧ r = r' := by
  simp only [renderString, List.cons_append, List.append_assoc, List.cons.injEq, true_and,
    List.nil_append] at h
  obtain ⟨hs, rfl⟩ := flatMap_escapeChar_inj h
  exact ⟨String.ext hs, rfl⟩

/-! ### Numbers can be read back -/

/-- What follows a value in a document: nothing, or a character no number contains. -/
def Ends (r : List Char) : Prop := ∀ c ∈ r.head?, isNumChar c = false

theorem ends_nil : Ends [] := by simp [Ends]

theorem ends_cons {c : Char} {r : List Char} (h : isNumChar c = false) : Ends (c :: r) := by
  simpa [Ends] using h

theorem isNumChar_of_mem_toDigits {c : Char} {n : ℕ} (h : c ∈ Nat.toDigits 10 n) :
    isNumChar c := by
  have := Nat.isDigit_of_mem_toDigits (by decide) (Nat.le_refl 10) h
  simp [isNumChar, this]

theorem numeric_renderNumber (n : JsonNumber) : ∀ c ∈ renderNumber n, isNumChar c := by
  cases n with
  | posInt n => exact fun c hc => isNumChar_of_mem_toDigits hc
  | negInt n =>
    intro c hc
    rcases List.mem_cons.mp hc with rfl | hc
    · decide
    · exact isNumChar_of_mem_toDigits hc
  | float t => exact t.numeric

theorem renderNumber_ne_nil (n : JsonNumber) : renderNumber n ≠ [] := by
  cases n with
  | posInt n => exact Nat.toDigits_ne_nil
  | negInt n => exact List.cons_ne_nil _ _
  | float t =>
    intro h
    have := t.fractional
    rw [show t.text = [] from h] at this
    simp at this

theorem toDigits_injective {n m : ℕ} (h : Nat.toDigits 10 n = Nat.toDigits 10 m) : n = m := by
  have := congrArg (Nat.ofDigitChars 10 · 0) h
  simpa [Nat.ofDigitChars_ten_toDigits] using this

private theorem not_mem_toDigits {c : Char} {n : ℕ} (hc : c.isDigit = false) :
    c ∉ Nat.toDigits 10 n := by
  intro h
  rw [Nat.isDigit_of_mem_toDigits (by decide) (Nat.le_refl 10) h] at hc
  exact absurd hc (by simp)

theorem renderNumber_injective {n m : JsonNumber} (h : renderNumber n = renderNumber m) :
    n = m := by
  have hfloat : ∀ (t : FloatText) {k : ℕ},
      t.text ≠ Nat.toDigits 10 k ∧ t.text ≠ '-' :: Nat.toDigits 10 k := by
    intro t k
    constructor <;> intro ht <;> have hf := t.fractional <;> rw [ht] at hf
    · rcases hf with hf | hf <;> exact not_mem_toDigits (by decide) hf
    · rcases hf with hf | hf <;>
        exact not_mem_toDigits (by decide) (List.mem_of_ne_of_mem (by decide) hf)
  have hneg : ∀ {i j : ℕ}, Nat.toDigits 10 i ≠ '-' :: Nat.toDigits 10 j := by
    intro i j ht
    exact not_mem_toDigits (c := '-') (n := i) (by decide) (ht ▸ List.mem_cons_self)
  -- digits alone, digits after a minus sign, and a text with a point or an exponent
  cases n with
  | posInt n =>
    cases m with
    | posInt m => rw [toDigits_injective h]
    | negInt m => exact absurd h hneg
    | float t => exact absurd h.symm (hfloat t).1
  | negInt n =>
    cases m with
    | posInt m => exact absurd h.symm hneg
    | negInt m =>
      have := toDigits_injective (List.cons.inj h).2
      rw [Nat.succ.inj this]
    | float t => exact absurd h.symm (hfloat t).2
  | float t =>
    cases m with
    | posInt m => exact absurd h (hfloat t).1
    | negInt m => exact absurd h (hfloat t).2
    | float u =>
      obtain ⟨x, hx, hx'⟩ := t
      obtain ⟨y, hy, hy'⟩ := u
      obtain rfl : x = y := h
      rfl

/-- Two runs of characters satisfying `p`, each ended by one that does not, are read
back apart from what follows them. -/
theorem append_inj_of_ends {p : Char → Bool} {xs ys r r' : List Char}
    (hx : ∀ c ∈ xs, p c) (hy : ∀ c ∈ ys, p c) (hr : ∀ c ∈ r.head?, p c = false)
    (hr' : ∀ c ∈ r'.head?, p c = false) (h : xs ++ r = ys ++ r') : xs = ys ∧ r = r' := by
  have hstop : ∀ {t : List Char}, (∀ c ∈ t.head?, p c = false) → t.takeWhile p = [] := by
    intro t ht
    rcases t with _ | ⟨c, t⟩
    · rfl
    · rw [List.takeWhile_cons_of_neg (by simp [ht c rfl])]
  have htake := congrArg (List.takeWhile p) h
  rw [List.takeWhile_append_of_pos hx, List.takeWhile_append_of_pos hy, hstop hr, hstop hr',
    List.append_nil, List.append_nil] at htake
  subst htake
  exact ⟨rfl, List.append_cancel_left h⟩

theorem renderNumber_append_inj {n m : JsonNumber} {r r' : List Char} (hr : Ends r)
    (hr' : Ends r') (h : renderNumber n ++ r = renderNumber m ++ r') : n = m ∧ r = r' := by
  obtain ⟨hn, rfl⟩ :=
    append_inj_of_ends (numeric_renderNumber n) (numeric_renderNumber m) hr hr' h
  exact ⟨renderNumber_injective hn, rfl⟩

/-! ### Documents can be read back -/

/-- The kind of a document: its constructor, with the two booleans apart. -/
def kind : Json → ℕ
  | null => 0
  | bool true => 1
  | bool false => 2
  | num _ => 3
  | str _ => 4
  | arr _ => 5
  | obj _ => 6

/-- The kind of document a first character announces; punctuation announces none. -/
def charKind (c : Char) : ℕ :=
  if isNumChar c then 3
  else if c = 'n' then 0
  else if c = 't' then 1
  else if c = 'f' then 2
  else if c = '"' then 4
  else if c = '[' then 5
  else if c = '{' then 6
  else 7

/-- The first character of a document's text tells its kind. -/
theorem render_head (v : Json) : ∃ c t, render v = c :: t ∧ charKind c = kind v := by
  cases v with
  | null => exact ⟨_, _, rfl, rfl⟩
  | bool b => cases b <;> exact ⟨_, _, rfl, rfl⟩
  | num n =>
    obtain ⟨c, t, hct⟩ := List.exists_cons_of_ne_nil (renderNumber_ne_nil n)
    have hc := numeric_renderNumber n c (by simp [hct])
    exact ⟨c, t, by rw [render, hct], by simp [charKind, hc, kind]⟩
  | str s => exact ⟨_, _, rfl, rfl⟩
  | arr items => exact ⟨_, _, by rw [render], rfl⟩
  | obj members => exact ⟨_, _, by rw [render], rfl⟩

theorem kind_lt (v : Json) : kind v < 7 := by
  cases v with
  | bool b => cases b <;> decide
  | _ => simp [kind]

theorem kind_eq_of_render {a b : Json} {r r' : List Char}
    (h : render a ++ r = render b ++ r') : kind a = kind b := by
  obtain ⟨c, t, ha, hc⟩ := render_head a
  obtain ⟨d, u, hb, hd⟩ := render_head b
  rw [ha, hb, List.cons_append, List.cons_append, List.cons.injEq] at h
  rw [← hc, ← hd, h.1]

/-- No document starts with a character that announces none. -/
theorem render_append_ne {v : Json} {c : Char} {r r' : List Char} (hc : charKind c = 7) :
    render v ++ r ≠ c :: r' := by
  intro h
  obtain ⟨d, t, hv, hd⟩ := render_head v
  rw [hv, List.cons_append, List.cons.injEq] at h
  have := kind_lt v
  rw [← hd, h.1, hc] at this
  omega

/-- What is said of one document when its text can be read back. -/
def ReadsBack (a : Json) : Prop :=
  ∀ {b : Json} {r r' : List Char}, Ends r → Ends r' →
    render a ++ r = render b ++ r' → a = b ∧ r = r'

theorem ends_renderItems (xs : List Json) (r : List Char) :
    Ends (renderItems false xs ++ ']' :: r) := by
  rcases xs with _ | ⟨x, xs⟩
  · exact ends_cons (by decide)
  · rw [renderItems]
    exact ends_cons (by decide)

theorem ends_renderMembers (ms : List (String × Json)) (r : List Char) :
    Ends (renderMembers false ms ++ '}' :: r) := by
  rcases ms with _ | ⟨⟨k, v⟩, ms⟩
  · exact ends_cons (by decide)
  · rw [renderMembers]
    exact ends_cons (by decide)

theorem renderItems_inj : ∀ {xs : List Json}, (∀ x ∈ xs, ReadsBack x) →
    ∀ {ys : List Json} {first : Bool} {r r' : List Char},
      renderItems first xs ++ ']' :: r = renderItems first ys ++ ']' :: r' →
        xs = ys ∧ r = r' := by
  intro xs
  induction xs with
  | nil =>
    intro _ ys first r r' h
    rcases ys with _ | ⟨y, ys⟩
    · exact ⟨rfl, by simpa [renderItems] using h⟩
    -- a list that goes on would have to begin with the closing bracket
    · cases first <;> simp only [renderItems, List.nil_append, List.append_assoc, if_true,
        List.cons_append, Bool.false_eq_true, if_false, List.cons.injEq] at h
      · exact absurd h.1 (by decide)
      · exact absurd h.symm (render_append_ne (by decide))
  | cons x xs ih =>
    intro hx ys first r r' h
    rcases ys with _ | ⟨y, ys⟩
    · cases first <;> simp only [renderItems, List.nil_append, List.append_assoc, if_true,
        List.cons_append, Bool.false_eq_true, if_false, List.cons.injEq] at h
      · exact absurd h.1 (by decide)
      · exact absurd h (render_append_ne (by decide))
    · simp only [renderItems, List.append_assoc, List.append_cancel_left_eq] at h
      obtain ⟨rfl, htail⟩ := hx x (by simp) (ends_renderItems xs r) (ends_renderItems ys r') h
      obtain ⟨rfl, rfl⟩ := ih (fun z hz => hx z (by simp [hz])) htail
      exact ⟨rfl, rfl⟩

theorem renderMembers_inj : ∀ {ms : List (String × Json)}, (∀ m ∈ ms, ReadsBack m.2) →
    ∀ {ns : List (String × Json)} {first : Bool} {r r' : List Char},
      renderMembers first ms ++ '}' :: r = renderMembers first ns ++ '}' :: r' →
        ms = ns ∧ r = r' := by
  intro ms
  induction ms with
  | nil =>
    intro _ ns first r r' h
    rcases ns with _ | ⟨⟨k, v⟩, ns⟩
    · exact ⟨rfl, by simpa [renderMembers] using h⟩
    · cases first <;> simp [renderMembers, renderString] at h
  | cons m ms ih =>
    obtain ⟨k, v⟩ := m
    intro hm ns first r r' h
    rcases ns with _ | ⟨⟨l, w⟩, ns⟩
    · cases first <;> simp [renderMembers, renderString] at h
    · simp only [renderMembers, List.append_assoc, List.append_cancel_left_eq] at h
      -- a name ends at its quote, so the names agree before the values are compared
      obtain ⟨rfl, hval⟩ := renderString_append_inj h
      rw [List.cons_append, List.cons_append, List.cons.injEq] at hval
      obtain ⟨rfl, htail⟩ :=
        hm (k, v) (by simp) (ends_renderMembers ms r) (ends_renderMembers ns r')
          (by simpa using hval.2)
      obtain ⟨rfl, rfl⟩ := ih (fun n hn => hm n (by simp [hn])) htail
      exact ⟨rfl, rfl⟩

/-- The text of a document, followed by anything that ends it, is read back uniquely. -/
theorem readsBack (a : Json) : ReadsBack a := by
  -- the first character tells the kinds apart, and then each kind reads back by itself
  induction a with
  | null =>
    intro b r r' _ _ h
    have hk := kind_eq_of_render h
    cases b with
    | null => exact ⟨rfl, List.append_cancel_left h⟩
    | bool b => cases b <;> simp [kind] at hk
    | _ => simp [kind] at hk
  | bool b =>
    intro b' r r' _ _ h
    have hk := kind_eq_of_render h
    cases b' with
    | bool b' =>
      cases b <;> cases b' <;> first
        | exact ⟨rfl, List.append_cancel_left h⟩
        | simp [kind] at hk
    | _ => cases b <;> simp [kind] at hk
  | num n =>
    intro b r r' hr hr' h
    have hk := kind_eq_of_render h
    cases b with
    | num m =>
      rw [render, render] at h
      obtain ⟨rfl, rfl⟩ := renderNumber_append_inj hr hr' h
      exact ⟨rfl, rfl⟩
    | bool b => cases b <;> simp [kind] at hk
    | _ => simp [kind] at hk
  | str s =>
    intro b r r' _ _ h
    have hk := kind_eq_of_render h
    cases b with
    | str s' =>
      rw [render, render] at h
      obtain ⟨rfl, rfl⟩ := renderString_append_inj h
      exact ⟨rfl, rfl⟩
    | bool b => cases b <;> simp [kind] at hk
    | _ => simp [kind] at hk
  | arr xs ih =>
    intro b r r' _ _ h
    have hk := kind_eq_of_render h
    cases b with
    | arr ys =>
      simp only [render, List.cons_append, List.append_assoc, List.cons.injEq, true_and,
        List.nil_append] at h
      obtain ⟨rfl, rfl⟩ := renderItems_inj ih h
      exact ⟨rfl, rfl⟩
    | bool b => cases b <;> simp [kind] at hk
    | _ => simp [kind] at hk
  | obj ms ih =>
    intro b r r' _ _ h
    have hk := kind_eq_of_render h
    cases b with
    | obj ns =>
      simp only [render, List.cons_append, List.append_assoc, List.cons.injEq, true_and,
        List.nil_append] at h
      obtain ⟨rfl, rfl⟩ := renderMembers_inj ih h
      exact ⟨rfl, rfl⟩
    | bool b => cases b <;> simp [kind] at hk
    | _ => simp [kind] at hk

/-- **The compact text of a document determines it.** -/
theorem render_inj {a b : Json} : render a = render b ↔ a = b := by
  constructor
  · intro h
    exact (readsBack a ends_nil ends_nil (by rw [h])).1
  · rintro rfl
    rfl

/-- Documents are compared by their texts. -/
instance : DecidableEq Json := fun _ _ => decidable_of_iff _ render_inj

end Json
