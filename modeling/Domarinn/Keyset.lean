/-
Keyset pagination: pages of an ordered result, each fetched from the cursor of the one before.

A page takes at most `limit` of the rows that are left, and carries the cursor of its last row
where more are left.  What is left under a cursor is whatever a condition on rows says.

* **`follow_exact`** — the pages of an unchanging result return it, and end, when each cursor
  leaves exactly the rows that come after its row;
* **`exact_iff`**, **`cuts_of_length`** — and only then, where a cursor leaves a final part of
  the result;
* **`follow_increasing`**, **`mem_follow`** — while the result changes between pages, no row
  comes twice and none that stays is passed over;
* **`follow_pairwise`** — pages that each come after the one before return rows in order, however
  their cursors are read.
-/
import Mathlib.Data.List.Infix
import Mathlib.Data.List.TakeDrop
import Mathlib.Order.Basic
import Mathlib.Tactic.Common

namespace Keyset

variable {ρ γ σ : Type*}

structure Page (ρ γ : Type*) where
  rows : List ρ
  next : Option γ

/-! ### Pages -/

section
variable (cursorOf : ρ → γ) (after : γ → ρ → Bool) (limit : ℕ)

/-- The rows that a cursor leaves. -/
def left (rows : List ρ) : Option γ → List ρ
  | none => rows
  | some c => rows.filter (after c)

/-- The first rows of those that are left. -/
def pageOf (rows : List ρ) : Page ρ γ where
  rows := rows.take limit
  next := if limit < rows.length then (rows.take limit).getLast?.map cursorOf else none

/-- The page under a cursor. -/
def fetch (rows : σ → List ρ) (s : σ) (c : Option γ) : Page ρ γ :=
  pageOf cursorOf limit (left after (rows s) c)

end

/-- Pages one after the other, while there is a next one: one for each state that the table is
found in. -/
def follow (fetch : σ → Option γ → Page ρ γ) : Option γ → List σ → List (Page ρ γ)
  | _, [] => []
  | c, s :: states =>
    let page := fetch s c
    page :: match page.next with
      | none => []
      | some c' => follow fetch (some c') states

/-- The rows of these pages. -/
def returned (pages : List (Page ρ γ)) : List ρ := pages.flatMap Page.rows

/-- The last of these pages has no next one. -/
def Ended (pages : List (Page ρ γ)) : Prop := ∃ page ∈ pages.getLast?, page.next = none

@[simp] theorem returned_nil : returned ([] : List (Page ρ γ)) = [] := rfl

@[simp] theorem returned_cons (page : Page ρ γ) (pages : List (Page ρ γ)) :
    returned (page :: pages) = page.rows ++ returned pages := rfl

@[simp] theorem not_ended_nil : ¬ Ended ([] : List (Page ρ γ)) := by
  rintro ⟨page, hpage, -⟩
  cases hpage

theorem ended_singleton {page : Page ρ γ} : Ended [page] ↔ page.next = none := by
  simp [Ended]

theorem ended_cons {page : Page ρ γ} {pages : List (Page ρ γ)} (h : pages ≠ []) :
    Ended (page :: pages) ↔ Ended pages := by
  rw [Ended, Ended, List.getLast?_cons_of_ne_nil h]

section
variable {fetch : σ → Option γ → Page ρ γ} {c : Option γ} {s : σ} {states : List σ}

theorem follow_last (h : (fetch s c).next = none) :
    follow fetch c (s :: states) = [fetch s c] := by
  rw [follow]
  simp only [h]

theorem follow_more {c' : γ} (h : (fetch s c).next = some c') :
    follow fetch c (s :: states) = fetch s c :: follow fetch (some c') states := by
  rw [follow]
  simp only [h]

theorem ended_follow_last (h : (fetch s c).next = none) : Ended (follow fetch c (s :: states)) := by
  rw [follow_last h, ended_singleton]
  exact h

theorem ended_follow_more {c' : γ} (h : (fetch s c).next = some c') :
    Ended (follow fetch c (s :: states)) ↔ Ended (follow fetch (some c') states) := by
  rw [follow_more h]
  cases states with
  | nil =>
    -- the walk stops before its end
    rw [follow, ended_singleton, h]
    exact iff_of_false (by simp) not_ended_nil
  | cons s' states => exact ended_cons (by rw [follow]; simp)

/-- What pages return, one of them does. -/
theorem mem_returned_follow {x : ρ} (h : x ∈ returned (follow fetch c states)) :
    ∃ s ∈ states, ∃ c, x ∈ (fetch s c).rows := by
  induction states generalizing c with
  | nil => cases h
  | cons s states ih =>
    cases hnext : (fetch s c).next with
    | none =>
      rw [follow_last hnext, returned_cons, returned_nil, List.append_nil] at h
      exact ⟨s, List.mem_cons_self, c, h⟩
    | some c' =>
      rw [follow_more hnext, returned_cons] at h
      obtain h | h := List.mem_append.mp h
      · exact ⟨s, List.mem_cons_self, c, h⟩
      · obtain ⟨s', hs', hx⟩ := ih h
        exact ⟨s', List.mem_cons_of_mem s hs', hx⟩

end

/-! ### What a page is made of -/

section
variable {cursorOf : ρ → γ} {after : γ → ρ → Bool} {limit : ℕ} {rows : List ρ}

/-- Where one row more than a page is read, all that is left has been read, or a page of it. -/
theorem take_row_more {max : ℤ} (hmax : 0 ≤ max) (rows : List ρ) :
    (¬ max < (rows.take (max.toNat + 1)).length ∧ rows.take (max.toNat + 1) = rows ∧
        rows.length ≤ max.toNat) ∨
      max < (rows.take (max.toNat + 1)).length ∧
        (rows.take (max.toNat + 1)).take max.toNat = rows.take max.toNat ∧
          max.toNat < rows.length := by
  obtain hlt | hle := Nat.lt_or_ge max.toNat rows.length
  · refine .inr ⟨?_, ?_, hlt⟩
    · rw [List.length_take]
      omega
    · rw [List.take_take, Nat.min_eq_left (Nat.le_succ _)]
  · have htake : rows.take (max.toNat + 1) = rows := List.take_of_length_le (by omega)
    refine .inl ⟨?_, htake, hle⟩
    rw [htake]
    omega

/-- A page with nothing after it returns everything that was left. -/
theorem pageOf_last (h : rows.length ≤ limit) :
    pageOf cursorOf limit rows = ⟨rows, none⟩ := by
  rw [pageOf, List.take_of_length_le h, if_neg (Nat.not_lt.mpr h)]

/-- Any other page ends with a row, and leaves some. -/
theorem pageOf_more (cursorOf : ρ → γ) (hlimit : 0 < limit) (h : limit < rows.length) :
    ∃ xs r back, rows = xs ++ r :: back ∧ back ≠ [] ∧ xs.length + 1 = limit ∧
      pageOf cursorOf limit rows = ⟨xs ++ [r], some (cursorOf r)⟩ := by
  obtain ⟨n, rfl⟩ : ∃ n, limit = n + 1 := ⟨limit - 1, by omega⟩
  have hn : n < rows.length := by omega
  have htake : rows.take (n + 1) = rows.take n ++ [rows[n]] := List.take_succ_eq_append_getElem hn
  refine ⟨rows.take n, rows[n], rows.drop (n + 1), ?_, ?_, ?_, ?_⟩
  · rw [← List.drop_eq_getElem_cons hn, List.take_append_drop]
  · rw [ne_eq, List.drop_eq_nil_iff]
    omega
  · rw [List.length_take]
    omega
  · rw [pageOf, if_pos h, htake, List.getLast?_append]
    rfl

end

/-! ### A result that stays as it is -/

section
variable {cursorOf : ρ → γ} {after : γ → ρ → Bool} {limit : ℕ} {rows : List ρ}

/-- At each end of a page, the cursor leaves exactly the rows that come after. -/
def Cuts (cursorOf : ρ → γ) (after : γ → ρ → Bool) (limit : ℕ) (rows : List ρ) : Prop :=
  ∀ front r back, rows = front ++ r :: back → back ≠ [] → limit ∣ front.length + 1 →
    rows.filter (after (cursorOf r)) = back

/-- Of rows in order, those that come after a cursor are a final part. -/
theorem filter_suffix {le : ρ → ρ → Prop} {past : ρ → Bool}
    (hmono : ∀ x y, past x = true → le x y → past y = true) :
    ∀ {rows : List ρ}, rows.Pairwise le → rows.filter past <:+ rows
  | [], _ => List.suffix_refl []
  | x :: rows, h => by
    obtain ⟨hx, hrows⟩ := List.pairwise_cons.mp h
    cases hpast : past x with
    | false =>
      rw [List.filter_cons_of_neg (by simp [hpast])]
      exact (filter_suffix hmono hrows).trans (List.suffix_cons x rows)
    | true =>
      have hall : (x :: rows).filter past = x :: rows := by
        rw [List.filter_cons_of_pos hpast, List.filter_eq_self.mpr]
        exact fun y hy => hmono x y hpast (hx y hy)
      rw [hall]

/-- Of rows in order, the cursor of one leaves none before it, nor the row itself. -/
theorem filter_split {le : ρ → ρ → Prop} [Std.Refl le]
    (hnot : ∀ x y, le x y → after (cursorOf y) x = false) {front back : List ρ} {r : ρ}
    (hrows : (front ++ r :: back).Pairwise le) :
    (front ++ r :: back).filter (after (cursorOf r)) = back.filter (after (cursorOf r)) := by
  obtain ⟨-, -, hfront⟩ := List.pairwise_append.mp hrows
  have hbefore : front.filter (after (cursorOf r)) = [] := by
    refine List.filter_eq_nil_iff.mpr fun x hx hpast => ?_
    rw [hnot x r (hfront x hx r List.mem_cons_self)] at hpast
    cases hpast
  have hself : ¬ after (cursorOf r) r = true := by
    rw [hnot r r (Std.Refl.refl r)]
    exact Bool.false_ne_true
  rw [List.filter_append, hbefore, List.nil_append, List.filter_cons_of_neg hself]

/-- Cursors that only move on cut right exactly when each leaves the row after its own, and not
its own. -/
theorem cuts_iff_ends {le : ρ → ρ → Prop} (hnodup : rows.Nodup) (hrows : rows.Pairwise le)
    (hmono : ∀ c x y, after c x = true → le x y → after c y = true) :
    Cuts cursorOf after limit rows ↔
      ∀ front a b back, rows = front ++ a :: b :: back → limit ∣ front.length + 1 →
        after (cursorOf a) a = false ∧ after (cursorOf a) b = true := by
  constructor
  · intro hcuts front a b back hsplit hdvd
    have hleft := hcuts front a (b :: back) hsplit (List.cons_ne_nil b back) hdvd
    have hmem : ∀ x ∈ rows, (after (cursorOf a) x = true ↔ x ∈ b :: back) := by
      intro x hx
      rw [← hleft, List.mem_filter, and_iff_right hx]
    rw [hsplit] at hnodup hmem
    have hfresh := (List.nodup_cons.mp (List.nodup_append.mp hnodup).2.1).1
    exact ⟨Bool.eq_false_iff.mpr (mt (hmem a (by simp)).mp hfresh),
      (hmem b (by simp)).mpr List.mem_cons_self⟩
  · rintro hends front a back rfl hne hdvd
    obtain ⟨b, back, rfl⟩ := List.exists_cons_of_ne_nil hne
    obtain ⟨ha, hb⟩ := hends front a b back rfl hdvd
    obtain ⟨-, hrest, hfront⟩ := List.pairwise_append.mp hrows
    -- a row before this one that is left would leave this one too
    have hbefore : front.filter (after (cursorOf a)) = [] := by
      refine List.filter_eq_nil_iff.mpr fun x hx hpast => ?_
      rw [hmono _ x a hpast (hfront x hx a List.mem_cons_self)] at ha
      cases ha
    have hlater : (b :: back).filter (after (cursorOf a)) = b :: back := by
      refine List.filter_eq_self.mpr (List.forall_mem_cons.mpr ⟨hb, fun x hx => ?_⟩)
      exact hmono _ b x hb ((List.pairwise_cons.mp (List.pairwise_cons.mp hrest).2).1 x hx)
    rw [List.filter_append, hbefore, List.nil_append,
      List.filter_cons_of_neg (by rw [ha]; exact Bool.false_ne_true), hlater]

/-- In the order that cursors cut by, they cut right. -/
theorem cuts_of_pairwise {before : ρ → ρ → Prop} [IsStrictOrder ρ before]
    (hafter : ∀ r x, after (cursorOf r) x = true ↔ before r x) (hrows : rows.Pairwise before) :
    Cuts cursorOf after limit rows := by
  rintro front r back rfl - -
  have : Std.Refl fun x y => ¬ before y x := ⟨Std.Irrefl.irrefl⟩
  have hnot : ∀ x y, ¬ before y x → after (cursorOf y) x = false := fun x y h =>
    Bool.eq_false_iff.mpr (mt (hafter y x).mp h)
  have hlater : ∀ x ∈ back, before r x :=
    (List.pairwise_cons.mp (List.pairwise_append.mp hrows).2.1).1
  rw [filter_split hnot (hrows.imp fun h => Std.Asymm.asymm _ _ h)]
  exact List.filter_eq_self.mpr fun x hx => (hafter r x).mpr (hlater x hx)

/-- **Pages that each start after the row that the one before ended at** return everything that is
left, and end. -/
theorem follow_left {fetch : σ → Option γ → Page ρ γ} {leftOf : Option γ → List ρ} {s : σ}
    (hlimit : 0 < limit) (hpage : ∀ c, fetch s c = pageOf cursorOf limit (leftOf c))
    (hcut : ∀ front r back, rows = front ++ r :: back → back ≠ [] → limit ∣ front.length + 1 →
      leftOf (some (cursorOf r)) = back) :
    ∀ (n : ℕ) (front back : List ρ) (c : Option γ), rows = front ++ back → limit ∣ front.length →
      leftOf c = back → back.length < n →
      returned (follow fetch c (List.replicate n s)) = back ∧
        Ended (follow fetch c (List.replicate n s)) := by
  intro n
  induction n with
  | zero => exact fun _ _ _ _ _ _ hn => absurd hn (Nat.not_lt_zero _)
  | succ n ih =>
    intro front back c hrows hfront hleft hn
    rw [List.replicate_succ]
    have hfetch := hpage c
    rw [hleft] at hfetch
    by_cases hback : back.length ≤ limit
    · rw [pageOf_last hback] at hfetch
      have hnext : (fetch s c).next = none := by rw [hfetch]
      refine ⟨?_, ended_follow_last hnext⟩
      rw [follow_last hnext, hfetch]
      exact List.append_nil back
    · obtain ⟨xs, r, back', rfl, hne, hxs, hpageOf⟩ := pageOf_more cursorOf hlimit
        (Nat.lt_of_not_le hback)
      rw [hpageOf] at hfetch
      have hsplit : rows = (front ++ xs) ++ r :: back' := by rw [hrows, List.append_assoc]
      have hdvd : limit ∣ (front ++ xs).length + 1 := by
        rw [List.length_append, Nat.add_assoc, hxs]
        exact Nat.dvd_add hfront (Nat.dvd_refl limit)
      -- the next page starts where this one ended
      have hnext : leftOf (some (cursorOf r)) = back' := hcut _ r _ hsplit hne hdvd
      have hlength : back'.length < n := by
        rw [List.length_append, List.length_cons] at hn
        omega
      obtain ⟨hreturned, hended⟩ := ih (front ++ xs ++ [r]) back' (some (cursorOf r))
        (by rw [hsplit, List.append_assoc _ [r]]; rfl)
        (by rwa [List.length_append, List.length_singleton]) hnext hlength
      have hmore : (fetch s c).next = some (cursorOf r) := by rw [hfetch]
      refine ⟨?_, (ended_follow_more hmore).mpr hended⟩
      rw [follow_more hmore, returned_cons, hreturned, hfetch, List.append_assoc]
      rfl

/-- **A result whose pages are cut right is returned as it is**, and the pages end. -/
theorem follow_exact (hlimit : 0 < limit) (hcuts : Cuts cursorOf after limit rows) (s : σ) :
    ∀ (n : ℕ) (front back : List ρ) (c : Option γ), rows = front ++ back → limit ∣ front.length →
      left after rows c = back → back.length < n →
      returned (follow (fetch cursorOf after limit fun _ => rows) c (List.replicate n s)) = back ∧
        Ended (follow (fetch cursorOf after limit fun _ => rows) c (List.replicate n s)) :=
  follow_left hlimit (fun _ => rfl) hcuts

/-- The pages of an unchanging result end, and return it. -/
def Exact (cursorOf : ρ → γ) (after : γ → ρ → Bool) (limit : ℕ) (rows : List ρ) (s : σ) : Prop :=
  ∃ n, Ended (follow (fetch cursorOf after limit fun _ => rows) none (List.replicate n s)) ∧
    returned (follow (fetch cursorOf after limit fun _ => rows) none (List.replicate n s)) = rows

/-- Two final parts of a list without repetitions that begin alike are one. -/
theorem suffix_eq_of_head {l xs ys : List ρ} (hnodup : l.Nodup) (hxs : xs <:+ l) (hys : ys <:+ l)
    (hhead : xs.head? = ys.head?) : xs = ys := by
  wlog hle : xs <:+ ys generalizing xs ys
  · exact (this hys hxs hhead.symm
      ((List.suffix_or_suffix_of_suffix hxs hys).resolve_left hle)).symm
  obtain ⟨zs, rfl⟩ := hle
  cases zs with
  | nil => rfl
  | cons z zs =>
    -- the first of the longer one would come again at the start of the shorter
    have hz : z ∈ xs := List.mem_of_mem_head? (by simpa using hhead)
    have hfresh := (List.nodup_cons.mp (hys.nodup hnodup)).1
    exact absurd (List.mem_append_right zs hz) hfresh

/-- Pages begin with the first row that is left. -/
theorem returned_head (hlimit : 0 < limit) (s : σ) (n : ℕ) (c : Option γ) :
    (returned (follow (fetch cursorOf after limit fun _ => rows) c
      (List.replicate (n + 1) s))).head? = (left after rows c).head? := by
  rw [List.replicate_succ, follow, returned_cons, fetch, pageOf]
  cases left after rows c with
  | nil => simp
  | cons r rest =>
    obtain ⟨m, rfl⟩ : ∃ m, limit = m + 1 := ⟨limit - 1, by omega⟩
    simp

/-- Pages that return what was left under their first cursor were cut right. -/
theorem cuts_of_returned (hlimit : 0 < limit) (hnodup : rows.Nodup)
    (hsuffix : ∀ r ∈ rows, rows.filter (after (cursorOf r)) <:+ rows) (s : σ) :
    ∀ (n : ℕ) (back : List ρ) (c : Option γ), back <:+ rows → left after rows c = back →
      returned (follow (fetch cursorOf after limit fun _ => rows) c (List.replicate n s)) = back →
      ∀ front r rest, back = front ++ r :: rest → rest ≠ [] → limit ∣ front.length + 1 →
        rows.filter (after (cursorOf r)) = rest := by
  intro n
  induction n with
  | zero =>
    intro back c _ _ hreturned front r rest hsplit
    rw [List.replicate_zero, follow, returned_nil, hsplit] at hreturned
    exact absurd hreturned.symm (by simp)
  | succ n ih =>
    intro back c hback hleft hreturned front r rest hsplit hrest hdvd
    rw [List.replicate_succ] at hreturned
    have hpage : fetch cursorOf after limit (fun _ => rows) s c = pageOf cursorOf limit back := by
      rw [fetch, hleft]
    have hpos : 0 < rest.length := List.length_pos_of_ne_nil hrest
    have hle : limit ≤ front.length + 1 := Nat.le_of_dvd (Nat.succ_pos _) hdvd
    obtain ⟨xs, r', back', rfl, hne, hxs, hpageOf⟩ := pageOf_more cursorOf hlimit
      (show limit < back.length by rw [hsplit, List.length_append, List.length_cons]; omega)
    rw [hpageOf] at hpage
    rw [follow_more (by rw [hpage]), returned_cons, hpage, List.append_assoc,
      List.singleton_append, List.append_right_inj, List.cons.injEq] at hreturned
    have hmem : r' ∈ rows := hback.subset (by simp)
    have hback' : back' <:+ rows :=
      (List.suffix_append (xs ++ [r']) back').trans (by simpa using hback)
    -- the next page begins with the row after this one, so its cursor leaves what comes after
    have hnext : left after rows (some (cursorOf r')) = back' := by
      cases n with
      | zero => exact absurd hreturned.2.symm hne
      | succ n =>
        refine suffix_eq_of_head hnodup (hsuffix r' hmem) hback' ?_
        rw [← returned_head hlimit s n, hreturned.2]
    obtain ⟨tail, hfront, htail⟩ | ⟨tail, hxs', -⟩ := List.append_eq_append_iff.mp hsplit
    · cases tail with
      | nil =>
        -- this page ends at the row
        obtain ⟨rfl, rfl⟩ := List.cons.inj htail
        exact hnext
      | cons x tail =>
        -- a later page does
        obtain ⟨rfl, rfl⟩ := List.cons.inj htail
        refine ih _ _ hback' hnext hreturned.2 tail r rest rfl hrest ?_
        have hlength : front.length + 1 = tail.length + 1 + limit := by
          rw [hfront, List.length_append, List.length_cons]
          omega
        exact (Nat.dvd_add_left (Nat.dvd_refl limit)).mp (hlength ▸ hdvd)
    · have hlength := congrArg List.length hxs'
      rw [List.length_append] at hlength
      have htail : tail = [] := List.eq_nil_of_length_eq_zero (by omega)
      subst htail
      rw [List.append_nil] at hxs'
      subst hxs'
      obtain ⟨rfl, rfl⟩ := List.cons.inj (List.append_cancel_left hsplit)
      exact hnext

/-- **The pages of an unchanging result return it exactly when they are cut right.** -/
theorem exact_iff (hlimit : 0 < limit) (hnodup : rows.Nodup)
    (hsuffix : ∀ r ∈ rows, rows.filter (after (cursorOf r)) <:+ rows) (s : σ) :
    Exact cursorOf after limit rows s ↔ Cuts cursorOf after limit rows := by
  constructor
  · rintro ⟨n, -, hreturned⟩
    exact cuts_of_returned hlimit hnodup hsuffix s n rows none (List.suffix_refl rows) rfl hreturned
  · intro hcuts
    obtain ⟨hreturned, hended⟩ := follow_exact hlimit hcuts s (rows.length + 1) [] rows none rfl
      (Nat.dvd_zero limit) rfl (Nat.lt_succ_self _)
    exact ⟨_, hended, hreturned⟩

/-- Pages whose cursors only move on return some of what was left, in order. -/
theorem returned_sublist (hlimit : 0 < limit)
    (hforward : ∀ front r back, rows = front ++ r :: back →
      rows.filter (after (cursorOf r)) <:+ back) (s : σ) :
    ∀ (n : ℕ) (c : Option γ), left after rows c <:+ rows →
      (returned (follow (fetch cursorOf after limit fun _ => rows) c
        (List.replicate n s))).Sublist (left after rows c) := by
  intro n
  induction n with
  | zero => exact fun _ _ => List.nil_sublist _
  | succ n ih =>
    intro c hleft
    rw [List.replicate_succ]
    obtain hle | hlt := (Nat.lt_or_ge limit (left after rows c).length).symm
    · have hpage : fetch cursorOf after limit (fun _ => rows) s c = ⟨left after rows c, none⟩ :=
        pageOf_last hle
      rw [follow_last (by rw [hpage]), returned_cons, hpage, returned_nil, List.append_nil]
    · obtain ⟨xs, r, back, hsplit, -, -, hpage⟩ := pageOf_more cursorOf hlimit hlt
      have hfetch : fetch cursorOf after limit (fun _ => rows) s c = _ := hpage
      obtain ⟨front, hrows⟩ := hleft
      rw [hsplit, ← List.append_assoc] at hrows
      have hnext : left after rows (some (cursorOf r)) <:+ back := hforward _ r _ hrows.symm
      have hback : back <:+ rows := ⟨front ++ xs ++ [r], by rw [← hrows]; simp⟩
      have hrest := (ih _ (hnext.trans hback)).trans hnext.sublist
      rw [follow_more (by rw [hfetch]), returned_cons, hfetch, hsplit, List.append_assoc]
      exact (hrest.cons_cons r).append_left xs

/-- **Cursors that only move on lose rows**, unless they cut right. -/
theorem cuts_of_length (hlimit : 0 < limit) (hnodup : rows.Nodup)
    (hforward : ∀ front r back, rows = front ++ r :: back →
      rows.filter (after (cursorOf r)) <:+ back) (s : σ) (n : ℕ)
    (hlength : (returned (follow (fetch cursorOf after limit fun _ => rows) none
      (List.replicate n s))).length = rows.length) : Cuts cursorOf after limit rows := by
  have hreturned := (returned_sublist hlimit hforward s n none (List.suffix_refl rows)).eq_of_length
    hlength
  refine cuts_of_returned hlimit hnodup (fun r hr => ?_) s n rows none (List.suffix_refl rows) rfl
    hreturned
  obtain ⟨front, back, hsplit⟩ := List.append_of_mem hr
  exact (hforward front r back hsplit).trans ⟨front ++ [r], by rw [hsplit]; simp⟩

end

/-! ### A result that changes between pages -/

section
variable {cursorOf : ρ → γ} {after : γ → ρ → Bool} {limit : ℕ} {rows : σ → List ρ}
  {before : ρ → ρ → Prop}

theorem mem_left {s : σ} {c : Option γ} {x : ρ} :
    x ∈ left after (rows s) c ↔ x ∈ rows s ∧ ∀ t ∈ c, after t x = true := by
  cases c <;> simp [left]

theorem left_pairwise (after : γ → ρ → Bool) (hrows : ∀ s, (rows s).Pairwise before) (s : σ)
    (c : Option γ) :
    (left after (rows s) c).Pairwise before := by
  cases c with
  | none => exact hrows s
  | some t => exact (hrows s).filter _

/-- **No row comes twice**: what the pages return comes after their first cursor, in order. -/
theorem follow_increasing [IsTrans ρ before] (hlimit : 0 < limit)
    (hafter : ∀ r x, after (cursorOf r) x = true ↔ before r x)
    (hmono : ∀ t r x, after t r = true → before r x → after t x = true)
    (hrows : ∀ s, (rows s).Pairwise before) (states : List σ) :
    ∀ c : Option γ, (∀ x ∈ returned (follow (fetch cursorOf after limit rows) c states),
        ∀ t ∈ c, after t x = true) ∧
      (returned (follow (fetch cursorOf after limit rows) c states)).Pairwise before := by
  induction states with
  | nil => exact fun c => ⟨by simp [follow], List.Pairwise.nil⟩
  | cons s states ih =>
    intro c
    have hpast : ∀ x ∈ left after (rows s) c, ∀ t ∈ c, after t x = true :=
      fun x hx => (mem_left.mp hx).2
    have hpairwise := left_pairwise after hrows s c
    obtain hle | hlt := (Nat.lt_or_ge limit (left after (rows s) c).length).symm
    · have hfetch : fetch cursorOf after limit rows s c = ⟨left after (rows s) c, none⟩ :=
        pageOf_last hle
      rw [follow_last (by rw [hfetch]), returned_cons, hfetch, returned_nil, List.append_nil]
      exact ⟨hpast, hpairwise⟩
    · obtain ⟨xs, r, back, hsplit, -, -, hpage⟩ := pageOf_more cursorOf hlimit hlt
      have hfetch : fetch cursorOf after limit rows s c = _ := hpage
      obtain ⟨hlater, hordered⟩ := ih (some (cursorOf r))
      -- what later pages return comes after the last row of this one
      have hnext : ∀ x ∈ returned (follow (fetch cursorOf after limit rows) (some (cursorOf r))
          states), before r x := fun x hx => (hafter r x).mp (hlater x hx _ rfl)
      rw [hsplit, ← List.singleton_append, ← List.append_assoc] at hpast hpairwise
      have hpageRows := (List.pairwise_append.mp hpairwise).1
      have hr : r ∈ xs ++ [r] := by simp
      rw [follow_more (by rw [hfetch]), returned_cons, hfetch]
      refine ⟨fun x hx t ht => ?_, List.pairwise_append.mpr ⟨hpageRows, hordered, ?_⟩⟩
      · obtain hx | hx := List.mem_append.mp hx
        · exact hpast x (List.mem_append_left back hx) t ht
        · exact hmono t r x (hpast r (List.mem_append_left back hr) t ht) (hnext x hx)
      · intro y hy x hx
        obtain hy | hy := List.mem_append.mp hy
        · have hyr : before y r := (List.pairwise_append.mp hpageRows).2.2 y hy r (by simp)
          exact Trans.trans hyr (hnext x hx)
        · rw [List.mem_singleton.mp hy]
          exact hnext x hx

/-- **No row that stays is passed over.** -/
theorem mem_follow (hlimit : 0 < limit)
    (hafter : ∀ r x, after (cursorOf r) x = true ↔ before r x)
    (hrows : ∀ s, (rows s).Pairwise before) {x : ρ} :
    ∀ (states : List σ) (c : Option γ), (∀ s ∈ states, x ∈ rows s) → (∀ t ∈ c, after t x = true) →
      Ended (follow (fetch cursorOf after limit rows) c states) →
      x ∈ returned (follow (fetch cursorOf after limit rows) c states) := by
  intro states
  induction states with
  | nil => exact fun _ _ _ hended => absurd hended not_ended_nil
  | cons s states ih =>
    intro c hx hpast hended
    obtain ⟨hs, hstates⟩ := List.forall_mem_cons.mp hx
    have hleft : x ∈ left after (rows s) c := mem_left.mpr ⟨hs, hpast⟩
    obtain hle | hlt := (Nat.lt_or_ge limit (left after (rows s) c).length).symm
    · have hfetch : fetch cursorOf after limit rows s c = ⟨left after (rows s) c, none⟩ :=
        pageOf_last hle
      rw [follow_last (by rw [hfetch]), returned_cons, hfetch]
      exact List.mem_append_left _ hleft
    · obtain ⟨xs, r, back, hsplit, -, -, hpage⟩ := pageOf_more cursorOf hlimit hlt
      have hfetch : fetch cursorOf after limit rows s c = _ := hpage
      have hpairwise := left_pairwise after hrows s c
      rw [hsplit, ← List.singleton_append, ← List.append_assoc] at hleft hpairwise
      have hmore : (fetch cursorOf after limit rows s c).next = some (cursorOf r) := by rw [hfetch]
      rw [ended_follow_more hmore] at hended
      rw [follow_more hmore, returned_cons, hfetch]
      obtain hpageRow | hback := List.mem_append.mp hleft
      · exact List.mem_append_left _ hpageRow
      · -- a row that is left after this page is left under its cursor
        have hrx : before r x := (List.pairwise_append.mp hpairwise).2.2 r (by simp) x hback
        refine List.mem_append_right _ (ih _ hstates ?_ hended)
        rintro t ⟨⟩
        exact (hafter r x).mpr hrx

end

/-! ### Pages that move on -/

section
variable {fetch : σ → Option γ → Page ρ γ} {before : ρ → ρ → Prop}

/-- Wherever a page ends, the next one holds only what comes after its last row. -/
def MovesOn (fetch : σ → Option γ → Page ρ γ) (before : ρ → ρ → Prop) : Option γ → List σ → Prop
  | c, s :: s' :: states =>
    ∀ c' ∈ (fetch s c).next,
      (∀ r ∈ (fetch s c).rows.getLast?, ∀ x ∈ (fetch s' (some c')).rows, before r x) ∧
      MovesOn fetch before (some c') (s' :: states)
  | _, _ => True

/-- **Pages that move on return rows in order**, whatever the states that they find. -/
theorem follow_pairwise [IsTrans ρ before] : ∀ (states : List σ) (c : Option γ),
    (∀ s ∈ states, ∀ c, (fetch s c).rows.Pairwise before) →
    (∀ s ∈ states, ∀ c, (fetch s c).rows = [] → (fetch s c).next = none) →
    MovesOn fetch before c states →
      (returned (follow fetch c states)).Pairwise before ∧
        ∀ r, (∀ s ∈ states.head?, ∀ x ∈ (fetch s c).rows, before r x) →
          ∀ x ∈ returned (follow fetch c states), before r x := by
  intro states
  induction states with
  | nil => exact fun _ _ _ _ => ⟨List.Pairwise.nil, fun _ _ _ hx => by cases hx⟩
  | cons s states ih =>
    intro c hpages hempty hmoves
    obtain ⟨hs, hpages⟩ := List.forall_mem_cons.mp hpages
    obtain ⟨hse, hempty⟩ := List.forall_mem_cons.mp hempty
    cases hnext : (fetch s c).next with
    | none =>
      rw [follow_last hnext, returned_cons, returned_nil, List.append_nil]
      exact ⟨hs c, fun r hr => hr s rfl⟩
    | some c' =>
      have hne : (fetch s c).rows ≠ [] := fun hnil => by
        rw [hse c hnil] at hnext
        cases hnext
      obtain ⟨front, r, hrows⟩ := (List.eq_nil_or_concat _).resolve_left hne
      rw [List.concat_eq_append] at hrows
      have hlast : (fetch s c).rows.getLast? = some r := by rw [hrows, List.getLast?_concat]
      -- the rest of the walk comes after the last row of this page
      have hrest : MovesOn fetch before (some c') states ∧
          ∀ s' ∈ states.head?, ∀ x ∈ (fetch s' (some c')).rows, before r x := by
        cases states with
        | nil => exact ⟨trivial, by simp⟩
        | cons s' states =>
          obtain ⟨hstep, htail⟩ := hmoves c' hnext
          refine ⟨htail, ?_⟩
          rintro _ ⟨⟩
          exact hstep r hlast
      obtain ⟨hordered, hlater⟩ := ih (some c') hpages hempty hrest.1
      have hafter := hlater r hrest.2
      have hr : r ∈ (fetch s c).rows := by rw [hrows]; simp
      rw [follow_more hnext, returned_cons]
      refine ⟨List.pairwise_append.mpr ⟨hs c, hordered, fun y hy x hx => ?_⟩, ?_⟩
      · have hpage := hs c
        rw [hrows] at hpage hy
        obtain hy | hy := List.mem_append.mp hy
        · exact Trans.trans ((List.pairwise_append.mp hpage).2.2 y hy r (by simp)) (hafter x hx)
        · rw [List.mem_singleton.mp hy]
          exact hafter x hx
      · intro r₀ hr₀ x hx
        obtain hx | hx := List.mem_append.mp hx
        · exact hr₀ s rfl x hx
        · exact Trans.trans (hr₀ s rfl r hr) (hafter x hx)

end

/-! ### Pages of something made from rows -/

/-- Pages that correspond are followed alike, and what they return corresponds. -/
theorem follow_map {ρ' β : Type*} {f : σ → Option γ → Page ρ γ} {g : σ → Option γ → Page ρ' γ}
    {φ : ρ → β} {ψ : ρ' → β} {states : List σ}
    (hnext : ∀ s ∈ states, ∀ c, (f s c).next = (g s c).next)
    (hrows : ∀ s ∈ states, ∀ c, (f s c).rows.map φ = (g s c).rows.map ψ) (c : Option γ) :
    (returned (follow f c states)).map φ = (returned (follow g c states)).map ψ ∧
      (Ended (follow f c states) ↔ Ended (follow g c states)) := by
  induction states generalizing c with
  | nil => exact ⟨rfl, iff_of_false not_ended_nil not_ended_nil⟩
  | cons s states ih =>
    obtain ⟨hn, hnext⟩ := List.forall_mem_cons.mp hnext
    obtain ⟨hr, hrows⟩ := List.forall_mem_cons.mp hrows
    cases hg : (g s c).next with
    | none =>
      have hf : (f s c).next = none := (hn c).trans hg
      rw [follow_last hf, follow_last hg]
      simp only [returned_cons, returned_nil, List.append_nil, ended_singleton, hf, hg]
      exact ⟨hr c, trivial⟩
    | some c' =>
      have hf : (f s c).next = some c' := (hn c).trans hg
      obtain ⟨hmap, hended⟩ := ih hnext hrows (some c')
      rw [ended_follow_more hf, ended_follow_more hg, follow_more hf, follow_more hg, returned_cons,
        returned_cons, List.map_append, List.map_append, hr c, hmap]
      exact ⟨rfl, hended⟩

end Keyset
