/-
Ordered maps whose keys are spellings.

A function says which name a key spells, and several keys may spell one name.  An entry is put
by removing the least spelling of its name and inserting the new one.  Entries put one after
another replace each other as long as a name never has two spellings; where a map starts with
several, only as many of them go as entries are put, the least first.

* **`last_putAll_of_single`** — a name with at most one spelling has the last entry put for it,
  and only that.
* **`last_putAll_of_reaches`**, **`last_putAll_of_outspelled`** — of entries put in the order of
  their keys the last one is read, unless the map has several spellings of its name and one of
  them is greater.
-/
import Mathlib.Data.List.Induction
import Mathlib.Tactic.Common
import Std.Data.TreeMap.Lemmas

namespace SpelledMap

open Std

section
variable {α β γ : Type} [Ord α] [DecidableEq γ] (name : α → γ)

/-- The least spelling of a name. -/
def spelling? (m : TreeMap α β) (n : γ) : Option α := m.keys.find? fun k => name k = n

/-- Insert a key in the place of the least spelling of its name. -/
def put (m : TreeMap α β) (k : α) (v : β) : TreeMap α β :=
  match spelling? name m (name k) with
  | some old => (m.erase old).insert k v
  | none => m.insert k v

/-- Entries put one after another. -/
def putAll (m : TreeMap α β) (es : List (α × β)) : TreeMap α β :=
  es.foldl (fun m e => put name m e.1 e.2) m

/-- The last entry of a list that spells a name. -/
def last? (es : List (α × β)) (n : γ) : Option (α × β) :=
  (es.filter fun e => name e.1 = n).getLast?

/-- No two keys of the map spell the name. -/
def Single (m : TreeMap α β) (n : γ) : Prop :=
  ∀ k ∈ m, ∀ k' ∈ m, name k = n → name k' = n → k = k'

variable {name} {m : TreeMap α β} {es : List (α × β)} {n : γ}

@[simp] theorem putAll_nil : putAll name m [] = m := rfl

theorem putAll_concat (e : α × β) :
    putAll name m (es ++ [e]) = put name (putAll name m es) e.1 e.2 := by
  simp [putAll]

omit [Ord α] in
/-- Of two lists the second speaks for a name, if it spells it. -/
theorem last_append (es fs : List (α × β)) :
    last? name (es ++ fs) n = (last? name fs n).or (last? name es n) := by
  rw [last?, List.filter_append, List.getLast?_append]
  rfl

omit [Ord α] in
theorem last_concat (e : α × β) :
    last? name (es ++ [e]) n = if name e.1 = n then some e else last? name es n := by
  rw [last_append]
  split_ifs with he
  · simp [last?, he]
  · simp [last?, he]

omit [Ord α] in
theorem last_spells {e : α × β} (h : last? name es n = some e) : e ∈ es ∧ name e.1 = n := by
  simpa using List.mem_filter.mp (List.mem_of_getLast? h)

end

variable {α β γ : Type} [Ord α] [TransOrd α] [LawfulEqOrd α] [DecidableEq γ]
  {name : α → γ} {m g : TreeMap α β} {es : List (α × β)} {n : γ} {k x : α} {v u : β}

/-! ### One spelling of a name -/

theorem spelling_eq_none : spelling? name m n = none ↔ ∀ y ∈ m, name y ≠ n := by
  simp [spelling?, TreeMap.mem_keys]

theorem spelling_eq_some (h : spelling? name m n = some x) :
    x ∈ m ∧ name x = n ∧ ∀ y ∈ m, name y = n → (compare x y).isLE := by
  obtain ⟨hx, before, after, hkeys, hbefore⟩ := List.find?_eq_some_iff_append.mp h
  simp only [decide_eq_true_eq] at hx
  refine ⟨TreeMap.mem_keys.mp (by simp [hkeys]), hx, fun y hy hyn => ?_⟩
  have hordered := m.ordered_keys
  rw [hkeys, List.pairwise_append, List.pairwise_cons] at hordered
  have hmem := TreeMap.mem_keys.mpr hy
  rw [hkeys, List.mem_append, List.mem_cons] at hmem
  rcases hmem with hy' | rfl | hy'
  · simpa [hyn] using hbefore y hy'
  · simp
  · simp [hordered.2.1.1 y hy']

/-- **The last entry that spells a name** has the greatest spelling of the map. -/
theorem last_toList_eq_some : last? name m.toList n = some (x, v) ↔
    m[x]? = some v ∧ name x = n ∧ ∀ y ∈ m, name y = n → (compare y x).isLE := by
  have hordered : (m.toList.filter fun e => name e.1 = n).Pairwise
      (fun a b => compare a.1 b.1 = .lt) := m.ordered_keys_toList.filter _
  have hmem (e : α × β) : e ∈ m.toList.filter (fun e => name e.1 = n) ↔
      m[e.1]? = some e.2 ∧ name e.1 = n := by
    rw [List.mem_filter, TreeMap.mem_toList_iff_getElem?_eq_some , decide_eq_true_eq]
  constructor
  · intro h
    obtain ⟨init, hinit⟩ := List.getLast?_eq_some_iff.mp h
    obtain ⟨hx, hxn⟩ := (hmem (x, v)).mp (by simp [hinit])
    refine ⟨hx, hxn, fun y hy hyn => ?_⟩
    obtain ⟨w, hw⟩ := Option.isSome_iff_exists.mp (TreeMap.isSome_getElem?_iff_mem.mpr hy)
    have hyl := (hmem (y, w)).mpr ⟨hw, hyn⟩
    rw [hinit, List.pairwise_append] at hordered
    rw [hinit, List.mem_append, List.mem_singleton] at hyl
    rcases hyl with hyl | heq
    · simp [hordered.2.2 _ hyl _ (List.mem_singleton_self _)]
    · simp [(Prod.mk.inj heq).1]
  · rintro ⟨hx, hxn, hmax⟩
    have hxl := (hmem (x, v)).mpr ⟨hx, hxn⟩
    obtain ⟨init, e, hinit⟩ := List.eq_nil_or_concat _ |>.resolve_left (List.ne_nil_of_mem hxl)
    rw [List.concat_eq_append] at hinit
    rw [last?, hinit, List.getLast?_append]
    rw [hinit, List.pairwise_append] at hordered
    rw [hinit, List.mem_append, List.mem_singleton] at hxl
    rcases hxl with hxl | heq
    · -- a later entry would spell the name with a greater key
      have hlt := hordered.2.2 _ hxl e (List.mem_singleton_self e)
      obtain ⟨he, hen⟩ := (hmem e).mp (by simp [hinit])
      have hle := hmax e.1 (TreeMap.isSome_getElem?_iff_mem.mp (by simp [he])) hen
      exact absurd hle (OrientedCmp.not_isLE_of_lt hlt)
    · simp [heq]

theorem last_toList_eq_none : last? name m.toList n = none ↔ ∀ y ∈ m, name y ≠ n := by
  rw [last?, List.getLast?_eq_none_iff, List.filter_eq_nil_iff]
  constructor
  · intro h y hy hyn
    obtain ⟨w, hw⟩ := Option.isSome_iff_exists.mp (TreeMap.isSome_getElem?_iff_mem.mpr hy)
    exact h (y, w) (TreeMap.mem_toList_iff_getElem?_eq_some.mpr hw) (by simpa using hyn)
  · intro h e he hen
    have hmem := TreeMap.mem_toList_iff_getElem?_eq_some.mp (show (e.1, e.2) ∈ m.toList from he)
    exact h e.1 (TreeMap.isSome_getElem?_iff_mem.mp (by simp [hmem])) (by simpa using hen)

theorem single_of_last_eq_none (h : last? name m.toList n = none) : Single name m n :=
  fun k hk _ _ hkn => absurd hkn (last_toList_eq_none.mp h k hk)

variable [DecidableEq α]

/-- What an entry put in the map leaves of it. -/
theorem getElem?_put : (put name m k v)[x]? =
    if k = x then some v else if spelling? name m (name k) = some x then none else m[x]? := by
  unfold put
  cases hold : spelling? name m (name k) with
  | none => simp [TreeMap.getElem?_insert]
  | some old => simp [TreeMap.getElem?_insert, TreeMap.getElem?_erase]

/-- An entry of another name leaves a name as it was. -/
theorem getElem?_put_of_ne (h : name x ≠ name k) : (put name m k v)[x]? = m[x]? := by
  rw [getElem?_put, if_neg (fun heq => h (congrArg name heq.symm)), if_neg]
  intro hold
  exact h (spelling_eq_some hold).2.1

/-- An entry is all that is left of a name that had at most one spelling. -/
theorem getElem?_put_of_single (h : Single name m (name k)) (hx : name x = name k) :
    (put name m k v)[x]? = if k = x then some v else none := by
  rw [getElem?_put]
  refine if_congr Iff.rfl rfl ?_
  split_ifs with hold
  · rfl
  · cases hm : m[x]? with
    | none => rfl
    | some w =>
      have hxm : x ∈ m := TreeMap.isSome_getElem?_iff_mem.mp (by simp [hm])
      cases hs : spelling? name m (name k) with
      | none => exact absurd hx (spelling_eq_none.mp hs x hxm)
      | some old =>
        obtain ⟨hmem, hname, -⟩ := spelling_eq_some hs
        exact absurd (hs.trans (congrArg some (h old hmem x hxm hname hx))) hold

theorem single_put (hm : Single name m n) : Single name (put name m k v) n := by
  intro y hy z hz hyn hzn
  rw [← TreeMap.isSome_getElem?_iff_mem] at hy hz
  by_cases hk : name k = n
  · have hone := hk ▸ hm
    rw [getElem?_put_of_single hone (hyn.trans hk.symm)] at hy
    rw [getElem?_put_of_single hone (hzn.trans hk.symm)] at hz
    split_ifs at hy hz with hky hkz
    · exact hky.symm.trans hkz
    all_goals cases hy
    all_goals cases hz
  · rw [getElem?_put_of_ne (by rwa [hyn, ne_comm]), TreeMap.isSome_getElem?_iff_mem] at hy
    rw [getElem?_put_of_ne (by rwa [hzn, ne_comm]), TreeMap.isSome_getElem?_iff_mem] at hz
    exact hm y hy z hz hyn hzn

/-! ### Entries put one after another -/

/-- Entries put leave a name with one spelling at most, if it had no more. -/
theorem single_putAll (hm : Single name m n) : Single name (putAll name m es) n := by
  induction es using List.reverseRecOn with
  | nil => exact hm
  | append_singleton es e ih =>
    rw [putAll_concat]
    exact single_put ih

/-- Entries put for other names leave a name as it was. -/
theorem getElem?_putAll_of_last_eq_none (h : last? name es n = none) (hx : name x = n) :
    (putAll name m es)[x]? = m[x]? := by
  induction es using List.reverseRecOn with
  | nil => rfl
  | append_singleton es e ih =>
    rw [last_concat] at h
    split_ifs at h with he
    rw [putAll_concat, getElem?_put_of_ne (by rwa [hx, ne_comm]), ih h]

/-- **The last entry put for a name** is all there is of it, if it had one spelling at most. -/
theorem getElem?_putAll_of_single {e : α × β} (hm : Single name m n)
    (h : last? name es n = some e) (hx : name x = n) :
    (putAll name m es)[x]? = if e.1 = x then some e.2 else none := by
  induction es using List.reverseRecOn with
  | nil => simp [last?] at h
  | append_singleton es f ih =>
    rw [putAll_concat]
    rw [last_concat] at h
    split_ifs at h with hf
    · obtain rfl := Option.some.inj h
      exact getElem?_put_of_single (hf ▸ single_putAll hm) (hx.trans hf.symm)
    · rw [getElem?_put_of_ne (by rwa [hx, ne_comm]), ih h]

/-- What is read under a name that no entry put spells. -/
theorem last_putAll_of_last_eq_none (h : last? name es n = none) :
    last? name (putAll name m es).toList n = last? name m.toList n := by
  have hmem {y : α} (hyn : name y = n) : y ∈ putAll name m es ↔ y ∈ m := by
    rw [← TreeMap.isSome_getElem?_iff_mem, getElem?_putAll_of_last_eq_none h hyn,
      TreeMap.isSome_getElem?_iff_mem]
  cases hl : last? name m.toList n with
  | none =>
    rw [last_toList_eq_none] at hl ⊢
    exact fun y hy hyn => hl y ((hmem hyn).mp hy) hyn
  | some e =>
    obtain ⟨he, hen, hmax⟩ := last_toList_eq_some.mp hl
    refine last_toList_eq_some.mpr ⟨?_, hen, fun y hy hyn => hmax y ((hmem hyn).mp hy) hyn⟩
    rw [getElem?_putAll_of_last_eq_none h hen, he]

/-- **What is read under a name** after entries were put in a map with one spelling of it. -/
theorem last_putAll_of_single (hm : Single name m n) :
    last? name (putAll name m es).toList n = (last? name es n).or (last? name m.toList n) := by
  cases h : last? name es n with
  | none => rw [Option.none_or, last_putAll_of_last_eq_none h]
  | some e =>
    rw [Option.some_or]
    have hen : name e.1 = n := (last_spells h).2
    refine last_toList_eq_some.mpr ⟨?_, hen, fun y hy hyn => ?_⟩
    · rw [getElem?_putAll_of_single hm h hen, if_pos rfl]
    · rw [← TreeMap.isSome_getElem?_iff_mem, getElem?_putAll_of_single hm h hyn] at hy
      split_ifs at hy with hey
      · simp [hey]
      · cases hy

/-! ### Entries put in the order of their keys -/

/-- The spellings left of a name are the map's, or not beyond the last one put. -/
theorem mem_putAll_toList {e : α × β} (hsorted : es.Pairwise fun a b => compare a.1 b.1 = .lt)
    (h : last? name es n = some e) (hx : name x = n) (hmem : x ∈ putAll name g es) :
    (compare x e.1).isLE ∨ x ∈ g := by
  induction es using List.reverseRecOn generalizing e with
  | nil => simp [last?] at h
  | append_singleton es f ih =>
    rw [List.pairwise_append] at hsorted
    rw [last_concat] at h
    rw [putAll_concat, ← TreeMap.isSome_getElem?_iff_mem] at hmem
    by_cases hf : name f.1 = n
    · rw [if_pos hf, Option.some_inj] at h
      subst h
      rw [getElem?_put] at hmem
      split_ifs at hmem with hfx hold
      · simp [hfx]
      · cases hmem
      · rw [TreeMap.isSome_getElem?_iff_mem] at hmem
        cases hes : last? name es n with
        | none =>
          right
          rwa [← TreeMap.isSome_getElem?_iff_mem, ← getElem?_putAll_of_last_eq_none hes hx,
            TreeMap.isSome_getElem?_iff_mem]
        | some e' =>
          refine (ih hsorted.1 hes hmem).imp_left fun hle => ?_
          have hlt := hsorted.2.2 e' (last_spells hes).1 f (List.mem_singleton_self f)
          exact TransCmp.isLE_trans hle (by simp [hlt])
    · rw [if_neg hf] at h
      rw [getElem?_put_of_ne (by rwa [hx, ne_comm]), TreeMap.isSome_getElem?_iff_mem] at hmem
      exact ih hsorted.1 h hmem

/-- The last entry put for a name is in the map. -/
theorem getElem?_putAll_last {e : α × β} (h : last? name es n = some e) :
    (putAll name g es)[e.1]? = some e.2 := by
  induction es using List.reverseRecOn with
  | nil => simp [last?] at h
  | append_singleton es f ih =>
    rw [last_concat] at h
    rw [putAll_concat]
    split_ifs at h with hf
    · obtain rfl := Option.some.inj h
      rw [getElem?_put, if_pos rfl]
    · rw [getElem?_put_of_ne (by rwa [(last_spells h).2, ne_comm]), ih h]

/-- **The last entry put for a name is read** when the map has no greater spelling of it, or
only one spelling. -/
theorem last_putAll_of_reaches {e : α × β}
    (hsorted : es.Pairwise fun a b => compare a.1 b.1 = .lt) (h : last? name es n = some e)
    (hreach : Single name g n ∨ ∀ y ∈ g, name y = n → (compare y e.1).isLE) :
    last? name (putAll name g es).toList n = some e := by
  rcases hreach with hsingle | hle
  · rw [last_putAll_of_single hsingle, h, Option.some_or]
  · refine last_toList_eq_some.mpr ⟨getElem?_putAll_last h, (last_spells h).2, fun y hy hyn => ?_⟩
    rcases mem_putAll_toList hsorted h hyn hy with hy | hy
    · exact hy
    · exact hle y hy hyn

/-- A spelling of the map greater than all that are put is never the one removed, if it is not
the only one. -/
theorem getElem?_putAll_of_outspelled {e b : α × β}
    (hsorted : es.Pairwise fun a b => compare a.1 b.1 = .lt) (h : last? name es n = some e)
    (hb : last? name g.toList n = some b) (hlt : compare e.1 b.1 = .lt)
    (hmany : ¬Single name g n) : (putAll name g es)[b.1]? = some b.2 := by
  obtain ⟨hbg, hbn, hmax⟩ := last_toList_eq_some.mp hb
  induction es using List.reverseRecOn generalizing e with
  | nil => simp [last?] at h
  | append_singleton es f ih =>
    rw [List.pairwise_append] at hsorted
    rw [last_concat] at h
    rw [putAll_concat]
    split_ifs at h with hf
    · obtain rfl := Option.some.inj h
      rw [getElem?_put, if_neg (fun heq => by simp [heq] at hlt), hf]
      cases hes : last? name es n with
      | none =>
        -- nothing was put yet: the least spelling of the map goes, which is another one
        rw [getElem?_putAll_of_last_eq_none hes hbn, hbg, if_neg]
        intro hold
        obtain ⟨-, -, hmin⟩ := spelling_eq_some hold
        refine hmany fun y hy z hz hyn hzn => ?_
        have hone (w : α) (hw : w ∈ g) (hwn : name w = n) : w = b.1 := by
          have hw' : w ∈ putAll name g es := by
            rwa [← TreeMap.isSome_getElem?_iff_mem, getElem?_putAll_of_last_eq_none hes hwn,
              TreeMap.isSome_getElem?_iff_mem]
          exact compare_eq_iff_eq.mp (OrientedCmp.isLE_antisymm (hmax w hw hwn) (hmin w hw' hwn))
        rw [hone y hy hyn, hone z hz hzn]
      | some e' =>
        -- an entry put before is less, so it goes before this one
        have hlt' : compare e'.1 f.1 = .lt :=
          hsorted.2.2 e' (last_spells hes).1 f (List.mem_singleton_self f)
        have hltb : compare e'.1 b.1 = .lt := TransCmp.lt_trans hlt' hlt
        rw [ih hsorted.1 hes hltb, if_neg]
        intro hold
        obtain ⟨-, -, hmin⟩ := spelling_eq_some hold
        have hmem : e'.1 ∈ putAll name g es :=
          TreeMap.isSome_getElem?_iff_mem.mp (by simp [getElem?_putAll_last hes])
        exact OrientedCmp.not_isLE_of_lt hltb (hmin e'.1 hmem (last_spells hes).2)
    · rw [getElem?_put_of_ne (by rwa [hbn, ne_comm]), ih hsorted.1 h hlt]

/-- **A greater spelling of the map is read instead** when the map had others besides it. -/
theorem last_putAll_of_outspelled {e b : α × β}
    (hsorted : es.Pairwise fun a b => compare a.1 b.1 = .lt) (h : last? name es n = some e)
    (hb : last? name g.toList n = some b) (hlt : compare e.1 b.1 = .lt)
    (hmany : ¬Single name g n) : last? name (putAll name g es).toList n = some b := by
  obtain ⟨-, hbn, hmax⟩ := last_toList_eq_some.mp hb
  refine last_toList_eq_some.mpr
    ⟨getElem?_putAll_of_outspelled hsorted h hb hlt hmany, hbn, fun y hy hyn => ?_⟩
  rcases mem_putAll_toList hsorted h hyn hy with hy | hy
  · exact TransCmp.isLE_trans hy (by simp [hlt])
  · exact hmax y hy hyn

end SpelledMap
