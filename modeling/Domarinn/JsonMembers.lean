/-
The members of JSON objects: looking up, inserting, merging.

* **`sortKeys_obj_iff`** — two objects are one up to the order of members, at every depth,
  exactly when they have the same members by name;
* **`sortKeys_obj_cons`** — objects that begin with one name are compared member by member;
* **`member?_insertMember`**, **`member?_insertAll`** — an insertion changes one member;
* **`member?_mergeMembers`** — merging an overlay changes the members the overlay has, each
  by its own value.
-/
import Domarinn.Types
import Mathlib.Data.List.Perm.Basic

namespace Json

/-- The names of an object's members. -/
abbrev names (ms : List (String × Json)) : List String := ms.map Prod.fst

/-! ### Looking up -/

@[simp] theorem member?_nil (k : String) : member? k [] = none := rfl

@[simp] theorem member?_cons (k k' : String) (v : Json) (ms : List (String × Json)) :
    member? k ((k', v) :: ms) = if k' = k then some v else member? k ms := by
  by_cases h : k' = k <;> simp [member?, h]

theorem member?_append (k : String) (ms ns : List (String × Json)) :
    member? k (ms ++ ns) = (member? k ms).or (member? k ns) := by
  induction ms with
  | nil => rfl
  | cons m ms ih =>
    rw [List.cons_append, member?_cons, member?_cons, ih]
    split_ifs <;> rfl

@[simp] theorem member?_optMember (k k' : String) (v : Option Json) :
    member? k (optMember k' v) = if k' = k then v else none := by
  cases v <;> simp [optMember]

/-- A name without a value is not a name of the object. -/
theorem member?_eq_none {k : String} {ms : List (String × Json)} :
    member? k ms = none ↔ k ∉ names ms := by
  induction ms with
  | nil => simp
  | cons m ms ih =>
    rw [member?_cons, names, List.map_cons, List.mem_cons, not_or, ← ih]
    by_cases h : m.1 = k
    · simp [h]
    · simp [h, Ne.symm h]

/-- With distinct names, the members are the values found by name. -/
theorem mem_iff_member? {ms : List (String × Json)} (hnodup : (names ms).Nodup) {k : String}
    {v : Json} : (k, v) ∈ ms ↔ member? k ms = some v := by
  induction ms with
  | nil => simp
  | cons m ms ih =>
    rw [names, List.map_cons, List.nodup_cons] at hnodup
    rw [member?_cons, List.mem_cons]
    by_cases h : m.1 = k
    · subst h
      have hnot : (m.1, v) ∉ ms := fun hmem => hnodup.1 (List.mem_map.mpr ⟨_, hmem, rfl⟩)
      simp [hnot, Prod.ext_iff, eq_comm]
    · have hne : (k, v) ≠ m := fun heq => h (heq ▸ rfl)
      simp [h, hne, ih hnodup.2]

/-- Lists with one image under `f` have one under a map that `f` decides on their elements. -/
theorem map_eq_of_decides_on {α β γ : Type} {f : α → β} {g : α → γ} : ∀ {xs ys : List α},
    (∀ a ∈ xs, ∀ b ∈ ys, f a = f b → g a = g b) → xs.map f = ys.map f →
      xs.map g = ys.map g := by
  intro xs
  induction xs with
  | nil =>
    intro ys _ hmap
    rw [List.map_nil, eq_comm, List.map_eq_nil_iff] at hmap
    rw [hmap]
  | cons x xs ih =>
    intro ys h hmap
    cases ys with
    | nil => simp at hmap
    | cons y ys =>
      rw [List.map_cons, List.map_cons, List.cons.injEq] at hmap
      rw [List.map_cons, List.map_cons, h x List.mem_cons_self y List.mem_cons_self hmap.1,
        ih (fun a ha b hb => h a (List.mem_cons_of_mem x ha) b (List.mem_cons_of_mem y hb)) hmap.2]

theorem map_eq_of_decides {α β γ : Type} {f : α → β} {g : α → γ}
    (h : ∀ a b, f a = f b → g a = g b) {xs ys : List α} (hmap : xs.map f = ys.map f) :
    xs.map g = ys.map g :=
  map_eq_of_decides_on (fun a _ b _ => h a b) hmap

/-! ### Objects up to the order of their members -/

theorem sortKeys_str (s : String) : sortKeys (str s) = str s := by rw [sortKeys]

/-- The members with their values in key-sorted form. -/
def sortedValues (ms : List (String × Json)) : List (String × Json) :=
  ms.map fun m => (m.1, sortKeys m.2)

theorem names_sortedValues (ms : List (String × Json)) : names (sortedValues ms) = names ms := by
  simp [names, sortedValues, Function.comp_def]

theorem member?_sortedValues (k : String) (ms : List (String × Json)) :
    member? k (sortedValues ms) = (member? k ms).map sortKeys := by
  induction ms with
  | nil => rfl
  | cons m ms ih =>
    rw [sortedValues, List.map_cons, member?_cons, member?_cons, ← sortedValues, ih]
    split_ifs <;> rfl

/-- Objects that are one up to order have permuted members. -/
theorem sortedValues_perm {ms ns : List (String × Json)} :
    sortKeys (obj ms) = sortKeys (obj ns) → (sortedValues ms).Perm (sortedValues ns) := by
  intro h
  rw [sortKeys_obj, sortKeys_obj, Json.obj.injEq] at h
  exact (perm_sortMembersByKey _).symm.trans ((List.Perm.of_eq h).trans (perm_sortMembersByKey _))

/-- **Objects are one up to the order of members exactly when they have the same members.** -/
theorem sortKeys_obj_iff {ms ns : List (String × Json)} (hm : (names ms).Nodup)
    (hn : (names ns).Nodup) :
    sortKeys (obj ms) = sortKeys (obj ns) ↔
      ∀ k, (member? k ms).map sortKeys = (member? k ns).map sortKeys := by
  rw [← names_sortedValues] at hm hn
  constructor
  · intro h k
    have hperm := sortedValues_perm h
    rw [← member?_sortedValues, ← member?_sortedValues]
    ext v
    rw [← mem_iff_member? hm, ← mem_iff_member? hn, hperm.mem_iff]
  · intro h
    have hperm : (sortedValues ms).Perm (sortedValues ns) := by
      refine (List.perm_ext_iff_of_nodup hm.of_map hn.of_map).mpr fun ⟨k, v⟩ => ?_
      rw [mem_iff_member? hm, mem_iff_member? hn, member?_sortedValues, member?_sortedValues, h k]
    rw [sortKeys_obj, sortKeys_obj]
    exact congrArg obj (sortMembersByKey_eq_of_perm hperm hm)

/-- Objects whose first member has one name, if it is there, are compared member by member. -/
theorem sortKeys_obj_optMember {k : String} {v w : Option Json} {ms ns : List (String × Json)}
    (hm : (k :: names ms).Nodup) (hn : (k :: names ns).Nodup) :
    sortKeys (obj (optMember k v ++ ms)) = sortKeys (obj (optMember k w ++ ns)) ↔
      v.map sortKeys = w.map sortKeys ∧ sortKeys (obj ms) = sortKeys (obj ns) := by
  have hnodup : ∀ (v : Option Json) {ms : List (String × Json)}, (k :: names ms).Nodup →
      (names (optMember k v ++ ms)).Nodup := by
    intro v ms hms
    cases v with
    | none => exact (List.nodup_cons.mp hms).2
    | some v => exact hms
  have hms := member?_eq_none.mpr (List.nodup_cons.mp hm).1
  have hns := member?_eq_none.mpr (List.nodup_cons.mp hn).1
  -- two sorted objects agree when every name has the same value in both
  rw [sortKeys_obj_iff (hnodup v hm) (hnodup w hn),
    sortKeys_obj_iff (List.nodup_cons.mp hm).2 (List.nodup_cons.mp hn).2]
  simp only [member?_append, member?_optMember]
  constructor
  · intro h
    refine ⟨by simpa [hms, hns] using h k, fun k' => ?_⟩
    by_cases hk : k = k'
    · rw [← hk, hms, hns]
    · simpa [hk] using h k'
  · rintro ⟨hv, h⟩ k'
    by_cases hk : k = k'
    · subst hk
      simpa [hms, hns] using hv
    · simpa [hk] using h k'

/-- Objects that begin with one name are compared member by member. -/
theorem sortKeys_obj_cons {k : String} {v w : Json} {ms ns : List (String × Json)}
    (hm : (k :: names ms).Nodup) (hn : (k :: names ns).Nodup) :
    sortKeys (obj ((k, v) :: ms)) = sortKeys (obj ((k, w) :: ns)) ↔
      sortKeys v = sortKeys w ∧ sortKeys (obj ms) = sortKeys (obj ns) := by
  have := sortKeys_obj_optMember (v := some v) (w := some w) hm hn
  rwa [Option.map_some, Option.map_some, Option.some.injEq] at this

theorem sortKeys_obj_last {k : String} {v w : Option Json} :
    sortKeys (obj (optMember k v)) = sortKeys (obj (optMember k w)) ↔
      v.map sortKeys = w.map sortKeys := by
  have hone : (k :: names []).Nodup := List.nodup_singleton k
  simpa using sortKeys_obj_optMember (v := v) (w := w) hone hone

/-- The members of a record: each field is written when it has a value. -/
def optMembers (fields : List (String × Option Json)) : List (String × Json) :=
  fields.flatMap fun f => optMember f.1 f.2

theorem names_optMembers_sublist (fields : List (String × Option Json)) :
    (names (optMembers fields)).Sublist (fields.map Prod.fst) := by
  induction fields with
  | nil => exact List.nil_sublist _
  | cons f fields ih =>
    rw [optMembers, List.flatMap_cons, ← optMembers, names, List.map_append, List.map_cons]
    cases hv : f.2 with
    | none => exact ih.cons f.1
    | some v => exact ih.cons_cons f.1

/-- **Records with the same fields are one up to order exactly when each field is.** -/
theorem sortKeys_optMembers {fs gs : List (String × Option Json)}
    (hnames : fs.map Prod.fst = gs.map Prod.fst) (hnodup : (fs.map Prod.fst).Nodup) :
    sortKeys (obj (optMembers fs)) = sortKeys (obj (optMembers gs)) ↔
      fs.map (fun f => f.2.map sortKeys) = gs.map fun g => g.2.map sortKeys := by
  induction fs generalizing gs with
  | nil => simp [List.map_eq_nil_iff.mp hnames.symm]
  | cons f fs ih =>
    cases gs with
    | nil => simp at hnames
    | cons g gs =>
      rw [List.map_cons, List.map_cons, List.cons.injEq] at hnames
      rw [List.map_cons] at hnodup
      have hg : (g.1 :: gs.map Prod.fst).Nodup := by rwa [← hnames.1, ← hnames.2]
      have hsub : ∀ (k : String) {fields : List (String × Option Json)},
          (k :: fields.map Prod.fst).Nodup → (k :: names (optMembers fields)).Nodup :=
        fun k fields h => h.sublist ((names_optMembers_sublist fields).cons_cons k)
      rw [optMembers, optMembers, List.flatMap_cons, List.flatMap_cons, ← optMembers, ← optMembers,
        ← hnames.1, sortKeys_obj_optMember (hsub f.1 hnodup) (hsub f.1 (hnames.1 ▸ hg)),
        ih hnames.2 (List.nodup_cons.mp hnodup).2, List.map_cons, List.map_cons, List.cons.injEq]

/-- `Map::remove`, up to the order of the members that stay. -/
def removeMember (k : String) (ms : List (String × Json)) : List (String × Json) :=
  ms.filter fun m => m.1 ≠ k

theorem removeMember_optMembers (k : String) (fields : List (String × Option Json)) :
    removeMember k (optMembers fields) = optMembers (fields.filter fun f => f.1 ≠ k) := by
  rw [removeMember, optMembers, List.filter_flatMap, optMembers]
  induction fields with
  | nil => rfl
  | cons f fields ih =>
    rw [List.flatMap_cons, List.filter_cons, ih]
    by_cases hk : f.1 = k <;> cases hv : f.2 <;> simp [optMember, hk, hv]

/-! ### Inserting -/

theorem member?_insertMember (k k' : String) (v : Json) (ms : List (String × Json)) :
    member? k (insertMember k' v ms) = if k' = k then some v else member? k ms := by
  induction ms with
  | nil => simp [insertMember]
  | cons m ms ih =>
    rw [insertMember]
    by_cases h : m.1 = k'
    · subst h
      rw [if_pos rfl, member?_cons, member?_cons]
      split_ifs <;> rfl
    · rw [if_neg h, member?_cons, member?_cons, ih]
      by_cases hk : m.1 = k
      · have : k' ≠ k := fun h' => h (hk.trans h'.symm)
        simp [hk, this]
      · simp [hk]

theorem mem_names_insertMember {k k' : String} {v : Json} {ms : List (String × Json)} :
    k ∈ names (insertMember k' v ms) ↔ k = k' ∨ k ∈ names ms := by
  rw [← not_iff_not, ← member?_eq_none, member?_insertMember, not_or, ← member?_eq_none]
  by_cases h : k' = k
  · simp [h]
  · simp [h, Ne.symm h]

theorem nodup_insertMember (k : String) (v : Json) {ms : List (String × Json)}
    (h : (names ms).Nodup) : (names (insertMember k v ms)).Nodup := by
  induction ms with
  | nil => simp [insertMember]
  | cons m ms ih =>
    rw [names, List.map_cons, List.nodup_cons] at h
    rw [insertMember]
    by_cases hk : m.1 = k
    · subst hk
      simpa using h
    · rw [if_neg hk, names, List.map_cons, List.nodup_cons]
      refine ⟨fun hmem => ?_, ih h.2⟩
      rcases mem_names_insertMember.mp hmem with heq | hmem
      · exact hk heq
      · exact h.1 hmem

/-- `entry(k).or_insert(v)`: a member that is there stays. -/
def insertAbsent (k : String) (v : Json) (ms : List (String × Json)) : List (String × Json) :=
  if (member? k ms).isSome then ms else insertMember k v ms

theorem nodup_insertAbsent (k : String) (v : Json) {ms : List (String × Json)}
    (h : (names ms).Nodup) : (names (insertAbsent k v ms)).Nodup := by
  rw [insertAbsent]
  split_ifs
  · exact h
  · exact nodup_insertMember k v h

/-- A member inserted only when it has a value. -/
def insertOption (k : String) : Option Json → List (String × Json) → List (String × Json)
  | some v, ms => insertMember k v ms
  | none, ms => ms

theorem nodup_insertOption (k : String) (v : Option Json) {ms : List (String × Json)}
    (h : (names ms).Nodup) : (names (insertOption k v ms)).Nodup := by
  cases v with
  | none => exact h
  | some v => exact nodup_insertMember k v h

/-- The members of a map: every name occurs once. -/
structure Members where
  list : List (String × Json)
  nodup : (names list).Nodup

/-- A map without members. -/
def Members.empty : Members := ⟨[], List.nodup_nil⟩

/-- Members inserted one after the other. -/
def insertAll (new ms : List (String × Json)) : List (String × Json) :=
  new.foldl (fun acc m => insertMember m.1 m.2 acc) ms

theorem member?_insertAll {new : List (String × Json)} (h : (names new).Nodup) (k : String) :
    ∀ ms, member? k (insertAll new ms) = (member? k new).or (member? k ms) := by
  induction new with
  | nil => exact fun ms => rfl
  | cons m new ih =>
    rw [names, List.map_cons, List.nodup_cons] at h
    intro ms
    rw [insertAll, List.foldl_cons, ← insertAll, ih h.2, member?_insertMember, member?_cons]
    by_cases hk : m.1 = k
    · have hnone : member? k new = none := member?_eq_none.mpr (hk ▸ h.1)
      simp [hk, hnone]
    · simp [hk]

theorem nodup_insertAll (new : List (String × Json)) :
    ∀ ms, (names ms).Nodup → (names (insertAll new ms)).Nodup := by
  induction new with
  | nil => exact fun ms h => h
  | cons m new ih => exact fun ms h => ih _ (nodup_insertMember m.1 m.2 h)

/-! ### Merging -/

mutual

/-- `deep_merge`: objects merge member by member, anything else replaces. -/
def deepMerge : Json → Json → Json
  | obj base, obj overlay => obj (mergeMembers base overlay)
  | _, overlay => overlay

/-- The members of an overlay, merged one after the other. -/
def mergeMembers : List (String × Json) → List (String × Json) → List (String × Json)
  | base, [] => base
  | base, (k, v) :: overlay =>
    let merged := match member? k base with
      | some existing => deepMerge existing v
      | none => v
    mergeMembers (insertMember k merged base) overlay

end

/-- What an overlay's value makes of the value below it. -/
def overlaid (below : Option Json) (v : Json) : Json :=
  match below with
  | some existing => deepMerge existing v
  | none => v

theorem mergeMembers_cons (base overlay : List (String × Json)) (k : String) (v : Json) :
    mergeMembers base ((k, v) :: overlay) =
      mergeMembers (insertMember k (overlaid (member? k base) v) base) overlay := by
  rw [mergeMembers]
  cases member? k base <;> rfl

/-- What a name has once an overlay is merged. -/
def mergedMember (base overlay : List (String × Json)) (k : String) : Option Json :=
  match member? k overlay with
  | some v => some (overlaid (member? k base) v)
  | none => member? k base

/-- **A merge changes the members the overlay has**, each by its own value. -/
theorem member?_mergeMembers {overlay : List (String × Json)} (h : (names overlay).Nodup)
    (k : String) : ∀ base, member? k (mergeMembers base overlay) =
      mergedMember base overlay k := by
  induction overlay with
  | nil =>
    intro base
    rw [mergeMembers, mergedMember, member?_nil]
  | cons m overlay ih =>
    obtain ⟨k', v⟩ := m
    rw [names, List.map_cons, List.nodup_cons] at h
    intro base
    rw [mergeMembers_cons, ih h.2, mergedMember, mergedMember, member?_insertMember, member?_cons]
    by_cases hk : k' = k
    · subst hk
      have hnone : member? k' overlay = none := member?_eq_none.mpr h.1
      simp [hnone]
    · simp [hk]

theorem nodup_mergeMembers (overlay : List (String × Json)) :
    ∀ base, (names base).Nodup → (names (mergeMembers base overlay)).Nodup := by
  induction overlay with
  | nil =>
    intro base h
    rwa [mergeMembers]
  | cons m overlay ih =>
    obtain ⟨k, v⟩ := m
    intro base h
    rw [mergeMembers_cons]
    exact ih _ (nodup_insertMember k _ h)

/-! ### Maps that agree apart from some names -/

/-- Members that agree up to order under every name but those listed. -/
def AlikeBut (apart : List String) (ms ns : List (String × Json)) : Prop :=
  ∀ k ∉ apart, (member? k ms).map sortKeys = (member? k ns).map sortKeys

namespace AlikeBut

variable {apart : List String} {ms ns : List (String × Json)} {k : String} {v w : Json}

theorem insert (h : AlikeBut apart ms ns) (hv : sortKeys v = sortKeys w) :
    AlikeBut apart (insertMember k v ms) (insertMember k w ns) := by
  intro k' hk'
  rw [member?_insertMember, member?_insertMember]
  by_cases hk : k = k'
  · simp [hk, hv]
  · simpa [hk] using h k' hk'

/-- What is inserted under a name set apart does not matter. -/
theorem insertOption_apart {v w : Option Json} (h : AlikeBut apart ms ns) (hk : k ∈ apart) :
    AlikeBut apart (insertOption k v ms) (insertOption k w ns) := by
  have hleft : ∀ (v : Option Json) (ms : List (String × Json)), ∀ k' ∉ apart,
      member? k' (insertOption k v ms) = member? k' ms := by
    intro v ms k' hk'
    cases v with
    | none => rfl
    | some v =>
      have hne : k ≠ k' := fun heq => hk' (heq ▸ hk)
      rw [insertOption, member?_insertMember, if_neg hne]
  intro k' hk'
  rw [hleft v ms k' hk', hleft w ns k' hk', h k' hk']

theorem insertOption {v : Option Json} (h : AlikeBut apart ms ns) :
    AlikeBut apart (insertOption k v ms) (insertOption k v ns) := by
  cases v with
  | none => exact h
  | some v => exact h.insert rfl

theorem insertAbsent (h : AlikeBut apart ms ns) (hk : k ∉ apart) :
    AlikeBut apart (insertAbsent k v ms) (insertAbsent k v ns) := by
  have hsome : (member? k ms).isSome = (member? k ns).isSome := by
    simpa using congrArg Option.isSome (h k hk)
  rw [Json.insertAbsent, Json.insertAbsent, hsome]
  split_ifs
  · exact h
  · exact h.insert rfl

theorem of_params {new new' : List (String × Json)} (hnew : (names new).Nodup)
    (hnew' : (names new').Nodup) (h : sortKeys (obj new) = sortKeys (obj new')) :
    AlikeBut apart (insertAll new []) (insertAll new' []) := by
  intro k _
  rw [member?_insertAll hnew, member?_insertAll hnew', member?_nil, Option.or_none, Option.or_none]
  exact (sortKeys_obj_iff hnew hnew').mp h k

end AlikeBut

end Json
