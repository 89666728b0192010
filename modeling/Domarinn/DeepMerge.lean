/-
Laying one suite document over another.

`deepMerge` walks over two documents at once and knows mappings, lists and the name `assert`.  The
wrappers `{$raw: …}` and `{$file: …}` of a variable's value are mappings to it like any other.

A document is read as a `MergeTree`: scalars, lists of documents, and mappings by name.  What
composition is meant to do is a rule for such trees, `wholeRule`; what the walk does is another,
`deepRule`.

* **`tree_deepMerge`** — the walk merges the trees by its rule;
* **`deepMerge_composes_iff`** — it composes as it is meant to exactly when no wrapper meets a
  mapping that adds to it, and no `assert` is a mapping on both sides;
* **`raw_and_file_are_mixed`** — a raw value below a file value gives a mapping with both.
-/
import Domarinn.JsonMembers
import Domarinn.MergeTree
import Domarinn.Suite

namespace Loader

open Json
open MergeTree (mergeWith Rules AddsNothing Agree)

/-! ### Merging documents -/

/-- `map.remove(k)`: the value, and the other entries with the last one in the place of the one
that was removed. -/
def swapRemove (k : String) : List (String × Json) → Option (Json × List (String × Json))
  | [] => none
  | (name, v) :: rest =>
    if name = k then
      some (v, match rest.getLast? with
        | none => []
        | some last => last :: rest.dropLast)
    else (swapRemove k rest).map fun (w, rest) => (w, (name, v) :: rest)

/-- `append_sequences`. -/
def appendSequences : Json → Json → Json
  | .arr a, .arr b => .arr (a ++ b)
  | _, upper => upper

mutual

/-- `deep_merge`. -/
def deepMerge (base : Json) : Json → Json
  | .obj overMap =>
    match base with
    | .obj baseMap => .obj (mergeEntries baseMap overMap)
    | _ => .obj overMap
  | upper => upper

/-- The loop over the entries of the overriding mapping. -/
def mergeEntries (baseMap : List (String × Json)) : List (String × Json) → List (String × Json)
  | [] => baseMap
  | (k, overVal) :: overMap =>
    match swapRemove k baseMap with
    | some (baseVal, baseMap) =>
      let merged := if k = "assert" then appendSequences baseVal overVal
        else deepMerge baseVal overVal
      mergeEntries (insertMember k merged baseMap) overMap
    | none => mergeEntries (insertMember k overVal baseMap) overMap

end

/-- The last entry takes the place of the one that was removed. -/
theorem swapRemove_perm {k : String} {v : Json} {rest : List (String × Json)} :
    ∀ {ms : List (String × Json)}, swapRemove k ms = some (v, rest) → ms.Perm ((k, v) :: rest)
  | [], h => by cases h
  | (name, w) :: ms, h => by
    rw [swapRemove] at h
    by_cases hname : name = k
    · rw [if_pos hname] at h
      obtain ⟨rfl, rfl⟩ := Prod.mk.inj (Option.some_inj.mp h)
      rw [hname]
      refine .cons _ ?_
      obtain rfl | ⟨init, last, rfl⟩ := List.eq_nil_or_concat ms
      · exact .nil
      · rw [List.concat_eq_append, List.getLast?_concat, List.dropLast_concat]
        exact List.perm_append_comm
    · rw [if_neg hname, Option.map_eq_some_iff] at h
      obtain ⟨⟨u, rest'⟩, hrec, heq⟩ := h
      obtain ⟨rfl, rfl⟩ := Prod.mk.inj heq
      exact ((swapRemove_perm hrec).cons _).trans (.swap _ _ _)

theorem swapRemove_eq_none {k : String} : ∀ {ms : List (String × Json)},
    swapRemove k ms = none ↔ member? k ms = none
  | [] => iff_of_true rfl rfl
  | (name, v) :: ms => by
    rw [swapRemove, member?_cons]
    by_cases hname : name = k
    · rw [if_pos hname, if_pos hname]
      exact iff_of_false (fun h => by cases h) fun h => by cases h
    · rw [if_neg hname, if_neg hname, Option.map_eq_none_iff, swapRemove_eq_none]

/-! ### Documents as trees -/

mutual

/-- A document as composition sees it. -/
def tree : Json → MergeTree String Json
  | .null => .scalar .null
  | .bool b => .scalar (.bool b)
  | .num n => .scalar (.num n)
  | .str s => .scalar (.str s)
  | .arr items => .items items
  | .obj members => .node (childTree members)

/-- The tree of an entry, by its name. -/
def childTree : List (String × Json) → String → MergeTree String Json
  | [], _ => .absent
  | (name, v) :: rest, k => if name = k then tree v else childTree rest k

end

theorem childTree_eq (k : String) : ∀ ms : List (String × Json),
    childTree ms k = match member? k ms with
      | some v => tree v
      | none => .absent
  | [] => rfl
  | (name, v) :: ms => by
    rw [childTree, member?_cons, childTree_eq k ms]
    split_ifs <;> rfl

theorem tree_ne_absent (v : Json) : tree v ≠ .absent := by
  cases v <;> rw [tree] <;> exact fun h => by cases h

/-! ### The walk as a rule -/

/-- What the walk does with two values at a path. -/
def deepRule : Rules String Json := fun path _ _ =>
  if path.getLast? = some "assert" then .append else .descend

theorem tree_appendSequences {path : List String} (h : path.getLast? = some "assert")
    (base upper : Json) :
    tree (appendSequences base upper) = mergeWith deepRule path (tree base) (tree upper) := by
  have hrule (b o : MergeTree String Json) : deepRule path b o = .append := if_pos h
  cases upper with
  | null | bool b | num n | str s =>
    rw [tree, MergeTree.mergeWith_scalar]
    cases base <;> rfl
  | arr ys =>
    cases base with
    | arr xs =>
      rw [tree, tree, MergeTree.mergeWith_items, if_pos (hrule _ _)]
      rfl
    | null | bool b | num n | str s | obj baseMap => rfl
  | obj overMap =>
    cases base with
    | obj baseMap =>
      -- two mappings under `assert`: the upper one, by either
      have hne : deepRule path (tree (.obj baseMap)) (tree (.obj overMap)) ≠ .descend := by
        rw [hrule]
        decide
      rw [tree, tree] at hne ⊢
      rw [MergeTree.mergeWith_node, if_neg hne]
      rfl
    | null | bool b | num n | str s | arr xs => rfl

theorem distinct_appendSequences {base upper : Json} (hbase : base.distinct = true)
    (hover : upper.distinct = true) : (appendSequences base upper).distinct = true := by
  cases upper with
  | arr ys =>
    cases base with
    | arr xs =>
      rw [distinct_arr] at hbase hover
      rw [appendSequences, distinct_arr]
      exact fun x hx => (List.mem_append.mp hx).elim (hbase x) (hover x)
    | null | bool b | num n | str s | obj baseMap => exact hover
  | null | bool b | num n | str s | obj overMap => cases base <;> exact hover

theorem distinct_insertMember {k : String} {v : Json} {ms : List (String × Json)}
    (hv : v.distinct = true) (h : ∀ m ∈ ms, m.2.distinct = true) :
    ∀ m ∈ insertMember k v ms, m.2.distinct = true := by
  induction ms with
  | nil => exact List.forall_mem_singleton.mpr hv
  | cons m ms ih =>
    rw [List.forall_mem_cons] at h
    rw [insertMember]
    split_ifs
    · exact List.forall_mem_cons.mpr ⟨hv, h.2⟩
    · exact List.forall_mem_cons.mpr ⟨h.1, ih h.2⟩

mutual

/-- **The walk merges the trees of the documents by its rule**, and no name comes twice. -/
theorem tree_deepMerge : ∀ (upper : Json) {base : Json} {path : List String},
    base.distinct = true → upper.distinct = true → path.getLast? ≠ some "assert" →
      (deepMerge base upper).distinct = true ∧
        tree (deepMerge base upper) = mergeWith deepRule path (tree base) (tree upper)
  | .null, _, _, _, hover, _ => ⟨hover, MergeTree.mergeWith_scalar _ |>.symm⟩
  | .bool _, _, _, _, hover, _ => ⟨hover, MergeTree.mergeWith_scalar _ |>.symm⟩
  | .num _, _, _, _, hover, _ => ⟨hover, MergeTree.mergeWith_scalar _ |>.symm⟩
  | .str _, _, _, _, hover, _ => ⟨hover, MergeTree.mergeWith_scalar _ |>.symm⟩
  | .arr ys, base, path, _, hover, hpath => by
    refine ⟨hover, ?_⟩
    cases base with
    | arr xs =>
      -- lists are joined under `assert` only
      have hne : deepRule path (tree (.arr xs)) (tree (.arr ys)) ≠ .append := by
        rw [deepRule, if_neg hpath]
        decide
      rw [tree, tree] at hne
      rw [tree, tree, MergeTree.mergeWith_items, if_neg hne]
      rfl
    | null | bool b | num n | str s | obj baseMap => rfl
  | .obj overMap, base, path, hbase, hover, hpath => by
    cases base with
    | obj baseMap =>
      have hdescend : deepRule path (tree (.obj baseMap)) (tree (.obj overMap)) = .descend :=
        if_neg hpath
      rw [distinct_obj] at hbase hover
      obtain ⟨hnodup, hdistinct, htree⟩ :=
        tree_mergeEntries overMap path hbase.1 hbase.2 hover.1 hover.2
      rw [tree, tree] at hdescend
      rw [deepMerge, distinct_obj, tree, tree, tree, MergeTree.mergeWith_node, if_pos hdescend]
      exact ⟨⟨hnodup, hdistinct⟩, congrArg _ (funext htree)⟩
    | null | bool b | num n | str s | arr xs => exact ⟨hover, rfl⟩

theorem tree_mergeEntries : ∀ (overMap : List (String × Json)) (path : List String)
    {baseMap : List (String × Json)}, (names baseMap).Nodup → (∀ m ∈ baseMap, m.2.distinct = true) →
      (names overMap).Nodup → (∀ m ∈ overMap, m.2.distinct = true) →
        (names (mergeEntries baseMap overMap)).Nodup ∧
          (∀ m ∈ mergeEntries baseMap overMap, m.2.distinct = true) ∧
          ∀ k, childTree (mergeEntries baseMap overMap) k =
            mergeWith deepRule (path ++ [k]) (childTree baseMap k) (childTree overMap k)
  | [], path, baseMap, hbase, hbased, _, _ => by
    rw [mergeEntries]
    exact ⟨hbase, hbased, fun k => MergeTree.mergeWith_absent.symm⟩
  | (k, overVal) :: overMap, path, baseMap, hbase, hbased, hover, hoverd => by
    rw [names, List.map_cons, List.nodup_cons] at hover
    rw [List.forall_mem_cons] at hoverd
    -- whatever is put under the name, the rest of the loop keeps it
    have hloop : ∀ {merged : Json} {rest : List (String × Json)}, (names rest).Nodup →
        (∀ m ∈ rest, m.2.distinct = true) → (∀ j, j ≠ k → member? j rest = member? j baseMap) →
        merged.distinct = true →
        tree merged = mergeWith deepRule (path ++ [k]) (childTree baseMap k) (tree overVal) →
          (names (mergeEntries (insertMember k merged rest) overMap)).Nodup ∧
            (∀ m ∈ mergeEntries (insertMember k merged rest) overMap, m.2.distinct = true) ∧
            ∀ j, childTree (mergeEntries (insertMember k merged rest) overMap) j =
              mergeWith deepRule (path ++ [j]) (childTree baseMap j)
                (childTree ((k, overVal) :: overMap) j) := by
      intro merged rest hrest hrestd hother hmerged htree
      obtain ⟨hnodup, hdistinct, hchild⟩ := tree_mergeEntries overMap path
        (nodup_insertMember k merged hrest) (distinct_insertMember hmerged hrestd) hover.2 hoverd.2
      refine ⟨hnodup, hdistinct, fun j => ?_⟩
      rw [hchild, childTree_eq j (insertMember k merged rest), member?_insertMember, childTree]
      by_cases hj : k = j
      · subst hj
        have habsent : childTree overMap k = .absent := by
          rw [childTree_eq, member?_eq_none.mpr hover.1]
        rw [if_pos rfl, if_pos rfl, habsent, MergeTree.mergeWith_absent]
        exact htree
      · rw [if_neg hj, if_neg hj, hother j (Ne.symm hj), ← childTree_eq]
    rw [mergeEntries]
    cases hremove : swapRemove k baseMap with
    | none =>
      have hnone := swapRemove_eq_none.mp hremove
      refine hloop hbase hbased (fun _ _ => rfl) hoverd.1 ?_
      rw [childTree_eq, hnone, MergeTree.absent_mergeWith]
    | some removed =>
      obtain ⟨baseVal, rest⟩ := removed
      have hperm := swapRemove_perm hremove
      have hnames : (k :: names rest).Nodup := (hperm.map Prod.fst).nodup_iff.mp hbase
      have hmem : (k, baseVal) ∈ baseMap := hperm.mem_iff.mpr List.mem_cons_self
      have hbaseVal := hbased _ hmem
      have hchild : childTree baseMap k = tree baseVal := by
        rw [childTree_eq, (mem_iff_member? hbase).mp hmem]
      have hother (j : String) (hj : j ≠ k) : member? j rest = member? j baseMap := by
        ext v
        rw [← mem_iff_member? (List.nodup_cons.mp hnames).2, ← mem_iff_member? hbase,
          hperm.mem_iff, List.mem_cons, or_iff_right]
        exact fun h => hj (Prod.mk.inj h).1
      have hrestd : ∀ m ∈ rest, m.2.distinct = true := fun m hm =>
        hbased m (hperm.mem_iff.mpr (List.mem_cons_of_mem _ hm))
      have hlast : (path ++ [k]).getLast? = some k := List.getLast?_concat
      by_cases hassert : k = "assert"
      · refine hloop (List.nodup_cons.mp hnames).2 hrestd hother ?_ ?_
        · rw [if_pos hassert]
          exact distinct_appendSequences hbaseVal hoverd.1
        · rw [if_pos hassert, hchild]
          exact tree_appendSequences (by rw [hlast, hassert]) baseVal overVal
      · have hpath : (path ++ [k]).getLast? ≠ some "assert" := by
          rw [hlast]
          exact fun h => hassert (Option.some_inj.mp h)
        obtain ⟨hmerged, htree⟩ := tree_deepMerge overVal hbaseVal hoverd.1 hpath
        refine hloop (List.nodup_cons.mp hnames).2 hrestd hother ?_ ?_
        · rwa [if_neg hassert]
        · rwa [if_neg hassert, hchild]

end

/-! ### What composition is meant to do -/

/-- The key that marks an object as a raw value. -/
def rawKey : String := "$raw"

/-- The key that marks a variable as the content of a file. -/
def fileKey : String := "$file"

/-- `Val::classify`: only an object with this one key is a raw value. -/
def classify (v : Json) : Val :=
  match v with
  | .obj [(k, inner)] => if k = rawKey then .raw inner else .tpl v
  | v => .tpl v

/-- A mapping that stands for one value: `{$raw: …}`, or `{$file: …}` with its options. -/
def IsWrapper : MergeTree String Json → Prop
  | .node children => (∀ k, children k ≠ .absent ↔ k = rawKey) ∨ children fileKey ≠ .absent
  | _ => False

/-- The wrappers are the values that the rest of the program takes for one. -/
theorem isWrapper_tree {v : Json} (hv : v.distinct = true) : IsWrapper (tree v) ↔
    (∃ inner, classify v = .raw inner) ∨ (getMember v fileKey).isSome = true := by
  cases v with
  | null | bool b | num n | str s | arr xs =>
    refine iff_of_false id ?_
    rintro (⟨inner, h⟩ | h) <;> cases h
  | obj ms =>
    have hfile : childTree ms fileKey ≠ .absent ↔ (member? fileKey ms).isSome = true := by
      rw [childTree_eq]
      cases member? fileKey ms with
      | none => exact iff_of_false (not_not_intro rfl) Bool.false_ne_true
      | some w => exact iff_of_true (tree_ne_absent w) rfl
    have hkey (k : String) : childTree ms k ≠ .absent ↔ k ∈ names ms := by
      rw [← not_iff_not, not_not, ← member?_eq_none, childTree_eq]
      cases member? k ms with
      | none => exact iff_of_true rfl rfl
      | some w => exact iff_of_false (tree_ne_absent w) fun h => by cases h
    have hraw : (∀ k, childTree ms k ≠ .absent ↔ k = rawKey) ↔
        ∃ inner, classify (.obj ms) = .raw inner := by
      simp only [hkey]
      rw [distinct_obj] at hv
      constructor
      · intro h
        -- with distinct names, the one name is all there is
        have hperm : (names ms).Perm [rawKey] :=
          (List.perm_ext_iff_of_nodup hv.1 (List.nodup_singleton _)).mpr fun k => by
            rw [h k, List.mem_singleton]
        match ms, List.perm_singleton.mp hperm with
        | [(name, inner)], hname =>
          obtain rfl : name = rawKey := List.head_eq_of_cons_eq hname
          exact ⟨inner, by rw [classify, if_pos rfl]⟩
      · rintro ⟨inner, h⟩
        match ms, h with
        | [(name, w)], h =>
          by_cases hname : name = rawKey
          · intro k
            rw [names, List.map_singleton, List.mem_singleton, hname]
          · rw [classify, if_neg hname] at h
            cases h
    rw [tree, IsWrapper, hfile, hraw]
    rfl

/-- What composition is meant to do: a wrapper among variables is replaced, lists under `assert` are
joined, mappings are merged name by name. -/
noncomputable def wholeRule : Rules String Json :=
  open Classical in fun path base upper =>
    if "vars" ∈ path.dropLast ∧ (IsWrapper base ∨ IsWrapper upper) then .replace
    else if path.getLast? = some "assert" ∧ (∃ xs, base = .items xs) ∧ ∃ ys, upper = .items ys then
      .append
    else .descend

/-- Two documents as they are meant to be composed. -/
noncomputable def composed (base upper : Json) : MergeTree String Json :=
  mergeWith wholeRule [] (tree base) (tree upper)

/-- Nothing is mixed: where two mappings meet, of which one is a wrapper among variables, or which
are the values of an `assert`, the lower one adds nothing. -/
def Unmixed : List String → MergeTree String Json → MergeTree String Json → Prop
  | path, base, .node upper => ∀ below, base = .node below → open Classical in
      if "vars" ∈ path.dropLast ∧ (IsWrapper (.node below) ∨ IsWrapper (.node upper)) then
        path.getLast? = some "assert" ∨ AddsNothing deepRule path base (.node upper)
      else if path.getLast? = some "assert" then AddsNothing wholeRule path base (.node upper)
      else ∀ k, Unmixed (path ++ [k]) (below k) (upper k)
  | _, _, _ => True

/-! ### When it does -/

theorem agree_iff_unmixed : ∀ {path : List String} {base upper : MergeTree String Json},
    Agree deepRule wholeRule path base upper ↔ Unmixed path base upper := by
  intro path base upper
  induction upper generalizing path base with
  | absent | scalar v => exact Iff.rfl
  | items ys =>
    refine iff_of_true (fun xs hbase => .inl ?_) trivial
    -- lists are joined under `assert` only, by either rule
    have hwrapper : ¬ ("vars" ∈ path.dropLast ∧ (IsWrapper (.items xs) ∨ IsWrapper (.items ys))) :=
      fun h => h.2.elim id id
    rw [hbase, deepRule, wholeRule, if_neg hwrapper]
    by_cases hassert : path.getLast? = some "assert"
    · rw [if_pos hassert, if_pos ⟨hassert, ⟨xs, rfl⟩, ys, rfl⟩]
    · rw [if_neg hassert, if_neg fun h => hassert h.1]
  | node upper ih =>
    rw [Agree, Unmixed]
    refine forall_congr' fun below => forall_congr' fun hbase => ?_
    subst hbase
    have hdeep : deepRule path (.node below) (.node upper) = .descend ↔
        path.getLast? ≠ some "assert" := by
      rw [deepRule]
      split_ifs with hassert
      · exact iff_of_false (by decide) (not_not_intro hassert)
      · exact iff_of_true rfl hassert
    have hwhole : wholeRule path (.node below) (.node upper) = .descend ↔
        ¬ ("vars" ∈ path.dropLast ∧ (IsWrapper (.node below) ∨ IsWrapper (.node upper))) := by
      rw [wholeRule]
      split_ifs with hwrapper hitems
      · exact iff_of_false (by decide) (not_not_intro hwrapper)
      · obtain ⟨-, ⟨xs, hxs⟩, -⟩ := hitems
        cases hxs
      · exact iff_of_true rfl hwrapper
    have htrivial {rule : Rules String Json}
        (h : rule path (.node below) (.node upper) ≠ .descend) :
        AddsNothing rule path (.node below) (.node upper) := fun _ _ hd => absurd hd h
    split_ifs with hwrapper hassert
    · constructor
      · rintro ⟨-, h, -⟩
        exact .inr (h fun hd => hwhole.mp hd hwrapper)
      · rintro (hassert | h)
        · exact ⟨fun _ hd => absurd hwrapper (hwhole.mp hd),
            fun _ => htrivial fun hd => hdeep.mp hd hassert,
            fun _ => htrivial fun hd => hwhole.mp hd hwrapper⟩
        · exact ⟨fun _ hd => absurd hwrapper (hwhole.mp hd), fun _ => h,
            fun _ => htrivial fun hd => hwhole.mp hd hwrapper⟩
    · constructor
      · rintro ⟨-, -, h⟩
        exact h fun hd => hdeep.mp hd hassert
      · intro h
        exact ⟨fun hd => absurd hassert (hdeep.mp hd), fun hne => absurd (hwhole.mpr hwrapper) hne,
          fun _ => h⟩
    · constructor
      · rintro ⟨h, -, -⟩ k
        exact (ih k).mp (h (hdeep.mpr hassert) (hwhole.mpr hwrapper) k)
      · intro h
        exact ⟨fun _ _ k => (ih k).mpr (h k), fun hne => absurd (hwhole.mpr hwrapper) hne,
          fun hne => absurd (hdeep.mpr hassert) hne⟩

/-- **The documents are composed as they are meant to be exactly when nothing is mixed.** -/
theorem deepMerge_composes_iff {base upper : Json} (hbase : base.distinct = true)
    (hover : upper.distinct = true) :
    tree (deepMerge base upper) = composed base upper ↔ Unmixed [] (tree base) (tree upper) := by
  have hroot : ([] : List String).getLast? ≠ some "assert" := fun h => by cases h
  rw [(tree_deepMerge upper hbase hover hroot).2, composed, MergeTree.mergeWith_eq_iff,
    agree_iff_unmixed]

/-! ### Two variables -/

/-- A suite that sets one variable for every test. -/
def varDocument (v : Json) : Json := .obj [("defaults", .obj [("vars", .obj [("payload", v)])])]

/-- `{$raw: "…"}` and `{$file: "…"}`. -/
def rawVar (text : String) : Json := .obj [(rawKey, .str text)]

def fileVar (path : String) : Json := .obj [(fileKey, .str path)]

theorem childTree_singleton (name k : String) (v : Json) :
    childTree [(name, v)] k = if name = k then tree v else .absent := rfl

/-- One mapping with one name over another. -/
theorem unmixed_singleton {path : List String} {name : String} {v w : Json}
    (hvars : "vars" ∉ path.dropLast) (hassert : path.getLast? ≠ some "assert") :
    Unmixed path (tree (.obj [(name, v)])) (tree (.obj [(name, w)])) ↔
      Unmixed (path ++ [name]) (tree v) (tree w) := by
  rw [tree, tree, Unmixed]
  constructor
  · intro h
    have h := h _ rfl
    rw [if_neg fun hw => hvars hw.1, if_neg hassert] at h
    have hname := h name
    rwa [childTree_singleton, childTree_singleton, if_pos rfl, if_pos rfl] at hname
  · intro h below hbelow
    obtain rfl := MergeTree.node.inj hbelow
    rw [if_neg fun hw => hvars hw.1, if_neg hassert]
    intro k
    rw [childTree_singleton, childTree_singleton]
    split_ifs with hk
    · rwa [← hk]
    · trivial

theorem unmixed_varDocument (v w : Json) :
    Unmixed [] (tree (varDocument v)) (tree (varDocument w)) ↔
      Unmixed ["defaults", "vars", "payload"] (tree v) (tree w) := by
  rw [varDocument, varDocument, unmixed_singleton (by decide) (by decide),
    unmixed_singleton (by decide) (by decide), unmixed_singleton (by decide) (by decide)]
  rfl

/-- A raw value over a raw value: there is nothing that the lower one adds. -/
theorem deepMerge_composes_raw :
    tree (deepMerge (varDocument (rawVar "a")) (varDocument (rawVar "b"))) =
      composed (varDocument (rawVar "a")) (varDocument (rawVar "b")) := by
  refine (deepMerge_composes_iff (by decide) (by decide)).mpr ?_
  rw [unmixed_varDocument, rawVar, rawVar, tree, tree, Unmixed]
  intro below hbelow
  obtain rfl := MergeTree.node.inj hbelow
  have hwrapper : IsWrapper (tree (rawVar "b")) :=
    (isWrapper_tree (by decide)).mpr (.inl ⟨.str "b", by rw [rawVar, classify, if_pos rfl]⟩)
  rw [rawVar, tree] at hwrapper
  rw [if_pos ⟨by decide, .inr hwrapper⟩]
  -- the one name of the lower mapping has a text above it
  refine .inr fun below' hbelow' _ k => ?_
  obtain rfl := MergeTree.node.inj hbelow'
  rw [childTree_singleton, childTree_singleton]
  split_ifs
  · trivial
  · rfl

/-- **A raw value below a file value**: the composed variable is a mapping with both keys. -/
theorem raw_and_file_are_mixed : ¬ ∀ base upper : Json, base.distinct = true →
    upper.distinct = true → tree (deepMerge base upper) = composed base upper := by
  intro h
  have heq := h (varDocument (rawVar "7")) (varDocument (fileVar "p.txt")) (by decide) (by decide)
  have hroot : ([] : List String).getLast? ≠ some "assert" := by decide
  rw [(tree_deepMerge _ (by decide) (by decide) hroot).2, composed, MergeTree.mergeWith_eq_iff,
    agree_iff_unmixed, unmixed_varDocument, rawVar, fileVar, tree, tree, Unmixed] at heq
  have hwrapper : IsWrapper (tree (fileVar "p.txt")) :=
    (isWrapper_tree (by decide)).mpr (.inr rfl)
  rw [fileVar, tree] at hwrapper
  have hnothing := heq _ rfl
  rw [if_pos ⟨by decide, .inr hwrapper⟩] at hnothing
  -- the raw text has nothing above it
  obtain hassert | hnothing := hnothing
  · exact absurd hassert (by decide)
  · have hraw := hnothing _ rfl rfl rawKey
    rw [childTree_singleton, childTree_singleton, if_pos rfl,
      if_neg (show fileKey ≠ rawKey by decide)] at hraw
    exact tree_ne_absent _ hraw

end Loader
