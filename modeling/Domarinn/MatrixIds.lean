/-
The parameter sweep: one case for each combination of the axes, and the ids of the cases.

* **`positions_sorted`**, **`mem_positions`** — the positions on the axes, counted like an odometer,
  come in lexicographic order and each once;
* **`matrixCombos_eq_picks`** — the loop over the axes picks the values at these positions;
* **`tailText_injective_iff`** — when two combinations are never written alike;
* **`expandMatrix_sweeps_iff`** — a sweep is the labelled product of its axes, up to ids that
  coincide: they are distinct exactly when the axes are readable;
* **`readable_of_no_comma`** — where no label has a comma in it, it is enough that the values of an
  axis are written differently.
-/
import Domarinn.Fallible
import Domarinn.Resolve
import Mathlib.Data.List.Forall2
import Mathlib.Order.Lex
import Mathlib.Data.List.Lex

/-! ### Counting like an odometer -/

/-- The positions on axes of these lengths, the last one turning fastest. -/
def positions : List ℕ → List (List ℕ)
  | [] => [[]]
  | n :: lengths => (List.range n).flatMap fun i => (positions lengths).map (i :: ·)

/-- **Every position once, in lexicographic order.** -/
theorem positions_sorted : ∀ lengths : List ℕ, (positions lengths).Pairwise (· < ·)
  | [] => List.pairwise_singleton _ _
  | n :: lengths => by
    rw [positions, List.pairwise_flatMap]
    constructor
    · intro i _
      rw [List.pairwise_map]
      exact (positions_sorted lengths).imp fun h => List.cons_lt_cons_iff.mpr (.inr ⟨rfl, h⟩)
    · refine List.pairwise_lt_range.imp fun hij p hp q hq => ?_
      obtain ⟨p', -, rfl⟩ := List.mem_map.mp hp
      obtain ⟨q', -, rfl⟩ := List.mem_map.mp hq
      exact List.cons_lt_cons_iff.mpr (.inl hij)

theorem mem_positions : ∀ {lengths : List ℕ} {p : List ℕ},
    p ∈ positions lengths ↔ List.Forall₂ (· < ·) p lengths
  | [], p => by simp [positions]
  | n :: lengths, p => by
    simp only [positions, List.mem_flatMap, List.mem_range, List.mem_map]
    constructor
    · rintro ⟨i, hi, q, hq, rfl⟩
      exact .cons hi (mem_positions.mp hq)
    · intro h
      cases h with
      | cons hi hq => exact ⟨_, hi, _, mem_positions.mpr hq, rfl⟩

section
variable {κ α : Type*}

/-- The values at these positions of the axes. -/
def pick : List (κ × List α) → List ℕ → List (κ × α)
  | axis :: axes, i :: p => (axis.2[i]?.map fun value => (axis.1, value)).toList ++ pick axes p
  | _, _ => []

/-- The combinations of the axes. -/
def picks (axes : List (κ × List α)) : List (List (κ × α)) :=
  (positions (axes.map fun axis => axis.2.length)).map (pick axes)

theorem flatMap_range_length {β : Type*} (f : α → List β) : ∀ xs : List α,
    ((List.range xs.length).flatMap fun i => (xs[i]?.map f).getD []) = xs.flatMap f
  | [] => rfl
  | x :: xs => by
    rw [List.length_cons, List.range_succ_eq_map, List.flatMap_cons, List.flatMap_map,
      List.flatMap_cons, ← flatMap_range_length f xs]
    rfl

theorem picks_cons (axis : κ × List α) (axes : List (κ × List α)) :
    picks (axis :: axes) =
      axis.2.flatMap fun value => (picks axes).map ((axis.1, value) :: ·) := by
  rw [picks, List.map_cons, positions, List.map_flatMap,
    ← flatMap_range_length (fun value => (picks axes).map ((axis.1, value) :: ·)) axis.2]
  refine List.flatMap_congr fun i hi => ?_
  have hvalue : axis.2[i]? = some (axis.2.get ⟨i, List.mem_range.mp hi⟩) :=
    List.getElem?_eq_getElem (List.mem_range.mp hi)
  rw [hvalue, Option.map_some, Option.getD_some, picks, List.map_map, List.map_map]
  refine List.map_congr_left fun p _ => ?_
  rw [Function.comp_apply, pick, hvalue]
  rfl

theorem picks_ne_nil {axes : List (κ × List α)} (h : ∀ axis ∈ axes, axis.2 ≠ []) :
    picks axes ≠ [] := by
  induction axes with
  | nil => simp [picks, positions]
  | cons axis axes ih =>
    rw [List.forall_mem_cons] at h
    obtain ⟨value, values, hvalues⟩ := List.exists_cons_of_ne_nil h.1
    rw [picks_cons, hvalues, List.flatMap_cons]
    simp [ih h.2]

end

/-! ### The combinations -/

theorem foldl_combos (axes : List (String × List Val)) : ∀ combos : List (List (String × Val)),
    axes.foldl (fun combos axis =>
      combos.flatMap fun combo => axis.2.map fun value => combo ++ [(axis.1, value)]) combos =
    combos.flatMap fun combo => (picks axes).map (combo ++ ·) := by
  induction axes with
  | nil =>
    intro combos
    simp [picks, positions, pick]
  | cons axis axes ih =>
    intro combos
    rw [List.foldl_cons, ih, List.flatMap_assoc]
    refine List.flatMap_congr fun combo _ => ?_
    rw [picks_cons, List.map_flatMap, List.flatMap_map]
    refine List.flatMap_congr fun value _ => ?_
    rw [List.map_map]
    refine List.map_congr_left fun rest _ => ?_
    rw [Function.comp_apply, List.append_assoc, List.singleton_append]

/-- **The loop over the axes** leaves the picks at the positions of the odometer. -/
theorem matrixCombos_eq_picks (axes : List (String × List Val)) : matrixCombos axes = picks axes := by
  rw [matrixCombos, foldl_combos, List.flatMap_singleton]
  simp

/-! ### How a combination is written -/

/-- The label of a value, in characters. -/
def labelChars (value : Val) : List Char := (axisValueLabel value).toList

/-- `,k=v` for each axis. -/
def tailText (combo : List (String × Val)) : List Char :=
  combo.flatMap fun axis => ',' :: axis.1.toList ++ '=' :: labelChars axis.2

theorem tailText_cons (axis : String × Val) (combo : List (String × Val)) :
    tailText (axis :: combo) =
      ',' :: axis.1.toList ++ '=' :: (labelChars axis.2 ++ tailText combo) := by
  simp [tailText]

theorem intercalate_comma (x : List Char) (xs : List (List Char)) :
    List.intercalate [','] (x :: xs) = x ++ xs.flatMap (',' :: ·) := by
  induction xs generalizing x with
  | nil => simp
  | cons y ys ih => rw [List.intercalate_cons_cons, ih, List.flatMap_cons]; simp

/-- The default id, in characters: the first comma is left out. -/
theorem toList_defaultMatrixId (base : String) (combo : List (String × Val)) :
    (defaultMatrixId base combo).toList = base.toList ++ '[' :: (tailText combo).tail ++ [']'] := by
  have hjoin : List.intercalate [','] (combo.map fun axis =>
      axis.1.toList ++ '=' :: labelChars axis.2) = (tailText combo).tail := by
    cases combo with
    | nil => rfl
    | cons axis combo =>
      rw [List.map_cons, intercalate_comma, tailText_cons, tailText, List.flatMap_map]
      simp
  rw [← hjoin]
  simp [defaultMatrixId, String.toList_intercalate, Function.comp_def, labelChars]

theorem defaultMatrixId_inj {base : String} {axis axis' : String × Val}
    {combo combo' : List (String × Val)} :
    defaultMatrixId base (axis :: combo) = defaultMatrixId base (axis' :: combo') ↔
      tailText (axis :: combo) = tailText (axis' :: combo') := by
  rw [← String.toList_inj, toList_defaultMatrixId, toList_defaultMatrixId, List.append_left_inj,
    List.append_right_inj, List.cons_inj_right, tailText_cons, tailText_cons]
  simp

/-- A text that some choice of values of these axes continues into another. -/
def Continues (t : List Char) (axes : List (String × List Val)) : Prop :=
  ∃ x ∈ picks axes, ∃ y ∈ picks axes, tailText x = t ++ tailText y

/-- The values of an axis are written differently, and no value is another one followed by what the
later axes could be misread for. -/
def Readable : List (String × List Val) → Prop
  | [] => True
  | axis :: axes =>
    (∀ v ∈ axis.2, ∀ w ∈ axis.2, labelChars v = labelChars w → v = w) ∧
      (∀ v ∈ axis.2, ∀ w ∈ axis.2, ∀ t, t ≠ [] → labelChars w = labelChars v ++ t →
        ¬ Continues t axes) ∧
      Readable axes

theorem mem_picks_cons {axis : String × List Val} {axes : List (String × List Val)}
    {combo : List (String × Val)} :
    combo ∈ picks (axis :: axes) ↔
      ∃ v ∈ axis.2, ∃ rest ∈ picks axes, combo = (axis.1, v) :: rest := by
  simp only [picks_cons, List.mem_flatMap, List.mem_map, eq_comm]

/-- **When two combinations are never written alike.**  By induction on the axes: where two texts
agree, one of the two first labels continues the other, and what it adds is read as the beginning
of the other's later axes. -/
theorem tailText_injective_iff : ∀ {axes : List (String × List Val)},
    (∀ axis ∈ axes, axis.2 ≠ []) →
      ((∀ c ∈ picks axes, ∀ d ∈ picks axes, tailText c = tailText d → c = d) ↔ Readable axes)
  | [], _ => by
    refine iff_of_true (fun c hc d hd _ => ?_) trivial
    simp only [picks, positions, List.map_nil, List.map_cons, pick, List.mem_singleton] at hc hd
    rw [hc, hd]
  | axis :: axes, hne => by
    rw [List.forall_mem_cons] at hne
    rw [Readable, ← tailText_injective_iff hne.2]
    have htext (v w : Val) (c d : List (String × Val)) :
        tailText ((axis.1, v) :: c) = tailText ((axis.1, w) :: d) ↔
          labelChars v ++ tailText c = labelChars w ++ tailText d := by
      rw [tailText_cons, tailText_cons]
      simp
    constructor
    · intro hinj
      have hpair : ∀ v ∈ axis.2, ∀ w ∈ axis.2, ∀ c ∈ picks axes, ∀ d ∈ picks axes,
          labelChars v ++ tailText c = labelChars w ++ tailText d → v = w ∧ c = d := by
        intro v hv w hw c hc d hd heq
        have h := hinj _ (mem_picks_cons.mpr ⟨v, hv, c, hc, rfl⟩) _
          (mem_picks_cons.mpr ⟨w, hw, d, hd, rfl⟩) ((htext v w c d).mpr heq)
        obtain ⟨hvw, hcd⟩ := List.cons.inj h
        exact ⟨(Prod.mk.inj hvw).2, hcd⟩
      obtain ⟨first, hfirst⟩ := List.exists_mem_of_ne_nil _ (picks_ne_nil hne.2)
      refine ⟨fun v hv w hw heq => ?_, fun v hv w hw t ht heq => ?_, fun c hc d hd heq => ?_⟩
      · exact (hpair v hv w hw first hfirst first hfirst (by rw [heq])).1
      · rintro ⟨x, hx, y, hy, hxy⟩
        have hvw := (hpair v hv w hw x hx y hy (by rw [hxy, heq, List.append_assoc])).1
        rw [hvw, List.self_eq_append_right] at heq
        exact ht heq
      · obtain ⟨v, hv⟩ := List.exists_mem_of_ne_nil _ hne.1
        exact (hpair v hv v hv c hc d hd (by rw [heq])).2
    · rintro ⟨hlabel, hcont, hinj⟩ _ hleft _ hright heq
      obtain ⟨v, hv, c, hc, rfl⟩ := mem_picks_cons.mp hleft
      obtain ⟨w, hw, d, hd, rfl⟩ := mem_picks_cons.mp hright
      rw [htext] at heq
      -- one label is a prefix of the other
      obtain ⟨t, hw', hx⟩ | ⟨t, hv', hx⟩ := List.append_eq_append_iff.mp heq
      · by_cases ht : t = []
        · rw [ht, List.append_nil] at hw'
          rw [ht, List.nil_append] at hx
          rw [hlabel v hv w hw hw'.symm, hinj c hc d hd hx]
        · exact absurd ⟨c, hc, d, hd, hx⟩ (hcont v hv w hw t ht hw')
      · by_cases ht : t = []
        · rw [ht, List.append_nil] at hv'
          rw [ht, List.nil_append] at hx
          rw [hlabel v hv w hw hv', hinj c hc d hd hx.symm]
        · exact absurd ⟨d, hd, c, hc, hx⟩ (hcont w hw v hv t ht hv')

/-! ### The sweep -/

/-- The value of a variable. -/
def varOf (key : String) (vars : List (String × Val)) : Option Val :=
  (vars.find? fun v => v.1 = key).map Prod.snd

/-- The case of a combination: its values win over the variables of the test, and everything but
the sweep itself is as in the test. -/
structure CaseOf (tc : TestCase) (combo : List (String × Val)) (case : TestCase) : Prop where
  vars : ∀ key, varOf key case.vars = (varOf key combo.reverse).or (varOf key tc.vars)
  rest : { case with
    id := tc.id
    vars := tc.vars
    matrix := tc.matrix
    matrixId := tc.matrixId } = tc

/-- What a sweep promises. -/
structure Sweeps (dir : SuiteDir) (tc : TestCase) : Prop where
  /-- Only an axis without values, or an id that does not render, is refused. -/
  returns : (∃ out, expandMatrix dir tc = .ok out) ↔ (∀ axis ∈ tc.matrix, axis.2 ≠ []) ∧
    (tc.matrix ≠ [] → ∀ combo ∈ picks tc.matrix, ∃ id, comboId dir tc combo = .ok id)
  /-- One case for each combination, in their order. -/
  product : ∀ out, expandMatrix dir tc = .ok out → List.Forall₂ (CaseOf tc) (picks tc.matrix) out
  /-- The generated ids tell the combinations apart. -/
  distinct : ∀ out, expandMatrix dir tc = .ok out → tc.matrixId = none →
    ∀ x ∈ (picks tc.matrix).zip out, ∀ y ∈ (picks tc.matrix).zip out, x.1 ≠ y.1 → x.2.id ≠ y.2.id

theorem varOf_cons (key : String) (v : String × Val) (vars : List (String × Val)) :
    varOf key (v :: vars) = if v.1 = key then some v.2 else varOf key vars := by
  rw [varOf, List.find?_cons]
  by_cases hkey : v.1 = key <;> simp [hkey, varOf]

theorem varOf_append (key : String) (vars vars' : List (String × Val)) :
    varOf key (vars ++ vars') = (varOf key vars).or (varOf key vars') := by
  rw [varOf, List.find?_append, varOf, varOf, Option.map_or]

theorem varOf_insertVar (key : String) (k : String) (value : Val) : ∀ vars : List (String × Val),
    varOf key (insertVar k value vars) = if k = key then some value else varOf key vars
  | [] => varOf_cons key (k, value) []
  | v :: vars => by
    rw [insertVar]
    by_cases hv : v.1 = k
    · rw [if_pos hv, varOf_cons, varOf_cons, hv]
      split_ifs <;> rfl
    · rw [if_neg hv]
      by_cases hlt : k < v.1
      · rw [if_pos hlt]
        exact varOf_cons key (k, value) (v :: vars)
      · rw [if_neg hlt, varOf_cons, varOf_insertVar key k value vars, varOf_cons]
        -- the variable that is passed is another one
        by_cases hk : k = key
        · rw [if_neg fun h => hv (h.trans hk.symm), if_pos hk, if_pos hk]
        · rw [if_neg hk, if_neg hk]

theorem varOf_foldl_insertVar (key : String) (combo : List (String × Val)) :
    ∀ vars : List (String × Val),
      varOf key (combo.foldl (fun vars axis => insertVar axis.1 axis.2 vars) vars) =
        (varOf key combo.reverse).or (varOf key vars) := by
  induction combo with
  | nil =>
    intro vars
    rfl
  | cons axis combo ih =>
    intro vars
    rw [List.foldl_cons, ih, varOf_insertVar, List.reverse_cons, varOf_append, Option.or_assoc,
      varOf_cons]
    by_cases hkey : axis.1 = key
    · rw [if_pos hkey, if_pos hkey, Option.some_or]
    · rw [if_neg hkey, if_neg hkey]
      rfl

theorem caseOf_comboCase {dir : SuiteDir} {tc : TestCase} {combo : List (String × Val)}
    {case : TestCase} (h : comboCase dir tc combo = .ok case) :
    CaseOf tc combo case ∧ ∃ id, comboId dir tc combo = .ok id ∧ case.id = some id := by
  rw [comboCase] at h
  cases hid : comboId dir tc combo with
  | error e =>
    rw [hid] at h
    cases h
  | ok id =>
    rw [hid] at h
    obtain rfl := Except.ok.inj h
    exact ⟨⟨fun key => varOf_foldl_insertVar key combo tc.vars, rfl⟩, id, rfl, rfl⟩

/-- A test without a matrix is its own sweep. -/
theorem expandMatrix_nil {dir : SuiteDir} {tc : TestCase} (h : tc.matrix = []) :
    expandMatrix dir tc = .ok [tc] := by
  rw [expandMatrix, h]
  rfl

theorem expandMatrix_cons (dir : SuiteDir) {tc : TestCase} (h : tc.matrix ≠ []) :
    (∃ e, expandMatrix dir tc = .error e ∧ ∃ axis ∈ tc.matrix, axis.2 = []) ∨
      (∀ axis ∈ tc.matrix, axis.2 ≠ []) ∧
        expandMatrix dir tc = (picks tc.matrix).mapM (comboCase dir tc) := by
  have hempty : tc.matrix.isEmpty = false := by
    rw [List.isEmpty_eq_false_iff]
    exact h
  rw [expandMatrix, hempty, matrixCombos_eq_picks]
  cases hfind : tc.matrix.find? fun axis => axis.2.isEmpty with
  | some axis =>
    have hnil := List.find?_some hfind
    exact .inl ⟨_, rfl, axis, List.mem_of_find?_eq_some hfind, List.isEmpty_iff.mp hnil⟩
  | none =>
    refine .inr ⟨fun axis haxis hnil => ?_, rfl⟩
    exact List.find?_eq_none.mp hfind axis haxis (List.isEmpty_iff.mpr hnil)

/-- What a case of the sweep is. -/
theorem expandMatrix_ok {dir : SuiteDir} {tc : TestCase} {out : List TestCase}
    (h : expandMatrix dir tc = .ok out) : List.Forall₂ (CaseOf tc) (picks tc.matrix) out := by
  by_cases hmatrix : tc.matrix = []
  · rw [expandMatrix_nil hmatrix] at h
    obtain rfl := Except.ok.inj h
    have hpicks : picks tc.matrix = [[]] := by rw [hmatrix]; rfl
    rw [hpicks]
    exact .cons ⟨fun key => rfl, rfl⟩ .nil
  · obtain ⟨e, he, -⟩ | ⟨-, hmap⟩ := expandMatrix_cons dir hmatrix
    · rw [he] at h
      cases h
    · rw [hmap, mapM_ok_iff] at h
      exact h.imp fun combo case hcase => (caseOf_comboCase hcase).1

/-- The ids of a sweep without a template are the default ones. -/
theorem expandMatrix_ids {dir : SuiteDir} {tc : TestCase} {out : List TestCase}
    (h : expandMatrix dir tc = .ok out) (hid : tc.matrixId = none) (hmatrix : tc.matrix ≠ []) :
    List.Forall₂ (fun combo case => case.id = some (defaultMatrixId (tc.id.getD "") combo))
      (picks tc.matrix) out := by
  obtain ⟨e, he, -⟩ | ⟨-, hmap⟩ := expandMatrix_cons dir hmatrix
  · rw [he] at h
    cases h
  · rw [hmap, mapM_ok_iff] at h
    refine h.imp fun combo case hcase => ?_
    obtain ⟨id, hcombo, hcaseId⟩ := (caseOf_comboCase hcase).2
    rw [comboId, hid] at hcombo
    rw [hcaseId, ← Except.ok.inj hcombo]

theorem exists_zip_of_mem {α β : Type} {R : α → β → Prop} {x : α} :
    ∀ {xs : List α} {ys : List β}, List.Forall₂ R xs ys → x ∈ xs →
      ∃ y, (x, y) ∈ xs.zip ys ∧ R x y
  | _, _, .nil, h => absurd h List.not_mem_nil
  | _, _, .cons hr hrest, h => by
    rw [List.zip_cons_cons]
    rcases List.mem_cons.mp h with rfl | hx
    · exact ⟨_, List.mem_cons_self, hr⟩
    · obtain ⟨y, hy, hxy⟩ := exists_zip_of_mem hrest hx
      exact ⟨y, List.mem_cons_of_mem _ hy, hxy⟩

/-- Two combinations get one default id exactly when they are written alike. -/
theorem sameId_iff {base : String} {axes : List (String × List Val)} (haxes : axes ≠ [])
    {c d : List (String × Val)} (hc : c ∈ picks axes) (hd : d ∈ picks axes) :
    defaultMatrixId base c = defaultMatrixId base d ↔ tailText c = tailText d := by
  obtain ⟨axis, rest, rfl⟩ := List.exists_cons_of_ne_nil haxes
  obtain ⟨v, -, c, -, rfl⟩ := mem_picks_cons.mp hc
  obtain ⟨w, -, d, -, rfl⟩ := mem_picks_cons.mp hd
  exact defaultMatrixId_inj

theorem expandMatrix_returns_iff {dir : SuiteDir} {tc : TestCase} :
    (∃ out, expandMatrix dir tc = .ok out) ↔ (∀ axis ∈ tc.matrix, axis.2 ≠ []) ∧
      (tc.matrix ≠ [] → ∀ combo ∈ picks tc.matrix, ∃ id, comboId dir tc combo = .ok id) := by
  by_cases hmatrix : tc.matrix = []
  · refine iff_of_true ⟨_, expandMatrix_nil hmatrix⟩ ⟨?_, fun h => absurd hmatrix h⟩
    rw [hmatrix]
    exact List.forall_mem_nil _
  · have hcase (combo : List (String × Val)) : (∃ case, comboCase dir tc combo = .ok case) ↔
        ∃ id, comboId dir tc combo = .ok id := by
      rw [comboCase]
      cases comboId dir tc combo with
      | error e => exact iff_of_false nofun nofun
      | ok id => exact iff_of_true ⟨_, rfl⟩ ⟨id, rfl⟩
    obtain ⟨e, he, axis, haxis, hnil⟩ | ⟨hne, hmap⟩ := expandMatrix_cons dir hmatrix
    · rw [he]
      exact iff_of_false nofun fun h => h.1 axis haxis hnil
    · rw [hmap, mapM_returns_iff, and_iff_right hne, imp_iff_right hmatrix]
      simp only [hcase]

/-- **A sweep is the labelled product of its axes exactly when the default ids are not needed or the
axes are readable.** -/
theorem expandMatrix_sweeps_iff (dir : SuiteDir) (tc : TestCase) :
    Sweeps dir tc ↔ (tc.matrixId = none → (∀ axis ∈ tc.matrix, axis.2 ≠ []) →
      Readable tc.matrix) := by
  constructor
  · intro h hid hne
    by_cases hmatrix : tc.matrix = []
    · rw [hmatrix]
      trivial
    · rw [← tailText_injective_iff hne]
      intro c hc d hd htext
      have hcombo : ∀ combo ∈ picks tc.matrix, ∃ id, comboId dir tc combo = .ok id := by
        intro combo _
        rw [comboId, hid]
        exact ⟨_, rfl⟩
      obtain ⟨out, hout⟩ := h.returns.mpr ⟨hne, fun _ => hcombo⟩
      have hids := expandMatrix_ids hout hid hmatrix
      obtain ⟨x, hx, hxid⟩ := exists_zip_of_mem hids hc
      obtain ⟨y, hy, hyid⟩ := exists_zip_of_mem hids hd
      by_contra hcd
      refine h.distinct out hout hid _ hx _ hy hcd ?_
      rw [hxid, hyid, (sameId_iff hmatrix hc hd).mpr htext]
  · intro h
    refine ⟨expandMatrix_returns_iff, fun out hout => expandMatrix_ok hout, ?_⟩
    intro out hout hid x hx y hy hxy heq
    by_cases hmatrix : tc.matrix = []
    · -- without axes there is one combination
      have hpicks : picks tc.matrix = [[]] := by rw [hmatrix]; rfl
      have hsingle (z : List (String × Val) × TestCase) (hz : z ∈ (picks tc.matrix).zip out) :
          z.1 = [] := by
        have hmem := (List.of_mem_zip hz).1
        rw [hpicks] at hmem
        exact List.mem_singleton.mp hmem
      exact hxy ((hsingle x hx).trans (hsingle y hy).symm)
    · have hne := (expandMatrix_returns_iff.mp ⟨out, hout⟩).1
      have hids := expandMatrix_ids hout hid hmatrix
      rw [List.forall₂_zip hids hx, List.forall₂_zip hids hy, Option.some_inj] at heq
      have hc := (List.of_mem_zip hx).1
      have hd := (List.of_mem_zip hy).1
      exact hxy ((tailText_injective_iff hne).mpr (h hid hne) _ hc _ hd
        ((sameId_iff hmatrix hc hd).mp heq))

/-- Labels without a comma cannot be misread: what follows a label begins with one. -/
theorem readable_of_no_comma : ∀ {axes : List (String × List Val)},
    (∀ axis ∈ axes, ∀ v ∈ axis.2, ',' ∉ labelChars v) →
    (∀ axis ∈ axes, ∀ v ∈ axis.2, ∀ w ∈ axis.2, labelChars v = labelChars w → v = w) →
      Readable axes
  | [], _, _ => trivial
  | axis :: axes, hcomma, hlabel => by
    rw [List.forall_mem_cons] at hcomma hlabel
    refine ⟨hlabel.1, fun v hv w hw t ht heq => ?_, readable_of_no_comma hcomma.2 hlabel.2⟩
    rintro ⟨x, -, y, -, hxy⟩
    cases x with
    | nil => exact ht (List.append_eq_nil_iff.mp hxy.symm).1
    | cons first x =>
      obtain ⟨c, t, rfl⟩ := List.exists_cons_of_ne_nil ht
      rw [tailText_cons, List.cons_append, List.cons_append] at hxy
      obtain ⟨rfl, -⟩ := List.cons.inj hxy
      refine hcomma.1 w hw ?_
      rw [heq]
      exact List.mem_append_right _ List.mem_cons_self

/-- A suite without files, generators or templates. -/
def bareDir : SuiteDir where
  glob _ := .ok []
  parse _ := .ok []
  fixture value := .ok value
  generate _ := .ok []
  render template _ := .ok template

/-- A sweep over the text `0` and the number `0`. -/
def zeroSweep : TestCase :=
  { TestCase.default with
    id := some "greet"
    matrix := [("temperature", [.tpl (.str "0"), .tpl (.nat 0)])] }

/-- The two zeros are written alike. -/
theorem alike_zeros_share_id : ¬ ∀ (dir : SuiteDir) (tc : TestCase), Sweeps dir tc := by
  intro h
  have hzero := (h bareDir zeroSweep).distinct _ rfl rfl ([("temperature", .tpl (.str "0"))], _)
    List.mem_cons_self ([("temperature", .tpl (.nat 0))], _)
    (List.mem_cons_of_mem _ List.mem_cons_self)
  refine hzero (fun heq => ?_) rfl
  cases heq
