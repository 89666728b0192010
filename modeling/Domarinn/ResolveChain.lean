/-
The fallback chain of a cell: who is tried after the provider the cell is about.

`resolveChain` is `resolve_chain`: the configured ids in their order, a repeated one dropped, less
the primary, what the test excludes and what was never built.

* **`firstTimes_order`** — passing over repeated ids keeps the order in which they first come;
* **`resolveChain_clean`** — the chain has exactly the ids that are configured, built and allowed,
  each once, in configured order, never the primary, and whatever the `--provider` filter says.
-/
import Domarinn.Fallible
import Domarinn.RunPlan
import Domarinn.MatrixIds
import Domarinn.Provider

/-! ### First occurrences -/

/-- `ids.filter(|id| seen.insert(id))`: what comes for the first time. -/
def firstTimes {α : Type*} [DecidableEq α] (seen : List α) : List α → List α
  | [] => []
  | x :: xs => if x ∈ seen then firstTimes seen xs else x :: firstTimes (x :: seen) xs

section
variable {α : Type*} [DecidableEq α]

theorem mem_firstTimes {x : α} : ∀ {xs seen : List α},
    x ∈ firstTimes seen xs ↔ x ∈ xs ∧ x ∉ seen
  | [], _ => by simp [firstTimes]
  | y :: ys, seen => by
    rw [firstTimes]
    split_ifs with hy
    · rw [mem_firstTimes, List.mem_cons]
      constructor
      · exact fun h => ⟨.inr h.1, h.2⟩
      · rintro ⟨rfl | hx, hseen⟩
        · exact absurd hy hseen
        · exact ⟨hx, hseen⟩
    · rw [List.mem_cons, mem_firstTimes, List.mem_cons, List.mem_cons, not_or]
      constructor
      · rintro (rfl | ⟨hx, -, hseen⟩)
        · exact ⟨.inl rfl, hy⟩
        · exact ⟨.inr hx, hseen⟩
      · rintro ⟨rfl | hx, hseen⟩
        · exact .inl rfl
        · by_cases hxy : x = y
          · exact .inl hxy
          · exact .inr ⟨hx, hxy, hseen⟩

/-- **Passing over repeated elements** keeps the order in which they first come. -/
theorem firstTimes_order : ∀ (xs seen : List α),
    (firstTimes seen xs).Pairwise fun a b => xs.idxOf a < xs.idxOf b
  | [], _ => .nil
  | x :: xs, seen => by
    -- whatever is kept of the tail is not the head, and so comes one place later
    have hlater : ∀ {seen'}, x ∈ seen' → (firstTimes seen' xs).Pairwise fun a b =>
        (x :: xs).idxOf a < (x :: xs).idxOf b := by
      intro seen' hx
      refine (firstTimes_order xs seen').imp_of_mem fun {a b} ha hb hab => ?_
      have hne : ∀ {y}, y ∈ firstTimes seen' xs → x ≠ y :=
        fun hy hxy => (mem_firstTimes.mp hy).2 (hxy ▸ hx)
      rw [List.idxOf_cons_ne _ (hne ha), List.idxOf_cons_ne _ (hne hb)]
      exact Nat.succ_lt_succ hab
    rw [firstTimes]
    split_ifs with hx
    · exact hlater hx
    · refine .cons (fun y hy => ?_) (hlater List.mem_cons_self)
      have hne : x ≠ y := fun hxy => (mem_firstTimes.mp hy).2 (hxy ▸ List.mem_cons_self)
      rw [List.idxOf_cons_self, List.idxOf_cons_ne _ hne]
      exact Nat.succ_pos _

end

/-! ### The chain of a cell -/

/-- `by_id`: the built providers by their ids, a later one in the place of an earlier. -/
def indexById (built : List Provider) (id : String) : Option Provider :=
  built.reverse.find? fun p => p.id = id

/-- `resolve_chain`.  The run's filter is there for the test's own restriction, which reads nothing
of it. -/
def resolveChain (primaryId : String) (ids : List String) (byId : String → Option Provider)
    (_filter : RunFilter) (test : TestCase) : List Provider :=
  (firstTimes [] ids).filterMap fun id =>
    let kept := id != primaryId && RunFilter.testAllowsProvider id test && (byId id).isSome
    if !kept then none else byId id

/-- A chain with nothing in it that does not belong there, and nothing missing. -/
structure CleanChain (primaryId : String) (ids : List String) (built : List Provider)
    (test : TestCase) (chain : List Provider) : Prop where
  notPrimary : ∀ p ∈ chain, p.id ≠ primaryId
  nodup : (chain.map Provider.id).Nodup
  available : ∀ p ∈ chain, p ∈ built
  exact : ∀ id, id ∈ chain.map Provider.id ↔ id ∈ ids ∧ id ≠ primaryId ∧
    RunFilter.testAllowsProvider id test = true ∧ id ∈ built.map Provider.id
  order : (chain.map Provider.id).Pairwise fun a b => ids.idxOf a < ids.idxOf b

section
variable {primaryId : String} {ids : List String} {built : List Provider} {filter : RunFilter}
  {test : TestCase}

theorem indexById_some {id : String} {p : Provider} (h : indexById built id = some p) :
    p ∈ built ∧ p.id = id := by
  rw [indexById] at h
  exact ⟨List.mem_reverse.mp (List.mem_of_find?_eq_some h), by simpa using List.find?_some h⟩

theorem indexById_isSome {id : String} :
    (indexById built id).isSome = true ↔ id ∈ built.map Provider.id := by
  rw [indexById, List.find?_isSome, List.mem_map]
  simp only [List.mem_reverse, decide_eq_true_eq]

/-- What is kept, the index finds under its own id. -/
theorem resolveChain_ids :
    (resolveChain primaryId ids (indexById built) filter test).map Provider.id =
      (firstTimes [] ids).filter fun id => id != primaryId &&
        RunFilter.testAllowsProvider id test && (indexById built id).isSome := by
  rw [resolveChain, List.map_filterMap, ← List.filterMap_eq_filter]
  refine List.filterMap_congr fun id _ => ?_
  cases hfound : indexById built id with
  | none => simp [hfound, Option.guard]
  | some p =>
    have hid := (indexById_some hfound).2
    cases hkept : id != primaryId && RunFilter.testAllowsProvider id test with
    | false => simp [hkept, Option.guard]
    | true => simp [hkept, hfound, Option.guard, hid]

theorem mem_resolveChain_ids {id : String} :
    id ∈ (resolveChain primaryId ids (indexById built) filter test).map Provider.id ↔
      id ∈ ids ∧ id ≠ primaryId ∧ RunFilter.testAllowsProvider id test = true ∧
        id ∈ built.map Provider.id := by
  rw [resolveChain_ids, List.mem_filter, mem_firstTimes, Bool.and_eq_true, Bool.and_eq_true,
    indexById_isSome, bne_iff_ne, and_iff_left List.not_mem_nil, and_assoc]

theorem cleanChain_resolveChain : CleanChain primaryId ids built test
    (resolveChain primaryId ids (indexById built) filter test) where
  notPrimary p hp := (mem_resolveChain_ids.mp (List.mem_map_of_mem hp)).2.1
  nodup := by
    rw [resolveChain_ids]
    refine List.Nodup.filter _ ((firstTimes_order ids []).imp fun {a b} hab => ?_)
    rintro rfl
    exact Nat.lt_irrefl _ hab
  available p hp := by
    obtain ⟨id, -, hid⟩ := List.mem_filterMap.mp hp
    dsimp only at hid
    split_ifs at hid
    exact (indexById_some hid).1
  exact _ := mem_resolveChain_ids
  order := by
    rw [resolveChain_ids]
    exact (firstTimes_order ids []).filter _

end

/-! ### The chains of a run -/

section
variable (build : ProviderConfig → Except String Provider) (fallbackIds : String → List String)

/-- `fallback_pool`: the fallbacks of the selected providers that are not selected themselves.  One
that does not build is passed over. -/
def fallbackPool (suite : Suite) (selected : List ProviderConfig) : List Provider :=
  let wanted := (selected.flatMap fun p => fallbackIds p.id).filter fun id =>
    !selected.any fun s => s.id == id
  ((suite.providers.filter fun p => wanted.contains p.id).filter fun p =>
    !p.isEmbeddings).filterMap fun p => (build p).toOption

/-- Every provider that a run builds; a selected one that does not build fails the run. -/
def builtProviders (suite : Suite) (opts : RunOptions) : Except String (List Provider) := do
  let selected := selectedProviders suite opts
  let built ← selected.mapM build
  return built ++ fallbackPool build fallbackIds suite selected

/-- The chain of a provider's cells of one test, if it has any. -/
def cellChain (built : List Provider) (filter : RunFilter) (provider : ProviderConfig)
    (test : TestCase) : Option (List Provider) :=
  if filter.matchesTest test && filter.providerIncluded provider.id test then
    some (resolveChain provider.id (fallbackIds provider.id) (indexById built) filter test)
  else none

end

section
variable {build : ProviderConfig → Except String Provider} {fallbackIds : String → List String}
  {suite : Suite} {opts : RunOptions} {built : List Provider}

theorem builtProviders_ok (h : builtProviders build fallbackIds suite opts = .ok built) :
    ∃ bs, (selectedProviders suite opts).mapM build = .ok bs ∧
      built = bs ++ fallbackPool build fallbackIds suite (selectedProviders suite opts) := by
  rw [builtProviders] at h
  cases hmap : (selectedProviders suite opts).mapM build with
  | error e =>
    simp only [hmap] at h
    cases h
  | ok bs =>
    simp only [hmap] at h
    exact ⟨bs, rfl, (Except.ok.inj h).symm⟩

theorem mem_selectedProviders {cfg : ProviderConfig} (h : cfg ∈ selectedProviders suite opts) :
    cfg ∈ suite.providers ∧ cfg.isEmbeddings = false := by
  obtain ⟨hcfg, hforms⟩ := List.mem_filter.mp (List.mem_of_mem_filter h)
  rw [ProviderConfig.formsCells, Bool.and_eq_true, Bool.not_eq_true'] at hforms
  exact ⟨hcfg, hforms.1⟩

theorem mem_fallbackPool {selected : List ProviderConfig} {p : Provider} :
    p ∈ fallbackPool build fallbackIds suite selected ↔
      ∃ cfg ∈ suite.providers, (∃ s ∈ selected, cfg.id ∈ fallbackIds s.id) ∧
        (∀ s ∈ selected, s.id ≠ cfg.id) ∧ cfg.isEmbeddings = false ∧ build cfg = .ok p := by
  have hok : ∀ cfg, (build cfg).toOption = some p ↔ build cfg = .ok p := by
    intro cfg
    cases build cfg with
    | error e => exact iff_of_false (by simp [Except.toOption]) (by simp)
    | ok q => simp [Except.toOption]
  rw [fallbackPool, List.mem_filterMap]
  simp only [List.mem_filter, List.contains_iff_mem, List.mem_flatMap, Bool.not_eq_true',
    List.any_eq_false, beq_iff_eq, hok, and_assoc]

/-- Whatever a run builds, the suite declares under its id. -/
theorem declared_of_built (hbuild : ∀ cfg p, build cfg = .ok p → p.id = cfg.id)
    (hbuilt : builtProviders build fallbackIds suite opts = .ok built) {p : Provider}
    (hp : p ∈ built) :
    ∃ cfg ∈ suite.providers, cfg.id = p.id ∧ cfg.isEmbeddings = false ∧ build cfg = .ok p := by
  obtain ⟨bs, hbs, rfl⟩ := builtProviders_ok hbuilt
  rcases List.mem_append.mp hp with hp | hp
  · obtain ⟨cfg, hcfg, hok⟩ := (mem_mapM_ok hbs).mp hp
    obtain ⟨hdeclared, hemb⟩ := mem_selectedProviders hcfg
    exact ⟨cfg, hdeclared, (hbuild cfg p hok).symm, hemb, hok⟩
  · obtain ⟨cfg, hdeclared, -, -, hemb, hok⟩ := mem_fallbackPool.mp hp
    exact ⟨cfg, hdeclared, (hbuild cfg p hok).symm, hemb, hok⟩

/-- A fallback of a selected provider is built, selected itself or from the pool. -/
theorem built_of_declared (hbuilt : builtProviders build fallbackIds suite opts = .ok built)
    {primary : ProviderConfig} (hprimary : primary ∈ selectedProviders suite opts)
    (hids : (suite.providers.map ProviderConfig.id).Nodup) {cfg : ProviderConfig}
    (hcfg : cfg ∈ suite.providers) (hwanted : cfg.id ∈ fallbackIds primary.id)
    (hemb : cfg.isEmbeddings = false) {p : Provider} (hok : build cfg = .ok p) : p ∈ built := by
  obtain ⟨bs, hbs, rfl⟩ := builtProviders_ok hbuilt
  rw [List.mem_append]
  by_cases hselected : ∃ s ∈ selectedProviders suite opts, s.id = cfg.id
  · obtain ⟨s, hs, hid⟩ := hselected
    obtain rfl := List.inj_on_of_nodup_map hids (mem_selectedProviders hs).1 hcfg hid
    exact .inl ((mem_mapM_ok hbs).mpr ⟨s, hs, hok⟩)
  · refine .inr (mem_fallbackPool.mpr ⟨cfg, hcfg, ⟨primary, hprimary, hwanted⟩, ?_, hemb, hok⟩)
    exact fun s hs hid => hselected ⟨s, hs, hid⟩

/-- What a run finds under a fallback id of a selected provider: what the suite declares under it,
when that is no embeddings provider and builds. -/
theorem indexById_built (hids : (suite.providers.map ProviderConfig.id).Nodup)
    (hbuild : ∀ cfg p, build cfg = .ok p → p.id = cfg.id)
    (hbuilt : builtProviders build fallbackIds suite opts = .ok built)
    {primary : ProviderConfig} (hprimary : primary ∈ selectedProviders suite opts)
    {id : String} (hid : id ∈ fallbackIds primary.id) {p : Provider} :
    indexById built id = some p ↔
      ∃ cfg ∈ suite.providers, cfg.id = id ∧ cfg.isEmbeddings = false ∧ build cfg = .ok p := by
  constructor
  · intro h
    obtain ⟨hp, rfl⟩ := indexById_some h
    exact declared_of_built hbuild hbuilt hp
  · rintro ⟨cfg, hcfg, rfl, hemb, hok⟩
    have hp := built_of_declared hbuilt hprimary hids hcfg hid hemb hok
    have hpid := hbuild cfg p hok
    have hsome : (indexById built cfg.id).isSome = true :=
      indexById_isSome.mpr (List.mem_map.mpr ⟨p, hp, hpid⟩)
    obtain ⟨q, hq⟩ := Option.isSome_iff_exists.mp hsome
    -- the one declaration under the id builds one provider
    obtain ⟨hqmem, hqid⟩ := indexById_some hq
    obtain ⟨cfg', hcfg', hid', -, hok'⟩ := declared_of_built hbuild hbuilt hqmem
    obtain rfl := List.inj_on_of_nodup_map hids hcfg' hcfg (hid'.trans hqid)
    rw [hq, ← Except.ok.inj (hok'.symm.trans hok)]

/-- Two runs that both let a provider form cells find the same under its fallback ids. -/
theorem indexById_filter_free (hids : (suite.providers.map ProviderConfig.id).Nodup)
    (hbuild : ∀ cfg p, build cfg = .ok p → p.id = cfg.id)
    (hbuilt : builtProviders build fallbackIds suite opts = .ok built)
    {opts' : RunOptions} {built' : List Provider}
    (hbuilt' : builtProviders build fallbackIds suite opts' = .ok built')
    {primary : ProviderConfig} (hprimary : primary ∈ selectedProviders suite opts)
    (hprimary' : primary ∈ selectedProviders suite opts')
    {id : String} (hid : id ∈ fallbackIds primary.id) :
    indexById built id = indexById built' id := by
  ext p
  rw [indexById_built hids hbuild hbuilt hprimary hid,
    indexById_built hids hbuild hbuilt' hprimary' hid]

/-- A chain asks the index for the ids it is resolved from alone. -/
theorem resolveChain_congr {primaryId : String} {ids : List String}
    {byId byId' : String → Option Provider} {filter filter' : RunFilter} {test : TestCase}
    (h : ∀ id ∈ ids, byId id = byId' id) :
    resolveChain primaryId ids byId filter test =
      resolveChain primaryId ids byId' filter' test := by
  rw [resolveChain, resolveChain]
  refine List.filterMap_congr fun id hid => ?_
  rw [h id (mem_firstTimes.mp hid).1]

end

/-- **A chain is clean**: it never contains the primary, has no duplicates, contains exactly the
configured ids that are built and allowed, in configured order; and whichever `--provider` lists let
the primary form cells, its chain is one. -/
theorem resolveChain_clean :
    (∀ primaryId ids built filter test, CleanChain primaryId ids built test
      (resolveChain primaryId ids (indexById built) filter test)) ∧
    ∀ (build : ProviderConfig → Except String Provider) (fallbackIds : String → List String)
      (suite : Suite), (suite.providers.map ProviderConfig.id).Nodup →
      (∀ cfg p, build cfg = .ok p → p.id = cfg.id) →
      ∀ (opts opts' : RunOptions) (built built' : List Provider),
        builtProviders build fallbackIds suite opts = .ok built →
        builtProviders build fallbackIds suite opts' = .ok built' →
        ∀ primary ∈ selectedProviders suite opts, primary ∈ selectedProviders suite opts' →
          ∀ test chain chain', cellChain fallbackIds built opts.filter primary test = some chain →
            cellChain fallbackIds built' opts'.filter primary test = some chain' →
            chain = chain' := by
  refine ⟨fun _ _ _ _ _ => cleanChain_resolveChain, ?_⟩
  intro build fallbackIds suite hids hbuild opts opts' built built' hbuilt hbuilt' primary hprimary
    hprimary' test chain chain' hchain hchain'
  rw [cellChain] at hchain hchain'
  split_ifs at hchain hchain'
  rw [← Option.some.inj hchain, ← Option.some.inj hchain']
  exact resolveChain_congr fun id hid =>
    indexById_filter_free hids hbuild hbuilt hbuilt' hprimary hprimary' hid

/-- Two providers, each of which falls back on the other and on itself. -/
def twoProviders : Suite where
  version := 1
  providers := [⟨"a", false, .exec⟩, ⟨"b", false, .exec⟩]
  prompts := []
  tests := []
  defaults := none

/-- Every provider builds. -/
def buildAny (cfg : ProviderConfig) : Except String Provider := .ok (.withDefaults cfg.id .null)

theorem resolveChain_clean_two : ∃ chain,
    cellChain (fun _ => ["b", "a", "b"]) [.withDefaults "a" .null, .withDefaults "b" .null]
      ⟨[], none, ["a"], []⟩ ⟨"a", false, .exec⟩ .default = some chain ∧
    chain.map Provider.id = ["b"] ∧
    cellChain (fun _ => ["b", "a", "b"]) [.withDefaults "a" .null, .withDefaults "b" .null]
      .all ⟨"a", false, .exec⟩ .default = some chain := by
  refine ⟨_, rfl, rfl, ?_⟩
  refine congrArg some (resolveChain_clean.2 buildAny (fun _ => ["b", "a", "b"]) twoProviders
    (by decide) (fun cfg p h => by rw [← Except.ok.inj h]; rfl) ⟨.all, 1, false⟩
    ⟨⟨[], none, ["a"], []⟩, 1, false⟩ _ _ rfl rfl ⟨"a", false, .exec⟩ (.head _) (.head _) .default
    _ _ rfl rfl)
