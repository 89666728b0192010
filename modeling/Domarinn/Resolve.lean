/-
Expanding a suite's `tests:` into concrete cases.

Cases come from the suite itself, from test files and from generator commands.  A case
without an id is assigned one: `inline/<index>`, `<file stem>/<index>` or
`<command stem>/<index>`.  A case with a `matrix` becomes one case for each combination of
its axes; generated cases are not swept.  What the suite's directory and its commands hold
(`SuiteDir`) is a parameter: which files a glob names, which cases a file or a generator
spells, how a template renders.

* **`resolveTests`** — every case of a run, in the order of the source.
-/
import Domarinn.Suite

open Json

/-- Why the cases could not be resolved. -/
inductive ResolveError where
  | notFileUrl (spec : String)
  | parse (path message : String)
  | reading (cause : String)
  | generator (cause : String)

/-- What resolving reads. -/
structure SuiteDir where
  /-- The test files that a pattern names, sorted. -/
  glob : String → Except ResolveError (List String)
  /-- The cases that a test file spells. -/
  parse : String → Except ResolveError (List TestCase)
  /-- A value with its `$file` reference replaced by the file's content. -/
  fixture : Val → Except ResolveError Val
  /-- The cases that a generator emits. -/
  generate : GeneratorSpec → Except ResolveError (List TestCase)
  /-- A template rendered in a context of axis values. -/
  render : String → List (String × Json) → Except String String

/-! ### Paths -/

/-- `Path::file_name`: the last component, unless there is none or it is `..`. -/
def fileName (path : String) : Option String :=
  match ((path.toList.splitOn '/').filter fun c => c ≠ [] ∧ c ≠ ['.']).getLast? with
  | none => none
  | some c => if c = ['.', '.'] then none else some (String.ofList c)

/-- A file name without its extension; a leading dot starts no extension. -/
def stemOfName (name : String) : String :=
  match name.toList.reverse.dropWhile (· ≠ '.') with
  | '.' :: c :: rest => String.ofList (c :: rest).reverse
  | _ => name

/-- `Path::file_stem`. -/
def fileStem (path : String) : Option String := (fileName path).map stemOfName

/-- `strip_prefix("file://")`. -/
def stripFileUrl (spec : String) : Option String :=
  let scheme := "file://".toList
  if scheme.isPrefixOf spec.toList then some (String.ofList (spec.toList.drop scheme.length))
  else none

/-! ### The parameter sweep -/

/-- `BTreeMap::insert`: the value of a variable, new or replaced. -/
def insertVar (key : String) (value : Val) : List (String × Val) → List (String × Val)
  | [] => [(key, value)]
  | v :: vars =>
    if v.1 = key then (key, value) :: vars
    else if key < v.1 then (key, value) :: v :: vars
    else v :: insertVar key value vars

/-- The label of an axis value: a string as it is, anything else as compact JSON. -/
def axisValueLabel (val : Val) : String :=
  match val.asJson with
  | .str s => s
  | other => other.text

/-- `<base>[k1=v1,k2=v2]`. -/
def defaultMatrixId (baseId : String) (combo : List (String × Val)) : String :=
  baseId ++ "[" ++ ",".intercalate (combo.map fun axis => axis.1 ++ "=" ++ axisValueLabel axis.2) ++ "]"

/-- The combinations of the axes: the assignments grow one axis at a time. -/
def matrixCombos (axes : List (String × List Val)) : List (List (String × Val)) :=
  axes.foldl (fun combos axis =>
    combos.flatMap fun combo => axis.2.map fun value => combo ++ [(axis.1, value)]) [[]]

section
variable (dir : SuiteDir)

/-- `render_matrix_id`. -/
def renderMatrixId (template : String) (combo : List (String × Val)) (baseId : String) :
    Except ResolveError String :=
  match dir.render template (combo.map fun axis => (axis.1, axis.2.asJson)) with
  | .ok id => .ok id
  | .error e => .error (.parse (baseId ++ ".matrix_id") e)

/-- The id of one combination. -/
def comboId (tc : TestCase) (combo : List (String × Val)) : Except ResolveError String :=
  match tc.matrixId with
  | some template => renderMatrixId dir template combo (tc.id.getD "")
  | none => .ok (defaultMatrixId (tc.id.getD "") combo)

/-- The case of one combination. -/
def comboCase (tc : TestCase) (combo : List (String × Val)) : Except ResolveError TestCase := do
  let id ← comboId dir tc combo
  return { tc with
    matrix := []
    matrixId := none
    id := some id
    vars := combo.foldl (fun vars axis => insertVar axis.1 axis.2 vars) tc.vars }

/-- `expand_matrix`: one case for each combination; the case itself when it has no matrix. -/
def expandMatrix (tc : TestCase) : Except ResolveError (List TestCase) :=
  if tc.matrix.isEmpty then .ok [tc]
  else match tc.matrix.find? fun axis => axis.2.isEmpty with
    | some axis => .error (.parse (tc.id.getD "matrix") s!"matrix axis '{axis.1}' has no values")
    | none => (matrixCombos tc.matrix).mapM (comboCase dir tc)

/-! ### Loading and generating -/

/-- `ensure_id`. -/
def ensureId (fallback : String) (tc : TestCase) : TestCase :=
  { tc with id := some (tc.id.getD fallback) }

/-- The cases of one source, numbered under a stem where they have no id. -/
def numberCases (stem : String) (cases : List TestCase) : List TestCase :=
  cases.mapIdx fun i tc => ensureId s!"{stem}/{i}" tc

/-- `load_test_file`. -/
def loadTestFile (path : String) : Except ResolveError (List TestCase) := do
  let cases ← dir.parse path
  return numberCases ((fileStem path).getD "tests") cases

/-- `load_glob`: the cases of every file that the pattern names. -/
def loadGlob (spec : String) : Except ResolveError (List TestCase) :=
  match stripFileUrl spec with
  | none => .error (.notFileUrl spec)
  | some rel => do
    let files ← dir.glob rel
    let loaded ← files.mapM (loadTestFile dir)
    return loaded.flatten

/-- The cases of one entry of the `tests:` list, at position `index`. -/
def loadSource (index : ℕ) : TestSource → Except ResolveError (List TestCase)
  | .inline tc => .ok [ensureId s!"inline/{index}" tc]
  | .generator _ => .ok []
  | .glob spec => loadGlob dir spec

/-- `merge_defaults`: defaults fill gaps, and the assertions of the suite come first. -/
def mergeDefaults (defaults : Defaults) (tc : TestCase) : TestCase :=
  { tc with
    vars := defaults.vars.foldl (fun vars v =>
      if vars.any fun w => w.1 = v.1 then vars else insertVar v.1 v.2 vars) tc.vars
    assert := defaults.assert ++ tc.assert
    tags := defaults.tags.foldl (fun tags tag =>
      if tags.contains tag then tags else tags ++ [tag]) tc.tags
    threshold := tc.threshold.or defaults.threshold
    cacheSalt := tc.cacheSalt.or defaults.cacheSalt
    history := tc.history.or defaults.history }

/-- `apply_defaults`, when the suite has any. -/
def applyDefaults (defaults : Option Defaults) (tests : List TestCase) : List TestCase :=
  match defaults with
  | some d => tests.map (mergeDefaults d)
  | none => tests

/-- `resolve_file_vars`, on one case. -/
def resolveFileVars (tc : TestCase) : Except ResolveError TestCase := do
  let vars ← tc.vars.mapM fun v => do
    let value ← dir.fixture v.2
    return (v.1, value)
  return { tc with vars }

/-- `expand_tests`: everything but the generated cases. -/
def expandTests (suite : Suite) : Except ResolveError (List TestCase) := do
  let loaded ← (suite.tests.mapIdx fun i source => (i, source)).mapM fun s => loadSource dir s.1 s.2
  let swept ← loaded.flatten.mapM (expandMatrix dir)
  (applyDefaults suite.defaults swept.flatten).mapM (resolveFileVars dir)

/-- The generators of the suite. -/
def deferredGenerators (suite : Suite) : List GeneratorSpec :=
  suite.tests.filterMap fun
    | .generator gen => some gen
    | _ => none

/-- The stem of a generator's cases. -/
def generatorStem (gen : GeneratorSpec) : String :=
  (gen.command.head?.bind fileStem).getD "generated"

/-- `run_one`. -/
def runOne (gen : GeneratorSpec) : Except ResolveError (List TestCase) := do
  let cases ← dir.generate gen
  return numberCases (generatorStem gen) cases

/-- `resolve_generators`, with the defaults and the file variables applied as the run does. -/
def resolveGenerators (suite : Suite) : Except ResolveError (List TestCase) := do
  let generated ← (deferredGenerators suite).mapM (runOne dir)
  (applyDefaults suite.defaults generated.flatten).mapM (resolveFileVars dir)

/-- Every case of a run. -/
def resolveTests (suite : Suite) : Except ResolveError (List TestCase) := do
  let tests ← expandTests dir suite
  let generated ← resolveGenerators dir suite
  return tests ++ generated

end
