/-
What moved between two runs of one case, as far as the recorded digests tell.

* **`classifyChange`** — a definite change explains a case; otherwise every axis must be known;
* **`digests_of_classifyChange`** — the model or the grader is blamed only when none moved.
-/
import Domarinn.Digests

/-- `CaseChange`. -/
inductive CaseChange where
  | unknown
  | promptChanged
  | providerChanged
  | assertsChanged
  | graderChanged
  | modelDrift
  | outputDrift
  | unstableGrader
  | stable
deriving DecidableEq

/-- The digests and outcomes of one case on both sides of a comparison. -/
structure ChangeInputs where
  basePrompt : Option Digest
  headPrompt : Option Digest
  baseProvider : Option Digest
  headProvider : Option Digest
  baseAsserts : Option Digest
  headAsserts : Option Digest
  baseGrader : Option Digest
  headGrader : Option Digest
  outputChanged : Bool
  verdictChanged : Bool

/-- `moved`: unknown when either side is. -/
def moved (base head : Option Digest) : Option Bool :=
  match base, head with
  | some b, some h => some (decide (b ≠ h))
  | _, _ => none

/-- `classify_change`: a definite change on any axis wins over an unknown on another. -/
def classifyChange (i : ChangeInputs) : CaseChange :=
  let prompt := moved i.basePrompt i.headPrompt
  let provider := moved i.baseProvider i.headProvider
  let asserts := moved i.baseAsserts i.headAsserts
  let grader := moved i.baseGrader i.headGrader
  if prompt = some true then .promptChanged
  else if provider = some true then .providerChanged
  else if asserts = some true then .assertsChanged
  else if grader = some true then .graderChanged
  else if prompt.isNone || provider.isNone || asserts.isNone || grader.isNone then .unknown
  else match i.outputChanged, i.verdictChanged with
    | true, true => .modelDrift
    | true, false => .outputDrift
    | false, true => .unstableGrader
    | false, false => .stable

theorem moved_eq_some_false {base head : Option Digest} (hmoved : moved base head ≠ some true)
    (hknown : (moved base head).isNone = false) : base = head := by
  cases base <;> cases head <;> simp_all [moved]

/-- A change is blamed on the model or on the grader only when no digest moved. -/
theorem digests_of_classifyChange {i : ChangeInputs}
    (h : classifyChange i = .modelDrift ∨ classifyChange i = .unstableGrader) :
    i.basePrompt = i.headPrompt ∧ i.baseProvider = i.headProvider := by
  simp only [classifyChange] at h
  split_ifs at h with hprompt hprovider hasserts hgrader hknown
  all_goals try simp at h
  simp only [Bool.or_eq_true, not_or, Bool.not_eq_true] at hknown
  exact ⟨moved_eq_some_false hprompt hknown.1.1.1, moved_eq_some_false hprovider hknown.1.1.2⟩
