/-
Run sets: which runs a caller may see, and what the caller may do in a project or suite.

A restriction covers a suite, or a whole project; a grant covers as much, for one user.  The
rule is written twice, as a condition that every query over `runs` carries, and as a decision
over fetched rows for a single set.

* **`visibilityPredicate_isTrue`** — the condition, in terms of the rows that cover a run;
* **`setAccess_iff`** — the decision, in the same terms;
* **`access_checks_agree`** — the two agree, and managing takes an admin or a manage grant.
-/
import Domarinn.RunStore
import Domarinn.UserStore

open Sql

/-! ### Callers -/

namespace Auth

inductive Scope where
  | read
  | write
  | admin
deriving DecidableEq

/-- `Admin` includes `Write`, which includes `Read`. -/
def Scope.rank : Scope → ℕ
  | .read => 1
  | .write => 2
  | .admin => 3

inductive Mode where
  | open
  | protectWrites
  | closed
deriving DecidableEq

/-- Which credential a request carried. -/
inductive IdentitySource where
  | anonymous
  | static
  | apiKey
  | session
deriving DecidableEq

/-- Who a request comes from. -/
structure Identity where
  scope : Option Scope
  mode : Mode
  userId : Option String
  role : Option Role
  source : IdentitySource

inductive Access where
  | granted
  | unauthenticated
  | forbidden
deriving DecidableEq

/-- `check`: whether the caller may use a route. -/
def Identity.check (identity : Identity) (route : Scope) : Access :=
  let required := match identity.mode with
    | .open => none
    | .protectWrites => if route = Scope.read then none else some route
    | .closed => some route
  match required with
  | none => .granted
  | some required => match identity.scope with
    | some scope => if required.rank ≤ scope.rank then .granted else .forbidden
    | none => .unauthenticated

end Auth

/-- What a grant lets its holder do; a level includes those before it. -/
inductive GrantLevel where
  | view
  | upload
  | manage
deriving DecidableEq

namespace GrantLevel

def rank : GrantLevel → ℕ
  | view => 1
  | upload => 2
  | manage => 3

/-- `max`. -/
def best (a b : GrantLevel) : GrantLevel := if a.rank ≤ b.rank then b else a

theorem rank_best (a b : GrantLevel) : (best a b).rank = max a.rank b.rank := by
  cases a <;> cases b <;> rfl

theorem one_le_rank (a : GrantLevel) : 1 ≤ a.rank := by cases a <;> decide

theorem eq_manage_iff {a : GrantLevel} : manage.rank ≤ a.rank ↔ a = manage := by
  cases a <;> decide

end GrantLevel

/-- Which runs a caller may see. -/
inductive RunVisibility where
  | full
  | user (id : String)
  | anyone
deriving DecidableEq

/-- `of`: an admin account, or a static token with the admin scope, sees everything. -/
def RunVisibility.of (identity : Auth.Identity) : RunVisibility :=
  if identity.role = some .admin then .full
  else if identity.source = .static ∧ identity.scope = some .admin then .full
  else match identity.userId with
    | some userId => .user userId
    | none => .anyone

/-! ### Policy -/

/-- A row of `run_set_restrictions`; without a suite it restricts the project. -/
structure RestrictionRow where
  project : String
  suite : Option String
deriving DecidableEq

/-- A row of `run_set_grants`. -/
structure GrantRow where
  project : String
  suite : Option String
  userId : String
  level : GrantLevel
deriving DecidableEq

/-- The unique index on `(project, COALESCE(suite,''))`. -/
def RestrictionRow.key (r : RestrictionRow) : String × String := (r.project, r.suite.getD "")

/-- The unique index on `(project, COALESCE(suite,''), user_id)`. -/
def GrantRow.key (g : GrantRow) : String × String × String :=
  (g.project, g.suite.getD "", g.userId)

structure PolicyTables where
  restrictions : List RestrictionRow
  grants : List GrantRow
  restrictionKey : (restrictions.map RestrictionRow.key).Nodup
  grantKey : (grants.map GrantRow.key).Nodup

/-- `project = ? AND (suite IS NULL OR suite = ?)`: a row covers a project and suite. -/
def coversScope (rowProject : String) (rowSuite project suite : Option String) : Truth :=
  (eq (some rowProject) project).and ((isNull rowSuite).or (eq rowSuite suite))

/-- `visibility_predicate`, of a run with this project and suite. -/
def visibilityPredicate (t : PolicyTables) (vis : RunVisibility) (project suite : Option String) :
    Truth :=
  let unrestricted :=
    (existsRow t.restrictions fun r => coversScope r.project r.suite project suite).not
  match vis with
  | .full => .yes
  | .anyone => unrestricted
  | .user userId => unrestricted.or (existsRow t.grants fun g =>
      (eq (some g.userId) (some userId)).and (coversScope g.project g.suite project suite))

/-- The condition on a row of `runs`. -/
def visibleRun (t : PolicyTables) (vis : RunVisibility) (r : RunRow) : Truth :=
  visibilityPredicate t vis r.project r.suite

/-- `restricted`. -/
def restricted (t : PolicyTables) (project suite : Option String) : Bool :=
  (select t.restrictions fun r => coversScope r.project r.suite project suite).head?.isSome

/-- `covering_level`: the strongest grant that covers the set. -/
def coveringLevel (t : PolicyTables) (project suite : Option String) (userId : String) :
    Option GrantLevel :=
  ((select t.grants fun g => (eq (some g.userId) (some userId)).and
      (coversScope g.project g.suite project suite)).map GrantRow.level).foldl
    (fun best level => some (match best with
      | some b => b.best level
      | none => level)) none

/-- `set_access`. -/
def setAccess (t : PolicyTables) (vis : RunVisibility) (project suite : Option String)
    (needed : GrantLevel) : Bool :=
  match vis with
  | .full => true
  | vis =>
    if needed.rank ≤ GrantLevel.upload.rank ∧ restricted t project suite = false then true
    else match vis with
      | .user userId => match coveringLevel t project suite userId with
        | some level => needed.rank ≤ level.rank
        | none => false
      | _ => false

/-! ### Coverage -/

/-- A scope covers a project and suite: it is of that project, and of the suite or of all. -/
def Covers (rowProject : String) (rowSuite project suite : Option String) : Prop :=
  project = some rowProject ∧ (rowSuite = none ∨ suite = rowSuite)

/-- Some restriction covers the set. -/
def IsRestricted (t : PolicyTables) (project suite : Option String) : Prop :=
  ∃ r ∈ t.restrictions, Covers r.project r.suite project suite

/-- The user has a grant of this level, or a stronger one, that covers the set. -/
def HasGrant (t : PolicyTables) (userId : String) (project suite : Option String)
    (needed : GrantLevel) : Prop :=
  ∃ g ∈ t.grants, g.userId = userId ∧ Covers g.project g.suite project suite ∧
    needed.rank ≤ g.level.rank

section
variable {t : PolicyTables} {vis : RunVisibility} {project suite : Option String}
  {userId : String} {needed : GrantLevel}

/-- A missing project is covered by nothing, a missing suite by rows of the project alone. -/
theorem coversScope_isTrue {rowProject : String} {rowSuite : Option String} :
    (coversScope rowProject rowSuite project suite).IsTrue ↔
      Covers rowProject rowSuite project suite := by
  rw [coversScope, Truth.isTrue_and, Truth.isTrue_or, isTrue_eq, isTrue_isNull, isTrue_eq, Covers]
  cases rowSuite with
  | none => simp [eq_comm]
  | some s => simp [eq_comm]

theorem visibilityPredicate_isTrue :
    (visibilityPredicate t vis project suite).IsTrue ↔
      vis = .full ∨ ¬ IsRestricted t project suite ∨
        ∃ userId, vis = .user userId ∧ HasGrant t userId project suite .view := by
  have hunrestricted : (existsRow t.restrictions
      fun r => coversScope r.project r.suite project suite).not.IsTrue ↔
        ¬ IsRestricted t project suite := by
    simp only [Truth.isTrue_not, isFalse_existsRow, coversScope_isTrue, IsRestricted, not_exists,
      not_and]
  have hview : ∀ g : GrantRow, GrantLevel.view.rank ≤ g.level.rank :=
    fun g => g.level.one_le_rank
  cases vis with
  | full => simp [visibilityPredicate]
  | anyone => simp [visibilityPredicate, hunrestricted]
  | user userId =>
    have hgrant : (existsRow t.grants fun g => (eq (some g.userId) (some userId)).and
        (coversScope g.project g.suite project suite)).IsTrue ↔
          HasGrant t userId project suite .view := by
      simp [coversScope_isTrue, HasGrant, hview]
    simp [visibilityPredicate, hunrestricted, hgrant]

theorem restricted_iff : restricted t project suite = true ↔ IsRestricted t project suite := by
  have hnonempty : ∀ rows : List RestrictionRow, rows.head?.isSome = true ↔ ∃ r, r ∈ rows := by
    intro rows
    cases rows <;> simp
  simp only [restricted, hnonempty, mem_select, coversScope_isTrue, IsRestricted]

/-- The fold keeps the strongest level that it has seen. -/
theorem foldl_best_iff (levels : List GrantLevel) :
    ∀ start : Option GrantLevel,
      (∃ b, levels.foldl (fun best level => some (match best with
          | some b => b.best level
          | none => level)) start = some b ∧ needed.rank ≤ b.rank) ↔
        (∃ b, start = some b ∧ needed.rank ≤ b.rank) ∨
          ∃ level ∈ levels, needed.rank ≤ level.rank := by
  induction levels with
  | nil => simp
  | cons level levels ih =>
    intro start
    rw [List.foldl_cons, ih, List.exists_mem_cons_iff, ← or_assoc]
    refine or_congr_left ?_
    cases start with
    | none => simp
    | some b => simp [GrantLevel.rank_best]

theorem coveringLevel_iff :
    (∃ b, coveringLevel t project suite userId = some b ∧ needed.rank ≤ b.rank) ↔
      HasGrant t userId project suite needed := by
  rw [coveringLevel, foldl_best_iff]
  simp only [List.mem_map, mem_select, Truth.isTrue_and, isTrue_eq, coversScope_isTrue, HasGrant]
  constructor
  · rintro (⟨b, hb, -⟩ | ⟨_, ⟨g, ⟨hg, ⟨-, huser⟩, hcovers⟩, rfl⟩, hlevel⟩)
    · cases hb
    · exact ⟨g, hg, Option.some.inj huser, hcovers, hlevel⟩
  · rintro ⟨g, hg, huser, hcovers, hlevel⟩
    exact .inr ⟨g.level, ⟨g, ⟨hg, ⟨by simp, by rw [huser]⟩, hcovers⟩, rfl⟩, hlevel⟩

theorem setAccess_iff :
    setAccess t vis project suite needed = true ↔
      vis = .full ∨ (needed ≠ .manage ∧ ¬ IsRestricted t project suite) ∨
        ∃ userId, vis = .user userId ∧ HasGrant t userId project suite needed := by
  have hwaiver : (needed.rank ≤ GrantLevel.upload.rank ∧ restricted t project suite = false) ↔
      needed ≠ .manage ∧ ¬ IsRestricted t project suite := by
    rw [← restricted_iff, Bool.not_eq_true]
    refine and_congr_left' ?_
    cases needed <;> decide
  cases vis with
  | full => simp [setAccess]
  | anyone => simp [setAccess, hwaiver]
  | user userId =>
    have hgrant : (match coveringLevel t project suite userId with
        | some level => decide (needed.rank ≤ level.rank)
        | none => false) = true ↔ HasGrant t userId project suite needed := by
      rw [← coveringLevel_iff]
      cases coveringLevel t project suite userId <;> simp
    simp only [setAccess]
    split_ifs with h
    · simp [hwaiver.mp h]
    · rw [hgrant]
      simp [mt hwaiver.mpr h]

end

/-! ### The two checks -/

/-- What the two checks of a policy say of any set and any caller. -/
structure AccessChecksAgree (t : PolicyTables) : Prop where
  /-- The decision permits viewing exactly the runs that the condition selects. -/
  view : ∀ vis (runs : List RunRow), ∀ run ∈ runs,
    (setAccess t vis run.project run.suite .view = true ↔ run ∈ select runs (visibleRun t vis))
  /-- Managing takes a manage grant, whether or not the set is restricted. -/
  manage : ∀ vis project suite, setAccess t vis project suite .manage = true ↔
    vis = .full ∨ ∃ userId, vis = .user userId ∧ ∃ g ∈ t.grants,
      g.userId = userId ∧ g.level = .manage ∧ Covers g.project g.suite project suite
  /-- Only admins have the class that passes every check. -/
  full : ∀ identity, RunVisibility.of identity = .full ↔
    identity.role = some .admin ∨ (identity.source = .static ∧ identity.scope = some .admin)

/-- **The two access checks agree.** -/
theorem access_checks_agree (t : PolicyTables) : AccessChecksAgree t where
  view := by
    intro vis runs run hrun
    rw [setAccess_iff, mem_select, and_iff_right hrun, visibleRun, visibilityPredicate_isTrue]
    simp
  manage := by
    intro vis project suite
    rw [setAccess_iff]
    simp only [ne_eq, not_true_eq_false, false_and, false_or, HasGrant, GrantLevel.eq_manage_iff]
    refine or_congr_right (exists_congr fun userId => and_congr_right fun _ => ?_)
    exact exists_congr fun g => and_congr_right fun _ => and_congr_right fun _ => and_comm
  full := by
    intro identity
    rw [RunVisibility.of]
    split_ifs with hrole hstatic
    · simp [hrole]
    · simp [hstatic]
    · cases identity.userId <;> simp [hrole, hstatic]
