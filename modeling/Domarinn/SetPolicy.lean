/-
Editing the policy: restrictions by admins, grants by whoever manages a set.

The rows of a set are found by a key in which a missing suite reads as the empty name.  A run
may carry an empty suite name, so the whole-project row and the row of that suite share a key.

* **`confined_iff`** — an operation on one suite is confined to it unless its name is empty;
* **`acquired_by_grant`** — nobody comes to manage a set but by a manager's or admin's grant;
* **`set_policy_sound`** — the two together.
-/
import Domarinn.RunSets

open Sql

/-! ### Storage -/

/-- `project = ? AND COALESCE(suite,'') = COALESCE(?,'')`. -/
def atScope (project : String) (suite : Option String) (rowProject : String)
    (rowSuite : Option String) : Truth :=
  (eq (some rowProject) (some project)).and
    (eq (some (rowSuite.getD "")) (some (suite.getD "")))

namespace PolicyTables

/-- `restrict_run_set`; whether this created the restriction. -/
def restrictRunSet (t : PolicyTables) (project : String) (suite : Option String) :
    PolicyTables × Bool :=
  let row : RestrictionRow := ⟨project, suite⟩
  ({ t with
      restrictions := insertNew RestrictionRow.key t.restrictions row
      restrictionKey := nodup_insertNew t.restrictionKey },
    decide (row.key ∉ t.restrictions.map RestrictionRow.key))

/-- `unrestrict_run_set`; whether a row was removed. -/
def unrestrictRunSet (t : PolicyTables) (project : String) (suite : Option String) :
    PolicyTables × Bool :=
  ({ t with
      restrictions := deleteWhere t.restrictions fun r => atScope project suite r.project r.suite
      restrictionKey := t.restrictionKey.sublist (deleteWhere_sublist.map _) },
    t.restrictions.any fun r => (atScope project suite r.project r.suite).IsTrue)

/-- `upsert_run_set_grant`: create a grant, or set its level. -/
def upsertRunSetGrant (t : PolicyTables) (project : String) (suite : Option String)
    (userId : String) (level : GrantLevel) : PolicyTables :=
  { t with
    grants := upsert GrantRow.key (fun g => { g with level }) t.grants
      ⟨project, suite, userId, level⟩
    grantKey := nodup_upsert (fun _ => rfl) t.grantKey }

/-- `delete_run_set_grant`; whether a row was removed. -/
def deleteRunSetGrant (t : PolicyTables) (project : String) (suite : Option String)
    (userId : String) : PolicyTables × Bool :=
  let condition (g : GrantRow) :=
    (atScope project suite g.project g.suite).and (eq (some g.userId) (some userId))
  ({ t with
      grants := deleteWhere t.grants condition
      grantKey := t.grantKey.sublist (deleteWhere_sublist.map _) },
    t.grants.any fun g => (condition g).IsTrue)

end PolicyTables

/-- An edit of one set's policy. -/
inductive PolicyOp where
  | restrict
  | unrestrict
  | grant (userId : String) (level : GrantLevel)
  | ungrant (userId : String)
deriving DecidableEq

/-- The tables after the storage operation, addressed to a project and suite. -/
def PolicyOp.run (t : PolicyTables) (project : String) (suite : Option String) :
    PolicyOp → PolicyTables
  | .restrict => (t.restrictRunSet project suite).1
  | .unrestrict => (t.unrestrictRunSet project suite).1
  | .grant userId level => t.upsertRunSetGrant project suite userId level
  | .ungrant userId => (t.deleteRunSetGrant project suite userId).1

/-! ### Handlers -/

/-- A request to edit a policy. -/
structure PolicyCall where
  identity : Auth.Identity
  project : String
  suite : Option String
  op : PolicyOp

inductive PolicyReply where
  | noContent
  | notFound (what : String)
  | refused (access : Auth.Access)
deriving DecidableEq

/-- The scope of a route: toggling a restriction takes an admin's. -/
def PolicyOp.route : PolicyOp → Auth.Scope
  | .restrict | .unrestrict => .admin
  | .grant _ _ | .ungrant _ => .write

/-- `require_manage`. -/
def requireManage (t : PolicyTables) (identity : Auth.Identity) (project : String)
    (suite : Option String) : Bool :=
  setAccess t (RunVisibility.of identity) (some project) suite .manage

/-- `restrict`, `unrestrict`, `grant` and `ungrant`, behind their routes. -/
def handlePolicy (users : UserTable) (t : PolicyTables) (c : PolicyCall) :
    PolicyTables × PolicyReply :=
  match c.identity.check c.op.route with
  | .granted => match c.op with
    | .restrict => ((t.restrictRunSet c.project c.suite).1, .noContent)
    | .unrestrict =>
      let (t', removed) := t.unrestrictRunSet c.project c.suite
      (t', if removed then .noContent else .notFound "restriction")
    | .grant userId level =>
      if !requireManage t c.identity c.project c.suite then (t, .notFound "run set")
      else if (users.find userId).isNone then (t, .notFound "user")
      else (t.upsertRunSetGrant c.project c.suite userId level, .noContent)
    | .ungrant userId =>
      if !requireManage t c.identity c.project c.suite then (t, .notFound "run set")
      else
        let (t', removed) := t.deleteRunSetGrant c.project c.suite userId
        (t', if removed then .noContent else .notFound "grant")
  | access => (t, .refused access)

/-- The tables after a sequence of requests. -/
def PolicyTables.after (users : UserTable) (t : PolicyTables) (calls : List PolicyCall) :
    PolicyTables :=
  calls.foldl (fun t c => (handlePolicy users t c).1) t

/-! ### Confinement -/

/-- An operation addressed to a suite changes no decision about anything outside it. -/
def Confined (project suite : String) : Prop :=
  ∀ (t : PolicyTables) (op : PolicyOp) vis p s needed, ¬ (p = some project ∧ s = some suite) →
    setAccess (op.run t project (some suite)) vis p s needed = setAccess t vis p s needed

/-- Two policies have the same rows but for those of one suite. -/
def SameOff (project suite : String) (t t' : PolicyTables) : Prop :=
  (∀ r : RestrictionRow, ¬ (r.project = project ∧ r.suite = some suite) →
    (r ∈ t'.restrictions ↔ r ∈ t.restrictions)) ∧
  ∀ g : GrantRow, ¬ (g.project = project ∧ g.suite = some suite) →
    (g ∈ t'.grants ↔ g ∈ t.grants)

/-- Only a suite's own row has its key, when its name is not empty. -/
theorem suite_of_getD {suite : String} (h : suite ≠ "") {rowSuite : Option String}
    (hkey : rowSuite.getD "" = suite) : rowSuite = some suite := by
  cases rowSuite with
  | none => exact absurd hkey.symm h
  | some s => exact congrArg some hkey

theorem atScope_isTrue {project rowProject : String} {suite rowSuite : Option String} :
    (atScope project suite rowProject rowSuite).IsTrue ↔
      rowProject = project ∧ rowSuite.getD "" = suite.getD "" := by
  simp [atScope]

section
variable {project suite : String} {t t' : PolicyTables}

/-- A row of the suite covers nothing outside it. -/
theorem SameOff.setAccess (h : SameOff project suite t t') {p s : Option String}
    (hoff : ¬ (p = some project ∧ s = some suite)) (vis : RunVisibility) (needed : GrantLevel) :
    setAccess t' vis p s needed = setAccess t vis p s needed := by
  have hrow : ∀ {rowProject : String} {rowSuite : Option String},
      Covers rowProject rowSuite p s → ¬ (rowProject = project ∧ rowSuite = some suite) := by
    rintro rowProject rowSuite ⟨hp, hs⟩ ⟨rfl, rfl⟩
    exact hoff ⟨hp, hs.resolve_left (by simp)⟩
  have hrestricted : IsRestricted t' p s ↔ IsRestricted t p s :=
    exists_congr fun r => and_congr_left fun hcovers => h.1 r (hrow hcovers)
  have hgrant : ∀ userId, HasGrant t' userId p s needed ↔ HasGrant t userId p s needed :=
    fun userId => exists_congr fun g =>
      and_congr_left fun hg => h.2 g (hrow hg.2.1)
  rw [Bool.eq_iff_iff, setAccess_iff, setAccess_iff, hrestricted]
  simp only [hgrant]

theorem restrict_sameOff : SameOff project suite t (t.restrictRunSet project (some suite)).1 := by
  refine ⟨fun r hr => ?_, fun _ _ => Iff.rfl⟩
  show r ∈ insertNew _ _ _ ↔ _
  rw [mem_insertNew]
  refine or_iff_left fun hnew => hr ?_
  rw [hnew.1]
  exact ⟨rfl, rfl⟩

theorem unrestrict_sameOff (h : suite ≠ "") :
    SameOff project suite t (t.unrestrictRunSet project (some suite)).1 := by
  refine ⟨fun r hr => ?_, fun _ _ => Iff.rfl⟩
  show r ∈ deleteWhere _ _ ↔ _
  rw [mem_deleteWhere, atScope_isTrue]
  exact and_iff_left fun hkey => hr ⟨hkey.1, suite_of_getD h hkey.2⟩

theorem grant_sameOff (h : suite ≠ "") (userId : String) (level : GrantLevel) :
    SameOff project suite t (t.upsertRunSetGrant project (some suite) userId level) := by
  refine ⟨fun _ _ => Iff.rfl, fun g hg => ⟨fun hmem => ?_, fun hmem => ?_⟩⟩
  · obtain ⟨hmem, -⟩ | ⟨g', hg', hkey, rfl⟩ | rfl := mem_upsert hmem
    · exact hmem
    · have hsuite : g'.suite.getD "" = suite := congrArg (fun k => k.2.1) hkey
      exact absurd ⟨congrArg Prod.fst hkey, suite_of_getD h hsuite⟩ hg
    · exact absurd ⟨rfl, rfl⟩ hg
  · refine mem_upsert_of_ne hmem fun hkey => hg ?_
    have hsuite : g.suite.getD "" = suite := congrArg (fun k => k.2.1) hkey
    exact ⟨congrArg Prod.fst hkey, suite_of_getD h hsuite⟩

theorem ungrant_sameOff (h : suite ≠ "") (userId : String) :
    SameOff project suite t (t.deleteRunSetGrant project (some suite) userId).1 := by
  refine ⟨fun _ _ => Iff.rfl, fun g hg => ?_⟩
  show g ∈ deleteWhere _ _ ↔ _
  rw [mem_deleteWhere, Truth.isTrue_and, atScope_isTrue]
  exact and_iff_left fun hkey => hg ⟨hkey.1.1, suite_of_getD h hkey.1.2⟩

theorem PolicyOp.run_sameOff (h : suite ≠ "") (op : PolicyOp) :
    SameOff project suite t (op.run t project (some suite)) := by
  cases op with
  | restrict => exact restrict_sameOff
  | unrestrict => exact unrestrict_sameOff h
  | grant userId level => exact grant_sameOff h userId level
  | ungrant userId => exact ungrant_sameOff h userId

end

/-- One project restricted as a whole. -/
def projectRestricted (project : String) : PolicyTables :=
  ⟨[⟨project, none⟩], [], List.nodup_singleton _, List.nodup_nil⟩

/-- Lifting the restriction of the suite with the empty name lifts the project's. -/
theorem unrestrict_empty_suite (project : String) :
    setAccess (projectRestricted project) .anyone (some project) none .view = false ∧
      setAccess (PolicyOp.unrestrict.run (projectRestricted project) project (some ""))
        .anyone (some project) none .view = true := by
  constructor
  · simp [projectRestricted, setAccess, restricted, select, coversScope, GrantLevel.rank]
  · simp [projectRestricted, PolicyOp.run, PolicyTables.unrestrictRunSet, setAccess, restricted,
      select, deleteWhere, atScope, coversScope, GrantLevel.rank]

theorem confined_iff {project suite : String} : Confined project suite ↔ suite ≠ "" := by
  constructor
  · rintro hconfined rfl
    obtain ⟨hbefore, hafter⟩ := unrestrict_empty_suite project
    have hsame := hconfined (projectRestricted project) .unrestrict .anyone (some project) none
      .view (by simp)
    rw [hbefore, hafter] at hsame
    cases hsame
  · exact fun h t op vis p s needed hoff => (op.run_sameOff h).setAccess hoff vis needed

/-! ### Managing -/

/-- The user manages the set, by the grants alone. -/
def Manages (t : PolicyTables) (userId : String) (project suite : Option String) : Prop :=
  setAccess t (.user userId) project suite .manage = true

/-- The request grants the user the managing of a set that covers this one, and comes from an
admin or from a user who manages the set it names. -/
def GrantsManage (t : PolicyTables) (c : PolicyCall) (userId : String)
    (project suite : Option String) : Prop :=
  c.op = .grant userId .manage ∧ Covers c.project c.suite project suite ∧
    (RunVisibility.of c.identity = .full ∨
      ∃ grantor, RunVisibility.of c.identity = .user grantor ∧
        Manages t grantor (some c.project) c.suite)

section
variable {users : UserTable} {t : PolicyTables} {userId : String} {project suite : Option String}

theorem manages_iff : Manages t userId project suite ↔ HasGrant t userId project suite .manage := by
  rw [Manages, setAccess_iff]
  simp

/-- Who passes `require_manage`. -/
theorem requireManage_cases {identity : Auth.Identity} {p : String} {s : Option String}
    (h : requireManage t identity p s = true) :
    RunVisibility.of identity = .full ∨
      ∃ grantor, RunVisibility.of identity = .user grantor ∧ Manages t grantor (some p) s := by
  obtain hfull | ⟨hopen, -⟩ | ⟨grantor, hof, hgrant⟩ := setAccess_iff.mp h
  · exact .inl hfull
  · exact absurd rfl hopen
  · exact .inr ⟨grantor, hof, manages_iff.mpr hgrant⟩

/-- What a request can do to the grants: nothing, take some away, or set one as a manager. -/
theorem handlePolicy_grants (users : UserTable) (t : PolicyTables) (c : PolicyCall) :
    (∀ g ∈ (handlePolicy users t c).1.grants, g ∈ t.grants) ∨
      ∃ userId level, c.op = .grant userId level ∧
        requireManage t c.identity c.project c.suite = true ∧
        (handlePolicy users t c).1 = t.upsertRunSetGrant c.project c.suite userId level := by
  rw [handlePolicy]
  split
  · split
    · exact .inl fun g hg => hg
    · exact .inl fun g hg => hg
    · rename_i userId level hop
      split_ifs with hmanage huser
      · exact .inl fun g hg => hg
      · exact .inl fun g hg => hg
      · exact .inr ⟨userId, level, hop, by simpa using hmanage, rfl⟩
    · split_ifs with hmanage
      · exact .inl fun g hg => hg
      · exact .inl fun g hg => (mem_deleteWhere.mp hg).1
  · exact .inl fun g hg => hg

/-- One request: who comes to manage a set was granted it.  The row that the grant sets is of
the scope it names, or of one inside it, unless the suite it names is the empty one. -/
theorem step_grantsManage {c : PolicyCall} (hname : c.suite ≠ some "")
    (hbefore : ¬ Manages t userId project suite)
    (hafter : Manages (handlePolicy users t c).1 userId project suite) :
    GrantsManage t c userId project suite := by
  rw [manages_iff] at hbefore hafter
  obtain ⟨g, hg, huser, ⟨hproject, hcovers⟩, hlevel⟩ := hafter
  obtain hsubset | ⟨grantee, level, hop, hmanage, htables⟩ := handlePolicy_grants users t c
  · exact absurd ⟨g, hsubset g hg, huser, ⟨hproject, hcovers⟩, hlevel⟩ hbefore
  rw [htables] at hg
  obtain ⟨hg, -⟩ | ⟨g', hg', hkey, rfl⟩ | rfl := mem_upsert hg
  · exact absurd ⟨g, hg, huser, ⟨hproject, hcovers⟩, hlevel⟩ hbefore
  · have hgrantee : g'.userId = grantee := congrArg (fun k => k.2.2) hkey
    have hsame : g'.project = c.project := congrArg Prod.fst hkey
    have hsuite : g'.suite.getD "" = c.suite.getD "" := congrArg (fun k => k.2.1) hkey
    obtain rfl : level = .manage := GrantLevel.eq_manage_iff.mp hlevel
    refine ⟨by rw [hop, ← hgrantee, ← huser], ⟨hsame ▸ hproject, ?_⟩, requireManage_cases hmanage⟩
    cases hc : c.suite with
    | none => exact .inl rfl
    | some s =>
      have hs : s ≠ "" := fun hempty => hname (hempty ▸ hc)
      rw [hc] at hsuite
      rw [show g'.suite = some s from suite_of_getD hs hsuite] at hcovers
      exact hcovers
  · obtain rfl : level = .manage := GrantLevel.eq_manage_iff.mp hlevel
    exact ⟨huser ▸ hop, ⟨hproject, hcovers⟩, requireManage_cases hmanage⟩

/-- Over a sequence of requests, some request granted it. -/
theorem acquired_by_grant (calls : List PolicyCall) :
    ∀ {t : PolicyTables}, (∀ c ∈ calls, c.suite ≠ some "") →
      ¬ Manages t userId project suite → Manages (t.after users calls) userId project suite →
        ∃ before c rest, calls = before ++ c :: rest ∧
          GrantsManage (t.after users before) c userId project suite := by
  induction calls with
  | nil => exact fun _ hbefore hafter => absurd hafter hbefore
  | cons c calls ih =>
    intro t hnames hbefore hafter
    by_cases hstep : Manages (handlePolicy users t c).1 userId project suite
    · exact ⟨[], c, calls, rfl, step_grantsManage (hnames c (.head _)) hbefore hstep⟩
    · obtain ⟨before, c', rest, rfl, hgrants⟩ :=
        ih (fun c' hc' => hnames c' (.tail _ hc')) hstep hafter
      exact ⟨c :: before, c', rest, rfl, hgrants⟩

end

/-- Policy edits neither reach another scope nor escalate: of an operation on one suite, and of
a sequence of requests. -/
structure SetPolicySound (users : UserTable) (project suite : String) (calls : List PolicyCall) :
    Prop where
  confined : Confined project suite ↔ suite ≠ ""
  acquired : (∀ c ∈ calls, c.suite ≠ some "") →
    ∀ (t : PolicyTables) (userId : String) (project suite : Option String),
      ¬ Manages t userId project suite → Manages (t.after users calls) userId project suite →
        ∃ before c rest, calls = before ++ c :: rest ∧
          GrantsManage (t.after users before) c userId project suite

/-- **Set policy is confined, but for the suite with the empty name.** -/
theorem set_policy_sound (users : UserTable) (project suite : String) (calls : List PolicyCall) :
    SetPolicySound users project suite calls where
  confined := confined_iff
  acquired := fun hnames _ _ _ _ => acquired_by_grant calls hnames

/-- A project's restriction is lifted by an operation addressed to its suite with the empty
name. -/
theorem empty_suite_reaches_project : ¬ Confined "checkout" "" := by
  rw [confined_iff]
  exact fun h => h rfl
