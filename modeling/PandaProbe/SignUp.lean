import PandaProbe.AuthContext
import PandaProbe.GuardedRun

/-! # Signing up

`_resolve_jwt`, statement by statement, for any number of requests of one user who is a member of
no organization.  A request reads the user's row, writes it (an INSERT, or an UPDATE of the
sign-in time), looks for memberships, and creates an organization if there is none; its commit
comes last.  Between any two statements the other requests go on.

A statement sees what is committed when it starts, and the request's own writes.  The write of the
user's row waits while another request has written it and not finished; an INSERT of a row that is
committed by then is an error and ends its request.  An UPDATE that would set nothing new is not
sent at all.

Mails, analytics and the billing rows of a new organization are left out.
-/
namespace PandaProbe
open IdentityService Fallible

/-- A request with a token, with its clock and the ids it draws. -/
structure SignInRequest where
  env : AuthEnv
  token : String
  requestId : String
  organizationId : Option String
  projectId : Option String

/-- What the flush of `upsert_user` sends; a column that does not change is not set. -/
inductive UserWrite
  | insert (row : UserRow)
  | update (id : UUID) (signInAt : Option DateTime) (displayName : Option String)

/-- The rows of `users` with the write. -/
def UserWrite.apply (users : List UserRow) : UserWrite → List UserRow
  | .insert row => users ++ [row]
  | .update id signInAt displayName => users.map fun u =>
      if u.id = id then
        { u with
          lastSignInAt := signInAt.or u.lastSignInAt
          displayName := displayName.getD u.displayName }
      else u

/-- What a request has written. -/
structure SignUpWrites where
  user : Option UserWrite := none
  organization : Option Organization := none
  membership : Option MembershipRow := none
  project : Option Project := none

/-- The tables with what a request has written. -/
def IdentityDb.applied (db : IdentityDb) (w : SignUpWrites) : IdentityDb :=
  { db with
    users := w.user.elim db.users (UserWrite.apply db.users)
    organizations := db.organizations ++ w.organization.toList
    memberships := db.memberships ++ w.membership.toList
    projects := db.projects ++ w.project.toList }

/-- Where a request is after its user's row has been written. -/
inductive SignUpPhase
  | upserted
  | unprovisioned
  | checked (clean : String)
  | organized (org : Organization)
  | owned (org : Organization)
  | provisioned
  | listed (memberships : List MembershipRow)
  | located (organization : Organization)
  | resolved (ctx : ApiContext)

/-- Where a request is. -/
inductive SignUpStage
  | selected (claims : AuthClaims) (row : Option UserRow)
  | working (user : UserRow) (phase : SignUpPhase)

/-- A request under way. -/
structure SignUpTask where
  req : SignInRequest
  stage : SignUpStage
  writes : SignUpWrites

namespace SignUpTask
variable (t : SignUpTask)

/-- The request goes on. -/
def goto (user : UserRow) (phase : SignUpPhase) : SignUpTask :=
  { t with stage := .working user phase }

/-- What `upsert_user` makes of a row it has found: the user, and what is to be sent. -/
def found (env : AuthEnv) (claims : AuthClaims) (row : UserRow) : UserRow × Option UserWrite :=
  let signInAt := if row.lastSignInAt = some env.now then none else some env.now
  let displayName :=
    if claims.displayName ≠ "" ∧ row.displayName = "" then some claims.displayName else none
  ({ row with
      lastSignInAt := some env.now
      displayName := displayName.getD row.displayName },
    if signInAt.isNone && displayName.isNone then none
    else some (.update row.id signInAt displayName))

/-- The user `upsert_user` inserts. -/
def newUser (env : AuthEnv) (claims : AuthClaims) : UserRow :=
  ⟨env.newUserId, claims.sub, claims.email, claims.displayName, env.now, some env.now⟩

end SignUpTask

/-- A statement after the user's row has been written. -/
inductive SignUpStatement
  | listUserOrgs
  | countUserOwnedOrgs
  | insertOrganization (now : DateTime)
  | insertMembership (now : DateTime)
  | insertProject (now : DateTime)
  | getOrganization
  | getProject

/-- The statement on the committed tables: `none` if it is not this request's next one, `some none`
if it raises. -/
def SignUpTask.run (db : IdentityDb) (t : SignUpTask) :
    SignUpStatement → Option (Option SignUpTask)
  | .listUserOrgs =>
    match t.stage with
    | .working user .upserted =>
      match (db.applied t.writes).listUserOrgs user.id with
      | [] => some (t.goto user .unprovisioned)
      | m :: rest => some (t.goto user (.listed (m :: rest)))
    | .working user .provisioned =>
      some (t.goto user (.listed ((db.applied t.writes).listUserOrgs user.id)))
    | _ => none
  | .countUserOwnedOrgs =>
    match t.stage with
    | .working user .unprovisioned =>
      match checkCreateOrganization ((db.applied t.writes).countUserOwnedOrgs user.id)
          (validateResourceName t.req.env.strip t.req.env.isalnum "My Organization"
            "Organization name") with
      | .error _ => some none
      | .ok clean => some (t.goto user (.checked clean))
    | _ => none
  | .insertOrganization now =>
    match t.stage with
    | .working user (.checked clean) =>
      if db.organizations.any (fun o => o.id = t.req.env.newOrgId) then some none
      else
        let org : Organization := ⟨t.req.env.newOrgId, clean, now⟩
        some (some { t with
          stage := .working user (.organized org)
          writes := { t.writes with organization := some org } })
    | _ => none
  | .insertMembership now =>
    match t.stage with
    | .working user (.organized org) =>
      some (some { t with
        stage := .working user (.owned org)
        writes := { t.writes with membership := some ⟨user.id, org.id, .owner, now⟩ } })
    | _ => none
  | .insertProject now =>
    match t.stage with
    | .working user (.owned org) =>
      if db.projects.any (fun p => p.id = t.req.env.onboardingId) then some none
      else
        let project : Project :=
          ⟨t.req.env.onboardingId, org.id, "onboarding", "Your onboarding project", now⟩
        some (some { t with
          stage := .working user .provisioned
          writes := { t.writes with project := some project } })
    | _ => none
  | .getOrganization =>
    match t.stage with
    | .working user (.listed memberships) =>
      match (db.applied t.writes).chooseOrganization t.req.env t.req.organizationId memberships with
      | .error _ => some none
      | .ok organization => some (t.goto user (.located organization))
    | _ => none
  | .getProject =>
    match t.stage with
    | .working user (.located organization) =>
      match (db.applied t.writes).chooseProject t.req.env t.req.projectId organization with
      | .error _ => some none
      | .ok project =>
        some (t.goto user (.resolved ⟨t.req.requestId, .jwt, organization, project, some user⟩))
    | _ => none

/-- The committed tables, the request that has written the user's row, the requests, and the
contexts of those that have committed. -/
structure SignUp where
  db : IdentityDb
  lock : Option Nat
  task : Nat → Option SignUpTask
  contexts : List ApiContext

/-- What can happen next. -/
inductive SignUpAct
  | select (w : Nat) (req : SignInRequest)
  | flush (w : Nat)
  | run (w : Nat) (stmt : SignUpStatement)
  | commit (w : Nat)
  | fail (w : Nat)

namespace SignUp
variable (sub : String) (s : SignUp)

/-- The request goes on. -/
def goto (w : Nat) (t : SignUpTask) : SignUp :=
  { s with task := Function.update s.task w (some t) }

/-- The request ends, and its lock with it. -/
def leave (w : Nat) : SignUp :=
  { s with lock := s.lock.filter (· ≠ w), task := Function.update s.task w none }

/-- The flush of `upsert_user`. -/
def flush (w : Nat) (t : SignUpTask) : SignUpStage → Option SignUp
  | .selected claims none =>
    let user := SignUpTask.newUser t.req.env claims
    if s.lock.isSome then none
    else if s.db.users.any (fun u =>
        u.externalId = user.externalId ∨ u.email = user.email ∨ u.id = user.id) then
      some (s.leave w)
    else
      some { s.goto w ⟨t.req, .working user .upserted, { user := some (.insert user) }⟩ with
        lock := some w }
  | .selected claims (some row) =>
    match SignUpTask.found t.req.env claims row with
    | (user, none) => some (s.goto w ⟨t.req, .working user .upserted, {}⟩)
    | (user, some write) =>
      if s.lock.isSome then none
      else
        some { s.goto w ⟨t.req, .working user .upserted, { user := some write }⟩ with
          lock := some w }
  | .working _ _ => none

/-- One step, for the user with this external id. -/
def step : SignUpAct → Option SignUp
  | .select w req =>
    match s.task w, req.env.verifyToken req.token with
    | some _, _ => none
    | none, .error _ => some s
    | none, .ok claims =>
      if claims.sub ≠ sub then none
      else
        match scalarOneOrNone (s.db.users.filter (fun u => u.externalId = claims.sub)) with
        | .error _ => some s
        | .ok row => some (s.goto w ⟨req, .selected claims row, {}⟩)
  | .flush w => (s.task w).bind fun t => s.flush w t t.stage
  | .run w stmt => (s.task w).bind fun t => (t.run s.db stmt).map fun r =>
      match r with
      | none => s.leave w
      | some t' => s.goto w t'
  | .commit w => (s.task w).bind fun t =>
      match t.stage with
      | .working _ (.resolved ctx) =>
        some { s.leave w with db := s.db.applied t.writes, contexts := s.contexts ++ [ctx] }
      | _ => none
  | .fail w => (s.task w).map fun _ => s.leave w

/-- No request so far. -/
def initial (db : IdentityDb) : SignUp := ⟨db, none, fun _ => none, []⟩

/-- The user is not there yet, or is a member of no organization; and every membership is of a
user. -/
structure Unattached (db : IdentityDb) : Prop where
  alone : ∀ u ∈ db.users, u.externalId = sub → ∀ m ∈ db.memberships, m.userId ≠ u.id
  foreignKey : ∀ m ∈ db.memberships, ∃ u ∈ db.users, u.id = m.userId

/-- The clock has moved on since the user signed in the last time before. -/
def Later (db : IdentityDb) (_ : SignUp) : SignUpAct → Prop
  | .select _ req => ∀ u ∈ db.users, u.externalId = sub → u.lastSignInAt ≠ some req.env.now
  | _ => True

/-! ## What a statement does -/

/-- **Everything a statement that does not raise can do.** -/
inductive Ran (db : IdentityDb) (t : SignUpTask) : SignUpTask → Prop
  | unlisted {user : UserRow} : t.stage = .working user .upserted →
      (db.applied t.writes).listUserOrgs user.id = [] → Ran db t (t.goto user .unprovisioned)
  | listed {user : UserRow} {m : MembershipRow} {rest : List MembershipRow} :
      t.stage = .working user .upserted →
      (db.applied t.writes).listUserOrgs user.id = m :: rest →
      Ran db t (t.goto user (.listed (m :: rest)))
  | listedAgain {user : UserRow} : t.stage = .working user .provisioned →
      Ran db t (t.goto user (.listed ((db.applied t.writes).listUserOrgs user.id)))
  | checked {user : UserRow} {clean : String} : t.stage = .working user .unprovisioned →
      Ran db t (t.goto user (.checked clean))
  | organized {user : UserRow} {clean : String} {org : Organization} :
      t.stage = .working user (.checked clean) → (∀ o ∈ db.organizations, o.id ≠ org.id) →
      Ran db t { t with
        stage := .working user (.organized org)
        writes := { t.writes with organization := some org } }
  | owned {user : UserRow} {org : Organization} {now : DateTime} :
      t.stage = .working user (.organized org) →
      Ran db t { t with
        stage := .working user (.owned org)
        writes := { t.writes with membership := some ⟨user.id, org.id, .owner, now⟩ } }
  | provisioned {user : UserRow} {org : Organization} {project : Project} :
      t.stage = .working user (.owned org) →
      Ran db t { t with
        stage := .working user .provisioned
        writes := { t.writes with project := some project } }
  | located {user : UserRow} {memberships : List MembershipRow} {organization : Organization} :
      t.stage = .working user (.listed memberships) →
      (db.applied t.writes).chooseOrganization t.req.env t.req.organizationId memberships =
        .ok organization → Ran db t (t.goto user (.located organization))
  | resolved {user : UserRow} {organization : Organization} {project : Option Project} :
      t.stage = .working user (.located organization) →
      Ran db t (t.goto user
        (.resolved ⟨t.req.requestId, .jwt, organization, project, some user⟩))

theorem ran_of_run {db : IdentityDb} {t t' : SignUpTask} {stmt : SignUpStatement}
    (h : t.run db stmt = some (some t')) : Ran db t t' := by
  cases stmt with
  | listUserOrgs =>
    simp only [SignUpTask.run] at h
    split at h
    next hstage =>
      split at h
      next hnil => cases h; exact .unlisted hstage hnil
      next hcons => cases h; exact .listed hstage hcons
    next hstage => cases h; exact .listedAgain hstage
    · cases h
  | countUserOwnedOrgs =>
    simp only [SignUpTask.run] at h
    split at h
    next hstage =>
      split at h
      · cases h
      · cases h; exact .checked hstage
    · cases h
  | insertOrganization now =>
    simp only [SignUpTask.run] at h
    split at h
    next hstage =>
      split at h
      · cases h
      next hfresh => cases h; exact .organized hstage (by simpa using hfresh)
    · cases h
  | insertMembership now =>
    simp only [SignUpTask.run] at h
    split at h
    next hstage => cases h; exact .owned hstage
    · cases h
  | insertProject now =>
    simp only [SignUpTask.run] at h
    split at h
    next hstage =>
      split at h
      · cases h
      · cases h; exact .provisioned hstage
    · cases h
  | getOrganization =>
    simp only [SignUpTask.run] at h
    split at h
    next hstage =>
      split at h
      · cases h
      next hok => cases h; exact .located hstage hok
    · cases h
  | getProject =>
    simp only [SignUpTask.run] at h
    split at h
    next hstage =>
      split at h
      · cases h
      · cases h; exact .resolved hstage
    · cases h

theorem Ran.writes_user {db : IdentityDb} {t t' : SignUpTask} (h : Ran db t t') : t'.writes.user = t.writes.user := by
  cases h <;> rfl

end SignUp
end PandaProbe
