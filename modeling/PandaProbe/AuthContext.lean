import Mathlib.Data.List.Sort
import PandaProbe.Fallible
import PandaProbe.IdentityService

/-! # Who is calling

The dependencies that every route resolves first: `get_api_context` for the management routes,
`get_data_plane_context` and `require_project` for the data plane.  A Bearer token gives a user,
who is created at the first sign-in together with an organization; an API key gives an
organization.  Either may come with a project, by id or by name.

A query that expects at most one row raises when it finds more, so nothing is assumed of the
database: `resolve` is right on every state of the tables (`context_wellFormed`).

The identity provider, the parser of UUIDs, the hash of API keys and the string methods are
parameters (`AuthEnv`).  Mails, analytics and the billing rows of a new organization are left
out.
-/
namespace PandaProbe
open IdentityService Fallible

/-- A row of `users`. -/
structure UserRow where
  id : UUID
  externalId : String
  email : String
  displayName : String
  createdAt : DateTime
  lastSignInAt : Option DateTime
  deriving DecidableEq, Repr

/-- A row of `memberships`. -/
structure MembershipRow where
  userId : UUID
  orgId : UUID
  role : MembershipRole
  createdAt : DateTime
  deriving DecidableEq, Repr

/-- The tables that authentication reads and writes. -/
structure IdentityDb where
  users : List UserRow
  organizations : List Organization
  memberships : List MembershipRow
  projects : List Project
  apiKeys : List ApiKey

/-- What the identity provider says of a token it accepts. -/
structure AuthClaims where
  sub : String
  email : String
  displayName : String
  deriving DecidableEq, Repr

/-- How the caller authenticated. -/
inductive AuthMethod
  | jwt | apiKey
  deriving DecidableEq, Repr

/-- The resolved identity of a request. -/
structure ApiContext where
  requestId : String
  authMethod : AuthMethod
  organization : Organization
  project : Option Project
  user : Option UserRow
  deriving DecidableEq, Repr

/-- The headers of a request that matter here. -/
structure AuthHeaders where
  bearer : Option String
  apiKey : Option String
  organizationId : Option String
  projectId : Option String
  projectName : Option String
  deriving DecidableEq, Repr

/-- The settings, the clock and what lies outside. -/
structure AuthEnv where
  authEnabled : Bool
  /-- `adapter.verify_token`. -/
  verifyToken : String → Except AuthError AuthClaims
  /-- `UUID(s)`, `none` for a `ValueError`. -/
  parseUuid : String → Option UUID
  hashApiKey : String → String
  strip : String → String
  isalnum : String → Bool
  now : DateTime
  /-- The ids drawn for a user, an organization and the projects. -/
  newUserId : UUID
  newOrgId : UUID
  newProjectId : UUID
  onboardingId : UUID

/-- A header that is not empty. -/
def given : Option String → Option String
  | some "" => none
  | h => h

/-- `scalar_one_or_none`. -/
def scalarOneOrNone {α : Type} : List α → Except AuthError (Option α)
  | [] => .ok none
  | [row] => .ok (some row)
  | _ => .error .unhandled

/-- The value that is there. -/
def orRaise {α : Type} (e : AuthError) : Option α → Except AuthError α
  | none => .error e
  | some x => .ok x

/-- A `ValidationError`. -/
def validationError (detail : String) : AuthError := .identity (.validation detail)

namespace IdentityDb
variable (env : AuthEnv) (db : IdentityDb)

/-! ## The repositories -/

/-- `upsert_user`; the address of a new user must be new too. -/
def upsertUser (claims : AuthClaims) : Except AuthError (UserRow × IdentityDb) := do
  match ← scalarOneOrNone (db.users.filter (fun u => u.externalId = claims.sub)) with
  | none =>
    let user : UserRow :=
      ⟨env.newUserId, claims.sub, claims.email, claims.displayName, env.now, some env.now⟩
    if db.users.any (fun u => u.email = claims.email) then .error .unhandled
    else .ok (user, { db with users := db.users ++ [user] })
  | some row =>
    let user : UserRow :=
      { row with
        lastSignInAt := some env.now
        displayName := if row.displayName = "" then claims.displayName else row.displayName }
    .ok (user, { db with users := db.users.map (fun u => if u.id = row.id then user else u) })

/-- `list_user_orgs`, the newest membership first. -/
def listUserOrgs (userId : UUID) : List MembershipRow :=
  (db.memberships.filter (fun m => m.userId = userId)).insertionSort
    (fun a b => b.createdAt ≤ a.createdAt)

/-- `get_organization`. -/
def getOrganization (orgId : UUID) : Option Organization :=
  db.organizations.find? (fun o => o.id = orgId)

/-- `count_user_owned_orgs`. -/
def countUserOwnedOrgs (userId : UUID) : Nat :=
  db.memberships.countP (fun m => m.userId = userId ∧ m.role = .owner)

/-- `create_organization` of the service: the organization, its owner and its first project. -/
def createOrganization (name : String) (ownerId : UUID) : Except AuthError IdentityDb :=
  match checkCreateOrganization (db.countUserOwnedOrgs ownerId)
      (validateResourceName env.strip env.isalnum name "Organization name") with
  | .error e => .error (.identity e)
  | .ok clean => .ok
      { db with
        organizations := db.organizations ++ [⟨env.newOrgId, clean, env.now⟩]
        memberships := db.memberships ++ [⟨ownerId, env.newOrgId, .owner, env.now⟩]
        projects := db.projects ++
          [⟨env.onboardingId, env.newOrgId, "onboarding", "Your onboarding project", env.now⟩] }

/-- `get_project`. -/
def getProject (projectId : UUID) : Option Project :=
  db.projects.find? (fun p => p.id = projectId)

/-- `get_project_by_name`. -/
def getProjectByName (orgId : UUID) (name : String) : Except AuthError (Option Project) :=
  scalarOneOrNone (db.projects.filter (fun p => p.orgId = orgId ∧ p.name = name))

/-- `get_or_create_project`, with the projects that others commit before its insert.  If one of
them has the name, the insert fails outside the savepoint, and the lookup after it raises. -/
def getOrCreateProject (orgId : UUID) (name : String) (meanwhile : List Project) :
    Except AuthError (Project × IdentityDb) := do
  match ← db.getProjectByName orgId name with
  | some project => .ok (project, db)
  | none =>
    let db := { db with projects := db.projects ++ meanwhile }
    if db.projects.any (fun p => p.orgId = orgId ∧ p.name = name) then .error .unhandled
    else
      let project : Project := ⟨env.newProjectId, orgId, name, "", env.now⟩
      .ok (project, { db with projects := db.projects ++ [project] })

/-- `get_api_key_by_hash`. -/
def getApiKeyByHash (keyHash : String) : Except AuthError (Option ApiKey) :=
  scalarOneOrNone (db.apiKeys.filter (fun k => k.keyHash = keyHash ∧ k.isActive))

/-- `touch_api_key`. -/
def touchApiKey (id : UUID) : IdentityDb :=
  { db with apiKeys := db.apiKeys.map (fun k =>
      if k.id = id then { k with lastUsedAt := some env.now } else k) }

/-! ## `_resolve_jwt` -/

/-- The user's memberships; a user without one gets an organization. -/
def provision (user : UserRow) : Except AuthError IdentityDb :=
  match db.listUserOrgs user.id with
  | [] => db.createOrganization env "My Organization" user.id
  | _ => .ok db

/-- The organization that the header asks for, or the user's newest. -/
def targetOrgId (header : Option String) (memberships : List MembershipRow) :
    Except AuthError UUID :=
  match given header with
  | some raw => do
    let target ← orRaise (validationError "X-Organization-ID must be a valid UUID.")
      (env.parseUuid raw)
    match memberships.find? (fun m => m.orgId = target) with
    | none => .error (.authentication "You are not a member of the specified organization.")
    | some _ => .ok target
  | none =>
    match memberships with
    | [] => .error .unhandled
    | m :: _ => .ok m.orgId

/-- Its row. -/
def chooseOrganization (header : Option String) (memberships : List MembershipRow) :
    Except AuthError Organization := do
  let orgId ← targetOrgId env header memberships
  orRaise (.authentication "Organization could not be resolved.") (db.getOrganization orgId)

/-- The project of the header, which must be the organization's. -/
def chooseProject (header : Option String) (organization : Organization) :
    Except AuthError (Option Project) :=
  match given header with
  | none => .ok none
  | some raw => do
    let projectId ← orRaise (validationError "X-Project-ID must be a valid UUID.")
      (env.parseUuid raw)
    match db.getProject projectId with
    | none =>
      .error (validationError "Project not found or does not belong to your organization.")
    | some project =>
      if project.orgId ≠ organization.id then
        .error (validationError "Project not found or does not belong to your organization.")
      else .ok (some project)

/-- `_resolve_jwt`. -/
def resolveJwt (token requestId : String) (organizationId projectId : Option String) :
    Except AuthError (ApiContext × IdentityDb) := do
  let claims ← env.verifyToken token
  let (user, db) ← db.upsertUser env claims
  let db ← db.provision env user
  let organization ← db.chooseOrganization env organizationId (db.listUserOrgs user.id)
  let project ← db.chooseProject env projectId organization
  .ok (⟨requestId, .jwt, organization, project, some user⟩, db)

/-! ## `_resolve_api_key` -/

/-- The project of the name, if there is one. -/
def namedProject (header : Option String) (orgId : UUID) (meanwhile : List Project) :
    Except AuthError (Option Project × IdentityDb) :=
  match (given header).filter (fun name => env.strip name ≠ "") with
  | none => .ok (none, db)
  | some name =>
    match validateResourceName env.strip env.isalnum name "X-Project-Name" with
    | .error detail => .error (validationError detail)
    | .ok clean => do
      let (project, db) ← db.getOrCreateProject env orgId clean meanwhile
      .ok (some project, db)

/-- `_resolve_api_key`. -/
def resolveApiKey (rawKey requestId : String) (projectName : Option String)
    (meanwhile : List Project) : Except AuthError (ApiContext × IdentityDb) := do
  match ← db.getApiKeyByHash (env.hashApiKey rawKey) with
  | none => .error (.authentication "Invalid or revoked API key.")
  | some key =>
    if key.expiresAt.any (· < env.now) then
      .error (.authentication "API key has expired. Please generate a new one.")
    else
      let db := db.touchApiKey env key.id
      let organization ← orRaise
        (.authentication "Organization associated with API key not found.")
        (db.getOrganization key.orgId)
      let (project, db) ← db.namedProject env projectName key.orgId meanwhile
      .ok (⟨requestId, .apiKey, organization, project, none⟩, db)

/-! ## The dependencies -/

/-- `get_api_context`. -/
def getApiContext (headers : AuthHeaders) (requestId : String) :
    Except AuthError (ApiContext × IdentityDb) :=
  match headers.bearer with
  | some token => db.resolveJwt env token requestId headers.organizationId none
  | none =>
    if !env.authEnabled then
      db.resolveJwt env "dev-no-auth" requestId headers.organizationId none
    else
      .error (.authentication "Bearer token required. Provide Authorization: Bearer <token>.")

/-- `get_data_plane_context`.  When both credentials are present, the API key wins. -/
def getDataPlaneContext (headers : AuthHeaders) (requestId : String) (meanwhile : List Project) :
    Except AuthError (ApiContext × IdentityDb) :=
  match given headers.apiKey, headers.bearer with
  | some rawKey, _ => db.resolveApiKey env rawKey requestId headers.projectName meanwhile
  | none, some token =>
    db.resolveJwt env token requestId headers.organizationId headers.projectId
  | none, none =>
    if !env.authEnabled then
      db.resolveJwt env "dev-no-auth" requestId headers.organizationId headers.projectId
    else
      .error (.authentication ("Missing credentials. Provide Authorization: Bearer <token> " ++
        "(with X-Project-ID) or X-API-Key header."))

/-- `require_project`. -/
def requireProject (headers : AuthHeaders) (requestId : String) (meanwhile : List Project) :
    Except AuthError (ApiContext × IdentityDb) := do
  let (ctx, db) ← db.getDataPlaneContext env headers requestId meanwhile
  if ctx.project.isNone then
    .error (validationError
      "Project scope required. Provide X-Project-ID (Bearer) or X-Project-Name (API key).")
  else .ok (ctx, db)

/-- The three dependencies. -/
inductive Dependency
  | apiContext | dataPlaneContext | project
  deriving DecidableEq, Repr

/-- What a dependency resolves a request to. -/
def resolve (headers : AuthHeaders) (requestId : String) (meanwhile : List Project) :
    Dependency → Except AuthError (ApiContext × IdentityDb)
  | .apiContext => db.getApiContext env headers requestId
  | .dataPlaneContext => db.getDataPlaneContext env headers requestId meanwhile
  | .project => db.requireProject env headers requestId meanwhile

/-! ## What a resolved context says -/

/-- The token was sent, or authentication is switched off. -/
def Presented (headers : AuthHeaders) (token : String) : Prop :=
  headers.bearer = some token ∨
    headers.bearer = none ∧ env.authEnabled = false ∧ token = "dev-no-auth"

/-- The context is of a user the identity provider vouches for, in an organization that the user
is a member of. -/
def OfUser (headers : AuthHeaders) (ctx : ApiContext) (db' : IdentityDb) : Prop :=
  ∃ token claims user, Presented env headers token ∧ env.verifyToken token = .ok claims ∧
    ctx.user = some user ∧ user.externalId = claims.sub ∧
    ∃ m ∈ db'.memberships, m.userId = user.id ∧ m.orgId = ctx.organization.id

/-- The context is of the organization of a stored active key with the hash of the one sent,
which has not expired. -/
def OfKey (headers : AuthHeaders) (ctx : ApiContext) : Prop :=
  ∃ rawKey, headers.apiKey = some rawKey ∧ ∃ k ∈ db.apiKeys,
    k.keyHash = env.hashApiKey rawKey ∧ k.isActive = true ∧ k.orgId = ctx.organization.id ∧
    ∀ e, k.expiresAt = some e → env.now ≤ e

/-- **A well-formed context.** -/
structure WellFormed (headers : AuthHeaders) (ctx : ApiContext) (db' : IdentityDb) : Prop where
  project : ∀ p, ctx.project = some p → p.orgId = ctx.organization.id
  jwt : ctx.authMethod = .jwt → OfUser env headers ctx db'
  apiKey : ctx.authMethod = .apiKey → db.OfKey env headers ctx

variable {env db} {db' : IdentityDb}

theorem orRaise_ok {α : Type} {e : AuthError} {o : Option α} {x : α} (h : orRaise e o = .ok x) :
    o = some x := by
  cases o with
  | none => cases h
  | some y =>
    cases h
    rfl

theorem scalarOneOrNone_some {α : Type} {l : List α} {x : α}
    (h : scalarOneOrNone l = .ok (some x)) : x ∈ l := by
  match l, h with
  | [_], rfl => exact List.mem_singleton_self _

theorem given_some {h : Option String} {s : String} (hs : given h = some s) : h = some s := by
  unfold given at hs
  split at hs
  · cases hs
  · exact hs

theorem getOrganization_id {orgId : UUID} {o : Organization}
    (h : db.getOrganization orgId = some o) : o.id = orgId := by
  simpa using List.find?_some h

/-! ## One spec for each part -/

theorem upsertUser_ok {claims : AuthClaims} {user : UserRow}
    (h : db.upsertUser env claims = .ok (user, db')) : user.externalId = claims.sub := by
  obtain ⟨found, hfound, h⟩ := bind_ok h
  cases found with
  | none =>
    dsimp only at h
    split at h
    · cases h
    · cases h
      rfl
  | some row =>
    cases h
    simpa using (List.mem_filter.mp (scalarOneOrNone_some hfound)).2

theorem mem_listUserOrgs {userId : UUID} {m : MembershipRow} (h : m ∈ db.listUserOrgs userId) :
    m ∈ db.memberships ∧ m.userId = userId := by
  simpa [listUserOrgs] using h

theorem targetOrgId_ok {header : Option String} {memberships : List MembershipRow} {orgId : UUID}
    (h : targetOrgId env header memberships = .ok orgId) : ∃ m ∈ memberships, m.orgId = orgId := by
  unfold targetOrgId at h
  split at h
  · obtain ⟨target, -, h⟩ := bind_ok h
    split at h
    · cases h
    next m hm =>
      cases h
      exact ⟨m, List.mem_of_find?_eq_some hm, by simpa using List.find?_some hm⟩
  · split at h
    · cases h
    next m rest =>
      cases h
      exact ⟨m, List.mem_cons_self .., rfl⟩

theorem chooseOrganization_ok {header : Option String} {memberships : List MembershipRow}
    {organization : Organization}
    (h : db.chooseOrganization env header memberships = .ok organization) :
    ∃ m ∈ memberships, m.orgId = organization.id := by
  obtain ⟨orgId, htarget, h⟩ := bind_ok h
  obtain ⟨m, hm, horg⟩ := targetOrgId_ok htarget
  exact ⟨m, hm, horg.trans (getOrganization_id (orRaise_ok h)).symm⟩

theorem chooseProject_ok {header : Option String} {organization : Organization}
    {project : Option Project} (h : db.chooseProject env header organization = .ok project) :
    ∀ p, project = some p → p.orgId = organization.id := by
  rintro p rfl
  unfold chooseProject at h
  split at h
  · cases h
  · obtain ⟨projectId, -, h⟩ := bind_ok h
    split at h
    · cases h
    · split at h
      · cases h
      next horg =>
        cases h
        exact not_not.mp horg

theorem getProjectByName_some {orgId : UUID} {name : String} {p : Project}
    (h : db.getProjectByName orgId name = .ok (some p)) : p.orgId = orgId := by
  have hp := (List.mem_filter.mp (scalarOneOrNone_some h)).2
  simp only [decide_eq_true_eq] at hp
  exact hp.1

theorem getOrCreateProject_ok {orgId : UUID} {name : String} {meanwhile : List Project}
    {p : Project} (h : db.getOrCreateProject env orgId name meanwhile = .ok (p, db')) :
    p.orgId = orgId := by
  obtain ⟨found, hfound, h⟩ := bind_ok h
  cases found with
  | some project =>
    cases h
    exact getProjectByName_some hfound
  | none =>
    dsimp only at h
    split at h
    · cases h
    · cases h
      rfl

theorem namedProject_ok {header : Option String} {orgId : UUID} {meanwhile : List Project}
    {project : Option Project}
    (h : db.namedProject env header orgId meanwhile = .ok (project, db')) :
    ∀ p, project = some p → p.orgId = orgId := by
  rintro p rfl
  unfold namedProject at h
  split at h
  · cases h
  · split at h
    · cases h
    · obtain ⟨⟨q, db''⟩, hq, h⟩ := bind_ok h
      cases h
      exact getOrCreateProject_ok hq

/-- **What a Bearer token gives.** -/
theorem resolveJwt_ok {token requestId : String} {organizationId projectId : Option String}
    {headers : AuthHeaders} {ctx : ApiContext} (htoken : Presented env headers token)
    (h : db.resolveJwt env token requestId organizationId projectId = .ok (ctx, db')) :
    WellFormed env db headers ctx db' := by
  obtain ⟨claims, hclaims, h⟩ := bind_ok h
  obtain ⟨⟨user, db₁⟩, huser, h⟩ := bind_ok h
  obtain ⟨db₂, -, h⟩ := bind_ok h
  obtain ⟨organization, horganization, h⟩ := bind_ok h
  obtain ⟨project, hproject, h⟩ := bind_ok h
  cases h
  obtain ⟨m, hm, horg⟩ := chooseOrganization_ok horganization
  obtain ⟨hmem, hown⟩ := mem_listUserOrgs hm
  refine ⟨chooseProject_ok hproject, fun _ => ?_, fun hmethod => by cases hmethod⟩
  exact ⟨token, claims, user, htoken, hclaims, rfl, upsertUser_ok huser, m, hmem, hown, horg⟩

/-- **What an API key gives.** -/
theorem resolveApiKey_ok {rawKey requestId : String} {projectName : Option String}
    {meanwhile : List Project} {headers : AuthHeaders} {ctx : ApiContext}
    (hkey : headers.apiKey = some rawKey)
    (h : db.resolveApiKey env rawKey requestId projectName meanwhile = .ok (ctx, db')) :
    WellFormed env db headers ctx db' := by
  obtain ⟨found, hfound, h⟩ := bind_ok h
  cases found with
  | none => cases h
  | some key =>
    dsimp only at h
    split at h
    · cases h
    next hexpired =>
      obtain ⟨organization, horganization, h⟩ := bind_ok h
      obtain ⟨⟨project, db₁⟩, hproject, h⟩ := bind_ok h
      cases h
      have hid := getOrganization_id (orRaise_ok horganization)
      obtain ⟨hmem, hmatch⟩ := List.mem_filter.mp (scalarOneOrNone_some hfound)
      simp only [decide_eq_true_eq] at hmatch
      refine ⟨fun p hp => ?_, fun hmethod => (by cases hmethod), fun _ => ?_⟩
      · exact (namedProject_ok hproject p hp).trans hid.symm
      · refine ⟨rawKey, hkey, key, hmem, hmatch.1, hmatch.2, hid.symm, fun e he => ?_⟩
        simpa [he] using hexpired

theorem getApiContext_ok {headers : AuthHeaders} {requestId : String} {ctx : ApiContext}
    (h : db.getApiContext env headers requestId = .ok (ctx, db')) :
    WellFormed env db headers ctx db' := by
  unfold getApiContext at h
  split at h
  next token hbearer => exact resolveJwt_ok (.inl hbearer) h
  next hbearer =>
    split at h
    next hoff => exact resolveJwt_ok (.inr ⟨hbearer, by simpa using hoff, rfl⟩) h
    · cases h

theorem getDataPlaneContext_ok {headers : AuthHeaders} {requestId : String}
    {meanwhile : List Project} {ctx : ApiContext}
    (h : db.getDataPlaneContext env headers requestId meanwhile = .ok (ctx, db')) :
    WellFormed env db headers ctx db' := by
  unfold getDataPlaneContext at h
  split at h
  next rawKey hkey => exact resolveApiKey_ok (given_some hkey) h
  next token _ hbearer => exact resolveJwt_ok (.inl hbearer) h
  next _ hbearer =>
    split at h
    next hoff => exact resolveJwt_ok (.inr ⟨hbearer, by simpa using hoff, rfl⟩) h
    · cases h

/-- **Authentication contexts are well-formed**, for every database, all headers and every
dependency: a project is one of the organization, a user is a member of the organization, and a
key is a stored active key of the organization that has not expired; and `require_project`
gives a project. -/
theorem context_wellFormed {headers : AuthHeaders} {requestId : String} {meanwhile : List Project}
    {dependency : Dependency} {ctx : ApiContext}
    (h : db.resolve env headers requestId meanwhile dependency = .ok (ctx, db')) :
    WellFormed env db headers ctx db' ∧ (dependency = .project → ctx.project.isSome) := by
  cases dependency with
  | apiContext => exact ⟨getApiContext_ok h, fun hd => by cases hd⟩
  | dataPlaneContext => exact ⟨getDataPlaneContext_ok h, fun hd => by cases hd⟩
  | project =>
    obtain ⟨⟨ctx₁, db₁⟩, hctx, h⟩ := bind_ok h
    dsimp only at h
    split at h
    · cases h
    next hproject =>
      cases h
      refine ⟨getDataPlaneContext_ok hctx, fun _ => ?_⟩
      simpa [Option.isNone_iff_eq_none, Option.isSome_iff_ne_none] using hproject

/-- The SHA-256 digest of `sk_pp_1`. -/
def sampleKeyHash : String :=
  "026bdeefb33802d9dc91b9f7757a47796c3d13b293669c1073b2c523352302d9"

/-- Every token is of the user `sub`. -/
def sampleAuth : AuthEnv where
  authEnabled := true
  verifyToken _ := .ok ⟨"sub", "ann@example.com", "Ann"⟩
  parseUuid := some
  hashApiKey key := if key = "sk_pp_1" then sampleKeyHash else ""
  strip := id
  isalnum _ := true
  now := 5
  newUserId := "user"
  newOrgId := "org"
  newProjectId := "project"
  onboardingId := "onboarding"

/-- An organization with a key that expires right now. -/
def sampleIdentityDb : IdentityDb where
  users := []
  organizations := [⟨"acme", "Acme", 0⟩]
  memberships := []
  projects := []
  apiKeys := [⟨"k", "acme", sampleKeyHash, "sk_pp_1", "key", true, 0, some 5, none, none⟩]

/-- A first sign-in, and a key that is sent together with a token. -/
theorem context_wellFormed_both :
    (∃ ctx db', sampleIdentityDb.resolve sampleAuth ⟨some "t", none, none, none, none⟩ "r" []
        .apiContext = .ok (ctx, db') ∧ ctx.authMethod = .jwt ∧
      WellFormed sampleAuth sampleIdentityDb ⟨some "t", none, none, none, none⟩ ctx db') ∧
    ∃ ctx db', sampleIdentityDb.resolve sampleAuth
        ⟨some "t", some "sk_pp_1", none, none, some "agents"⟩ "r" [] .project = .ok (ctx, db') ∧
      ctx.authMethod = .apiKey ∧ ctx.project.isSome ∧
      WellFormed sampleAuth sampleIdentityDb
        ⟨some "t", some "sk_pp_1", none, none, some "agents"⟩ ctx db' := by
  constructor
  · obtain ⟨⟨ctx, db'⟩, h⟩ : ∃ r, sampleIdentityDb.resolve sampleAuth
        ⟨some "t", none, none, none, none⟩ "r" [] .apiContext = .ok r := ⟨_, rfl⟩
    have hctx := (context_wellFormed h).1
    cases h
    exact ⟨_, _, rfl, rfl, hctx⟩
  · obtain ⟨⟨ctx, db'⟩, h⟩ : ∃ r, sampleIdentityDb.resolve sampleAuth
        ⟨some "t", some "sk_pp_1", none, none, some "agents"⟩ "r" [] .project = .ok r := ⟨_, rfl⟩
    obtain ⟨hctx, hproject⟩ := context_wellFormed h
    have hsome := hproject rfl
    cases h
    exact ⟨_, _, rfl, rfl, hsome, hctx⟩

end IdentityDb
end PandaProbe
