import PandaProbe.UsageService

/-! # Members and invitations of an organization

The checks of `IdentityService`, each as a function of what the service has read at that
point: `None` for a row that is not there, else the row.  The service decides on these
values alone, so the reads and writes between the checks can be interleaved in any way
around them.

`strip` and `lower` stand for the two string methods; nothing here depends on what they do.
-/
namespace PandaProbe

/-- Role a user holds within an organization. -/
inductive MembershipRole
  | owner | admin | member
  deriving DecidableEq, Repr

/-- Lifecycle status of an organization invitation. -/
inductive InvitationStatus
  | pending | accepted | declined | revoked | expired
  deriving DecidableEq, Repr

/-- The errors the identity service raises. -/
inductive IdentityError
  | notFound (detail : String)
  | authorization (detail : String)
  | conflict (detail : String)
  | quotaExceeded (detail : String)
  | validation (detail : String)
  | orgLimitReached
  deriving DecidableEq, Repr

/-- A user, as far as the service reads it. -/
structure User where
  id : UUID
  email : String
  deriving DecidableEq, Repr

/-- Email-based invitation to join an organization. -/
structure Invitation where
  id : UUID
  orgId : UUID
  email : String
  role : MembershipRole
  invitedBy : UUID
  status : InvitationStatus
  expiresAt : DateTime
  deriving DecidableEq, Repr

/-- Tenant account. -/
structure Organization where
  id : UUID
  name : String
  createdAt : DateTime
  deriving DecidableEq, Repr

/-- Project within an organization. -/
structure Project where
  id : UUID
  orgId : UUID
  name : String
  description : String
  createdAt : DateTime
  deriving DecidableEq, Repr

/-- Hashed API key scoped to an organization. -/
structure ApiKey where
  id : UUID
  orgId : UUID
  keyHash : String
  keyPrefix : String
  name : String
  isActive : Bool
  createdAt : DateTime
  expiresAt : Option DateTime
  lastUsedAt : Option DateTime
  createdBy : Option UUID
  deriving DecidableEq, Repr

/-- What authenticating a caller raises; `unhandled` is an error nobody catches. -/
inductive AuthError
  | authentication (detail : String)
  | identity (e : IdentityError)
  | unhandled
  deriving DecidableEq, Repr

/-- `max_members` of the plan table; `none` is unlimited. -/
def maxMembers : SubscriptionPlan → Option Nat
  | .hobby => some 1
  | .pro => some 2
  | .startup => some 10
  | .enterprise => none
  | .development => some 1

/-- `MAX_OWNED_ORGS`. -/
def maxOwnedOrgs : Nat := 2

namespace IdentityService
variable (strip lower : String → String)

/-- Ensure the user belongs to the organization. -/
def requireMembership : Option MembershipRole → Except IdentityError MembershipRole
  | none => .error (.authorization "You are not a member of this organization.")
  | some role => .ok role

/-- Ensure the user is at least ADMIN. -/
def requireAdmin (membership : Option MembershipRole) : Except IdentityError MembershipRole :=
  match requireMembership membership with
  | .error e => .error e
  | .ok role =>
    if role = .owner ∨ role = .admin then .ok role
    else .error (.authorization "Admin or Owner role required.")

/-- The checks of `create_organization`: how many organizations the user owns, and what
`validate_resource_name` made of the name. -/
def checkCreateOrganization (ownedCount : Nat) (clean : Except String String) :
    Except IdentityError String :=
  if maxOwnedOrgs ≤ ownedCount then .error .orgLimitReached
  else
    match clean with
    | .error detail => .error (.validation detail)
    | .ok name => .ok name

/-- `_MAX_NAME_LEN`. -/
def maxNameLen : Nat := 255

/-- `_SAFE_NAME_RE.match`: a letter or digit, up to 253 characters of the class, and again a
letter or digit.  The `$` also stands before a newline at the end. -/
def safeNameRe : List Char → Bool
  | [] => false
  | first :: rest =>
    first.isAlphanum && (List.range 254).any fun n =>
      (rest.take n).all (fun c => c.isAlphanum || " _.'-".toList.contains c) &&
        match rest.drop n with
        | last :: stop => last.isAlphanum && (stop = [] || stop = ['\n'])
        | [] => false

/-- Sanitize and validate a user-supplied resource name.  `isalnum` stands for the string
method, which is asked about names of one character. -/
def validateResourceName (isalnum : String → Bool) (value label : String) :
    Except String String :=
  let name := strip value
  if name = "" then .error (label ++ " must not be empty.")
  else if maxNameLen < name.length then
    .error (label ++ " must be at most " ++ toString maxNameLen ++ " characters.")
  else if name.length = 1 then
    if isalnum name then .ok name
    else .error (label ++ " must start and end with a letter or digit.")
  else if safeNameRe name.toList then .ok name
  else
    .error (label ++ " must start and end with a letter or digit and contain " ++
      "only letters, digits, spaces, hyphens, underscores, dots, or apostrophes.")

/-! ## Inviting -/

/-- `_INVITATION_TTL`. -/
def invitationTtl : Int := DateTime.days 7

/-- The first checks of `create_invitation`, on the actor's membership and the invited
role. -/
def checkInviter (actor : Option MembershipRole) (role : MembershipRole) :
    Except IdentityError Unit :=
  match requireMembership actor with
  | .error e => .error e
  | .ok actorRole =>
    if actorRole = .member then
      .error (.authorization "Members cannot invite users to the organization.")
    else if actorRole = .admin ∧ role ≠ .member then
      .error (.authorization "Admins can only invite users with MEMBER role.")
    else if role = .owner then .error (.authorization "Cannot invite a user as OWNER.")
    else .ok ()

/-- What `create_invitation` reads after its first checks. -/
structure InviteReads where
  actorUser : Option User
  existingUser : Option User
  existingMembership : Option MembershipRole
  existingInvitation : Option Invitation
  subscription : Option SubscriptionPlan
  memberCount : Nat
  pendingCount : Nat

/-- The quota check of `create_invitation`. -/
def checkMemberQuota (r : InviteReads) : Except IdentityError Unit :=
  match r.subscription with
  | none => .ok ()
  | some plan =>
    match maxMembers plan with
    | none => .ok ()
    | some limit =>
      if limit ≤ r.memberCount + r.pendingCount then
        .error (.quotaExceeded ("Your " ++ plan.value ++ " plan allows up to " ++ toString limit ++
          " member(s). Please upgrade to invite more."))
      else .ok ()

/-- The other checks of `create_invitation`; they give the address it stores. -/
def checkInvitee (email : String) (r : InviteReads) : Except IdentityError String :=
  let email := lower (strip email)
  if r.actorUser.any (fun u => lower u.email = email) then
    .error (.conflict "You cannot invite yourself.")
  else if r.existingUser.isSome ∧ r.existingMembership.isSome then
    .error (.conflict "User is already a member of this organization.")
  else if r.existingInvitation.isSome then
    .error (.conflict "An invitation for this email is already pending.")
  else
    match checkMemberQuota r with
    | .error e => .error e
    | .ok () => .ok email

/-- The invitation `create_invitation` stores. -/
def newInvitation (id orgId : UUID) (email : String) (role : MembershipRole) (actorId : UUID)
    (now : DateTime) : Invitation :=
  ⟨id, orgId, email, role, actorId, .pending, now + invitationTtl⟩

/-! ## Answering and revoking -/

/-- The first checks of `accept_invitation` and of `decline_invitation`. -/
def checkAnswer (invitation : Option Invitation) (user : Option User) :
    Except IdentityError Invitation :=
  match invitation, user with
  | none, _ => .error (.notFound "Invitation not found.")
  | some _, none => .error (.notFound "User not found.")
  | some inv, some user =>
    if lower user.email ≠ lower inv.email then
      .error (.authorization "This invitation was sent to a different email address.")
    else if inv.status ≠ .pending then
      .error (.conflict "This invitation has already been processed.")
    else .ok inv

/-- `invitation.expires_at < now`. -/
def isExpired (inv : Invitation) (now : DateTime) : Bool := inv.expiresAt < now

/-- The membership check of `accept_invitation`. -/
def checkNotMember : Option MembershipRole → Except IdentityError Unit
  | some _ => .error (.conflict "You are already a member of this organization.")
  | none => .ok ()

/-- The checks of `revoke_invitation`. -/
def checkRevoke (invitation : Option Invitation) (orgId : UUID) (actor : Option MembershipRole) :
    Except IdentityError Invitation :=
  match invitation with
  | none => .error (.notFound "Invitation not found.")
  | some inv =>
    if inv.orgId ≠ orgId then .error (.notFound "Invitation not found.")
    else
      match requireAdmin actor with
      | .error e => .error e
      | .ok _ =>
        if inv.status ≠ .pending then
          .error (.conflict "Only pending invitations can be revoked.")
        else .ok inv

/-! ## Changing and removing members -/

/-- The checks of `update_member_role` on the actor. -/
def checkRoleActor (actorId targetId : UUID) (actor : Option MembershipRole) :
    Except IdentityError Unit :=
  if actorId = targetId then .error (.authorization "Cannot change your own role.")
  else
    match requireMembership actor with
    | .error e => .error e
    | .ok role =>
      if role ≠ .owner then .error (.authorization "Only owners can change member roles.")
      else .ok ()

/-- Its checks on the target. -/
def checkRoleTarget : Option MembershipRole → Except IdentityError Unit
  | none => .error (.notFound "Target user is not a member of this organization.")
  | some role =>
    if role = .owner then .error (.authorization "Cannot change the role of another owner.")
    else .ok ()

/-- The checks of `remove_member`, on the actor's role and the target's membership. -/
def checkRemove (actor : MembershipRole) (target : Option MembershipRole) :
    Except IdentityError Unit :=
  match target with
  | none => .error (.notFound "Target user is not a member of this organization.")
  | some role =>
    if role = .owner then .error (.authorization "Cannot remove an OWNER from the organization.")
    else if actor = .member then .error (.authorization "Members cannot remove other members.")
    else if actor = .admin ∧ role ≠ .member then
      .error (.authorization "Admins can only remove members with MEMBER role.")
    else .ok ()

/-! ## Projects and API keys -/

/-- `get_project` with an organization, on the row found. -/
def getProject (projectId orgId : UUID) : Option Project → Except IdentityError Project
  | none => .error (.notFound ("Project " ++ projectId ++ " not found."))
  | some project =>
    if project.orgId ≠ orgId then
      .error (.authorization "Project does not belong to this organization.")
    else .ok project

/-- `_EXPIRATION_DELTAS`. -/
def expirationDelta (expiration : String) : Option (Option Int) :=
  if expiration = "never" then some none
  else if expiration = "90d" then some (some (DateTime.days 90))
  else none

/-- `API_KEY_PREFIX`. -/
def apiKeyPrefix : String := "sk_pp_"

/-- `create_api_key`, on the organization found, for a generated key and its digest. -/
def createApiKey (organization : Option Organization) (id orgId : UUID) (name : String)
    (createdBy : Option UUID) (expiration rawKey digest : String) (now : DateTime) :
    Except IdentityError ApiKey :=
  match organization with
  | none => .error (.notFound ("Organization " ++ orgId ++ " not found."))
  | some _ =>
    match expirationDelta expiration with
    | none => .error (.validation ("Unsupported expiration value '" ++ expiration ++
        "'. Allowed: 90d, never."))
    | some delta => .ok
        { id := id
          orgId := orgId
          keyHash := digest
          keyPrefix := String.ofList (rawKey.toList.take (apiKeyPrefix.length + 4))
          name := name
          isActive := true
          createdAt := now
          expiresAt := delta.map (now + ·)
          lastUsedAt := none
          createdBy := createdBy }

/-! ## What the checks let through -/

variable {strip lower} {actor target : Option MembershipRole} {role : MembershipRole}

theorem checkInviter_ok {u : Unit} (h : checkInviter actor role = .ok u) :
    role ≠ .owner ∧ ∃ r, actor = some r ∧ (role = .admin → r = .owner) := by
  unfold checkInviter at h
  cases actor with
  | none => cases h
  | some r =>
    simp only [requireMembership] at h
    split at h
    · cases h
    next hmember =>
      split at h
      · cases h
      next hadmin =>
        split at h
        · cases h
        next howner =>
          refine ⟨howner, r, rfl, ?_⟩
          rintro rfl
          -- neither MEMBER nor an ADMIN who invites an ADMIN
          cases r with
          | owner => rfl
          | admin => exact absurd ⟨rfl, by decide⟩ hadmin
          | member => exact absurd rfl hmember

theorem checkAnswer_ok {invitation : Option Invitation} {user : Option User} {inv : Invitation}
    (h : checkAnswer lower invitation user = .ok inv) :
    invitation = some inv ∧ inv.status = .pending := by
  unfold checkAnswer at h
  split at h
  · cases h
  · cases h
  · split at h
    · cases h
    · split at h
      · cases h
      next hpending =>
        cases h
        exact ⟨rfl, not_not.mp hpending⟩

theorem checkRoleActor_ok {actorId targetId : UUID} {u : Unit}
    (h : checkRoleActor actorId targetId actor = .ok u) : actor = some .owner := by
  unfold checkRoleActor at h
  split at h
  · cases h
  · cases actor with
    | none => cases h
    | some r =>
      simp only [requireMembership] at h
      split at h
      · cases h
      next howner => rw [not_not.mp howner]

theorem checkRoleTarget_ok {u : Unit} (h : checkRoleTarget target = .ok u) :
    ∃ r, target = some r ∧ r ≠ .owner := by
  unfold checkRoleTarget at h
  split at h
  · cases h
  next r =>
    split at h
    · cases h
    next howner => exact ⟨r, rfl, howner⟩

theorem checkRemove_ok {a : MembershipRole} {u : Unit} (h : checkRemove a target = .ok u) :
    ∃ r, target = some r ∧ r ≠ .owner := by
  unfold checkRemove at h
  split at h
  · cases h
  next r =>
    split at h
    · cases h
    next howner => exact ⟨r, rfl, howner⟩

theorem checkRemove_admin {u : Unit} (h : checkRemove .admin target = .ok u) :
    target = some .member := by
  unfold checkRemove at h
  split at h
  · cases h
  next r =>
    cases r with
    | member => rfl
    | admin => cases h
    | owner => cases h

theorem createApiKey_ok {organization : Option Organization} {id orgId : UUID}
    {name expiration rawKey digest : String} {createdBy : Option UUID} {now : DateTime} {key : ApiKey}
    (h : createApiKey organization id orgId name createdBy expiration rawKey digest now = .ok key) :
    key.orgId = orgId ∧ key.createdBy = createdBy := by
  unfold createApiKey at h
  split at h
  · cases h
  · split at h
    · cases h
    · cases h
      exact ⟨rfl, rfl⟩

end IdentityService
end PandaProbe
