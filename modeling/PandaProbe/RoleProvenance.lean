import PandaProbe.IdentityService
import PandaProbe.GuardedRun

/-! # Where roles come from

Organizations, memberships and invitations under any number of callers that create
organizations, invite, accept, change roles and remove members.  Every read and every write
is a step of its own, seen by the others at once; only the creation of an organization is
one step.  What an operation has read may therefore be stale when its write lands.

Each write of a role is noted with where the role comes from (`RoleGrant`), and each check of
a caller with the number of the membership table it was made on.  `Provenance` says that
every organization has an owner and that every OWNER and ADMIN role was granted by the
creation or by someone who was an owner when checked.  What carries it is that the creator's
membership is never touched: whoever reads it, however early, reads OWNER (`Sound.owner`).
-/
namespace PandaProbe

/-- A membership table: organization, user. -/
abbrev Members := UUID → UUID → Option MembershipRole

/-- An invitation, with the number of the table on which its sender's role was checked. -/
structure SentInvitation where
  inv : Invitation
  checkedAt : Nat

/-- Where a membership received its role. -/
inductive RoleGrant
  | creation
  | invitation (sent : SentInvitation)
  | roleUpdate (callerId : UUID) (role : MembershipRole) (checkedAt : Nat)

/-- Where an operation is, with what it has read. -/
inductive RoleTask
  | idle
  | inviting (actorId orgId : UUID) (role : MembershipRole) (checkedAt : Nat)
  | answering (userId : UUID) (sent : SentInvitation)
  | accepting (userId : UUID) (sent : SentInvitation)
  | joining (userId : UUID) (sent : SentInvitation)
  | joined (userId : UUID) (sent : SentInvitation)
  | changing (actorId orgId targetId : UUID) (role : MembershipRole) (checkedAt : Nat)
  | granting (actorId orgId targetId : UUID) (role : MembershipRole) (checkedAt : Nat)
  | removing (actor : MembershipRole) (orgId targetId : UUID)
  | deleting (orgId targetId : UUID)

/-- The creators, the tables, every earlier membership table by its number, where the roles
were received, and the operations under way. -/
structure RoleRun where
  creator : UUID → Option UUID
  members : Members
  invitations : UUID → Option SentInvitation
  clock : Nat
  past : Nat → Members
  grants : UUID → UUID → Option RoleGrant
  task : Nat → RoleTask

/-- What can happen next.  What an operation reads outside the membership and invitation
tables comes with its action, and so do the ids it draws. -/
inductive RoleAct
  | createOrganization (ownerId orgId : UUID) (ownedCount : Nat) (clean : Except String String)
  | invite (w : Nat) (actorId orgId : UUID) (role : MembershipRole)
  | sendInvitation (w : Nat) (id : UUID) (email : String) (reads : IdentityService.InviteReads)
      (now : DateTime)
  | answer (w : Nat) (userId invitationId : UUID)
  | checkAnswer (w : Nat) (user : Option User) (now : DateTime)
  | findMember (w : Nat)
  | insert (w : Nat)
  | markAccepted (w : Nat)
  | changeRole (w : Nat) (actorId orgId targetId : UUID) (role : MembershipRole)
  | readTarget (w : Nat)
  | writeRole (w : Nat)
  | remove (w : Nat) (actorId orgId targetId : UUID)
  | readRemoved (w : Nat)
  | delete (w : Nat)
  | fail (w : Nat)

namespace RoleRun
open IdentityService
variable (strip lower : String → String) (s : RoleRun)

/-- The operation moves on. -/
def goto (w : Nat) (p : RoleTask) : RoleRun := { s with task := Function.update s.task w p }

/-- A table with one cell changed. -/
def setCell {α : Type} (table : UUID → UUID → α) (orgId userId : UUID) (x : α) :
    UUID → UUID → α :=
  Function.update table orgId (Function.update (table orgId) userId x)

/-- A write to one membership, and the next membership table. -/
def write (orgId userId : UUID) (role : Option MembershipRole) (grant : Option RoleGrant) :
    RoleRun :=
  { s with
    members := setCell s.members orgId userId role
    grants := setCell s.grants orgId userId grant
    clock := s.clock + 1
    past := Function.update s.past (s.clock + 1) (setCell s.members orgId userId role) }

/-- `create_organization`, in one step; the id is new. -/
def createOrganization (ownerId orgId : UUID) (ownedCount : Nat) (clean : Except String String) :
    Option RoleRun :=
  match checkCreateOrganization ownedCount clean, s.creator orgId with
  | .ok _, none =>
    some { s.write orgId ownerId (some .owner) (some .creation) with
      creator := Function.update s.creator orgId (some ownerId) }
  | _, _ => none

/-- The caller's membership read of `create_invitation`, and the checks on it. -/
def invite (w : Nat) (actorId orgId : UUID) (role : MembershipRole) : Option RoleRun :=
  match s.task w with
  | .idle =>
    match checkInviter (s.members orgId actorId) role with
    | .error _ => some s
    | .ok () => some (s.goto w (.inviting actorId orgId role s.clock))
  | _ => none

/-- The other reads of `create_invitation`, and its insert under a new id. -/
def sendInvitation (w : Nat) (id : UUID) (email : String) (reads : InviteReads) (now : DateTime) :
    Option RoleRun :=
  match s.task w, s.invitations id with
  | .inviting actorId orgId role checkedAt, none =>
    match checkInvitee strip lower email reads with
    | .error _ => some (s.goto w .idle)
    | .ok email =>
      let sent : SentInvitation := ⟨newInvitation id orgId email role actorId now, checkedAt⟩
      some { s.goto w .idle with invitations := Function.update s.invitations id (some sent) }
  | _, _ => none

/-- The invitation read of `accept_invitation`. -/
def answer (w : Nat) (userId invitationId : UUID) : Option RoleRun :=
  match s.task w with
  | .idle =>
    match s.invitations invitationId with
    | none => some s
    | some sent => some (s.goto w (.answering userId sent))
  | _ => none

/-- Its checks.  One that finds the invitation expired writes EXPIRED and raises, which
undoes the write. -/
def checkAnswer (w : Nat) (user : Option User) (now : DateTime) : Option RoleRun :=
  match s.task w with
  | .answering userId sent =>
    match IdentityService.checkAnswer lower (some sent.inv) user with
    | .error _ => some (s.goto w .idle)
    | .ok inv =>
      some (s.goto w (if isExpired inv now then .idle else .accepting userId sent))
  | _ => none

/-- Its membership read. -/
def findMember (w : Nat) : Option RoleRun :=
  match s.task w with
  | .accepting userId sent =>
    match checkNotMember (s.members sent.inv.orgId userId) with
    | .error _ => some (s.goto w .idle)
    | .ok () => some (s.goto w (.joining userId sent))
  | _ => none

/-- Its membership insert; the unique constraint rejects a second membership. -/
def insert (w : Nat) : Option RoleRun :=
  match s.task w with
  | .joining userId sent =>
    match s.members sent.inv.orgId userId with
    | some _ => some (s.goto w .idle)
    | none =>
      some ((s.write sent.inv.orgId userId (some sent.inv.role) (some (.invitation sent))).goto w
        (.joined userId sent))
  | _ => none

/-- Its `update_status`. -/
def markAccepted (w : Nat) : Option RoleRun :=
  match s.task w with
  | .joined _ sent =>
    match s.invitations sent.inv.id with
    | none => some (s.goto w .idle)
    | some row =>
      let row : SentInvitation := { row with inv := { row.inv with status := .accepted } }
      some { s.goto w .idle with
        invitations := Function.update s.invitations sent.inv.id (some row) }
  | _ => none

/-- The caller's membership read of `update_member_role`, and the checks on it. -/
def changeRole (w : Nat) (actorId orgId targetId : UUID) (role : MembershipRole) :
    Option RoleRun :=
  match s.task w with
  | .idle =>
    match checkRoleActor actorId targetId (s.members orgId actorId) with
    | .error _ => some s
    | .ok () => some (s.goto w (.changing actorId orgId targetId role s.clock))
  | _ => none

/-- The target's membership read, and the checks on it. -/
def readTarget (w : Nat) : Option RoleRun :=
  match s.task w with
  | .changing actorId orgId targetId role checkedAt =>
    match checkRoleTarget (s.members orgId targetId) with
    | .error _ => some (s.goto w .idle)
    | .ok () => some (s.goto w (.granting actorId orgId targetId role checkedAt))
  | _ => none

/-- `update_membership_role`. -/
def writeRole (w : Nat) : Option RoleRun :=
  match s.task w with
  | .granting actorId orgId targetId role checkedAt =>
    match s.members orgId targetId with
    | none => some (s.goto w .idle)
    | some _ =>
      some ((s.write orgId targetId (some role) (some (.roleUpdate actorId role checkedAt))).goto w
        .idle)
  | _ => none

/-- The caller's membership read of `remove_member`. -/
def remove (w : Nat) (actorId orgId targetId : UUID) : Option RoleRun :=
  match s.task w with
  | .idle =>
    match requireMembership (s.members orgId actorId) with
    | .error _ => some s
    | .ok actor => some (s.goto w (.removing actor orgId targetId))
  | _ => none

/-- The target's membership read, and the checks. -/
def readRemoved (w : Nat) : Option RoleRun :=
  match s.task w with
  | .removing actor orgId targetId =>
    match checkRemove actor (s.members orgId targetId) with
    | .error _ => some (s.goto w .idle)
    | .ok () => some (s.goto w (.deleting orgId targetId))
  | _ => none

/-- `delete_membership`. -/
def delete (w : Nat) : Option RoleRun :=
  match s.task w with
  | .deleting orgId targetId => some ((s.write orgId targetId none none).goto w .idle)
  | _ => none

/-- An operation fails; an acceptance that has inserted its membership undoes that. -/
def fail (w : Nat) : RoleRun :=
  match s.task w with
  | .joined userId sent => (s.write sent.inv.orgId userId none none).goto w .idle
  | _ => s.goto w .idle

/-- One step. -/
def step : RoleAct → Option RoleRun
  | .createOrganization ownerId orgId ownedCount clean =>
    s.createOrganization ownerId orgId ownedCount clean
  | .invite w actorId orgId role => s.invite w actorId orgId role
  | .sendInvitation w id email reads now => s.sendInvitation strip lower w id email reads now
  | .answer w userId invitationId => s.answer w userId invitationId
  | .checkAnswer w user now => s.checkAnswer lower w user now
  | .findMember w => s.findMember w
  | .insert w => s.insert w
  | .markAccepted w => s.markAccepted w
  | .changeRole w actorId orgId targetId role => s.changeRole w actorId orgId targetId role
  | .readTarget w => s.readTarget w
  | .writeRole w => s.writeRole w
  | .remove w actorId orgId targetId => s.remove w actorId orgId targetId
  | .readRemoved w => s.readRemoved w
  | .delete w => s.delete w
  | .fail w => some (s.fail w)

/-- No organization at all. -/
def initial : RoleRun :=
  ⟨fun _ => none, fun _ _ => none, fun _ => none, 0, fun _ _ _ => none, fun _ _ => none,
    fun _ => .idle⟩

/-! ## The property -/

/-- The user was an owner of the organization in that table. -/
def OwnerAt (t : Nat) (orgId userId : UUID) : Prop :=
  t ≤ s.clock ∧ s.past t orgId userId = some .owner

/-- The role comes from the creation of the organization, from an ADMIN invitation, or from a
role update, the sender or caller being an owner of the organization when checked. -/
def GrantOk (orgId userId : UUID) (role : MembershipRole) : RoleGrant → Prop
  | .creation => s.creator orgId = some userId ∧ role = .owner
  | .invitation sent => sent.inv.orgId = orgId ∧ sent.inv.role = role ∧ role = .admin ∧
      s.OwnerAt sent.checkedAt orgId sent.inv.invitedBy
  | .roleUpdate callerId granted checkedAt => granted = role ∧ s.OwnerAt checkedAt orgId callerId

/-- **Ownership and provenance.**  Every organization has an owner, and every OWNER or ADMIN
role was received from the creation or from someone who was an owner when checked. -/
structure Provenance (s : RoleRun) : Prop where
  owned : ∀ orgId, (s.creator orgId).isSome → ∃ userId, s.members orgId userId = some .owner
  received : ∀ orgId userId role, s.members orgId userId = some role → role ≠ .member →
    ∃ grant, s.grants orgId userId = some grant ∧ s.GrantOk orgId userId role grant

/-! ## What every run keeps -/

/-- The membership is not the creator's. -/
def Spares (orgId userId : UUID) : Prop :=
  ∃ c, s.creator orgId = some c ∧ c ≠ userId

/-- An ADMIN invitation was sent by an owner, and none is for an OWNER. -/
def InviteOk (orgId senderId : UUID) (role : MembershipRole) (checkedAt : Nat) : Prop :=
  role ≠ .owner ∧ (s.creator orgId).isSome ∧ (role = .admin → s.OwnerAt checkedAt orgId senderId)

/-- `InviteOk` of a stored invitation. -/
def SentOk (sent : SentInvitation) : Prop :=
  s.InviteOk sent.inv.orgId sent.inv.invitedBy sent.inv.role sent.checkedAt

/-- What an operation has read is still good for its write. -/
def TaskOk : RoleTask → Prop
  | .idle => True
  | .inviting actorId orgId role checkedAt => s.InviteOk orgId actorId role checkedAt
  | .answering _ sent => s.SentOk sent
  | .accepting _ sent => s.SentOk sent
  | .joining _ sent => s.SentOk sent
  | .joined userId sent => s.Spares sent.inv.orgId userId
  | .changing actorId orgId _ _ checkedAt =>
      s.OwnerAt checkedAt orgId actorId ∧ (s.creator orgId).isSome
  | .granting actorId orgId targetId _ checkedAt =>
      s.OwnerAt checkedAt orgId actorId ∧ s.Spares orgId targetId
  | .removing _ orgId _ => (s.creator orgId).isSome
  | .deleting orgId targetId => s.Spares orgId targetId

/-- **What every run keeps.** -/
structure Sound (s : RoleRun) : Prop where
  now : s.past s.clock = s.members
  owner : ∀ orgId c, s.creator orgId = some c → s.members orgId c = some .owner
  known : ∀ orgId userId role, s.members orgId userId = some role → (s.creator orgId).isSome
  received : ∀ orgId userId role, s.members orgId userId = some role → role ≠ .member →
    ∃ grant, s.grants orgId userId = some grant ∧ s.GrantOk orgId userId role grant
  sent : ∀ id sent, s.invitations id = some sent → s.SentOk sent
  tasks : ∀ w, s.TaskOk (s.task w)

/-- The organizations and the earlier tables are still there. -/
structure Extends (s s' : RoleRun) : Prop where
  creator : ∀ orgId c, s.creator orgId = some c → s'.creator orgId = some c
  clock : s.clock ≤ s'.clock
  past : ∀ t ≤ s.clock, s'.past t = s.past t

variable {strip lower s} {s' : RoleRun} {w : Nat} {p : RoleTask} {orgId userId : UUID}
  {role : MembershipRole}

theorem Extends.isSome (h : Extends s s') (hc : (s.creator orgId).isSome) :
    (s'.creator orgId).isSome := by
  obtain ⟨c, hc⟩ := Option.isSome_iff_exists.mp hc
  exact Option.isSome_iff_exists.mpr ⟨c, h.creator orgId c hc⟩

theorem Extends.ownerAt (h : Extends s s') {t : Nat} (ho : s.OwnerAt t orgId userId) :
    s'.OwnerAt t orgId userId :=
  ⟨le_trans ho.1 h.clock, by rw [h.past t ho.1]; exact ho.2⟩

theorem Extends.spares (h : Extends s s') (hs : s.Spares orgId userId) :
    s'.Spares orgId userId := by
  obtain ⟨c, hc, hne⟩ := hs
  exact ⟨c, h.creator orgId c hc, hne⟩

theorem Extends.inviteOk (h : Extends s s') {t : Nat} (hi : s.InviteOk orgId userId role t) :
    s'.InviteOk orgId userId role t :=
  ⟨hi.1, h.isSome hi.2.1, fun hr => h.ownerAt (hi.2.2 hr)⟩

theorem Extends.grantOk (h : Extends s s') {grant : RoleGrant}
    (hg : s.GrantOk orgId userId role grant) : s'.GrantOk orgId userId role grant := by
  cases grant with
  | creation => exact ⟨h.creator orgId userId hg.1, hg.2⟩
  | invitation sent => exact ⟨hg.1, hg.2.1, hg.2.2.1, h.ownerAt hg.2.2.2⟩
  | roleUpdate callerId granted t => exact ⟨hg.1, h.ownerAt hg.2⟩

theorem Extends.taskOk (h : Extends s s') (hp : s.TaskOk p) : s'.TaskOk p := by
  cases p with
  | idle => trivial
  | inviting actorId orgId role t => exact h.inviteOk hp
  | answering userId sent => exact h.inviteOk hp
  | accepting userId sent => exact h.inviteOk hp
  | joining userId sent => exact h.inviteOk hp
  | joined userId sent => exact h.spares hp
  | changing actorId orgId targetId role t => exact ⟨h.ownerAt hp.1, h.isSome hp.2⟩
  | granting actorId orgId targetId role t => exact ⟨h.ownerAt hp.1, h.spares hp.2⟩
  | removing actor orgId targetId => exact h.isSome hp
  | deleting orgId targetId => exact h.spares hp

theorem sound_initial : Sound initial where
  now := rfl
  owner := fun _ _ h => by cases h
  known := fun _ _ _ h => by cases h
  received := fun _ _ _ h => by cases h
  sent := fun _ _ h => by cases h
  tasks := fun _ => trivial

theorem Sound.provenance (h : Sound s) : Provenance s where
  owned := by
    intro orgId hc
    obtain ⟨c, hc⟩ := Option.isSome_iff_exists.mp hc
    exact ⟨c, h.owner orgId c hc⟩
  received := h.received

/-! ## The kinds of writes -/

theorem setCell_apply {α : Type} (table : UUID → UUID → α) (orgId userId o u : UUID) (x : α) :
    setCell table orgId userId x o u = if o = orgId ∧ u = userId then x else table o u := by
  unfold setCell
  by_cases ho : o = orgId
  · subst ho
    by_cases hu : u = userId
    · simp [hu]
    · simp [hu]
  · simp [ho]

theorem Sound.goto (h : Sound s) (hp : s.TaskOk p) : Sound (s.goto w p) := by
  refine ⟨h.now, h.owner, h.known, h.received, h.sent, ?_⟩
  exact (Function.forall_update_iff s.task (fun _ t => s.TaskOk t)).mpr ⟨hp, fun v _ => h.tasks v⟩

/-- Storing an invitation. -/
theorem Sound.store (h : Sound s) {id : UUID} {sent : SentInvitation} (hsent : s.SentOk sent) :
    Sound { s with invitations := Function.update s.invitations id (some sent) } := by
  refine ⟨h.now, h.owner, h.known, h.received, ?_, h.tasks⟩
  refine (Function.forall_update_iff s.invitations
    (fun _ row => ∀ sent, row = some sent → s.SentOk sent)).mpr ⟨fun row hrow => ?_, ?_⟩
  · obtain rfl := Option.some.inj hrow
    exact hsent
  · exact fun i _ row hrow => h.sent i row hrow

theorem extends_write (x : Option MembershipRole) (g : Option RoleGrant) :
    Extends s (s.write orgId userId x g) :=
  ⟨fun _ _ h => h, Nat.le_succ _, fun _ ht => Function.update_of_ne (by omega) _ _⟩

/-- Memberships and grants after a write that notes its grant. -/
theorem received_write (h : Sound s) {s' : RoleRun} (hext : Extends s s') {x : Option MembershipRole}
    {g : Option RoleGrant} (hmem : s'.members = setCell s.members orgId userId x)
    (hgrants : s'.grants = setCell s.grants orgId userId g)
    (hg : ∀ r, x = some r → r ≠ .member → ∃ grant, g = some grant ∧
      s'.GrantOk orgId userId r grant) :
    ∀ o u r, s'.members o u = some r → r ≠ .member →
      ∃ grant, s'.grants o u = some grant ∧ s'.GrantOk o u r grant := by
  intro o u r hr hne
  rw [hmem, setCell_apply] at hr
  rw [hgrants, setCell_apply]
  split at hr
  next hcell =>
    obtain ⟨rfl, rfl⟩ := hcell
    rw [if_pos ⟨rfl, rfl⟩]
    exact hg r hr hne
  next hcell =>
    rw [if_neg hcell]
    obtain ⟨grant, hgrant, hok⟩ := h.received o u r hr hne
    exact ⟨grant, hgrant, hext.grantOk hok⟩

/-- **A write that spares the creator.** -/
theorem Sound.write (h : Sound s) {x : Option MembershipRole} {g : Option RoleGrant}
    (hspares : s.Spares orgId userId)
    (hg : ∀ r, x = some r → r ≠ .member → ∃ grant, g = some grant ∧ s.GrantOk orgId userId r grant) :
    Sound (s.write orgId userId x g) := by
  obtain ⟨c, hc, hne⟩ := hspares
  have hext : Extends s (s.write orgId userId x g) := extends_write x g
  refine ⟨Function.update_self .., fun o d hd => ?_, fun o u r hr => ?_, ?_, fun i row hrow => ?_,
    fun v => hext.taskOk (h.tasks v)⟩
  -- the creator's own membership is not the one written, whatever the operation read
  · have hcell : ¬ (o = orgId ∧ d = userId) := by
      rintro ⟨rfl, rfl⟩
      exact hne (Option.some.inj (hc.symm.trans hd))
    have hmem : (s.write orgId userId x g).members o d = s.members o d := by
      change setCell s.members orgId userId x o d = _
      rw [setCell_apply, if_neg hcell]
    exact hmem.trans (h.owner o d hd)
  · have hr : setCell s.members orgId userId x o u = some r := hr
    rw [setCell_apply] at hr
    split at hr
    next hcell =>
      obtain ⟨rfl, rfl⟩ := hcell
      exact Option.isSome_iff_exists.mpr ⟨c, hc⟩
    · exact h.known o u r hr
  · refine received_write h hext rfl rfl fun r hr hrne => ?_
    obtain ⟨grant, hgrant, hok⟩ := hg r hr hrne
    exact ⟨grant, hgrant, hext.grantOk hok⟩
  · exact hext.inviteOk (h.sent i row hrow)

/-- A membership that is not OWNER is not the creator's. -/
theorem Sound.spares (h : Sound s) (hc : (s.creator orgId).isSome)
    (hne : s.members orgId userId ≠ some .owner) : s.Spares orgId userId := by
  obtain ⟨c, hc⟩ := Option.isSome_iff_exists.mp hc
  refine ⟨c, hc, ?_⟩
  rintro rfl
  exact hne (h.owner orgId c hc)

/-- The caller's role, checked on the table of now. -/
theorem Sound.ownerNow (h : Sound s) (ho : s.members orgId userId = some .owner) :
    s.OwnerAt s.clock orgId userId :=
  ⟨le_refl _, by rw [h.now]; exact ho⟩

/-! ## The steps -/

/-- The creation of an organization under a new id. -/
theorem sound_createOrganization {ownerId : UUID} {ownedCount : Nat} {clean : Except String String}
    (h : Sound s) (hs : s.createOrganization ownerId orgId ownedCount clean = some s') :
    Sound s' := by
  unfold createOrganization at hs
  split at hs
  next name hname hnew =>
    cases hs
    -- the id is new, so nothing that was promised about other organizations changes
    have hext : Extends s { s.write orgId ownerId (some .owner) (some .creation) with
        creator := Function.update s.creator orgId (some ownerId) } := by
      refine ⟨fun o c hc => ?_, Nat.le_succ _, fun t ht => Function.update_of_ne (by omega) _ _⟩
      have ho : o ≠ orgId := by
        rintro rfl
        exact absurd (hnew.symm.trans hc) nofun
      exact (Function.update_of_ne ho _ _).trans hc
    refine ⟨Function.update_self .., fun o c hc => ?_, fun o u r hr => ?_, ?_,
      fun i row hrow => hext.inviteOk (h.sent i row hrow), fun v => hext.taskOk (h.tasks v)⟩
    · have hc : Function.update s.creator orgId (some ownerId) o = some c := hc
      change setCell s.members orgId ownerId (some .owner) o c = _
      rw [setCell_apply]
      by_cases ho : o = orgId
      · subst ho
        rw [Function.update_self] at hc
        rw [if_pos ⟨rfl, (Option.some.inj hc).symm⟩]
      · rw [Function.update_of_ne ho] at hc
        rw [if_neg fun hcell => ho hcell.1]
        exact h.owner o c hc
    · change (Function.update s.creator orgId (some ownerId) o).isSome
      by_cases ho : o = orgId
      · subst ho
        rw [Function.update_self]
        rfl
      · have hr : setCell s.members orgId ownerId (some .owner) o u = some r := hr
        rw [setCell_apply, if_neg fun hcell => ho hcell.1] at hr
        rw [Function.update_of_ne ho]
        exact h.known o u r hr
    · refine received_write h hext rfl rfl fun r hr _ => ⟨.creation, rfl, ?_⟩
      obtain rfl := Option.some.inj hr
      exact ⟨Function.update_self .., rfl⟩
  · cases hs

theorem sound_invite {actorId : UUID} (h : Sound s)
    (hs : s.invite w actorId orgId role = some s') : Sound s' := by
  unfold invite at hs
  split at hs
  · split at hs
    · cases hs
      exact h
    next hcheck =>
      cases hs
      obtain ⟨howner, r, hr, hadmin⟩ := checkInviter_ok hcheck
      refine h.goto ⟨howner, h.known orgId actorId r hr, fun hrole => ?_⟩
      rw [hadmin hrole] at hr
      exact h.ownerNow hr
  · cases hs

theorem sound_sendInvitation {id : UUID} {email : String} {reads : InviteReads} {now : DateTime}
    (h : Sound s) (hs : s.sendInvitation strip lower w id email reads now = some s') :
    Sound s' := by
  unfold sendInvitation at hs
  split at hs
  next actorId orgId role t hw _ =>
    have hok : s.TaskOk (.inviting actorId orgId role t) := hw ▸ h.tasks w
    split at hs
    · cases hs
      exact h.goto trivial
    · cases hs
      exact (h.goto (p := .idle) trivial).store hok
  · cases hs

theorem sound_answer {invitationId : UUID} (h : Sound s)
    (hs : s.answer w userId invitationId = some s') : Sound s' := by
  unfold answer at hs
  split at hs
  · split at hs
    · cases hs
      exact h
    next sent hsent =>
      cases hs
      exact h.goto (h.sent invitationId sent hsent)
  · cases hs

theorem sound_checkAnswer {user : Option User} {now : DateTime} (h : Sound s)
    (hs : s.checkAnswer lower w user now = some s') : Sound s' := by
  unfold checkAnswer at hs
  split at hs
  next userId sent hw =>
    have hok : s.TaskOk (.answering userId sent) := hw ▸ h.tasks w
    split at hs
    · cases hs
      exact h.goto trivial
    · cases hs
      split
      · exact h.goto trivial
      · exact h.goto hok
  · cases hs

theorem sound_findMember (h : Sound s) (hs : s.findMember w = some s') : Sound s' := by
  unfold findMember at hs
  split at hs
  next userId sent hw =>
    have hok : s.TaskOk (.accepting userId sent) := hw ▸ h.tasks w
    split at hs
    · cases hs
      exact h.goto trivial
    · cases hs
      exact h.goto hok
  · cases hs

theorem sound_insert (h : Sound s) (hs : s.insert w = some s') : Sound s' := by
  unfold insert at hs
  split at hs
  next userId sent hw =>
    obtain ⟨howner, hknown, hadmin⟩ : s.TaskOk (.joining userId sent) := hw ▸ h.tasks w
    split at hs
    · cases hs
      exact h.goto trivial
    next hnone =>
      cases hs
      have hspares : s.Spares sent.inv.orgId userId := h.spares hknown (by rw [hnone]; nofun)
      refine (h.write hspares fun r hr hne => ⟨.invitation sent, rfl, ?_⟩).goto
        ((extends_write _ _).spares hspares)
      -- the invited role is neither OWNER nor MEMBER here
      obtain rfl := Option.some.inj hr
      have hrole : sent.inv.role = .admin := by
        cases hcase : sent.inv.role with
        | owner => exact absurd hcase howner
        | admin => rfl
        | member => exact absurd hcase hne
      exact ⟨rfl, rfl, hrole, hadmin hrole⟩
  · cases hs

theorem sound_markAccepted (h : Sound s) (hs : s.markAccepted w = some s') : Sound s' := by
  unfold markAccepted at hs
  split at hs
  next userId sent hw =>
    split at hs
    · cases hs
      exact h.goto trivial
    next row hrow =>
      cases hs
      exact (h.goto (p := .idle) trivial).store (h.sent _ row hrow)
  · cases hs

theorem sound_changeRole {actorId targetId : UUID} (h : Sound s)
    (hs : s.changeRole w actorId orgId targetId role = some s') : Sound s' := by
  unfold changeRole at hs
  split at hs
  · split at hs
    · cases hs
      exact h
    next hcheck =>
      cases hs
      have howner := checkRoleActor_ok hcheck
      exact h.goto ⟨h.ownerNow howner, h.known orgId actorId _ howner⟩
  · cases hs

theorem sound_readTarget (h : Sound s) (hs : s.readTarget w = some s') : Sound s' := by
  unfold readTarget at hs
  split at hs
  next actorId orgId targetId role t hw =>
    obtain ⟨howner, hknown⟩ : s.TaskOk (.changing actorId orgId targetId role t) := hw ▸ h.tasks w
    split at hs
    · cases hs
      exact h.goto trivial
    next hcheck =>
      cases hs
      obtain ⟨r, hr, hne⟩ := checkRoleTarget_ok hcheck
      refine h.goto ⟨howner, h.spares hknown ?_⟩
      rw [hr]
      exact fun heq => hne (Option.some.inj heq)
  · cases hs

theorem sound_writeRole (h : Sound s) (hs : s.writeRole w = some s') : Sound s' := by
  unfold writeRole at hs
  split at hs
  next actorId orgId targetId role t hw =>
    obtain ⟨howner, hspares⟩ : s.TaskOk (.granting actorId orgId targetId role t) :=
      hw ▸ h.tasks w
    split at hs
    · cases hs
      exact h.goto trivial
    · cases hs
      refine (h.write hspares fun r hr _ => ⟨.roleUpdate actorId role t, rfl, ?_⟩).goto trivial
      exact ⟨Option.some.inj hr, howner⟩
  · cases hs

theorem sound_remove {actorId targetId : UUID} (h : Sound s)
    (hs : s.remove w actorId orgId targetId = some s') : Sound s' := by
  unfold remove at hs
  split at hs
  · cases hm : s.members orgId actorId with
    | none =>
      simp only [hm, requireMembership] at hs
      cases hs
      exact h
    | some r =>
      simp only [hm, requireMembership] at hs
      cases hs
      exact h.goto (h.known orgId actorId r hm)
  · cases hs

theorem sound_readRemoved (h : Sound s) (hs : s.readRemoved w = some s') : Sound s' := by
  unfold readRemoved at hs
  split at hs
  next actor orgId targetId hw =>
    have hknown : s.TaskOk (.removing actor orgId targetId) := hw ▸ h.tasks w
    split at hs
    · cases hs
      exact h.goto trivial
    next hcheck =>
      cases hs
      obtain ⟨r, hr, hne⟩ := checkRemove_ok hcheck
      refine h.goto (h.spares hknown ?_)
      rw [hr]
      exact fun heq => hne (Option.some.inj heq)
  · cases hs

theorem sound_delete (h : Sound s) (hs : s.delete w = some s') : Sound s' := by
  unfold delete at hs
  split at hs
  next orgId targetId hw =>
    have hspares : s.TaskOk (.deleting orgId targetId) := hw ▸ h.tasks w
    cases hs
    exact (h.write hspares fun r hr => by cases hr).goto trivial
  · cases hs

theorem sound_fail (h : Sound s) : Sound (s.fail w) := by
  unfold fail
  split
  next userId sent hw =>
    have hspares : s.TaskOk (.joined userId sent) := hw ▸ h.tasks w
    exact (h.write hspares fun r hr => by cases hr).goto trivial
  · exact h.goto trivial

/-- One step keeps everything. -/
theorem sound_step {a : RoleAct} (h : Sound s) (hs : s.step strip lower a = some s') :
    Sound s' := by
  cases a with
  | createOrganization ownerId orgId ownedCount clean => exact sound_createOrganization h hs
  | invite w actorId orgId role => exact sound_invite h hs
  | sendInvitation w id email reads now => exact sound_sendInvitation h hs
  | answer w userId invitationId => exact sound_answer h hs
  | checkAnswer w user now => exact sound_checkAnswer h hs
  | findMember w => exact sound_findMember h hs
  | insert w => exact sound_insert h hs
  | markAccepted w => exact sound_markAccepted h hs
  | changeRole w actorId orgId targetId role => exact sound_changeRole h hs
  | readTarget w => exact sound_readTarget h hs
  | writeRole w => exact sound_writeRole h hs
  | remove w actorId orgId targetId => exact sound_remove h hs
  | readRemoved w => exact sound_readRemoved h hs
  | delete w => exact sound_delete h hs
  | fail w =>
    cases hs
    exact sound_fail h

/-- **Every organization has an owner, and every privilege has a source.**  In every state
reached from no organization at all, by any interleaving, every organization has an owner and
every OWNER or ADMIN role comes from the organization's creation or from an invitation or a
role update by someone who was an owner when checked. -/
theorem roles_provenance {strip lower : String → String}
    (hreach : GuardedRun.Reach (fun s a => s.step strip lower a) GuardedRun.Always initial s) :
    Provenance s := by
  have hsound : Sound s :=
    hreach.invariant sound_initial fun _ _ _ h _ hs => sound_step h hs
  exact hsound.provenance

/-- An owner invites an ADMIN, who accepts; the owner then makes her an OWNER too. -/
def promotion : List RoleAct :=
  [.createOrganization "owner" "org" 0 (.ok "Acme"),
    .invite 0 "owner" "org" .admin,
    .sendInvitation 0 "inv" "ann@example.com" ⟨none, none, none, none, none, 1, 0⟩ 0,
    .answer 1 "ann" "inv", .checkAnswer 1 (some ⟨"ann", "ann@example.com"⟩) 1,
    .findMember 1, .insert 1, .markAccepted 1,
    .changeRole 2 "owner" "org" "ann" .owner, .readTarget 2, .writeRole 2]

/-- The promotion runs through, and both owners have their source. -/
theorem roles_provenance_promotion : ∃ s,
    GuardedRun.run (fun s a => s.step id id a) initial promotion = some s ∧
      s.members "org" "ann" = some .owner ∧ s.clock = 3 ∧ Provenance s := by
  have hview : (GuardedRun.run (fun s a => s.step id id a) initial promotion).map
      (fun s => (s.members "org" "ann", s.clock)) = some (some .owner, 3) := by decide +kernel
  obtain ⟨s, hrun, heq⟩ := Option.map_eq_some_iff.mp hview
  obtain ⟨hann, hclock⟩ := Prod.mk.inj heq
  exact ⟨s, hrun, hann, hclock, roles_provenance (GuardedRun.reach_of_run hrun)⟩

end RoleRun
end PandaProbe
