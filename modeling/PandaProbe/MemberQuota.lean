import Mathlib.Data.Fintype.EquivFin
import PandaProbe.IdentityService
import PandaProbe.GuardedRun

/-! # The member quota

The invitations and memberships of all organizations, under calls that do not overlap:
inviting, accepting, declining, revoking, the expiry job, removing a member.  The quota is
looked at once, when an invitation is created; an acceptance relies on it.

An invitation counts against the quota while `now < expires_at`, and the expiry job takes those
with `expires_at <= now`; an acceptance refuses only those with `expires_at < now`.  So at the
instant at which an invitation expires it has left the count and can still be accepted.  The
quota holds in every run in which no invitation is created at such an instant (`InTurn`).
-/
namespace PandaProbe

/-- A user's membership of an organization. -/
structure Membership where
  orgId : UUID
  userId : UUID
  role : MembershipRole
  deriving DecidableEq, Repr

/-- Subscriptions, which stay as they are, memberships and invitations. -/
structure MemberDb where
  subscription : UUID → Option SubscriptionPlan
  memberships : List Membership
  invitations : List Invitation

namespace MemberDb
open IdentityService

/-! ## The repositories -/

section Repositories
variable (db : MemberDb)

/-- The role of the user in the organization. -/
def getMembership (userId orgId : UUID) : Option MembershipRole :=
  (db.memberships.find? (fun m => m.userId = userId ∧ m.orgId = orgId)).map (·.role)

/-- `count_org_members`. -/
def countOrgMembers (orgId : UUID) : Nat := db.memberships.countP (fun m => m.orgId = orgId)

/-- A PENDING and non-expired invitation of the organization, as the queries have it. -/
def isPending (orgId : UUID) (now : DateTime) (inv : Invitation) : Bool :=
  inv.orgId = orgId ∧ inv.status = .pending ∧ now < inv.expiresAt

/-- `get_pending_invitation`. -/
def getPendingInvitation (orgId : UUID) (email : String) (now : DateTime) : Option Invitation :=
  db.invitations.find? (fun inv => isPending orgId now inv && inv.email == email)

/-- `count_pending_for_org`. -/
def countPendingForOrg (orgId : UUID) (now : DateTime) : Nat :=
  db.invitations.countP (isPending orgId now)

/-- `get_invitation`. -/
def getInvitation (id : UUID) : Option Invitation := db.invitations.find? (fun inv => inv.id = id)

/-- `update_status`. -/
def updateStatus (id : UUID) (status : InvitationStatus) : MemberDb :=
  { db with invitations := db.invitations.map (fun inv =>
      if inv.id = id then { inv with status := status } else inv) }

/-- `expire_stale_invitations`. -/
def expireStaleInvitations (now : DateTime) : MemberDb :=
  { db with invitations := db.invitations.map (fun inv =>
      if inv.status = .pending ∧ inv.expiresAt ≤ now then { inv with status := .expired } else inv) }

/-- `delete_membership`. -/
def deleteMembership (userId orgId : UUID) : MemberDb :=
  { db with memberships :=
      db.memberships.filter (fun m => ¬ (m.userId = userId ∧ m.orgId = orgId)) }

end Repositories

/-! ## The service -/

section Service
variable (strip lower : String → String) (db : MemberDb)

/-- `create_invitation`.  It looks at the clock three times: for the pending invitation of the
address, for the count, and for the expiry of the new one. -/
def createInvitation (actorId orgId : UUID) (email : String) (role : MembershipRole)
    (actorUser existingUser : Option User) (id : UUID) (now₁ now₂ now₃ : DateTime) :
    Except IdentityError MemberDb :=
  match checkInviter (db.getMembership actorId orgId) role with
  | .error e => .error e
  | .ok () =>
    let reads : InviteReads :=
      { actorUser := actorUser
        existingUser := existingUser
        existingMembership := existingUser.bind (fun u => db.getMembership u.id orgId)
        existingInvitation := db.getPendingInvitation orgId (lower (strip email)) now₁
        subscription := db.subscription orgId
        memberCount := db.countOrgMembers orgId
        pendingCount := db.countPendingForOrg orgId now₂ }
    match checkInvitee strip lower email reads with
    | .error e => .error e
    | .ok email =>
      .ok { db with
        invitations := db.invitations ++ [newInvitation id orgId email role actorId now₃] }

/-- What `accept_invitation` and `decline_invitation` have in common.  The EXPIRED that they
write before they raise is undone with the transaction. -/
def answerable (invitationId : UUID) (user : Option User) (now : DateTime) :
    Except IdentityError Invitation :=
  match checkAnswer lower (db.getInvitation invitationId) user with
  | .error e => .error e
  | .ok inv =>
    if isExpired inv now then .error (.conflict "This invitation has expired.") else .ok inv

/-- `accept_invitation`. -/
def acceptInvitation (userId invitationId : UUID) (user : Option User) (now : DateTime) :
    Except IdentityError MemberDb :=
  match db.answerable lower invitationId user now with
  | .error e => .error e
  | .ok inv =>
    match checkNotMember (db.getMembership userId inv.orgId) with
    | .error e => .error e
    | .ok () =>
      let joined : MemberDb :=
        { db with memberships := db.memberships ++ [⟨inv.orgId, userId, inv.role⟩] }
      .ok (joined.updateStatus invitationId .accepted)

/-- `decline_invitation`. -/
def declineInvitation (invitationId : UUID) (user : Option User) (now : DateTime) :
    Except IdentityError MemberDb :=
  match db.answerable lower invitationId user now with
  | .error e => .error e
  | .ok _ => .ok (db.updateStatus invitationId .declined)

/-- `revoke_invitation`. -/
def revokeInvitation (actorId orgId invitationId : UUID) : Except IdentityError MemberDb :=
  match checkRevoke (db.getInvitation invitationId) orgId (db.getMembership actorId orgId) with
  | .error e => .error e
  | .ok _ => .ok (db.updateStatus invitationId .revoked)

/-- `remove_member`. -/
def removeMember (actorId orgId targetId : UUID) : Except IdentityError MemberDb :=
  match requireMembership (db.getMembership actorId orgId) with
  | .error e => .error e
  | .ok actor =>
    match checkRemove actor (db.getMembership targetId orgId) with
    | .error e => .error e
    | .ok () => .ok (db.deleteMembership targetId orgId)

end Service

/-! ## Invitations that would be accepted -/

/-- PENDING, and not expired as an acceptance has it. -/
def acceptable (now : DateTime) (inv : Invitation) : Bool :=
  inv.status = .pending ∧ ¬ isExpired inv now

/-- How many invitations of the organization an acceptance would accept. -/
def countAcceptable (db : MemberDb) (orgId : UUID) (now : DateTime) : Nat :=
  db.invitations.countP (fun inv => inv.orgId = orgId && acceptable now inv)

variable {strip lower : String → String} {db db' : MemberDb} {orgId : UUID} {now : DateTime}

theorem acceptable_iff {inv : Invitation} :
    acceptable now inv = true ↔ inv.status = .pending ∧ now ≤ inv.expiresAt := by
  simp [acceptable, isExpired]

/-- **What the two answers let through.** -/
theorem answerable_ok {id : UUID} {user : Option User} {inv : Invitation}
    (h : db.answerable lower id user now = .ok inv) :
    db.getInvitation id = some inv ∧ acceptable now inv = true := by
  unfold answerable at h
  split at h
  · cases h
  next inv' hok =>
    split at h
    · cases h
    next hexp =>
      cases h
      obtain ⟨hget, hpending⟩ := checkAnswer_ok hok
      refine ⟨hget, ?_⟩
      simpa [acceptable] using ⟨hpending, Bool.not_eq_true _ ▸ hexp⟩

/-- **Which invitations would be accepted**: `acceptable` is what `accept_invitation` asks, for
some user. -/
theorem accepted_iff (id : UUID) :
    (∃ userId user db', db.acceptInvitation lower userId id user now = .ok db') ↔
      ∃ inv, db.getInvitation id = some inv ∧ acceptable now inv = true := by
  constructor
  · rintro ⟨userId, user, db', h⟩
    unfold acceptInvitation at h
    split at h
    · cases h
    next inv hok => exact ⟨inv, answerable_ok hok⟩
  · rintro ⟨inv, hget, hok⟩
    -- someone with the invited address who is no member of anything
    have hinf : Infinite String := Infinite.of_injective String.ofList
      (fun a b h => by simpa using congrArg String.toList h)
    obtain ⟨userId, hfresh⟩ :=
      Infinite.exists_notMem_finset (db.memberships.map (·.userId)).toFinset
    have hnone : db.getMembership userId inv.orgId = none := by
      simp only [getMembership, Option.map_eq_none_iff, List.find?_eq_none, decide_eq_true_eq,
        not_and]
      intro m hm huser
      exact absurd (by simpa using ⟨m, hm, huser⟩) hfresh
    obtain ⟨hpending, hexp⟩ := acceptable_iff.mp hok
    have hanswer : db.answerable lower id (some ⟨userId, inv.email⟩) now = .ok inv := by
      simp [answerable, checkAnswer, hget, hpending, isExpired, hexp]
    refine ⟨userId, some ⟨userId, inv.email⟩, ?_⟩
    simp only [acceptInvitation, hanswer, hnone, checkNotMember]
    exact ⟨_, rfl⟩

/-! ## Runs -/

end MemberDb

/-- The database, and the time of the last look at the clock. -/
structure QuotaRun where
  db : MemberDb
  clock : DateTime

/-- The calls, with the times they see and the users they read. -/
inductive QuotaAct
  | createInvitation (actorId orgId : UUID) (email : String) (role : MembershipRole)
      (actorUser existingUser : Option User) (id : UUID) (now₁ now₂ now₃ : DateTime)
  | acceptInvitation (userId invitationId : UUID) (user : Option User) (now : DateTime)
  | declineInvitation (invitationId : UUID) (user : Option User) (now : DateTime)
  | revokeInvitation (actorId orgId invitationId : UUID)
  | expireStaleInvitations (now : DateTime)
  | removeMember (actorId orgId targetId : UUID)

namespace QuotaRun
open IdentityService MemberDb
variable (strip lower : String → String) (s : QuotaRun)

/-- A call that raises leaves the database as it is. -/
def after (now : DateTime) : Except IdentityError MemberDb → QuotaRun
  | .ok db => ⟨db, now⟩
  | .error _ => ⟨s.db, now⟩

/-- One call; time does not go back, and ids are new. -/
def step : QuotaAct → Option QuotaRun
  | .createInvitation actorId orgId email role actorUser existingUser id now₁ now₂ now₃ =>
    if s.clock ≤ now₁ ∧ now₁ ≤ now₂ ∧ now₂ ≤ now₃ ∧ s.db.getInvitation id = none then
      some (s.after now₃ (s.db.createInvitation strip lower actorId orgId email role actorUser
        existingUser id now₁ now₂ now₃))
    else none
  | .acceptInvitation userId invitationId user now =>
    if s.clock ≤ now then
      some (s.after now (s.db.acceptInvitation lower userId invitationId user now))
    else none
  | .declineInvitation invitationId user now =>
    if s.clock ≤ now then
      some (s.after now (s.db.declineInvitation lower invitationId user now))
    else none
  | .revokeInvitation actorId orgId invitationId =>
    some (s.after s.clock (s.db.revokeInvitation actorId orgId invitationId))
  | .expireStaleInvitations now =>
    if s.clock ≤ now then some ⟨s.db.expireStaleInvitations now, now⟩ else none
  | .removeMember actorId orgId targetId =>
    some (s.after s.clock (s.db.removeMember actorId orgId targetId))

/-- No invitation is counted and created for the organization at an instant at which one of
its PENDING invitations expires. -/
def InTurn (orgId : UUID) (s : QuotaRun) : QuotaAct → Prop
  | .createInvitation _ org _ _ _ _ _ _ now₂ now₃ => org = orgId → now₂ = now₃ →
      ∀ inv ∈ s.db.invitations, inv.orgId = orgId → inv.status = .pending → inv.expiresAt ≠ now₂
  | _ => True

end QuotaRun

/-! ## How the counts move -/

namespace MemberDb
open IdentityService
variable {strip lower : String → String} {db db' : MemberDb} {orgId : UUID} {now now' : DateTime}

/-- Members, and invitations that would be accepted. -/
def places (db : MemberDb) (orgId : UUID) (now : DateTime) : Nat :=
  db.countOrgMembers orgId + db.countAcceptable orgId now

theorem countAcceptable_anti (h : now ≤ now') :
    db.countAcceptable orgId now' ≤ db.countAcceptable orgId now := by
  refine List.countP_mono_left fun inv _ hinv => ?_
  simp only [Bool.and_eq_true, acceptable_iff] at hinv ⊢
  exact ⟨hinv.1, hinv.2.1, h.trans hinv.2.2⟩

theorem places_anti (h : now ≤ now') : db.places orgId now' ≤ db.places orgId now :=
  Nat.add_le_add_left (countAcceptable_anti h) _

/-- Rewriting rows so that none becomes acceptable. -/
theorem countAcceptable_map {f : Invitation → Invitation}
    (hf : ∀ inv, (f inv).orgId = inv.orgId)
    (hacc : ∀ inv, acceptable now (f inv) = true → acceptable now inv = true) :
    { db with invitations := db.invitations.map f }.countAcceptable orgId now ≤
      db.countAcceptable orgId now := by
  simp only [countAcceptable, List.countP_map]
  refine List.countP_mono_left fun inv _ hinv => ?_
  simp only [Function.comp, Bool.and_eq_true, hf] at hinv ⊢
  exact ⟨hinv.1, hacc inv hinv.2⟩

theorem countAcceptable_updateStatus {id : UUID} {status : InvitationStatus}
    (hstatus : status ≠ .pending) :
    (db.updateStatus id status).countAcceptable orgId now ≤ db.countAcceptable orgId now := by
  refine countAcceptable_map (fun inv => ?_) (fun inv hinv => ?_)
  · split <;> rfl
  · split at hinv
    · exact absurd (acceptable_iff.mp hinv).1 hstatus
    · exact hinv

/-- An acceptable invitation that gets another status leaves the count. -/
theorem countAcceptable_updateStatus_lt {id : UUID} {status : InvitationStatus} {inv : Invitation}
    (hstatus : status ≠ .pending) (hget : db.getInvitation id = some inv) (horg : inv.orgId = orgId)
    (hinv : acceptable now inv = true) :
    (db.updateStatus id status).countAcceptable orgId now < db.countAcceptable orgId now := by
  have hid : inv.id = id := by simpa using List.find?_some hget
  -- the row found stands between two parts of the table
  obtain ⟨before, after, hsplit⟩ := List.append_of_mem (List.mem_of_find?_eq_some hget)
  have hpart : ∀ rows : List Invitation,
      ({ db with invitations := rows }.updateStatus id status).countAcceptable orgId now ≤
        { db with invitations := rows }.countAcceptable orgId now :=
    fun rows => countAcceptable_updateStatus hstatus
  have hbefore := hpart before
  have hafter := hpart after
  have hold : (decide (inv.orgId = orgId) && acceptable now inv) = true := by simp [horg, hinv]
  have hnew : acceptable now { inv with status := status } = false := by
    simp [acceptable, hstatus]
  simp only [countAcceptable, updateStatus] at hbefore hafter ⊢
  rw [hsplit]
  simp only [List.map_append, List.map_cons, List.countP_append, List.countP_cons, if_pos hid,
    hold, hnew, Bool.and_false, Bool.false_eq_true, if_false, if_true]
  omega

theorem countAcceptable_expire {t : DateTime} :
    (db.expireStaleInvitations t).countAcceptable orgId now ≤ db.countAcceptable orgId now := by
  refine countAcceptable_map (fun inv => ?_) (fun inv hinv => ?_)
  · split <;> rfl
  · split at hinv
    · exact absurd (acceptable_iff.mp hinv).1 InvitationStatus.noConfusion
    · exact hinv

/-! ## One spec for each call -/

/-- **Creating** an invitation for the organization leaves one place more taken than were
counted. -/
theorem createInvitation_ok {actorId org : UUID} {email : String} {role : MembershipRole}
    {actorUser existingUser : Option User} {id : UUID} {now₁ now₂ now₃ : DateTime}
    (h : db.createInvitation strip lower actorId org email role actorUser existingUser id
      now₁ now₂ now₃ = .ok db') :
    db'.subscription = db.subscription ∧ db'.memberships = db.memberships ∧
    (∃ inv, inv.orgId = org ∧ db'.invitations = db.invitations ++ [inv]) ∧
    ∀ plan m, db.subscription org = some plan → maxMembers plan = some m →
      db.countOrgMembers org + db.countPendingForOrg org now₂ < m := by
  unfold createInvitation at h
  split at h
  · cases h
  · simp only at h
    split at h
    · cases h
    next address hok =>
      cases h
      refine ⟨rfl, rfl, ⟨_, rfl, rfl⟩, fun plan m hplan hm => ?_⟩
      by_contra hfull
      simp only [checkInvitee, checkMemberQuota, hplan, hm, if_pos (not_lt.mp hfull)] at hok
      repeat' split at hok
      all_goals cases hok

/-- **Accepting** turns an invitation of the organization into a member. -/
theorem acceptInvitation_ok {userId id : UUID} {user : Option User}
    (h : db.acceptInvitation lower userId id user now = .ok db') :
    db'.subscription = db.subscription ∧ db'.places orgId now ≤ db.places orgId now := by
  unfold acceptInvitation at h
  split at h
  · cases h
  next inv hanswer =>
    split at h
    · cases h
    · cases h
      refine ⟨rfl, ?_⟩
      obtain ⟨hget, hinv⟩ := answerable_ok hanswer
      by_cases horg : inv.orgId = orgId
      · have hlt : (db.updateStatus id .accepted).countAcceptable orgId now <
            db.countAcceptable orgId now :=
          countAcceptable_updateStatus_lt (by decide) hget horg hinv
        simp only [places, countOrgMembers, updateStatus, countAcceptable, List.countP_append,
          List.countP_singleton, horg, decide_true, if_true] at hlt ⊢
        omega
      · have hle : (db.updateStatus id .accepted).countAcceptable orgId now ≤
            db.countAcceptable orgId now := countAcceptable_updateStatus (by decide)
        simp only [places, countOrgMembers, updateStatus, countAcceptable, List.countP_append,
          List.countP_singleton, horg, decide_false, Bool.false_eq_true, if_false] at hle ⊢
        omega

/-- Giving an invitation another status takes no place. -/
theorem places_updateStatus {id : UUID} {status : InvitationStatus} (hstatus : status ≠ .pending) :
    (db.updateStatus id status).places orgId now ≤ db.places orgId now :=
  Nat.add_le_add_left (countAcceptable_updateStatus hstatus) _

theorem declineInvitation_ok {id : UUID} {user : Option User} {t : DateTime}
    (h : db.declineInvitation lower id user t = .ok db') :
    db'.subscription = db.subscription ∧ db'.places orgId now ≤ db.places orgId now := by
  unfold declineInvitation at h
  split at h
  · cases h
  · cases h
    exact ⟨rfl, places_updateStatus (by decide)⟩

theorem revokeInvitation_ok {actorId org id : UUID}
    (h : db.revokeInvitation actorId org id = .ok db') :
    db'.subscription = db.subscription ∧ db'.places orgId now ≤ db.places orgId now := by
  unfold revokeInvitation at h
  split at h
  · cases h
  · cases h
    exact ⟨rfl, places_updateStatus (by decide)⟩

theorem removeMember_ok {actorId org targetId : UUID}
    (h : db.removeMember actorId org targetId = .ok db') :
    db'.subscription = db.subscription ∧ db'.places orgId now ≤ db.places orgId now := by
  unfold removeMember at h
  split at h
  · cases h
  · split at h
    · cases h
    · cases h
      refine ⟨rfl, Nat.add_le_add_right ?_ _⟩
      exact List.Sublist.countP_le List.filter_sublist

end MemberDb

namespace QuotaRun
open IdentityService MemberDb
variable {strip lower : String → String} {s s' : QuotaRun} {orgId : UUID} {plan : SubscriptionPlan}
  {m : Nat} {a : QuotaAct}

/-- The plan is as it was, and there is a place for everyone who may come. -/
structure Sound (orgId : UUID) (plan : SubscriptionPlan) (m : Nat) (s : QuotaRun) : Prop where
  plan : s.db.subscription orgId = some plan
  room : s.db.places orgId s.clock ≤ m

/-- A call that takes no place. -/
theorem sound_after {r : Except IdentityError MemberDb} {now : DateTime}
    (h : Sound orgId plan m s) (hclock : s.clock ≤ now)
    (hr : ∀ db, r = .ok db →
      db.subscription = s.db.subscription ∧ db.places orgId now ≤ s.db.places orgId now) :
    Sound orgId plan m (s.after now r) := by
  have hroom : s.db.places orgId now ≤ m := (places_anti hclock).trans h.room
  cases r with
  | error e => exact ⟨h.plan, hroom⟩
  | ok db =>
    obtain ⟨hplan, hplaces⟩ := hr db rfl
    exact ⟨(congrFun hplan orgId).trans h.plan, hplaces.trans hroom⟩

/-- **Creating an invitation in turn**: what the count left out is gone by then. -/
theorem sound_create {actorId org : UUID} {email : String} {role : MembershipRole}
    {actorUser existingUser : Option User} {id : UUID} {now₁ now₂ now₃ : DateTime}
    (hm : maxMembers plan = some m) (h : Sound orgId plan m s)
    (ha : s.InTurn orgId (.createInvitation actorId org email role actorUser existingUser id
      now₁ now₂ now₃))
    (hclock : s.clock ≤ now₃) (hnow : now₂ ≤ now₃) :
    Sound orgId plan m (s.after now₃ (s.db.createInvitation strip lower actorId org email role
      actorUser existingUser id now₁ now₂ now₃)) := by
  have hroom : s.db.places orgId now₃ ≤ m := (places_anti hclock).trans h.room
  cases hr : s.db.createInvitation strip lower actorId org email role actorUser existingUser id
      now₁ now₂ now₃ with
  | error e => exact ⟨h.plan, hroom⟩
  | ok db =>
    obtain ⟨hsub, hmembers, ⟨inv, hinv, hrows⟩, hquota⟩ := createInvitation_ok hr
    refine ⟨(congrFun hsub orgId).trans h.plan, ?_⟩
    simp only [after, places, countOrgMembers, countAcceptable, hmembers, hrows,
      List.countP_append, List.countP_singleton]
    by_cases horg : org = orgId
    · subst horg
      have hcounted : s.db.countAcceptable org now₃ ≤ s.db.countPendingForOrg org now₂ := by
        refine List.countP_mono_left fun x hx hacc => ?_
        simp only [Bool.and_eq_true, decide_eq_true_eq, acceptable_iff] at hacc
        obtain ⟨hxorg, hpending, hexp⟩ := hacc
        -- one that expires right now is excluded by the condition
        have hne : now₂ = now₃ → x.expiresAt ≠ now₂ := fun heq => ha rfl heq x hx hxorg hpending
        have hlt : now₂ < x.expiresAt := by
          rcases lt_or_eq_of_le hnow with hlt | heq
          · exact lt_of_lt_of_le hlt hexp
          · exact lt_of_le_of_ne (heq ▸ hexp) (Ne.symm (hne heq))
        simp [isPending, hxorg, hpending, hlt]
      have hfree := hquota plan m h.plan hm
      simp only [countOrgMembers, countAcceptable] at hfree hcounted
      split <;> omega
    · simp only [hinv, horg, decide_false, Bool.false_and, Bool.false_eq_true, if_false]
      exact hroom

theorem sound_step (hm : maxMembers plan = some m) (h : Sound orgId plan m s)
    (ha : s.InTurn orgId a) (hs : s.step strip lower a = some s') : Sound orgId plan m s' := by
  cases a with
  | createInvitation actorId org email role actorUser existingUser id now₁ now₂ now₃ =>
    simp only [step] at hs
    split at hs
    next hnow =>
      cases hs
      exact sound_create hm h ha (hnow.1.trans (hnow.2.1.trans hnow.2.2.1)) hnow.2.2.1
    · cases hs
  | acceptInvitation userId invitationId user now =>
    simp only [step] at hs
    split at hs
    next hnow =>
      cases hs
      exact sound_after h hnow fun db hr => acceptInvitation_ok hr
    · cases hs
  | declineInvitation invitationId user now =>
    simp only [step] at hs
    split at hs
    next hnow =>
      cases hs
      exact sound_after h hnow fun db hr => declineInvitation_ok hr
    · cases hs
  | revokeInvitation actorId org invitationId =>
    cases hs
    exact sound_after h le_rfl fun db hr => revokeInvitation_ok hr
  | expireStaleInvitations now =>
    simp only [step] at hs
    split at hs
    next hnow =>
      cases hs
      refine ⟨h.plan, ?_⟩
      have hle : (s.db.expireStaleInvitations now).places orgId now ≤ s.db.places orgId now :=
        Nat.add_le_add_left countAcceptable_expire _
      exact hle.trans ((places_anti hnow).trans h.room)
    · cases hs
  | removeMember actorId org targetId =>
    cases hs
    exact sound_after h le_rfl fun db hr => removeMember_ok hr

/-- **The quota of an organization.**  In every run whose calls are in turn, from at most `m`
members and no invitation of the organization: members and invitations that would be accepted,
now or later, are at most `m`. -/
theorem members_within_quota {db₀ : MemberDb} {clock₀ : DateTime}
    (hplan : db₀.subscription orgId = some plan) (hm : maxMembers plan = some m)
    (hmembers : db₀.countOrgMembers orgId ≤ m)
    (hnone : ∀ inv ∈ db₀.invitations, inv.orgId ≠ orgId)
    (hreach : GuardedRun.Reach (step strip lower) (InTurn orgId) ⟨db₀, clock₀⟩ s)
    {now : DateTime} (hnow : s.clock ≤ now) :
    s.db.countOrgMembers orgId + s.db.countAcceptable orgId now ≤ m := by
  have hstart : Sound orgId plan m ⟨db₀, clock₀⟩ := by
    refine ⟨hplan, ?_⟩
    have hzero : db₀.countAcceptable orgId clock₀ = 0 := by
      refine List.countP_eq_zero.mpr fun inv hinv => ?_
      simp [hnone inv hinv]
    simpa [places, hzero] using hmembers
  have hsound : Sound orgId plan m s :=
    hreach.invariant hstart fun _ _ _ h ha hs => sound_step hm h ha hs
  exact (places_anti hnow).trans hsound.room

/-- An organization on the PRO plan with its owner. -/
def proDb : MemberDb := ⟨fun _ => some .pro, [⟨"org", "owner", .owner⟩], []⟩

/-- The owner invites someone. -/
def inviteAt (email id : String) (now : DateTime) : QuotaAct :=
  .createInvitation "owner" "org" email .member none none id now now now

/-- One invitation, which is accepted at the last instant. -/
def lastInstant : List QuotaAct :=
  [inviteAt "x@example.com" "x" 0,
    .acceptInvitation "ux" "x" (some ⟨"ux", "x@example.com"⟩) (DateTime.days 7)]

theorem members_within_quota_last : ∃ s,
    GuardedRun.run (step id id) ⟨proDb, 0⟩ lastInstant = some s ∧
    s.db.countOrgMembers "org" + s.db.countAcceptable "org" s.clock ≤ 2 := by
  obtain ⟨s, hs⟩ := Option.isSome_iff_exists.mp
    (show (GuardedRun.run (step id id) ⟨proDb, 0⟩ lastInstant).isSome from by decide +kernel)
  refine ⟨s, hs, ?_⟩
  obtain ⟨s₁, hinvite, hrest⟩ := Option.bind_eq_some_iff.mp hs
  have hfirst : GuardedRun.Reach (step id id) (InTurn "org") ⟨proDb, 0⟩ s₁ :=
    .step .initial (by simp [InTurn, inviteAt, proDb]) hinvite
  have hreach := hfirst.run_from (by simp [InTurn]) hrest
  have hplan : proDb.subscription "org" = some .pro := rfl
  exact members_within_quota hplan rfl (by decide) (by simp [proDb]) hreach le_rfl

/-- An invitation is created at the instant at which another one expires, and both are
accepted. -/
def fullHouse : List QuotaAct :=
  [inviteAt "x@example.com" "x" 0, inviteAt "y@example.com" "y" (DateTime.days 7),
    .acceptInvitation "ux" "x" (some ⟨"ux", "x@example.com"⟩) (DateTime.days 7),
    .acceptInvitation "uy" "y" (some ⟨"uy", "y@example.com"⟩) (DateTime.days 7)]

/-- There are three members then, on a plan for two. -/
theorem quota_exceeded : ¬ ∀ (strip lower : String → String) (db₀ : MemberDb) (clock₀ : DateTime)
    (orgId : UUID) (plan : SubscriptionPlan) (m : Nat) (s : QuotaRun),
    db₀.subscription orgId = some plan → maxMembers plan = some m →
    db₀.countOrgMembers orgId ≤ m → (∀ inv ∈ db₀.invitations, inv.orgId ≠ orgId) →
    GuardedRun.Reach (step strip lower) GuardedRun.Always ⟨db₀, clock₀⟩ s →
    s.db.countOrgMembers orgId + s.db.countAcceptable orgId s.clock ≤ m := by
  intro h
  obtain ⟨s, hs⟩ := Option.isSome_iff_exists.mp
    (show (GuardedRun.run (step id id) ⟨proDb, 0⟩ fullHouse).isSome from by decide +kernel)
  have hle := h id id proDb 0 "org" .pro 2 s rfl rfl (by decide) (by simp [proDb])
    (GuardedRun.reach_of_run hs)
  have hthree : (GuardedRun.run (step id id) ⟨proDb, 0⟩ fullHouse).map
      (fun s => s.db.countOrgMembers "org") = some 3 := by decide +kernel
  rw [hs] at hthree
  have hcount : s.db.countOrgMembers "org" = 3 := Option.some.inj hthree
  omega

end QuotaRun
end PandaProbe
