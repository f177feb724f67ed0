import PandaProbe.MemberQuota

/-! # The ownership cap

A user may own `MAX_OWNED_ORGS` organizations.  `create_organization` counts those the user owns
and refuses one too many; invitations never carry the OWNER role; but `update_member_role` makes
any member an OWNER without counting.  The calls do not overlap here, and a call that raises
leaves the tables as they are.

`owned_within_cap` is the main result: the cap holds in every run in which nobody is made an OWNER
who has reached it, and is broken by every such promotion that goes through.
-/
namespace PandaProbe
open IdentityService

/-- Ensure the user is OWNER. -/
def IdentityService.requireOwner (membership : Option MembershipRole) :
    Except IdentityError MembershipRole :=
  match requireMembership membership with
  | .error e => .error e
  | .ok role =>
    if role ≠ .owner then .error (.authorization "Owner role required.") else .ok role

namespace MemberDb

section Calls
variable (strip : String → String) (isalnum : String → Bool) (db : MemberDb)

/-- `count_user_owned_orgs`. -/
def countUserOwnedOrgs (userId : UUID) : Nat :=
  db.memberships.countP (fun m => m.userId = userId ∧ m.role = .owner)

/-- `create_organization`, as far as members go; `orgId` is the `uuid4()` of the new row. -/
def createOrganization (name : String) (ownerId orgId : UUID) (plan : Option SubscriptionPlan) :
    Except IdentityError MemberDb :=
  match checkCreateOrganization (db.countUserOwnedOrgs ownerId)
      (validateResourceName strip isalnum name "Organization name") with
  | .error e => .error e
  | .ok _ =>
    .ok { db with
      subscription := Function.update db.subscription orgId (some (plan.getD .hobby))
      memberships := db.memberships ++ [⟨orgId, ownerId, .owner⟩] }

/-- `update_membership_role`. -/
def updateMembershipRole (userId orgId : UUID) (role : MembershipRole) : MemberDb :=
  { db with memberships := db.memberships.map (fun m =>
      if m.userId = userId ∧ m.orgId = orgId then { m with role := role } else m) }

/-- `update_member_role`. -/
def updateMemberRole (actorId orgId targetId : UUID) (role : MembershipRole) :
    Except IdentityError MemberDb :=
  match checkRoleActor actorId targetId (db.getMembership actorId orgId) with
  | .error e => .error e
  | .ok () =>
    match checkRoleTarget (db.getMembership targetId orgId) with
    | .error e => .error e
    | .ok () => .ok (db.updateMembershipRole targetId orgId role)

/-- The `DELETE` route of an organization, with everything that goes with it. -/
def deleteOrganization (actorId orgId : UUID) : Except IdentityError MemberDb :=
  match requireOwner (db.getMembership actorId orgId) with
  | .error e => .error e
  | .ok _ =>
    .ok { subscription := Function.update db.subscription orgId none
          memberships := db.memberships.filter (fun m => m.orgId ≠ orgId)
          invitations := db.invitations.filter (fun inv => inv.orgId ≠ orgId) }

/-- Nobody has signed up. -/
def empty : MemberDb := ⟨fun _ => none, [], []⟩

end Calls

/-- The calls, with the users they read and the times they see. -/
inductive OwnerAct
  | createOrganization (name : String) (ownerId orgId : UUID) (plan : Option SubscriptionPlan)
  | createInvitation (actorId orgId : UUID) (email : String) (role : MembershipRole)
      (actorUser existingUser : Option User) (id : UUID) (now₁ now₂ now₃ : DateTime)
  | acceptInvitation (userId invitationId : UUID) (user : Option User) (now : DateTime)
  | declineInvitation (invitationId : UUID) (user : Option User) (now : DateTime)
  | revokeInvitation (actorId orgId invitationId : UUID)
  | expireStaleInvitations (now : DateTime)
  | updateMemberRole (actorId orgId targetId : UUID) (role : MembershipRole)
  | removeMember (actorId orgId targetId : UUID)
  | deleteOrganization (actorId orgId : UUID)

section Runs
variable (strip lower : String → String) (isalnum : String → Bool) (db : MemberDb)

/-- What a call returns or raises. -/
def call : OwnerAct → Except IdentityError MemberDb
  | .createOrganization name ownerId orgId plan =>
    db.createOrganization strip isalnum name ownerId orgId plan
  | .createInvitation actorId orgId email role actorUser existingUser id now₁ now₂ now₃ =>
    db.createInvitation strip lower actorId orgId email role actorUser existingUser id now₁ now₂ now₃
  | .acceptInvitation userId invitationId user now =>
    db.acceptInvitation lower userId invitationId user now
  | .declineInvitation invitationId user now => db.declineInvitation lower invitationId user now
  | .revokeInvitation actorId orgId invitationId => db.revokeInvitation actorId orgId invitationId
  | .expireStaleInvitations now => .ok (db.expireStaleInvitations now)
  | .updateMemberRole actorId orgId targetId role => db.updateMemberRole actorId orgId targetId role
  | .removeMember actorId orgId targetId => db.removeMember actorId orgId targetId
  | .deleteOrganization actorId orgId => db.deleteOrganization actorId orgId

/-- The id of a new organization is nobody's. -/
def fresh : OwnerAct → Bool
  | .createOrganization _ _ orgId _ => db.memberships.all (fun m => m.orgId ≠ orgId)
  | _ => true

/-- One call; a call that raises is rolled back. -/
def callStep (a : OwnerAct) : Option MemberDb :=
  if db.fresh a then
    match db.call strip lower isalnum a with
    | .ok db' => some db'
    | .error _ => some db
  else none

/-- Nobody who owns as many organizations as allowed is made an OWNER of another. -/
def PromotesInTurn : OwnerAct → Prop
  | .updateMemberRole _ _ targetId .owner => db.countUserOwnedOrgs targetId < maxOwnedOrgs
  | _ => True

end Runs

/-- The invariant: the unique key of the table, no invitation to own, and the cap. -/
structure Capped (db : MemberDb) : Prop where
  unique : db.memberships.Pairwise (fun m m' => ¬ (m.userId = m'.userId ∧ m.orgId = m'.orgId))
  invited : ∀ inv ∈ db.invitations, inv.role ≠ .owner
  owned : ∀ userId, db.countUserOwnedOrgs userId ≤ maxOwnedOrgs

variable {strip lower : String → String} {isalnum : String → Bool} {db db' : MemberDb}

theorem capped_empty : Capped empty where
  unique := List.Pairwise.nil
  invited _ h := by cases h
  owned _ := Nat.zero_le _

/-- The membership a user has is in the table. -/
theorem mem_of_getMembership {userId orgId : UUID} {role : MembershipRole}
    (h : db.getMembership userId orgId = some role) :
    (⟨orgId, userId, role⟩ : Membership) ∈ db.memberships := by
  obtain ⟨m, hm, rfl⟩ := Option.map_eq_some_iff.mp h
  have hkey := List.find?_some hm
  simp only [decide_eq_true_eq] at hkey
  obtain ⟨rfl, rfl⟩ := hkey
  exact List.mem_of_find?_eq_some hm

theorem not_mem_of_getMembership {userId orgId : UUID}
    (h : db.getMembership userId orgId = none) {m : Membership} (hm : m ∈ db.memberships) :
    ¬ (m.userId = userId ∧ m.orgId = orgId) := by
  have := List.find?_eq_none.mp (Option.map_eq_none_iff.mp h) m hm
  simpa using this

/-- A row that is new in the table keeps the key unique. -/
theorem Capped.unique_concat (h : Capped db) {m : Membership}
    (hm : ∀ x ∈ db.memberships, ¬ (x.userId = m.userId ∧ x.orgId = m.orgId)) :
    (db.memberships ++ [m]).Pairwise
      (fun m m' => ¬ (m.userId = m'.userId ∧ m.orgId = m'.orgId)) := by
  refine List.pairwise_append.mpr ⟨h.unique, List.pairwise_singleton .., ?_⟩
  intro x hx y hy
  rw [List.mem_singleton.mp hy]
  exact hm x hx

theorem Capped.createOrganization {name : String} {ownerId orgId : UUID}
    {plan : Option SubscriptionPlan} (h : Capped db)
    (hfresh : ∀ m ∈ db.memberships, m.orgId ≠ orgId)
    (hs : db.createOrganization strip isalnum name ownerId orgId plan = .ok db') : Capped db' := by
  unfold MemberDb.createOrganization at hs
  split at hs
  · cases hs
  next hcheck =>
    cases hs
    have hlt : db.countUserOwnedOrgs ownerId < maxOwnedOrgs := by
      by_contra hfull
      simp [checkCreateOrganization, not_lt.mp hfull] at hcheck
    refine ⟨h.unique_concat (fun x hx => fun hkey => hfresh x hx hkey.2), h.invited, fun u => ?_⟩
    have hu := h.owned u
    simp only [countUserOwnedOrgs, List.countP_append, List.countP_singleton] at hu hlt ⊢
    by_cases hown : ownerId = u
    · subst hown
      simp only [true_and, decide_true, if_true]
      omega
    · simpa [hown] using hu

theorem Capped.createInvitation {actorId orgId : UUID} {email : String} {role : MembershipRole}
    {actorUser existingUser : Option User} {id : UUID} {now₁ now₂ now₃ : DateTime}
    (h : Capped db)
    (hs : db.createInvitation strip lower actorId orgId email role actorUser existingUser id
      now₁ now₂ now₃ = .ok db') : Capped db' := by
  unfold MemberDb.createInvitation at hs
  split at hs
  · cases hs
  next hcheck =>
    simp only at hs
    split at hs
    · cases hs
    · cases hs
      refine ⟨h.unique, fun inv hinv => ?_, h.owned⟩
      rcases List.mem_append.mp hinv with hinv | hinv
      · exact h.invited inv hinv
      · rw [List.mem_singleton.mp hinv]
        exact (checkInviter_ok hcheck).1

/-- Another status leaves the roles of the invitations alone. -/
theorem Capped.updateStatus (h : Capped db) (id : UUID) (status : InvitationStatus) :
    Capped (db.updateStatus id status) where
  unique := h.unique
  invited inv hinv := by
    obtain ⟨old, hold, rfl⟩ := List.mem_map.mp hinv
    split
    · exact h.invited old hold
    · exact h.invited old hold
  owned := h.owned

theorem Capped.expireStaleInvitations (h : Capped db) (now : DateTime) :
    Capped (db.expireStaleInvitations now) where
  unique := h.unique
  invited inv hinv := by
    obtain ⟨old, hold, rfl⟩ := List.mem_map.mp hinv
    split
    · exact h.invited old hold
    · exact h.invited old hold
  owned := h.owned

/-- An acceptance adds a member who is no OWNER. -/
theorem Capped.acceptInvitation {userId id : UUID} {user : Option User} {now : DateTime}
    (h : Capped db) (hs : db.acceptInvitation lower userId id user now = .ok db') :
    Capped db' := by
  unfold MemberDb.acceptInvitation at hs
  split at hs
  · cases hs
  next inv hanswer =>
    split at hs
    · cases hs
    next hnew =>
      cases hs
      have hrole : inv.role ≠ .owner :=
        h.invited inv (List.mem_of_find?_eq_some (answerable_ok hanswer).1)
      have hnone : db.getMembership userId inv.orgId = none := by
        cases hm : db.getMembership userId inv.orgId with
        | none => rfl
        | some role =>
          rw [hm] at hnew
          cases hnew
      have hjoined : Capped { db with
          memberships := db.memberships ++ [⟨inv.orgId, userId, inv.role⟩] } := by
        refine ⟨?_, h.invited, fun u => ?_⟩
        · exact h.unique_concat (fun x hx => not_mem_of_getMembership hnone hx)
        · have hu := h.owned u
          simpa [countUserOwnedOrgs, List.countP_append, hrole] using hu
      exact hjoined.updateStatus id .accepted

/-- Fewer rows keep the invariant. -/
theorem Capped.sublist (h : Capped db) (hm : db'.memberships.Sublist db.memberships)
    (hi : db'.invitations.Sublist db.invitations) : Capped db' where
  unique := h.unique.sublist hm
  invited inv hinv := h.invited inv (hi.subset hinv)
  owned u := le_trans hm.countP_le (h.owned u)

/-- **A change of role** rewrites one row. -/
theorem Capped.rewrites (h : Capped db) {userId orgId : UUID} {old : MembershipRole}
    (hold : db.getMembership userId orgId = some old) (role : MembershipRole) :
    ∃ before after, db.memberships = before ++ ⟨orgId, userId, old⟩ :: after ∧
      (db.updateMembershipRole userId orgId role).memberships =
        before ++ ⟨orgId, userId, role⟩ :: after := by
  obtain ⟨before, after, hsplit⟩ := List.append_of_mem (mem_of_getMembership hold)
  refine ⟨before, after, hsplit, ?_⟩
  have hunique := h.unique
  rw [hsplit, List.pairwise_append, List.pairwise_cons] at hunique
  obtain ⟨-, ⟨hafter, -⟩, hbefore⟩ := hunique
  -- no other row has the key
  have hsame : ∀ l : List Membership, (∀ m ∈ l, ¬ (m.userId = userId ∧ m.orgId = orgId)) →
      l.map (fun m => if m.userId = userId ∧ m.orgId = orgId then { m with role := role } else m) =
        l := by
    intro l hl
    conv_rhs => rw [← List.map_id l]
    exact List.map_congr_left (fun m hm => if_neg (hl m hm))
  simp only [updateMembershipRole, hsplit, List.map_append, List.map_cons]
  rw [hsame before (fun m hm => hbefore m hm _ (List.mem_cons_self ..)),
    hsame after (fun m hm => fun hkey => hafter m hm ⟨hkey.1.symm, hkey.2.symm⟩)]
  simp

/-- What a change of role does to the counts: only making the target an OWNER adds one. -/
theorem Capped.countUserOwnedOrgs_update (h : Capped db) {userId orgId : UUID}
    {old role : MembershipRole} (hold : db.getMembership userId orgId = some old)
    (hne : old ≠ .owner) (u : UUID) :
    (db.updateMembershipRole userId orgId role).countUserOwnedOrgs u =
      db.countUserOwnedOrgs u + if userId = u ∧ role = .owner then 1 else 0 := by
  obtain ⟨before, after, hsplit, hnew⟩ := h.rewrites hold role
  simp only [countUserOwnedOrgs, hnew, hsplit, List.countP_append, List.countP_cons, hne, and_false,
    decide_false, Bool.false_eq_true, if_false, decide_eq_true_eq]
  omega

theorem updateMemberRole_ok {actorId orgId targetId : UUID} {role : MembershipRole}
    (hs : db.updateMemberRole actorId orgId targetId role = .ok db') :
    ∃ old, db.getMembership targetId orgId = some old ∧ old ≠ .owner ∧
      db' = db.updateMembershipRole targetId orgId role := by
  unfold updateMemberRole at hs
  split at hs
  · cases hs
  · split at hs
    · cases hs
    next htarget =>
      cases hs
      obtain ⟨old, hold, hne⟩ := checkRoleTarget_ok htarget
      exact ⟨old, hold, hne, rfl⟩

theorem Capped.updateMemberRole {actorId orgId targetId : UUID} {role : MembershipRole}
    (h : Capped db) (hturn : role = .owner → db.countUserOwnedOrgs targetId < maxOwnedOrgs)
    (hs : db.updateMemberRole actorId orgId targetId role = .ok db') : Capped db' := by
  obtain ⟨old, hold, hne, rfl⟩ := updateMemberRole_ok hs
  refine ⟨?_, h.invited, fun u => ?_⟩
  · -- the keys of the rows stay
    refine List.pairwise_map.mpr (h.unique.imp (fun {a b} hab => ?_))
    split <;> split <;> exact hab
  · rw [h.countUserOwnedOrgs_update hold hne]
    split
    next howner => exact howner.1 ▸ hturn howner.2
    · exact h.owned u

/-- **One call keeps the cap**, unless it makes an OWNER out of turn. -/
theorem Capped.callStep {a : OwnerAct} (h : Capped db) (ha : db.PromotesInTurn a)
    (hs : db.callStep strip lower isalnum a = some db') : Capped db' := by
  unfold MemberDb.callStep at hs
  split at hs
  next hfresh =>
    split at hs
    next db₁ hcall =>
      cases hs
      cases a with
      | createOrganization name ownerId orgId plan =>
        refine h.createOrganization (fun m hm => ?_) hcall
        simpa using List.all_eq_true.mp hfresh m hm
      | createInvitation => exact h.createInvitation hcall
      | acceptInvitation => exact h.acceptInvitation hcall
      | declineInvitation id user now =>
        simp only [call, declineInvitation] at hcall
        split at hcall
        · cases hcall
        · cases hcall
          exact h.updateStatus ..
      | revokeInvitation actorId orgId id =>
        simp only [call, revokeInvitation] at hcall
        split at hcall
        · cases hcall
        · cases hcall
          exact h.updateStatus ..
      | expireStaleInvitations now =>
        cases hcall
        exact h.expireStaleInvitations now
      | updateMemberRole actorId orgId targetId role =>
        refine h.updateMemberRole ?_ hcall
        rintro rfl
        exact ha
      | removeMember actorId orgId targetId =>
        simp only [call, removeMember] at hcall
        split at hcall
        · cases hcall
        · split at hcall
          · cases hcall
          · cases hcall
            exact h.sublist List.filter_sublist (List.Sublist.refl _)
      | deleteOrganization actorId orgId =>
        simp only [call, deleteOrganization] at hcall
        split at hcall
        · cases hcall
        · cases hcall
          exact h.sublist List.filter_sublist List.filter_sublist
    · cases hs
      exact h
  · cases hs

/-- **The ownership cap.**  In every run from the empty tables in which nobody is made an OWNER who
owns as many organizations as allowed, nobody owns more.  And from there a promotion out of turn
that is not refused breaks the cap. -/
theorem owned_within_cap
    (h : GuardedRun.Reach (callStep strip lower isalnum) PromotesInTurn empty db) :
    (∀ userId, db.countUserOwnedOrgs userId ≤ maxOwnedOrgs) ∧
      ∀ actorId orgId targetId role db',
        ¬ db.PromotesInTurn (.updateMemberRole actorId orgId targetId role) →
        db.updateMemberRole actorId orgId targetId role = .ok db' →
        maxOwnedOrgs < db'.countUserOwnedOrgs targetId := by
  have hcapped : Capped db := h.invariant capped_empty (fun _ _ _ hi ha hs => hi.callStep ha hs)
  refine ⟨hcapped.owned, fun actorId orgId targetId role db' hout hs => ?_⟩
  obtain ⟨old, hold, hne, rfl⟩ := updateMemberRole_ok hs
  cases role with
  | owner =>
    rw [hcapped.countUserOwnedOrgs_update hold hne, if_pos ⟨rfl, rfl⟩]
    exact Nat.lt_succ_of_le (not_lt.mp hout)
  | _ => exact absurd trivial hout

/-- Ada owns two organizations, and Bob has her join a third one as a member. -/
def adaJoins : List OwnerAct :=
  [.createOrganization "Acme" "ada" "o1" none, .createOrganization "Beta" "ada" "o2" none,
    .createOrganization "Core" "bob" "o3" (some .pro),
    .createInvitation "bob" "o3" "ada@x" .member (some ⟨"bob", "bob@x"⟩) (some ⟨"ada", "ada@x"⟩) "i" 0 0 0,
    .acceptInvitation "ada" "i" (some ⟨"ada", "ada@x"⟩) 1]

theorem promotesInTurn_adaJoins : ∀ a ∈ adaJoins, ∀ db : MemberDb, db.PromotesInTurn a := by
  simp [adaJoins, PromotesInTurn]

/-- A user at the cap who is a member elsewhere. -/
theorem owned_within_cap_joined : ∃ db,
    GuardedRun.run (callStep id id (fun _ => true)) empty adaJoins = some db ∧
      db.getMembership "ada" "o3" = some .member ∧
      ∀ userId, db.countUserOwnedOrgs userId ≤ maxOwnedOrgs := by
  obtain ⟨db, hdb⟩ := Option.isSome_iff_exists.mp
    (show (GuardedRun.run (callStep id id (fun _ => true)) empty adaJoins).isSome from by
      decide +kernel)
  have hmember : (GuardedRun.run (callStep id id (fun _ => true)) empty adaJoins).bind
      (fun db => db.getMembership "ada" "o3") = some .member := by decide +kernel
  rw [hdb] at hmember
  exact ⟨db, hdb, hmember,
    (owned_within_cap (.run_from .initial promotesInTurn_adaJoins hdb)).1⟩

/-- Bob makes her an OWNER, and she owns three. -/
theorem promoted_above_cap : ¬ ∀ (strip lower : String → String) (isalnum : String → Bool) db,
    GuardedRun.Reach (callStep strip lower isalnum) GuardedRun.Always empty db →
      ∀ userId, db.countUserOwnedOrgs userId ≤ maxOwnedOrgs := by
  intro h
  obtain ⟨db, hdb⟩ := Option.isSome_iff_exists.mp
    (show (GuardedRun.run (callStep id id (fun _ => true)) empty
      (adaJoins ++ [.updateMemberRole "bob" "o3" "ada" .owner])).isSome from by decide +kernel)
  have hcount : (GuardedRun.run (callStep id id (fun _ => true)) empty
      (adaJoins ++ [.updateMemberRole "bob" "o3" "ada" .owner])).map
        (fun db => db.countUserOwnedOrgs "ada") = some 3 := by decide +kernel
  rw [hdb] at hcount
  have hthree : db.countUserOwnedOrgs "ada" = 3 := Option.some.inj hcount
  have hle := h id id (fun _ => true) db (GuardedRun.reach_of_run hdb) "ada"
  rw [hthree] at hle
  exact absurd hle (by decide)

end MemberDb
end PandaProbe
