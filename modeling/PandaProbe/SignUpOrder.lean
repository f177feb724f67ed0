import PandaProbe.SignUp

/-! # One organization for each user

The write of the user's row puts the requests of one user in order: before the first commit only
one request is past it (`Fresh`), and after it every request finds the membership of the first
(`Done`).  `one_organization` is the main result.
-/
namespace PandaProbe
open IdentityService Fallible

namespace SignUp
variable (sub : String)

/-! ## Before the first commit -/

/-- The users of the external id. -/
def users (db : IdentityDb) : List UserRow := db.users.filter (fun u => u.externalId = sub)

/-- **The user's row is written**: it is new, or the only one there is, and the user has no
membership. -/
structure Claimed (db : IdentityDb) (user : UserRow) (w : SignUpWrites) : Prop where
  write : ∃ write, w.user = some write ∧
    ∃ row, users sub { db with users := write.apply db.users } = [row] ∧ row.id = user.id
  known : ∀ row ∈ users sub db, row.id = user.id
  alone : ∀ m ∈ db.memberships, m.userId ≠ user.id

/-- The organization and its owner are written. -/
structure Provisioned (db : IdentityDb) (user : UserRow) (w : SignUpWrites) (org : Organization)
    (m : MembershipRow) : Prop where
  organization : w.organization = some org
  membership : w.membership = some m
  ofUser : m.userId = user.id
  ofOrg : m.orgId = org.id
  owner : m.role = .owner
  fresh : ∀ o ∈ db.organizations, o.id ≠ org.id

/-- What a request that has written the user's row has done before the first commit. -/
def Working (db : IdentityDb) (user : UserRow) (w : SignUpWrites) : SignUpPhase → Prop
  | .upserted => w.membership = none
  | .unprovisioned => True
  | .checked _ => True
  | .organized org => w.organization = some org ∧ ∀ o ∈ db.organizations, o.id ≠ org.id
  | .owned org => ∃ m, Provisioned db user w org m
  | .provisioned => ∃ org m, Provisioned db user w org m
  | .listed memberships => ∃ org m, Provisioned db user w org m ∧ memberships = [m]
  | .located organization => ∃ m, Provisioned db user w organization m
  | .resolved ctx => ∃ m, Provisioned db user w ctx.organization m ∧ ctx.user = some user

/-- A request before the first commit. -/
def Early (db : IdentityDb) (t : SignUpTask) : Prop :=
  match t.stage with
  | .selected claims row => claims.sub = sub ∧ t.writes.user = none ∧
      (∀ r, row = some r → users sub db = [r] ∧ r.lastSignInAt ≠ some t.req.env.now) ∧
      (row = none → users sub db = [])
  | .working user phase => Claimed sub db user t.writes ∧ Working db user t.writes phase

variable {sub} {s s' : SignUp} {db : IdentityDb} {user : UserRow} {org : Organization}
  {m : MembershipRow} {w : SignUpWrites} {t t' : SignUpTask} {stmt : SignUpStatement}

/-! ### What a statement sees -/

theorem listUserOrgs_applied_nil (halone : ∀ m ∈ db.memberships, m.userId ≠ user.id)
    (hnone : w.membership = none) : (db.applied w).listUserOrgs user.id = [] := by
  have hfilter : db.memberships.filter (fun m => m.userId = user.id) = [] := by
    simpa [List.filter_eq_nil_iff] using halone
  simp [IdentityDb.listUserOrgs, IdentityDb.applied, hnone, hfilter]

theorem listUserOrgs_applied (halone : ∀ m ∈ db.memberships, m.userId ≠ user.id)
    (hm : w.membership = some m) (hofUser : m.userId = user.id) :
    (db.applied w).listUserOrgs user.id = [m] := by
  have hfilter : db.memberships.filter (fun m => m.userId = user.id) = [] := by
    simpa [List.filter_eq_nil_iff] using halone
  simp [IdentityDb.listUserOrgs, IdentityDb.applied, hm, List.filter_append, hfilter, hofUser]

/-- The one membership decides the organization, whatever the header says. -/
theorem chooseOrganization_single {env : AuthEnv} {header : Option String}
    {organization : Organization} {others : List Organization}
    (horgs : db.organizations = others ++ [org]) (hfresh : ∀ o ∈ others, o.id ≠ org.id)
    (hofOrg : m.orgId = org.id) (h : db.chooseOrganization env header [m] = .ok organization) :
    organization = org := by
  obtain ⟨orgId, htarget, h⟩ := bind_ok h
  obtain ⟨m', hm', horgId⟩ := IdentityDb.targetOrgId_ok htarget
  rw [List.mem_singleton.mp hm', hofOrg] at horgId
  have hfind := IdentityDb.orRaise_ok h
  have hnone : others.find? (fun o => o.id = org.id) = none := by
    simpa using hfresh
  rw [IdentityDb.getOrganization, horgs, ← horgId, List.find?_append, hnone] at hfind
  simpa using hfind.symm

/-- **A statement keeps a request before the first commit in order.** -/
theorem Early.ran (h : Early sub db t) (hrun : Ran db t t') : Early sub db t' := by
  unfold Early at h
  cases hrun with
  | unlisted hstage _ =>
    rw [hstage] at h
    exact ⟨h.1, trivial⟩
  | listed hstage hlist =>
    -- there is no membership yet
    rw [hstage] at h
    rw [listUserOrgs_applied_nil h.1.alone h.2] at hlist
    cases hlist
  | listedAgain hstage =>
    rw [hstage] at h
    obtain ⟨hclaimed, org, m, hprov⟩ := h
    exact ⟨hclaimed, org, m, hprov,
      listUserOrgs_applied hclaimed.alone hprov.membership hprov.ofUser⟩
  | checked hstage =>
    rw [hstage] at h
    exact ⟨h.1, trivial⟩
  | organized hstage hfresh =>
    rw [hstage] at h
    exact ⟨⟨h.1.write, h.1.known, h.1.alone⟩, rfl, hfresh⟩
  | owned hstage =>
    rw [hstage] at h
    exact ⟨⟨h.1.write, h.1.known, h.1.alone⟩, _, h.2.1, rfl, rfl, rfl, rfl, h.2.2⟩
  | provisioned hstage =>
    rw [hstage] at h
    obtain ⟨hclaimed, m, hprov⟩ := h
    exact ⟨⟨hclaimed.write, hclaimed.known, hclaimed.alone⟩, _, m, hprov.organization,
      hprov.membership, hprov.ofUser, hprov.ofOrg, hprov.owner, hprov.fresh⟩
  | located hstage hok =>
    rw [hstage] at h
    obtain ⟨hclaimed, org, m, hprov, rfl⟩ := h
    obtain rfl := chooseOrganization_single
      (by simp [IdentityDb.applied, hprov.organization]) hprov.fresh hprov.ofOrg hok
    exact ⟨hclaimed, m, hprov⟩
  | resolved hstage =>
    rw [hstage] at h
    obtain ⟨hclaimed, m, hprov⟩ := h
    exact ⟨hclaimed, m, hprov, rfl⟩

/-! ## After the first commit -/

/-- **One user, one organization, one owner.** -/
structure Settled (sub : String) (before db : IdentityDb) (uid : UUID) (org : Organization)
    (m : MembershipRow) : Prop where
  user : ∃ row, users sub db = [row] ∧ row.id = uid
  organizations : db.organizations = before.organizations ++ [org]
  memberships : db.memberships = before.memberships ++ [m]
  ofUser : m.userId = uid
  ofOrg : m.orgId = org.id
  owner : m.role = .owner
  alone : ∀ m' ∈ before.memberships, m'.userId ≠ uid
  fresh : ∀ o ∈ before.organizations, o.id ≠ org.id

/-- What a request does that finds the membership. -/
def Finding (org : Organization) (m : MembershipRow) (user : UserRow) : SignUpPhase → Prop
  | .upserted => True
  | .listed memberships => memberships = [m]
  | .located organization => organization = org
  | .resolved ctx => ctx.organization = org ∧ ctx.user = some user
  | _ => False

/-- A request after the first commit. -/
def Late (sub : String) (uid : UUID) (org : Organization) (m : MembershipRow) (t : SignUpTask) :
    Prop :=
  match t.stage with
  | .selected claims row => claims.sub = sub ∧ ∀ r, row = some r → r.id = uid
  | .working user phase => user.id = uid ∧ t.writes.organization = none ∧
      t.writes.membership = none ∧
      (∀ write, t.writes.user = some write → ∃ a b, write = .update uid a b) ∧
      Finding org m user phase

/-- **A statement keeps a request after the first commit in order.** -/
theorem Late.ran {before : IdentityDb} {uid : UUID} (hdb : Settled sub before db uid org m)
    (h : Late sub uid org m t) (hrun : Ran db t t') : Late sub uid org m t' := by
  have hlist : ∀ user : UserRow, user.id = uid → t.writes.membership = none →
      (db.applied t.writes).listUserOrgs user.id = [m] := by
    intro user huser hnone
    have hfilter : before.memberships.filter (fun m => m.userId = uid) = [] := by
      simpa [List.filter_eq_nil_iff] using hdb.alone
    simp [IdentityDb.listUserOrgs, IdentityDb.applied, hnone, hdb.memberships, List.filter_append,
      huser, hfilter, hdb.ofUser]
  unfold Late at h
  cases hrun with
  | unlisted hstage hnil =>
    rw [hstage] at h
    rw [hlist _ h.1 h.2.2.1] at hnil
    cases hnil
  | listed hstage hcons =>
    rw [hstage] at h
    obtain ⟨huser, horg, hm, hwrite, -⟩ := h
    rw [hlist _ huser hm] at hcons
    exact ⟨huser, horg, hm, hwrite, hcons.symm⟩
  | located hstage hok =>
    rw [hstage] at h
    obtain ⟨huser, horg, hm, hwrite, rfl⟩ := h
    have horgs : (db.applied t.writes).organizations = before.organizations ++ [org] := by
      simp [IdentityDb.applied, horg, hdb.organizations]
    exact ⟨huser, horg, hm, hwrite,
      chooseOrganization_single horgs hdb.fresh hdb.ofOrg hok⟩
  | resolved hstage =>
    rw [hstage] at h
    obtain ⟨huser, horg, hm, hwrite, rfl⟩ := h
    exact ⟨huser, horg, hm, hwrite, rfl, rfl⟩
  -- a request that creates an organization has found no membership
  | _ hstage => rw [hstage] at h; exact h.2.2.2.2.elim

/-! ## Steps -/

/-- Nothing is committed yet, and whoever has written the user's row holds it. -/
structure Fresh (sub : String) (before : IdentityDb) (s : SignUp) : Prop where
  db : s.db = before
  contexts : s.contexts = []
  tasks : ∀ w t, s.task w = some t → Early sub before t
  lock : ∀ w t, s.task w = some t → t.writes.user.isSome → s.lock = some w

/-- The first commit is made, and all contexts name its organization. -/
structure Done (sub : String) (before : IdentityDb) (uid : UUID) (org : Organization)
    (m : MembershipRow) (s : SignUp) : Prop where
  settled : Settled sub before s.db uid org m
  contexts : ∀ ctx ∈ s.contexts, ctx.organization = org ∧ ∃ u, ctx.user = some u ∧ u.id = uid
  tasks : ∀ w t, s.task w = some t → Late sub uid org m t

/-- A request is as it was, or has just moved. -/
theorem goto_task_cases {v w : Nat} (h : (s.goto w t).task v = some t') :
    s.task v = some t' ∧ v ≠ w ∨ v = w ∧ t = t' := by
  by_cases hv : v = w
  · subst hv
    simp only [goto, Function.update_self, Option.some.injEq] at h
    exact .inr ⟨rfl, h⟩
  · simp only [goto, Function.update_of_ne hv] at h
    exact .inl ⟨h, hv⟩

theorem leave_task {v w : Nat} (h : (s.leave w).task v = some t') : s.task v = some t' ∧ v ≠ w := by
  by_cases hv : v = w
  · subst hv
    simp [leave] at h
  · simp only [leave, Function.update_of_ne hv] at h
    exact ⟨h, hv⟩

variable {before : IdentityDb} {uid : UUID} {v : Nat}

theorem Fresh.leave (h : Fresh sub before s) : Fresh sub before (s.leave v) where
  db := h.db
  contexts := h.contexts
  tasks w t hw := h.tasks w t (leave_task hw).1
  lock w t hw hwrites := by
    obtain ⟨hw, hne⟩ := leave_task hw
    simp [SignUp.leave, h.lock w t hw hwrites, hne]

theorem Done.leave (h : Done sub before uid org m s) : Done sub before uid org m (s.leave v) where
  settled := h.settled
  contexts := h.contexts
  tasks w t hw := h.tasks w t (leave_task hw).1

theorem Done.goto (h : Done sub before uid org m s) (ht : Late sub uid org m t) :
    Done sub before uid org m (s.goto v t) where
  settled := h.settled
  contexts := h.contexts
  tasks w t' hw := by
    rcases goto_task_cases hw with ⟨hw, -⟩ | ⟨-, rfl⟩
    · exact h.tasks w t' hw
    · exact ht

/-- A request goes on that has or has not written the user's row, as before. -/
theorem Fresh.goto (h : Fresh sub before s) (ht : Early sub before t)
    (hlock : t.writes.user.isSome → s.lock = some v) : Fresh sub before (s.goto v t) where
  db := h.db
  contexts := h.contexts
  tasks w t' hw := by
    rcases goto_task_cases hw with ⟨hw, -⟩ | ⟨-, rfl⟩
    · exact h.tasks w t' hw
    · exact ht
  lock w t' hw hwrites := by
    rcases goto_task_cases hw with ⟨hw, -⟩ | ⟨rfl, rfl⟩
    · exact h.lock w t' hw hwrites
    · exact hlock hwrites

/-- The user's row is written while nobody else has written it. -/
theorem Fresh.acquire (h : Fresh sub before s) (hfree : s.lock.isSome ≠ true)
    (ht : Early sub before t) : Fresh sub before { s.goto v t with lock := some v } where
  db := h.db
  contexts := h.contexts
  tasks := by
    intro w t' hw
    rcases goto_task_cases hw with ⟨hw, -⟩ | ⟨-, rfl⟩
    · exact h.tasks w t' hw
    · exact ht
  lock := by
    intro w t' hw hwrites
    rcases goto_task_cases hw with ⟨hw, -⟩ | ⟨rfl, -⟩
    · exact absurd (by simp [h.lock w t' hw hwrites]) hfree
    · rfl

/-! ### The user's row -/

theorem scalarOneOrNone_ok {α : Type} {l : List α} {o : Option α}
    (h : scalarOneOrNone l = .ok o) : l = o.toList := by
  match l, h with
  | [], rfl => rfl
  | [_], rfl => rfl

/-- An UPDATE leaves the user the only one of the external id. -/
theorem users_update {row : UserRow} (h : users sub db = [row]) (id : UUID)
    (signInAt : Option DateTime) (displayName : Option String) :
    ∃ row', users sub { db with users := (UserWrite.update id signInAt displayName).apply db.users } =
      [row'] ∧ row'.id = row.id := by
  have hmap : users sub
      { db with users := (UserWrite.update id signInAt displayName).apply db.users } =
      (users sub db).map fun u => if u.id = id then
        { u with
          lastSignInAt := signInAt.or u.lastSignInAt
          displayName := displayName.getD u.displayName } else u := by
    simp only [users, UserWrite.apply, List.filter_map]
    congr 2
    funext u
    rw [Function.comp_apply]
    split
    · rfl
    · rfl
  rw [hmap, h]
  refine ⟨_, rfl, ?_⟩
  dsimp only
  split
  · rfl
  · rfl

/-- The user that is found is the row's. -/
theorem found_id {env : AuthEnv} {claims : AuthClaims} {row : UserRow} {write : Option UserWrite}
    (h : SignUpTask.found env claims row = (user, write)) :
    user.id = row.id ∧ ∀ x, write = some x → ∃ a b, x = .update row.id a b := by
  simp only [SignUpTask.found, Prod.mk.injEq] at h
  obtain ⟨rfl, rfl⟩ := h
  refine ⟨rfl, fun x hx => ?_⟩
  obtain ⟨-, hx⟩ := Option.ite_none_left_eq_some.mp hx
  cases hx
  exact ⟨_, _, rfl⟩

/-- A new sign-in time is sent. -/
theorem found_writes {env : AuthEnv} {claims : AuthClaims} {row : UserRow}
    (h : row.lastSignInAt ≠ some env.now) : SignUpTask.found env claims row ≠ (user, none) := by
  simp [SignUpTask.found, h]

/-! ### Before the first commit -/

theorem Fresh.select (h : Fresh sub before s) {req : SignInRequest}
    (hlater : ∀ u ∈ before.users, u.externalId = sub → u.lastSignInAt ≠ some req.env.now)
    (hs : s.step sub (.select v req) = some s') : Fresh sub before s' := by
  simp only [step] at hs
  split at hs
  · cases hs
  · cases hs
    exact h
  next claims _ _ =>
    split at hs
    · cases hs
    next hsub =>
      split at hs
      · cases hs
        exact h
      next row hrow =>
        cases hs
        have hsub : claims.sub = sub := not_not.mp hsub
        have husers : users sub before = row.toList := by
          rw [← h.db, users, ← hsub]
          exact scalarOneOrNone_ok hrow
        refine h.goto ⟨hsub, rfl, fun r hr => ?_, fun hnone => ?_⟩ (fun hw => by cases hw)
        · subst hr
          have hmem : r ∈ users sub before := by simp [husers]
          obtain ⟨hr, hof⟩ := List.mem_filter.mp hmem
          exact ⟨husers, hlater r hr (by simpa using hof)⟩
        · subst hnone
          exact husers

theorem Fresh.flush (hstart : Unattached sub before) (h : Fresh sub before s)
    (hs : s.step sub (.flush v) = some s') : Fresh sub before s' := by
  obtain ⟨t, ht, hs⟩ := Option.bind_eq_some_iff.mp hs
  have hearly := h.tasks v t ht
  unfold Early at hearly
  cases hstage : t.stage with
  | working user phase =>
    rw [hstage] at hs
    cases hs
  | selected claims row =>
    rw [hstage] at hs hearly
    obtain ⟨hsub, -, hsome, hnone⟩ := hearly
    cases row with
    | none =>
      simp only [SignUp.flush] at hs
      split at hs
      · cases hs
      next hfree =>
        split at hs
        · cases hs
          exact h.leave
        next hnew =>
          cases hs
          have hnil : users sub before = [] := hnone rfl
          refine h.acquire hfree ⟨⟨⟨_, rfl, SignUpTask.newUser t.req.env claims, ?_, rfl⟩, ?_, ?_⟩, rfl⟩
          · have happend : users sub { before with users :=
                (UserWrite.insert (SignUpTask.newUser t.req.env claims)).apply before.users } =
                users sub before ++ [SignUpTask.newUser t.req.env claims] := by
              simp [users, UserWrite.apply, List.filter_append, SignUpTask.newUser, hsub]
            rw [happend, hnil, List.nil_append]
          · simp [hnil]
          · -- a membership is of a user, and the new user is none of these
            intro m hm heq
            obtain ⟨u, hu, hid⟩ := hstart.foreignKey m hm
            refine hnew ?_
            rw [h.db, List.any_eq_true]
            exact ⟨u, hu, by simp [hid, heq]⟩
    | some row =>
      obtain ⟨husers, hclock⟩ := hsome row rfl
      simp only [SignUp.flush] at hs
      split at hs
      next hfound => exact absurd hfound (found_writes hclock)
      next user write hfound =>
        split at hs
        · cases hs
        next hfree =>
          cases hs
          obtain ⟨hid, hwrite⟩ := found_id hfound
          obtain ⟨a, b, rfl⟩ := hwrite write rfl
          obtain ⟨row', hrow', hid'⟩ := users_update husers row.id a b
          have hmem : row ∈ users sub before := by simp [husers]
          obtain ⟨hrow, hof⟩ := List.mem_filter.mp hmem
          refine h.acquire hfree ⟨⟨⟨_, rfl, row', hrow', hid'.trans hid.symm⟩, ?_, ?_⟩, rfl⟩
          · simp [husers, hid]
          · rw [hid]
            exact hstart.alone row hrow (by simpa using hof)

theorem Fresh.run (h : Fresh sub before s) (hs : s.step sub (.run v stmt) = some s') :
    Fresh sub before s' := by
  obtain ⟨t, ht, hs⟩ := Option.bind_eq_some_iff.mp hs
  obtain ⟨r, hr, rfl⟩ := Option.map_eq_some_iff.mp hs
  cases r with
  | none => exact h.leave
  | some t' =>
    have hran := ran_of_run hr
    rw [h.db] at hran
    refine h.goto ((h.tasks v t ht).ran hran) fun hwrites => ?_
    rw [hran.writes_user] at hwrites
    exact h.lock v t ht hwrites

/-- **The first commit** leaves one user, one organization and one owner, and finds every other
request before its write. -/
theorem Fresh.commit (h : Fresh sub before s) (hs : s.step sub (.commit v) = some s') :
    ∃ uid org m, Done sub before uid org m s' := by
  obtain ⟨t, ht, hs⟩ := Option.bind_eq_some_iff.mp hs
  have hearly := h.tasks v t ht
  unfold Early at hearly
  split at hs
  next user ctx hstage =>
    cases hs
    rw [hstage] at hearly
    obtain ⟨hclaimed, m, hprov, hctx⟩ := hearly
    obtain ⟨write, hwrite, row, hrow, hid⟩ := hclaimed.write
    have hlock : s.lock = some v := h.lock v t ht (by simp [hwrite])
    refine ⟨user.id, ctx.organization, m, ?_, ?_, fun w t' hw => ?_⟩
    · rw [h.db]
      exact
        { user := ⟨row, by simpa [IdentityDb.applied, hwrite, users] using hrow, hid⟩
          organizations := by simp [IdentityDb.applied, hprov.organization]
          memberships := by simp [IdentityDb.applied, hprov.membership]
          ofUser := hprov.ofUser
          ofOrg := hprov.ofOrg
          owner := hprov.owner
          alone := hclaimed.alone
          fresh := hprov.fresh }
    · intro ctx' hctx'
      simp only [h.contexts, List.nil_append, List.mem_singleton] at hctx'
      subst hctx'
      exact ⟨rfl, user, hctx, rfl⟩
    · obtain ⟨hw, hne⟩ := leave_task (s := s) hw
      have hother := h.tasks w t' hw
      unfold Early at hother
      unfold Late
      split at hother
      next claims row' _ =>
        refine ⟨hother.1, fun r hr => ?_⟩
        exact hclaimed.known r (by simp [(hother.2.2.1 r hr).1])
      next _ _ _ =>
        -- it would hold the row too
        obtain ⟨write', hwrite', -⟩ := hother.1.write
        have hlock' := h.lock w t' hw (by simp [hwrite'])
        rw [hlock] at hlock'
        exact absurd (Option.some.inj hlock').symm hne
  · cases hs

theorem Fresh.step {a : SignUpAct} (hstart : Unattached sub before) (h : Fresh sub before s)
    (ha : Later sub before s a) (hs : s.step sub a = some s') :
    Fresh sub before s' ∨ ∃ uid org m, Done sub before uid org m s' := by
  cases a with
  | select w req => exact .inl (h.select ha hs)
  | flush w => exact .inl (h.flush hstart hs)
  | run w stmt => exact .inl (h.run hs)
  | commit w => exact .inr (h.commit hs)
  | fail w =>
    obtain ⟨t, -, rfl⟩ := Option.map_eq_some_iff.mp hs
    exact .inl h.leave

/-! ### After the first commit -/

theorem Done.select (h : Done sub before uid org m s) {req : SignInRequest}
    (hs : s.step sub (.select v req) = some s') : Done sub before uid org m s' := by
  simp only [SignUp.step] at hs
  split at hs
  · cases hs
  · cases hs
    exact h
  next claims _ _ =>
    split at hs
    · cases hs
    next hsub =>
      split at hs
      · cases hs
        exact h
      next row hrow =>
        cases hs
        have hsub : claims.sub = sub := not_not.mp hsub
        obtain ⟨row', hrow', hid⟩ := h.settled.user
        refine h.goto ⟨hsub, fun r hr => ?_⟩
        have husers : users sub s.db = row.toList := by
          rw [users, ← hsub]
          exact scalarOneOrNone_ok hrow
        subst hr
        rw [hrow', Option.toList_some, List.singleton_inj] at husers
        exact husers ▸ hid

theorem Done.flush (h : Done sub before uid org m s) (hs : s.step sub (.flush v) = some s') :
    Done sub before uid org m s' := by
  obtain ⟨t, ht, hs⟩ := Option.bind_eq_some_iff.mp hs
  have hlate := h.tasks v t ht
  unfold Late at hlate
  cases hstage : t.stage with
  | working user phase =>
    rw [hstage] at hs
    cases hs
  | selected claims row =>
    rw [hstage] at hs hlate
    obtain ⟨hsub, hrow⟩ := hlate
    cases row with
    | none =>
      simp only [SignUp.flush] at hs
      split at hs
      · cases hs
      · split at hs
        · cases hs
          exact h.leave
        next hnew =>
          -- the row of the first commit is in the way
          obtain ⟨row, husers, -⟩ := h.settled.user
          have hmem : row ∈ users sub s.db := by simp [husers]
          obtain ⟨hmem, hof⟩ := List.mem_filter.mp hmem
          refine absurd (List.any_eq_true.mpr ⟨row, hmem, ?_⟩) hnew
          simp only [decide_eq_true_eq] at hof ⊢
          exact .inl (hof.trans hsub.symm)
    | some row =>
      have hid : row.id = uid := hrow row rfl
      simp only [SignUp.flush] at hs
      split at hs
      next user hfound =>
        cases hs
        exact h.goto ⟨(found_id hfound).1.trans hid, rfl, rfl, (fun _ hx => by cases hx), trivial⟩
      next user write hfound =>
        split at hs
        · cases hs
        · cases hs
          obtain ⟨huser, hwrite⟩ := found_id hfound
          obtain ⟨a, b, rfl⟩ := hwrite write rfl
          have hgoto : Done sub before uid org m (s.goto v ⟨t.req, .working user .upserted,
              { user := some (.update row.id a b) }⟩) := by
            refine h.goto ⟨huser.trans hid, rfl, rfl, fun x hx => ?_, trivial⟩
            cases hx
            exact ⟨a, b, by rw [hid]⟩
          exact ⟨hgoto.settled, hgoto.contexts, hgoto.tasks⟩

theorem Done.run (h : Done sub before uid org m s) (hs : s.step sub (.run v stmt) = some s') :
    Done sub before uid org m s' := by
  obtain ⟨t, ht, hs⟩ := Option.bind_eq_some_iff.mp hs
  obtain ⟨r, hr, rfl⟩ := Option.map_eq_some_iff.mp hs
  cases r with
  | none => exact h.leave
  | some t' => exact h.goto ((h.tasks v t ht).ran h.settled (ran_of_run hr))

/-- **A later commit** leaves all that as it is. -/
theorem Done.commit (h : Done sub before uid org m s) (hs : s.step sub (.commit v) = some s') :
    Done sub before uid org m s' := by
  obtain ⟨t, ht, hs⟩ := Option.bind_eq_some_iff.mp hs
  have hlate := h.tasks v t ht
  unfold Late at hlate
  split at hs
  next user ctx hstage =>
    cases hs
    rw [hstage] at hlate
    obtain ⟨huser, horg, hm, hwrite, hctx, hof⟩ := hlate
    refine ⟨?_, ?_, fun w t' hw => h.tasks w t' (leave_task (s := s) hw).1⟩
    · obtain ⟨row, hrow, hid⟩ := h.settled.user
      have husers : ∃ row', users sub (s.db.applied t.writes) = [row'] ∧ row'.id = uid := by
        cases hw : t.writes.user with
        | none => exact ⟨row, by simpa [users, IdentityDb.applied, hw] using hrow, hid⟩
        | some write =>
          obtain ⟨a, b, rfl⟩ := hwrite write hw
          obtain ⟨row', hrow', hid'⟩ := users_update hrow uid a b
          exact ⟨row', by simpa [users, IdentityDb.applied, hw] using hrow', hid'.trans hid⟩
      exact
        { h.settled with
          user := husers
          organizations := by simp [IdentityDb.applied, horg, h.settled.organizations]
          memberships := by simp [IdentityDb.applied, hm, h.settled.memberships] }
    · intro ctx' hctx'
      rcases List.mem_append.mp hctx' with hold | hnew
      · exact h.contexts ctx' hold
      · rw [List.mem_singleton.mp hnew]
        exact ⟨hctx, user, hof, huser⟩
  · cases hs

theorem Done.step {a : SignUpAct} (h : Done sub before uid org m s) (hs : s.step sub a = some s') :
    Done sub before uid org m s' := by
  cases a with
  | select w req => exact h.select hs
  | flush w => exact h.flush hs
  | run w stmt => exact h.run hs
  | commit w => exact h.commit hs
  | fail w =>
    obtain ⟨t, -, rfl⟩ := Option.map_eq_some_iff.mp hs
    exact h.leave

/-- Every run of the requests of one user. -/
theorem fresh_or_done (hstart : Unattached sub before)
    (h : GuardedRun.Reach (SignUp.step sub) (Later sub before) (initial before) s) :
    Fresh sub before s ∨ ∃ uid org m, Done sub before uid org m s := by
  have hinitial : Fresh sub before (initial before) :=
    ⟨rfl, rfl, (fun _ _ hw => by cases hw), (fun _ _ hw => by cases hw)⟩
  refine h.invariant (I := fun s => Fresh sub before s ∨ ∃ uid org m, Done sub before uid org m s)
    (.inl hinitial) ?_
  rintro s a s' (hfresh | ⟨uid, org, m, hdone⟩) ha hs
  · exact hfresh.step hstart ha hs
  · exact .inr ⟨uid, org, m, hdone.step hs⟩

/-- **Signing up creates one organization.**  Whatever requests a user without a membership makes
and however they are interleaved, fail and roll back: once one of them has committed there is one
user, one new organization with that user as its owner and only new membership, and every request
that has committed is in that organization. -/
theorem one_organization (hstart : Unattached sub before)
    (h : GuardedRun.Reach (SignUp.step sub) (Later sub before) (initial before) s)
    (hcommitted : s.contexts ≠ []) :
    ∃ user org m, s.db.users.filter (fun u => u.externalId = sub) = [user] ∧
      s.db.organizations = before.organizations ++ [org] ∧
      s.db.memberships = before.memberships ++ [m] ∧
      m.userId = user.id ∧ m.orgId = org.id ∧ m.role = .owner ∧
      ∀ ctx ∈ s.contexts, ctx.organization = org ∧ ∃ u, ctx.user = some u ∧ u.id = user.id := by
  rcases fresh_or_done hstart h with hfresh | ⟨uid, org, m, hdone⟩
  · exact absurd hfresh.contexts hcommitted
  · obtain ⟨user, huser, rfl⟩ := hdone.settled.user
    exact ⟨user, org, m, huser, hdone.settled.organizations, hdone.settled.memberships,
      hdone.settled.ofUser, hdone.settled.ofOrg, hdone.settled.owner, hdone.contexts⟩

/-- A request at a time, which draws ids of its own. -/
def sampleRequest (now : DateTime) (id : String) : SignInRequest where
  env :=
    { IdentityDb.sampleAuth with
      now := now
      newUserId := "user" ++ id
      newOrgId := "org" ++ id
      onboardingId := "onboarding" ++ id }
  token := "t"
  requestId := id
  organizationId := none
  projectId := none

/-- The statements of a request that finds its organization. -/
def finding (w : Nat) : List SignUpAct :=
  [.flush w, .run w .listUserOrgs, .run w .getOrganization, .run w .getProject, .commit w]

/-- The statements of a request that creates it. -/
def creating (w : Nat) : List SignUpAct :=
  [.flush w, .run w .listUserOrgs, .run w .countUserOwnedOrgs, .run w (.insertOrganization 5),
    .run w (.insertMembership 5), .run w (.insertProject 5), .run w .listUserOrgs,
    .run w .getOrganization, .run w .getProject, .commit w]

/-- Ann has been removed from every organization, and has signed in before. -/
def removedDb : IdentityDb :=
  { IdentityDb.sampleIdentityDb with
    users := [⟨"ann", "sub", "ann@example.com", "Ann", 0, some 3⟩,
      ⟨"bob", "other", "bob@example.com", "Bob", 0, some 5⟩]
    memberships := [⟨"bob", "acme", .owner, 0⟩] }

/-- Three requests find her row.  The first fails once it has inserted an organization. -/
def threeSignIns : List SignUpAct :=
  [.select 0 (sampleRequest 5 "0"), .select 1 (sampleRequest 6 "1"),
    .select 2 (sampleRequest 7 "2"), .flush 0, .run 0 .listUserOrgs, .run 0 .countUserOwnedOrgs,
    .run 0 (.insertOrganization 5), .fail 0] ++ creating 1 ++ finding 2

/-- A test that a sign-in is later than a time. -/
def signsInAfter (t : DateTime) : SignUpAct → Bool
  | .select _ req => t < req.env.now
  | _ => true

/-- The other two are in the organization of the second. -/
theorem one_organization_twice : ∃ s,
    GuardedRun.run (SignUp.step "sub") (initial removedDb) threeSignIns = some s ∧
    s.contexts.map (·.organization.id) = ["org1", "org1"] ∧
    ∃ org, s.db.organizations = removedDb.organizations ++ [org] ∧
      ∀ ctx ∈ s.contexts, ctx.organization = org := by
  obtain ⟨s, hs⟩ := Option.isSome_iff_exists.mp
    (show (GuardedRun.run (SignUp.step "sub") (initial removedDb) threeSignIns).isSome from by
      decide +kernel)
  have horgs : (GuardedRun.run (SignUp.step "sub") (initial removedDb) threeSignIns).map
      (fun s => s.contexts.map (·.organization.id)) = some ["org1", "org1"] := by
    decide +kernel
  rw [hs, Option.map_some, Option.some.injEq] at horgs
  have hstart : Unattached "sub" removedDb := by
    have halone : ∀ u ∈ removedDb.users, u.externalId = "sub" →
        ∀ m ∈ removedDb.memberships, m.userId ≠ u.id := by decide
    have hkey : ∀ m ∈ removedDb.memberships, ∃ u ∈ removedDb.users, u.id = m.userId := by decide
    exact ⟨halone, hkey⟩
  have hbefore : ∀ u ∈ removedDb.users, u.externalId = "sub" → u.lastSignInAt = some 3 := by decide
  have hclock : threeSignIns.all (signsInAfter 3) = true := by decide
  have hlater : ∀ a ∈ threeSignIns, ∀ s, Later "sub" removedDb s a := by
    intro a ha s
    have hnow := List.all_eq_true.mp hclock a ha
    cases a with
    | select w req =>
      intro u hu hsub heq
      rw [hbefore u hu hsub, Option.some.injEq] at heq
      exact absurd heq (of_decide_eq_true hnow).ne
    | _ => trivial
  obtain ⟨user, org, m, -, hdb, -, -, -, -, hctx⟩ := one_organization hstart
    (GuardedRun.Reach.run_from .initial hlater hs)
    (fun hnil => by rw [hnil] at horgs; cases horgs)
  exact ⟨s, hs, horgs, org, hdb, fun ctx h => (hctx ctx h).1⟩

end SignUp
end PandaProbe
