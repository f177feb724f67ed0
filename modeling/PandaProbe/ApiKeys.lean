import PandaProbe.AuthContext
import PandaProbe.Grants
import PandaProbe.GuardedRun
import PandaProbe.OwnershipCap

/-! # The life of an API key

A key is created by a member, replaced by an admin (`rotate`), revoked or deleted by an admin,
and it goes with its organization.  Each of these calls reads first and writes later, and any
number of them are under way: a key may be revoked between the read of a rotation and the
rotation's insert.  In between keys are presented, and members, projects and organizations come
and go.

`keys_accepted` is what the keys are for.  A log of the commits says which keys were granted and
which grants ended; a presented key is accepted for an organization if and only if a grant of it
for the organization stands and has not expired.  So a rotation leaves the old key alone, and
nothing brings an ended one back.

The tables enforce the unique key hash, the primary key and the foreign key to the organization
when a key is inserted.  That no granted key has the digest of the presented one by accident is
an assumption.
-/
namespace PandaProbe
open IdentityService Fallible Grants

/-- A key that was handed out: the text shown once, its row and its organization. -/
structure KeyGrant where
  rawKey : String
  keyId : UUID
  orgId : UUID
  expiresAt : Option DateTime
  deriving DecidableEq

/-- What a call is about to write. -/
inductive KeyTask
  | idle
  | inserting (key : ApiKey) (rawKey : String)
  | revoking (keyId : UUID)
  | deleting (keyId : UUID)
  | closing (orgId : UUID)
  deriving DecidableEq

/-- The tables, the calls, and what has been committed about keys. -/
structure KeyRun where
  db : IdentityDb
  task : Nat → KeyTask
  log : List (Event KeyGrant)

/-- What can happen next.  The actor is the user of the request's token. -/
inductive KeyAct
  | create (w : Nat) (actorId orgId : UUID) (name expiration : String) (keyId : UUID)
      (rawKey : String) (now : DateTime)
  | rotate (w : Nat) (actorId orgId oldId keyId : UUID) (rawKey : String) (now : DateTime)
  | remove (w : Nat) (actorId orgId keyId : UUID) (permanent : Bool)
  | deleteOrganization (w : Nat) (actorId orgId : UUID)
  | commit (w : Nat)
  | fail (w : Nat)
  | present (rawKey requestId : String) (projectName : Option String) (meanwhile : List Project)
      (now : DateTime)
  | others (users : List UserRow) (organizations : List Organization)
      (memberships : List MembershipRow) (projects : List Project)

namespace IdentityDb
variable (db : IdentityDb)

/-- `get_membership`. -/
def membership (userId orgId : UUID) : Option MembershipRole :=
  (db.memberships.find? (fun m => m.userId = userId ∧ m.orgId = orgId)).map MembershipRow.role

/-- `get_api_key` of the service. -/
def getApiKey (keyId orgId : UUID) : Except IdentityError ApiKey :=
  match db.apiKeys.find? (fun k => k.id = keyId) with
  | none => .error (.notFound ("API key " ++ keyId ++ " not found."))
  | some key =>
    if key.orgId ≠ orgId then
      .error (.authorization "API key does not belong to this organization.")
    else .ok key

/-- `rotate_api_key`, for a generated key and its digest. -/
def rotateApiKey (oldId keyId orgId : UUID) (createdBy : Option UUID) (rawKey digest : String)
    (now : DateTime) : Except IdentityError ApiKey := do
  let oldKey ← db.getApiKey oldId orgId
  if !oldKey.isActive then .error (.validation "Cannot rotate a revoked API key.")
  else
    match oldKey.expiresAt with
    | none =>
      .error (.validation ("Only keys with an expiration can be rotated. " ++
        "Production keys (never expire) should be revoked and re-created instead."))
    | some _ =>
      createApiKey (db.getOrganization orgId) keyId orgId oldKey.name createdBy "90d" rawKey digest
        now

/-- The insert of a key: its organization must exist, its id and its hash be new. -/
def insertApiKey (key : ApiKey) : Option IdentityDb :=
  if (db.getOrganization key.orgId).isNone then none
  else if db.apiKeys.any (fun k => k.id = key.id ∨ k.keyHash = key.keyHash) then none
  else some { db with apiKeys := db.apiKeys ++ [key] }

/-- `revoke_api_key`. -/
def revokeApiKey (keyId : UUID) : IdentityDb :=
  { db with apiKeys := db.apiKeys.map fun k =>
      if k.id = keyId then { k with isActive := false } else k }

/-- `delete_api_key`. -/
def deleteApiKey (keyId : UUID) : IdentityDb :=
  { db with apiKeys := db.apiKeys.filter fun k => k.id ≠ keyId }

/-- `delete_organization`, with what goes with it. -/
def removeOrganization (orgId : UUID) : IdentityDb :=
  { db with
    organizations := db.organizations.filter fun o => o.id ≠ orgId
    memberships := db.memberships.filter fun m => m.orgId ≠ orgId
    projects := db.projects.filter fun p => p.orgId ≠ orgId
    apiKeys := db.apiKeys.filter fun k => k.orgId ≠ orgId }

/-- `list_api_keys`, the newest first. -/
def listApiKeys (orgId : UUID) : List ApiKey :=
  (db.apiKeys.filter fun k => k.orgId = orgId).insertionSort fun a b => b.createdAt ≤ a.createdAt

end IdentityDb

/-- `_is_effectively_active`: what `is_active` is in a response. -/
def ApiKey.isEffectivelyActive (now : DateTime) (key : ApiKey) : Bool :=
  key.isActive && !key.expiresAt.any (· < now)

namespace KeyRun
variable (env : AuthEnv) (s : KeyRun)

/-- A worker has something to write. -/
def goto (w : Nat) (p : KeyTask) : KeyRun := { s with task := Function.update s.task w p }

/-- A call that is refused leaves its worker idle. -/
def call (w : Nat) (r : Except IdentityError KeyTask) : Option KeyRun :=
  match s.task w, r with
  | .idle, .ok p => some (s.goto w p)
  | .idle, .error _ => some s
  | _, _ => none

/-- The route that creates a key. -/
def create (actorId orgId : UUID) (name expiration : String) (keyId : UUID) (rawKey : String)
    (now : DateTime) : Except IdentityError KeyTask := do
  let _ ← requireMembership (s.db.membership actorId orgId)
  let key ← createApiKey (s.db.getOrganization orgId) keyId orgId name (some actorId) expiration
    rawKey (env.hashApiKey rawKey) now
  .ok (.inserting key rawKey)

/-- The route that rotates one. -/
def rotate (actorId orgId oldId keyId : UUID) (rawKey : String) (now : DateTime) :
    Except IdentityError KeyTask := do
  let _ ← requireAdmin (s.db.membership actorId orgId)
  let key ← s.db.rotateApiKey oldId keyId orgId (some actorId) rawKey (env.hashApiKey rawKey) now
  .ok (.inserting key rawKey)

/-- The `DELETE` route: revoke, or remove the row. -/
def remove (actorId orgId keyId : UUID) (permanent : Bool) : Except IdentityError KeyTask := do
  let _ ← requireAdmin (s.db.membership actorId orgId)
  let key ← s.db.getApiKey keyId orgId
  .ok (if permanent then .deleting key.id else .revoking key.id)

/-- The `DELETE` route of an organization. -/
def deleteOrganization (actorId orgId : UUID) : Except IdentityError KeyTask := do
  let _ ← requireOwner (s.db.membership actorId orgId)
  match s.db.getOrganization orgId with
  | none => .error (.notFound ("Organization " ++ orgId ++ " not found."))
  | some _ => .ok (.closing orgId)

/-- The write of a worker, which may violate a constraint. -/
def commit (w : Nat) : Option KeyRun :=
  let s' := s.goto w .idle
  match s.task w with
  | .idle => none
  | .inserting key rawKey =>
    match s.db.insertApiKey key with
    | none => some s'
    | some db => some { s' with
        db := db
        log := s.log ++ [.issue ⟨rawKey, key.id, key.orgId, key.expiresAt⟩] }
  | .revoking keyId => some { s' with
      db := s.db.revokeApiKey keyId
      log := s.log ++ [.withdraw fun g => g.keyId = keyId] }
  | .deleting keyId => some { s' with
      db := s.db.deleteApiKey keyId
      log := s.log ++ [.withdraw fun g => g.keyId = keyId] }
  | .closing orgId => some { s' with
      db := s.db.removeOrganization orgId
      log := s.log ++ [.withdraw fun g => g.orgId = orgId] }

/-- One read phase, commit, failure, presented key or change of the other tables.  Nothing but
`delete_organization` removes an organization. -/
def step : KeyAct → Option KeyRun
  | .create w actorId orgId name expiration keyId rawKey now =>
    s.call w (s.create env actorId orgId name expiration keyId rawKey now)
  | .rotate w actorId orgId oldId keyId rawKey now =>
    s.call w (s.rotate env actorId orgId oldId keyId rawKey now)
  | .remove w actorId orgId keyId permanent => s.call w (s.remove actorId orgId keyId permanent)
  | .deleteOrganization w actorId orgId => s.call w (s.deleteOrganization actorId orgId)
  | .commit w => s.commit w
  | .fail w => some (s.goto w .idle)
  | .present rawKey requestId projectName meanwhile now =>
    match s.db.resolveApiKey { env with now := now } rawKey requestId projectName meanwhile with
    | .ok (_, db) => some { s with db := db }
    | .error _ => some s
  | .others users organizations memberships projects =>
    if s.db.organizations.all (fun o => organizations.any (fun o' => o'.id = o.id)) then
      some { s with db := ⟨users, organizations, memberships, projects, s.db.apiKeys⟩ }
    else none

/-- Nobody has signed up. -/
def initial : KeyRun := ⟨⟨[], [], [], [], []⟩, fun _ => .idle, []⟩

/-! ## The law -/

/-- A grant of the key for the organization stands and has not expired. -/
def Granted (log : List (Event KeyGrant)) (rawKey : String) (orgId : UUID) (now : DateTime) : Prop :=
  ∃ before g after, log = before ++ .issue g :: after ∧ Kept g after ∧ g.rawKey = rawKey ∧
    g.orgId = orgId ∧ ∀ t, g.expiresAt = some t → now ≤ t

/-- No granted key has the digest of another key that is presented. -/
def NoCollision (log : List (Event KeyGrant)) (rawKey : String) : Prop :=
  ∀ g, .issue g ∈ log → env.hashApiKey g.rawKey = env.hashApiKey rawKey → g.rawKey = rawKey

/-- What is compared of a row and of a grant. -/
def rowView (k : ApiKey) : String × UUID × UUID × Option DateTime :=
  (k.keyHash, k.id, k.orgId, k.expiresAt)

/-- The same of a grant. -/
def grantView (g : KeyGrant) : String × UUID × UUID × Option DateTime :=
  (env.hashApiKey g.rawKey, g.keyId, g.orgId, g.expiresAt)

/-- **The invariant**: the active rows are the grants that stand, in their order.  Ids and hashes
are unique, every key's organization exists, and what is about to be inserted is active and has
the digest of its raw key. -/
structure Sound (s : KeyRun) : Prop where
  active : (s.db.apiKeys.filter ApiKey.isActive).map rowView =
    (standing s.log).map (grantView env)
  ids : (s.db.apiKeys.map ApiKey.id).Nodup
  hashes : (s.db.apiKeys.map ApiKey.keyHash).Nodup
  owned : ∀ k ∈ s.db.apiKeys, ∃ o ∈ s.db.organizations, o.id = k.orgId
  inserting : ∀ w key rawKey, s.task w = .inserting key rawKey →
    key.keyHash = env.hashApiKey rawKey ∧ key.isActive = true

variable {env s} {s' : KeyRun} {w : Nat} {p : KeyTask}

/-! ## What a presented key does to the tables -/

theorem getOrCreateProject_frame {db db' : IdentityDb} {orgId : UUID} {name : String}
    {meanwhile : List Project} {project : Project}
    (h : db.getOrCreateProject env orgId name meanwhile = .ok (project, db')) :
    db'.apiKeys = db.apiKeys ∧ db'.organizations = db.organizations := by
  obtain ⟨found, -, h⟩ := bind_ok h
  cases found with
  | some project =>
    cases h
    exact ⟨rfl, rfl⟩
  | none =>
    dsimp only at h
    split at h
    · cases h
    · cases h
      exact ⟨rfl, rfl⟩

theorem namedProject_frame {db db' : IdentityDb} {header : Option String} {orgId : UUID}
    {meanwhile : List Project} {project : Option Project}
    (h : db.namedProject env header orgId meanwhile = .ok (project, db')) :
    db'.apiKeys = db.apiKeys ∧ db'.organizations = db.organizations := by
  unfold IdentityDb.namedProject at h
  split at h
  · cases h
    exact ⟨rfl, rfl⟩
  · split at h
    · cases h
    · obtain ⟨⟨q, db''⟩, hq, h⟩ := bind_ok h
      cases h
      exact getOrCreateProject_frame hq

/-- **What an accepted key says**: the one active row with its hash, which has not expired, and
its organization; the row is stamped. -/
theorem resolveApiKey_spec {db db' : IdentityDb} {rawKey requestId : String}
    {projectName : Option String} {meanwhile : List Project} {ctx : ApiContext}
    (h : db.resolveApiKey env rawKey requestId projectName meanwhile = .ok (ctx, db')) :
    ∃ key, db.getApiKeyByHash (env.hashApiKey rawKey) = .ok (some key) ∧
      (∀ t, key.expiresAt = some t → env.now ≤ t) ∧
      db.getOrganization key.orgId = some ctx.organization ∧
      db'.apiKeys = (db.touchApiKey env key.id).apiKeys ∧ db'.organizations = db.organizations := by
  obtain ⟨found, hfound, h⟩ := bind_ok h
  cases found with
  | none => cases h
  | some key =>
    dsimp only at h
    split at h
    · cases h
    next hexpired =>
      obtain ⟨organization, horganization, h⟩ := bind_ok h
      obtain ⟨⟨project, db₁⟩, hproject, h⟩ := bind_ok h
      cases h
      obtain ⟨hkeys, horgs⟩ := namedProject_frame hproject
      refine ⟨key, hfound, fun t ht => ?_, IdentityDb.orRaise_ok horganization, hkeys, horgs⟩
      simpa [ht] using hexpired

/-! ## The active rows -/

theorem filter_eq_singleton {α β : Type} {f : α → β} {q : α → Bool} {l : List α} {x : α}
    (hnodup : (l.map f).Nodup) (hx : x ∈ l) (hq : q x = true)
    (hsame : ∀ y ∈ l, q y = true → f y = f x) : l.filter q = [x] := by
  induction l with
  | nil => cases hx
  | cons y l ih =>
    obtain ⟨hy, hnodup⟩ := List.nodup_cons.mp hnodup
    rcases List.mem_cons.mp hx with rfl | hx
    · rw [List.filter_cons_of_pos hq]
      have hrest : l.filter q = [] := by
        refine List.filter_eq_nil_iff.mpr fun z hz hqz => hy ?_
        exact List.mem_map.mpr ⟨z, hz, hsame z (List.mem_cons_of_mem _ hz) hqz⟩
      rw [hrest]
    · have hqy : ¬ q y = true := fun hqy => hy <|
        List.mem_map.mpr ⟨x, hx, (hsame y (List.mem_cons_self ..) hqy).symm⟩
      rw [List.filter_cons_of_neg hqy]
      exact ih hnodup hx fun z hz => hsame z (List.mem_cons_of_mem _ hz)

/-- With unique hashes the lookup finds a row or none, and never raises. -/
theorem getApiKeyByHash_iff {db : IdentityDb} (hhashes : (db.apiKeys.map ApiKey.keyHash).Nodup)
    {hash : String} {key : ApiKey} : db.getApiKeyByHash hash = .ok (some key) ↔
      key ∈ db.apiKeys ∧ key.keyHash = hash ∧ key.isActive = true := by
  constructor
  · intro h
    obtain ⟨hmem, hmatch⟩ := List.mem_filter.mp (IdentityDb.scalarOneOrNone_some h)
    exact ⟨hmem, by simpa using hmatch⟩
  · rintro ⟨hmem, rfl, hactive⟩
    have hone := filter_eq_singleton (q := fun k => k.keyHash = key.keyHash ∧ k.isActive) hhashes
      hmem (by simp [hactive]) fun y _ hy => by simpa using (of_decide_eq_true hy).1
    rw [IdentityDb.getApiKeyByHash, hone]
    rfl

/-- Filtering both sides of the comparison by what is compared. -/
theorem map_filter_congr {α β γ : Type} {f : α → γ} {g : β → γ} {l : List α} {m : List β}
    (h : l.map f = m.map g) (q : γ → Bool) :
    (l.filter fun a => q (f a)).map f = (m.filter fun b => q (g b)).map g := by
  have hfilter := congrArg (List.filter q) h
  rwa [List.filter_map, List.filter_map] at hfilter

/-- A change of the rows that nothing compared sees. -/
theorem active_map {l : List ApiKey} {f : ApiKey → ApiKey} (hactive : ∀ k, (f k).isActive = k.isActive)
    (hview : ∀ k, rowView (f k) = rowView k) :
    ((l.map f).filter ApiKey.isActive).map rowView = (l.filter ApiKey.isActive).map rowView := by
  rw [List.filter_map, List.map_map]
  have hsame : ApiKey.isActive ∘ f = ApiKey.isActive := funext hactive
  have hviews : rowView ∘ f = rowView := funext hview
  rw [hsame, hviews]

/-- Revoking a key takes it out of the active ones. -/
theorem active_revoke {l : List ApiKey} {keyId : UUID} :
    (l.map fun k => if k.id = keyId then { k with isActive := false } else k).filter
        ApiKey.isActive =
      (l.filter ApiKey.isActive).filter fun k => !decide (k.id = keyId) := by
  induction l with
  | nil => rfl
  | cons k l ih =>
    rw [List.map_cons]
    by_cases hid : k.id = keyId
    · rw [if_pos hid, List.filter_cons_of_neg (by simp), ih]
      by_cases hactive : k.isActive = true
      · rw [List.filter_cons_of_pos hactive, List.filter_cons_of_neg (by simp [hid])]
      · rw [List.filter_cons_of_neg hactive]
    · rw [if_neg hid]
      by_cases hactive : k.isActive = true
      · rw [List.filter_cons_of_pos hactive, List.filter_cons_of_pos hactive,
          List.filter_cons_of_pos (by simp [hid]), ih]
      · rw [List.filter_cons_of_neg hactive, List.filter_cons_of_neg hactive, ih]

/-! ## Each step -/

theorem goto_task {u : Nat} : (s.goto w p).task u = if u = w then p else s.task u :=
  Function.update_apply ..

theorem Sound.goto (h : Sound env s)
    (hp : ∀ key rawKey, p = .inserting key rawKey →
      key.keyHash = env.hashApiKey rawKey ∧ key.isActive = true) : Sound env (s.goto w p) where
  active := h.active
  ids := h.ids
  hashes := h.hashes
  owned := h.owned
  inserting u key rawKey hu := by
    rw [goto_task] at hu
    split at hu
    · exact hp key rawKey hu
    · exact h.inserting u key rawKey hu

theorem Sound.idle (h : Sound env s) : Sound env (s.goto w .idle) :=
  h.goto fun _ _ hp => by cases hp

theorem sound_call {r : Except IdentityError KeyTask} (h : Sound env s)
    (hr : ∀ key rawKey, r = .ok (.inserting key rawKey) →
      key.keyHash = env.hashApiKey rawKey ∧ key.isActive = true)
    (hs : s.call w r = some s') : Sound env s' := by
  unfold KeyRun.call at hs
  split at hs
  next p _ =>
    cases hs
    exact h.goto fun key rawKey hp => hr key rawKey (congrArg _ hp)
  · cases hs
    exact h
  · cases hs

/-- The row that is made for a new key. -/
theorem createApiKey_ok {organization : Option Organization} {id orgId : UUID} {name : String}
    {createdBy : Option UUID} {expiration rawKey digest : String} {now : DateTime} {key : ApiKey}
    (h : createApiKey organization id orgId name createdBy expiration rawKey digest now = .ok key) :
    key.keyHash = digest ∧ key.isActive = true := by
  unfold createApiKey at h
  split at h
  · cases h
  · split at h
    · cases h
    · cases h
      exact ⟨rfl, rfl⟩

theorem rotateApiKey_ok {db : IdentityDb} {oldId keyId orgId : UUID} {createdBy : Option UUID}
    {rawKey digest : String} {now : DateTime} {key : ApiKey}
    (h : db.rotateApiKey oldId keyId orgId createdBy rawKey digest now = .ok key) :
    key.keyHash = digest ∧ key.isActive = true := by
  obtain ⟨oldKey, -, h⟩ := bind_ok h
  split at h
  · cases h
  · split at h
    · cases h
    · exact createApiKey_ok h

/-- New rows and a new log, once the worker is idle. -/
theorem Sound.written (h : Sound env s) {db : IdentityDb} {log : List (Event KeyGrant)}
    (hactive : (db.apiKeys.filter ApiKey.isActive).map rowView = (standing log).map (grantView env))
    (hids : (db.apiKeys.map ApiKey.id).Nodup) (hhashes : (db.apiKeys.map ApiKey.keyHash).Nodup)
    (howned : ∀ k ∈ db.apiKeys, ∃ o ∈ db.organizations, o.id = k.orgId) :
    Sound env { s.goto w .idle with db := db, log := log } :=
  ⟨hactive, hids, hhashes, howned, h.idle.inserting⟩

theorem sound_inserted (h : Sound env s) {key : ApiKey} {rawKey : String} {db : IdentityDb}
    (hkey : key.keyHash = env.hashApiKey rawKey ∧ key.isActive = true)
    (hdb : s.db.insertApiKey key = some db) :
    Sound env { s.goto w .idle with
      db := db, log := s.log ++ [.issue ⟨rawKey, key.id, key.orgId, key.expiresAt⟩] } := by
  unfold IdentityDb.insertApiKey at hdb
  split at hdb
  · cases hdb
  next horg =>
    split at hdb
    · cases hdb
    next hnew =>
      cases hdb
      simp only [List.any_eq_true, decide_eq_true_eq, not_exists, not_and, not_or] at hnew
      refine h.written ?_ ?_ ?_ ?_
      · have hview : rowView key =
            grantView env ⟨rawKey, key.id, key.orgId, key.expiresAt⟩ := by
          rw [rowView, grantView, hkey.1]
        simp [List.filter_append, hkey.2, h.active, hview]
      · rw [List.map_append, List.nodup_append]
        refine ⟨h.ids, List.nodup_singleton _, ?_⟩
        rintro a ha b hb rfl
        obtain ⟨k, hk, rfl⟩ := List.mem_map.mp ha
        exact (hnew k hk).1 (List.mem_singleton.mp hb)
      · rw [List.map_append, List.nodup_append]
        refine ⟨h.hashes, List.nodup_singleton _, ?_⟩
        rintro a ha b hb rfl
        obtain ⟨k, hk, rfl⟩ := List.mem_map.mp ha
        exact (hnew k hk).2 (List.mem_singleton.mp hb)
      · intro k hk
        rcases List.mem_append.mp hk with hk | hk
        · exact h.owned k hk
        · obtain rfl := List.mem_singleton.mp hk
          obtain ⟨o, ho⟩ := Option.ne_none_iff_exists'.mp (mt Option.isNone_iff_eq_none.mpr horg)
          exact ⟨o, List.mem_of_find?_eq_some ho, IdentityDb.getOrganization_id ho⟩

/-- Rows that are not kept, with their grants. -/
theorem sound_filtered (h : Sound env s) {db : IdentityDb} {ends : KeyGrant → Bool}
    (q : String × UUID × UUID × Option DateTime → Bool) (hends : ∀ g, ends g = q (grantView env g))
    (hkeys : db.apiKeys = s.db.apiKeys.filter fun k => !q (rowView k))
    (howned : ∀ k ∈ s.db.apiKeys, q (rowView k) = false → ∃ o ∈ db.organizations, o.id = k.orgId) :
    Sound env { s.goto w .idle with db := db, log := s.log ++ [.withdraw ends] } := by
  obtain rfl : ends = fun g => q (grantView env g) := funext hends
  refine h.written ?_ ?_ ?_ ?_
  · rw [standing_withdraw, hkeys, List.filter_filter, ← map_filter_congr h.active fun v => !q v,
      List.filter_filter]
    simp only [Bool.and_comm]
  · rw [hkeys]
    exact h.ids.sublist (List.filter_sublist.map _)
  · rw [hkeys]
    exact h.hashes.sublist (List.filter_sublist.map _)
  · intro k hk
    rw [hkeys] at hk
    obtain ⟨hk, hq⟩ := List.mem_filter.mp hk
    exact howned k hk (by simpa using hq)

theorem sound_revoked (h : Sound env s) (keyId : UUID) :
    Sound env { s.goto w .idle with
      db := s.db.revokeApiKey keyId, log := s.log ++ [.withdraw fun g => g.keyId = keyId] } := by
  have hmap : ∀ {β : Type} (f : ApiKey → β), (∀ k, f { k with isActive := false } = f k) →
      (s.db.revokeApiKey keyId).apiKeys.map f = s.db.apiKeys.map f := by
    intro β f hf
    rw [IdentityDb.revokeApiKey, List.map_map]
    refine List.map_congr_left fun k _ => ?_
    rw [Function.comp_apply]
    split
    · exact hf k
    · rfl
  refine h.written ?_ ?_ ?_ ?_
  · rw [standing_withdraw, IdentityDb.revokeApiKey, active_revoke]
    exact map_filter_congr h.active fun v => !decide (v.2.1 = keyId)
  · rw [hmap _ fun _ => rfl]
    exact h.ids
  · rw [hmap _ fun _ => rfl]
    exact h.hashes
  · intro k hk
    obtain ⟨k', hk', rfl⟩ := List.mem_map.mp hk
    obtain ⟨o, ho, horg⟩ := h.owned k' hk'
    refine ⟨o, ho, ?_⟩
    split <;> exact horg

theorem sound_commit (h : Sound env s) (hs : s.commit w = some s') : Sound env s' := by
  unfold KeyRun.commit at hs
  split at hs
  · cases hs
  next key rawKey hw =>
    split at hs
    · cases hs
      exact h.idle
    next db hdb =>
      cases hs
      exact sound_inserted h (h.inserting w key rawKey hw) hdb
  next keyId _ =>
    cases hs
    exact sound_revoked h keyId
  next keyId _ =>
    cases hs
    refine sound_filtered h (fun v => v.2.1 = keyId) (fun _ => rfl) ?_ fun k hk _ => h.owned k hk
    exact List.filter_congr fun k _ => decide_not
  next orgId _ =>
    cases hs
    refine sound_filtered h (fun v => v.2.2.1 = orgId) (fun _ => rfl) ?_ fun k hk hq => ?_
    · exact List.filter_congr fun k _ => decide_not
    · obtain ⟨o, ho, horg⟩ := h.owned k hk
      refine ⟨o, List.mem_filter.mpr ⟨ho, ?_⟩, horg⟩
      rw [horg]
      exact decide_eq_true (of_decide_eq_false hq)

/-- Presenting a key stamps its row. -/
theorem sound_presented (h : Sound env s) {db : IdentityDb} {now : DateTime} {keyId : UUID}
    (hkeys : db.apiKeys = (s.db.touchApiKey { env with now := now } keyId).apiKeys)
    (horgs : db.organizations = s.db.organizations) : Sound env { s with db := db } := by
  have hmap : ∀ {β : Type} (f : ApiKey → β), (∀ k t, f { k with lastUsedAt := t } = f k) →
      db.apiKeys.map f = s.db.apiKeys.map f := by
    intro β f hf
    rw [hkeys, IdentityDb.touchApiKey, List.map_map]
    refine List.map_congr_left fun k _ => ?_
    rw [Function.comp_apply]
    split
    · exact hf k _
    · rfl
  constructor
  · rw [hkeys, IdentityDb.touchApiKey, active_map, h.active]
    · intro k
      split <;> rfl
    · intro k
      split <;> rfl
  · rw [hmap _ fun _ _ => rfl]
    exact h.ids
  · rw [hmap _ fun _ _ => rfl]
    exact h.hashes
  · intro k hk
    have horg : k.orgId ∈ s.db.apiKeys.map ApiKey.orgId := by
      rw [← hmap ApiKey.orgId fun _ _ => rfl]
      exact List.mem_map_of_mem hk
    obtain ⟨k', hk', hsame⟩ := List.mem_map.mp horg
    obtain ⟨o, ho, hown⟩ := h.owned k' hk'
    exact ⟨o, horgs ▸ ho, hown.trans hsame⟩
  · exact h.inserting

/-- **Every step keeps the invariant.** -/
theorem sound_step {a : KeyAct} (h : Sound env s) (hs : s.step env a = some s') : Sound env s' := by
  cases a with
  | create w actorId orgId name expiration keyId rawKey now =>
    refine sound_call h (fun key raw hr => ?_) hs
    obtain ⟨_, -, hr⟩ := bind_ok hr
    obtain ⟨key', hkey, hr⟩ := bind_ok hr
    cases hr
    exact createApiKey_ok hkey
  | rotate w actorId orgId oldId keyId rawKey now =>
    refine sound_call h (fun key raw hr => ?_) hs
    obtain ⟨_, -, hr⟩ := bind_ok hr
    obtain ⟨key', hkey, hr⟩ := bind_ok hr
    cases hr
    exact rotateApiKey_ok hkey
  | remove w actorId orgId keyId permanent =>
    refine sound_call h (fun key raw hr => ?_) hs
    obtain ⟨_, -, hr⟩ := bind_ok hr
    obtain ⟨key', -, hr⟩ := bind_ok hr
    split at hr <;> cases hr
  | deleteOrganization w actorId orgId =>
    refine sound_call h (fun key raw hr => ?_) hs
    obtain ⟨_, -, hr⟩ := bind_ok hr
    split at hr <;> cases hr
  | commit w => exact sound_commit h hs
  | fail w =>
    cases hs
    exact h.idle
  | present rawKey requestId projectName meanwhile now =>
    simp only [KeyRun.step] at hs
    split at hs
    next ctx db hok =>
      cases hs
      obtain ⟨key, -, -, -, hkeys, horgs⟩ := resolveApiKey_spec hok
      exact sound_presented h hkeys horgs
    · cases hs
      exact h
  | others users organizations memberships projects =>
    simp only [KeyRun.step] at hs
    split at hs
    next hkept =>
      cases hs
      refine ⟨h.active, h.ids, h.hashes, fun k hk => ?_, h.inserting⟩
      obtain ⟨o, ho, horg⟩ := h.owned k hk
      obtain ⟨o', ho', hsame⟩ := List.any_eq_true.mp (List.all_eq_true.mp hkept o ho)
      exact ⟨o', ho', (of_decide_eq_true hsame).trans horg⟩
    · cases hs

theorem sound_initial : Sound env initial where
  active := rfl
  ids := List.nodup_nil
  hashes := List.nodup_nil
  owned _ hk := by cases hk
  inserting _ _ _ hw := by cases hw

/-! ## Which keys are accepted -/

/-- A grant stands as an active row. -/
theorem Sound.granted_iff (h : Sound env s) {rawKey : String}
    (hhash : NoCollision env s.log rawKey) {orgId : UUID} {now : DateTime} :
    Granted s.log rawKey orgId now ↔
      ∃ key ∈ s.db.apiKeys, key.keyHash = env.hashApiKey rawKey ∧ key.isActive = true ∧
        key.orgId = orgId ∧ ∀ t, key.expiresAt = some t → now ≤ t := by
  constructor
  · rintro ⟨before, g, after, hlog, hkept, rfl, rfl, hexpires⟩
    have hg : grantView env g ∈ (standing s.log).map (grantView env) :=
      List.mem_map_of_mem (mem_standing_iff.mpr ⟨before, after, hlog, hkept⟩)
    rw [← h.active] at hg
    obtain ⟨key, hkey, hview⟩ := List.mem_map.mp hg
    obtain ⟨hkey, hactive⟩ := List.mem_filter.mp hkey
    simp only [rowView, grantView, Prod.mk.injEq] at hview
    exact ⟨key, hkey, hview.1, hactive, hview.2.2.1, by rwa [hview.2.2.2]⟩
  · rintro ⟨key, hkey, hdigest, hactive, rfl, hexpires⟩
    have hk : rowView key ∈ (s.db.apiKeys.filter ApiKey.isActive).map rowView :=
      List.mem_map_of_mem (List.mem_filter.mpr ⟨hkey, hactive⟩)
    rw [h.active] at hk
    obtain ⟨g, hg, hview⟩ := List.mem_map.mp hk
    obtain ⟨before, after, hlog, hkept⟩ := mem_standing_iff.mp hg
    simp only [rowView, grantView, Prod.mk.injEq] at hview
    have hissued : .issue g ∈ s.log := by simp [hlog]
    exact ⟨before, g, after, hlog, hkept, hhash g hissued (hview.1.trans hdigest), hview.2.2.1,
      by rwa [hview.2.2.2]⟩

theorem Sound.accepted_iff (h : Sound env s) {rawKey requestId : String} {orgId : UUID}
    {now : DateTime} :
    (∃ ctx db', s.db.resolveApiKey { env with now := now } rawKey requestId none [] =
        .ok (ctx, db') ∧ ctx.organization.id = orgId) ↔
      ∃ key ∈ s.db.apiKeys, key.keyHash = env.hashApiKey rawKey ∧ key.isActive = true ∧
        key.orgId = orgId ∧ ∀ t, key.expiresAt = some t → now ≤ t := by
  constructor
  · rintro ⟨ctx, db', hok, rfl⟩
    obtain ⟨key, hfound, hexpires, horg, -, -⟩ := resolveApiKey_spec hok
    obtain ⟨hmem, hdigest, hactive⟩ := (getApiKeyByHash_iff h.hashes).mp hfound
    exact ⟨key, hmem, hdigest, hactive, (IdentityDb.getOrganization_id horg).symm, hexpires⟩
  · rintro ⟨key, hmem, hdigest, hactive, rfl, hexpires⟩
    obtain ⟨o, ho, hown⟩ := h.owned key hmem
    have hsome : (s.db.getOrganization key.orgId).isSome :=
      List.find?_isSome.mpr ⟨o, ho, by simpa using hown⟩
    obtain ⟨organization, horganization⟩ := Option.isSome_iff_exists.mp hsome
    have hfound := (getApiKeyByHash_iff h.hashes).mpr ⟨hmem, hdigest, hactive⟩
    have hvalid : ¬ key.expiresAt.any (· < now) = true := by
      cases ht : key.expiresAt with
      | none => simp
      | some t => simpa using hexpires t ht
    refine ⟨⟨requestId, .apiKey, organization, none, none⟩,
      s.db.touchApiKey { env with now := now } key.id, ?_,
      IdentityDb.getOrganization_id horganization⟩
    have horg : (s.db.touchApiKey { env with now := now } key.id).getOrganization key.orgId =
        some organization := horganization
    simp only [IdentityDb.resolveApiKey, hfound]
    change (if key.expiresAt.any (· < now) then _ else _) = _
    rw [if_neg hvalid, horg]
    rfl

/-- **Which keys are accepted.**  After every run of calls that read and commit in any
interleaving, a presented key is accepted for an organization if and only if a grant of it for
the organization stands and has not expired; a project header can only add a reason to refuse.
And the list of an organization shows a key as active if and only if it would be accepted. -/
theorem keys_accepted (h : GuardedRun.Reach (KeyRun.step env) GuardedRun.Always initial s)
    (rawKey requestId : String) (hhash : NoCollision env s.log rawKey) (orgId : UUID)
    (now : DateTime) :
    ((∃ ctx db', s.db.resolveApiKey { env with now := now } rawKey requestId none [] =
        .ok (ctx, db') ∧ ctx.organization.id = orgId) ↔ Granted s.log rawKey orgId now) ∧
      (∀ projectName meanwhile ctx db',
        s.db.resolveApiKey { env with now := now } rawKey requestId projectName meanwhile =
          .ok (ctx, db') → Granted s.log rawKey ctx.organization.id now) ∧
      ∀ key ∈ s.db.listApiKeys orgId, key.keyHash = env.hashApiKey rawKey →
        (key.isEffectivelyActive now = true ↔ Granted s.log rawKey orgId now) := by
  have hsound : Sound env s := h.invariant sound_initial fun _ _ _ hs _ => sound_step hs
  refine ⟨?_, fun projectName meanwhile ctx db' hok => ?_, fun key hkey hdigest => ?_⟩
  · rw [hsound.accepted_iff, hsound.granted_iff hhash]
  · rw [hsound.granted_iff hhash]
    obtain ⟨key, hfound, hexpires, horg, -, -⟩ := resolveApiKey_spec hok
    obtain ⟨hmem, hdigest, hactive⟩ := (getApiKeyByHash_iff hsound.hashes).mp hfound
    exact ⟨key, hmem, hdigest, hactive, (IdentityDb.getOrganization_id horg).symm, hexpires⟩
  · rw [IdentityDb.listApiKeys, List.mem_insertionSort, List.mem_filter] at hkey
    obtain ⟨hmem, horg⟩ := hkey
    rw [hsound.granted_iff hhash, ApiKey.isEffectivelyActive, Bool.and_eq_true, Bool.not_eq_true']
    constructor
    · rintro ⟨hactive, hexpires⟩
      exact ⟨key, hmem, hdigest, hactive, of_decide_eq_true horg, fun t ht => by
        simpa [ht] using hexpires⟩
    · rintro ⟨key', hmem', hdigest', hactive, -, hexpires⟩
      -- hashes are unique, so it is the same row
      obtain rfl := List.inj_on_of_nodup_map hsound.hashes hmem' hmem (hdigest'.trans hdigest.symm)
      refine ⟨hactive, ?_⟩
      cases ht : key'.expiresAt with
      | none => rfl
      | some t => simpa using hexpires t ht

/-- The SHA-256 digest of `sk_pp_2`. -/
def rotatedKeyHash : String :=
  "0c0e2d43e80d853dac837126c69a7418de1cf37eca60f17bbb85aca6f00dc76f"

/-- The digests of the two keys that are used. -/
def sampleKeyEnv : AuthEnv :=
  { IdentityDb.sampleAuth with
    hashApiKey := fun rawKey =>
      if rawKey = "sk_pp_2" then rotatedKeyHash else IdentityDb.sampleAuth.hashApiKey rawKey }

/-- Ann's organization; she creates a key for 90 days, reads it for a rotation, revokes it, and
only then is the new key inserted. -/
def sampleKeyActs : List KeyAct :=
  [.others [] [⟨"acme", "Acme", 0⟩] [⟨"ann", "acme", .owner, 0⟩] [],
    .create 0 "ann" "acme" "ci" "90d" "k1" "sk_pp_1" 0,
    .commit 0,
    .rotate 0 "ann" "acme" "k1" "k2" "sk_pp_2" 5,
    .remove 1 "ann" "acme" "k1" false,
    .commit 1,
    .commit 0]

/-- The new key is accepted, the revoked one is not. -/
theorem keys_accepted_rotated :
    ∃ s, GuardedRun.run (KeyRun.step sampleKeyEnv) initial sampleKeyActs = some s ∧
      (∃ ctx db', s.db.resolveApiKey { sampleKeyEnv with now := 7 } "sk_pp_2" "r" none [] =
        .ok (ctx, db') ∧ ctx.organization.id = "acme") ∧
      ¬ Granted s.log "sk_pp_1" "acme" 7 := by
  obtain ⟨s, hs⟩ : ∃ s, GuardedRun.run (KeyRun.step sampleKeyEnv) initial sampleKeyActs = some s :=
    ⟨_, rfl⟩
  have hreach := GuardedRun.reach_of_run hs
  have hlog : ∀ g, .issue g ∈ s.log → g.rawKey = "sk_pp_1" ∨ g.rawKey = "sk_pp_2" := by
    cases hs
    rintro g (_ | ⟨_, _ | ⟨_, _ | ⟨_, hg⟩⟩⟩)
    · exact .inl rfl
    · exact .inr rfl
    · cases hg
  have hfirst : NoCollision sampleKeyEnv s.log "sk_pp_1" := by
    intro g hg hdigest
    rcases hlog g hg with hkey | hkey
    · exact hkey
    · rw [hkey] at hdigest
      exact absurd hdigest (by decide)
  have hsecond : NoCollision sampleKeyEnv s.log "sk_pp_2" := by
    intro g hg hdigest
    rcases hlog g hg with hkey | hkey
    · rw [hkey] at hdigest
      exact absurd hdigest (by decide)
    · exact hkey
  refine ⟨s, hs, (keys_accepted hreach "sk_pp_2" "r" hsecond "acme" 7).1.mpr ?_, fun hgranted => ?_⟩
  · cases hs
    refine ⟨_, _, [], rfl, fun ends hends => absurd hends List.not_mem_nil, rfl, rfl, ?_⟩
    intro t ht
    cases ht
    decide
  · obtain ⟨ctx, db', hok, -⟩ := (keys_accepted hreach "sk_pp_1" "r" hfirst "acme" 7).1.mpr hgranted
    cases hs
    cases hok

end KeyRun
end PandaProbe
