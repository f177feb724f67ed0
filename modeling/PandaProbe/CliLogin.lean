import PandaProbe.IdentityService
import PandaProbe.GuardedRun

/-! # The login of the command line

`CliAuthService`: a code is issued to a member of an organization, bound to a PKCE
challenge, and stored in Redis for two minutes; `exchange` turns the code and a verifier
into an API key.  It reads the code, checks the verifier, deletes the code, checks the
membership once more and mints the key, each against a store that others use meanwhile.

The machine has any number of calls of `exchange` on one code, interleaved at each of these
steps, with the code expiring and memberships and organizations changing at any time.
Only a call whose delete removed the code goes on, so the code, the calls past their delete
and the minted keys are together at most one (`Sound`).

`challengeOf` stands for the URL-safe base64 text of the SHA-256 digest, `digest` for the hash
of API keys; nothing here depends on what they do.
-/
namespace PandaProbe

/-- What is stored under an authorization code. -/
structure CodePayload where
  userId : UUID
  orgId : UUID
  projectId : UUID
  projectName : String
  codeChallenge : String
  label : String
  expiresDays : Int
  deriving DecidableEq, Repr

namespace CliAuthService
open IdentityService
variable (strip challengeOf digest : String → String)

/-- `_ALLOWED_EXPIRES_DAYS`. -/
def allowedExpiresDays : Int := 90

/-- `_MAX_KEY_NAME_LEN`. -/
def maxKeyNameLen : Nat := 255

/-- Whether the verifier's digest is the challenge.  A challenge that is not ASCII is no digest;
there the comparison raises, which ends the call as a failure does. -/
def verifyPkce (verifier challenge : String) : Bool := challengeOf verifier == challenge

/-- Derive an API key name from the label. -/
def keyNameFromLabel (label : String) (now : DateTime) : String :=
  let label := if label = "" then "cli" else label
  let clean := if strip label = "" then "cli" else strip label
  String.ofList
    (("pandaprobe-cli — " ++ clean ++ " — " ++ DateTime.isoDate now).toList.take maxKeyNameLen)

/-- `issue_code`, on the membership and the project it reads: what it stores. -/
def issueCode (userId orgId projectId : UUID) (codeChallenge codeChallengeMethod label : String)
    (expiresDays : Int) (membership : Option MembershipRole) (project : Option Project) :
    Except IdentityError CodePayload :=
  if codeChallengeMethod ≠ "S256" then
    .error (.validation "Unsupported code_challenge_method. Only 'S256' is allowed.")
  else if codeChallenge = "" ∨ strip codeChallenge = "" then
    .error (.validation "code_challenge is required.")
  else if expiresDays ≠ allowedExpiresDays then
    .error (.validation "Only a 90-day key lifetime is supported for the CLI.")
  else
    match requireMembership membership, getProject projectId orgId project with
    | .error e, _ => .error e
    | .ok _, .error e => .error e
    | .ok _, .ok project =>
      .ok ⟨userId, orgId, project.id, project.name, codeChallenge, label, expiresDays⟩

/-- The key an exchange mints. -/
def mintKey (payload : CodePayload) (organization : Option Organization) (id rawKey : String)
    (now : DateTime) : Except IdentityError ApiKey :=
  createApiKey organization id payload.orgId (keyNameFromLabel strip payload.label now)
    (some payload.userId) (toString payload.expiresDays ++ "d") rawKey (digest rawKey) now

end CliAuthService

/-- Where a call of `exchange` is: its verifier, the number of the membership table when it
began, and what it has read. -/
inductive ExchangeCall
  | idle
  | fetched (verifier : String) (since : Nat) (payload : CodePayload)
  | consumed (verifier : String) (since : Nat) (payload : CodePayload)
  | admitted (verifier : String) (since : Nat) (payload : CodePayload) (checkedAt : Nat)

/-- A minted key, the verifier it was minted for, and the numbers of the membership tables when
the call began and when the membership was checked. -/
structure MintedKey where
  key : ApiKey
  verifier : String
  since : Nat
  checkedAt : Nat

/-- The payload the code was issued for, what Redis holds under the code, memberships by
organization and user, organizations, every earlier membership table by its number, the keys
minted from the code, and the calls. -/
structure CodeRun where
  issued : Option CodePayload
  stored : Option CodePayload
  members : UUID → UUID → Option MembershipRole
  organizations : UUID → Option Organization
  clock : Nat
  past : Nat → UUID → UUID → Option MembershipRole
  keys : List MintedKey
  call : Nat → ExchangeCall

/-- What can happen next. -/
inductive CodeAct
  | issue (userId orgId projectId : UUID) (codeChallenge codeChallengeMethod label : String)
      (expiresDays : Int) (project : Option Project)
  | exchange (w : Nat) (verifier : String)
  | consume (w : Nat)
  | checkMember (w : Nat)
  | mint (w : Nat) (id rawKey : String) (now : DateTime)
  | fail (w : Nat)
  | expire
  | setMember (orgId userId : UUID) (role : Option MembershipRole)
  | setOrganization (orgId : UUID) (organization : Option Organization)

namespace CodeRun
open IdentityService CliAuthService
variable (strip challengeOf digest : String → String) (s : CodeRun)

/-- The call moves on. -/
def goto (w : Nat) (c : ExchangeCall) : CodeRun := { s with call := Function.update s.call w c }

/-- A code is issued.  It is drawn at random, so there is one issue of it. -/
def issue (userId orgId projectId : UUID) (codeChallenge codeChallengeMethod label : String)
    (expiresDays : Int) (project : Option Project) : Option CodeRun :=
  match s.issued, issueCode strip userId orgId projectId codeChallenge codeChallengeMethod label
      expiresDays (s.members orgId userId) project with
  | none, .ok payload => some { s with issued := some payload, stored := some payload }
  | none, .error _ => some s
  | some _, _ => none

/-- A call begins, and reads the code. -/
def exchange (w : Nat) (verifier : String) : Option CodeRun :=
  match s.call w with
  | .idle =>
    if verifier = "" then some s
    else
      match s.stored with
      | none => some s
      | some payload => some (s.goto w (.fetched verifier s.clock payload))
  | _ => none

/-- It checks the verifier, and deletes the code; the delete must have removed it. -/
def consume (w : Nat) : Option CodeRun :=
  match s.call w with
  | .fetched verifier since payload =>
    if verifyPkce challengeOf verifier payload.codeChallenge then
      match s.stored with
      | none => some (s.goto w .idle)
      | some _ => some { s.goto w (.consumed verifier since payload) with stored := none }
    else some (s.goto w .idle)
  | _ => none

/-- It checks the membership of the user the code was issued to. -/
def checkMember (w : Nat) : Option CodeRun :=
  match s.call w with
  | .consumed verifier since payload =>
    match requireMembership (s.members payload.orgId payload.userId) with
    | .error _ => some (s.goto w .idle)
    | .ok _ => some (s.goto w (.admitted verifier since payload s.clock))
  | _ => none

/-- It mints the key. -/
def mint (w : Nat) (id rawKey : String) (now : DateTime) : Option CodeRun :=
  match s.call w with
  | .admitted verifier since payload checkedAt =>
    match mintKey strip digest payload (s.organizations payload.orgId) id rawKey now with
    | .error _ => some (s.goto w .idle)
    | .ok key =>
      some { s.goto w .idle with keys := s.keys ++ [⟨key, verifier, since, checkedAt⟩] }
  | _ => none

/-- A membership changes, and there is a next membership table. -/
def setMember (orgId userId : UUID) (role : Option MembershipRole) : CodeRun :=
  let members := Function.update s.members orgId (Function.update (s.members orgId) userId role)
  { s with
    members := members
    clock := s.clock + 1
    past := Function.update s.past (s.clock + 1) members }

/-- One step. -/
def step : CodeAct → Option CodeRun
  | .issue userId orgId projectId codeChallenge method label expiresDays project =>
    s.issue strip userId orgId projectId codeChallenge method label expiresDays project
  | .exchange w verifier => s.exchange w verifier
  | .consume w => s.consume challengeOf w
  | .checkMember w => s.checkMember w
  | .mint w id rawKey now => s.mint strip digest w id rawKey now
  | .fail w => some (s.goto w .idle)
  | .expire => some { s with stored := none }
  | .setMember orgId userId role => some (s.setMember orgId userId role)
  | .setOrganization orgId organization =>
    some { s with organizations := Function.update s.organizations orgId organization }

/-- No code is issued yet. -/
def initial (members : UUID → UUID → Option MembershipRole)
    (organizations : UUID → Option Organization) : CodeRun :=
  ⟨none, none, members, organizations, 0, fun _ => members, [], fun _ => .idle⟩

/-! ## What every run keeps -/

variable {strip challengeOf digest : String → String} {s s' : CodeRun} {w : Nat}

/-- The call has deleted the code and not minted yet. -/
def holdsCode : ExchangeCall → Bool
  | .consumed .. => true
  | .admitted .. => true
  | _ => false

/-- The verifier fits the payload the code was issued for. -/
def Fits (challengeOf : String → String) (s : CodeRun) (verifier : String) (p : CodePayload) :
    Prop :=
  s.issued = some p ∧ verifyPkce challengeOf verifier p.codeChallenge = true

/-- A membership check made between the start of a call and now found the user a member. -/
def MemberAt (s : CodeRun) (p : CodePayload) (since checkedAt : Nat) : Prop :=
  since ≤ checkedAt ∧ checkedAt ≤ s.clock ∧ (s.past checkedAt p.orgId p.userId).isSome

/-- What is known of a call, by where it is. -/
def CallSound (challengeOf : String → String) (s : CodeRun) : ExchangeCall → Prop
  | .idle => True
  | .fetched _ since p => s.issued = some p ∧ since ≤ s.clock
  | .consumed verifier since p => Fits challengeOf s verifier p ∧ since ≤ s.clock
  | .admitted verifier since p checkedAt =>
    Fits challengeOf s verifier p ∧ MemberAt s p since checkedAt

/-- What is known of a minted key. -/
def KeySound (challengeOf : String → String) (s : CodeRun) (k : MintedKey) : Prop :=
  ∃ p, Fits challengeOf s k.verifier p ∧ MemberAt s p k.since k.checkedAt ∧
    k.key.orgId = p.orgId ∧ k.key.createdBy = some p.userId

/-- The code, the call that has deleted it and the key are at most one. -/
structure Sound (challengeOf : String → String) (s : CodeRun) : Prop where
  current : s.past s.clock = s.members
  stored : ∀ p, s.stored = some p →
    s.issued = some p ∧ s.keys = [] ∧ ∀ w, holdsCode (s.call w) = false
  held : ∀ w, holdsCode (s.call w) = true →
    s.keys = [] ∧ ∀ w', holdsCode (s.call w') = true → w' = w
  single : s.keys.length ≤ 1
  calls : ∀ w, CallSound challengeOf s (s.call w)
  keys : ∀ k ∈ s.keys, KeySound challengeOf s k

theorem sound_initial (members : UUID → UUID → Option MembershipRole)
    (organizations : UUID → Option Organization) :
    Sound challengeOf (initial members organizations) where
  current := rfl
  stored _ h := by cases h
  held _ h := by cases h
  single := Nat.zero_le 1
  calls _ := trivial
  keys _ h := by cases h

/-- The history goes on: the code is the same one, and earlier membership tables are kept. -/
structure Continues (s s' : CodeRun) : Prop where
  issued : ∀ p, s.issued = some p → s'.issued = some p
  clock : s.clock ≤ s'.clock
  past : ∀ n ≤ s.clock, s'.past n = s.past n

theorem Continues.fits {v : String} {p : CodePayload} (h : Continues s s')
    (hs : Fits challengeOf s v p) : Fits challengeOf s' v p :=
  ⟨h.issued p hs.1, hs.2⟩

theorem Continues.memberAt {p : CodePayload} {m n : Nat} (h : Continues s s')
    (hs : MemberAt s p m n) : MemberAt s' p m n := by
  obtain ⟨hle, hclock, hmember⟩ := hs
  refine ⟨hle, hclock.trans h.clock, ?_⟩
  rw [h.past n hclock]
  exact hmember

theorem Continues.callSound {c : ExchangeCall} (h : Continues s s')
    (hs : CallSound challengeOf s c) : CallSound challengeOf s' c := by
  cases c with
  | idle => trivial
  | fetched v m p => exact ⟨h.issued p hs.1, hs.2.trans h.clock⟩
  | consumed v m p => exact ⟨h.fits hs.1, hs.2.trans h.clock⟩
  | admitted v m p n => exact ⟨h.fits hs.1, h.memberAt hs.2⟩

theorem Continues.keySound {k : MintedKey} (h : Continues s s')
    (hs : KeySound challengeOf s k) : KeySound challengeOf s' k := by
  obtain ⟨p, hfits, hmember, horg⟩ := hs
  exact ⟨p, h.fits hfits, h.memberAt hmember, horg⟩

theorem continues_of_eq (hissued : s'.issued = s.issued) (hclock : s'.clock = s.clock)
    (hpast : s'.past = s.past) : Continues s s' :=
  ⟨fun _ h => hissued.trans h, hclock.ge, fun n _ => congrFun hpast n⟩

/-- A call moves on without taking hold of the code. -/
theorem sound_goto {c : ExchangeCall} (h : Sound challengeOf s) (hc : CallSound challengeOf s c)
    (hholds : holdsCode c = true → holdsCode (s.call w) = true) :
    Sound challengeOf (s.goto w c) := by
  have hcont : Continues s (s.goto w c) := continues_of_eq rfl rfl rfl
  -- whoever holds the code now held it before
  have hback : ∀ u, holdsCode ((s.goto w c).call u) = true → holdsCode (s.call u) = true := by
    intro u hu
    by_cases huw : u = w
    · subst huw
      exact hholds (by simpa [goto] using hu)
    · simpa [goto, Function.update_of_ne huw] using hu
  constructor
  · exact h.current
  · intro p hp
    obtain ⟨hissued, hkeys, hnone⟩ := h.stored p hp
    refine ⟨hissued, hkeys, fun u => ?_⟩
    by_contra hu
    exact absurd (hback u (by simpa using hu)) (by simp [hnone u])
  · intro u hu
    obtain ⟨hkeys, honly⟩ := h.held u (hback u hu)
    exact ⟨hkeys, fun u' hu' => honly u' (hback u' hu')⟩
  · exact h.single
  · intro u
    by_cases huw : u = w
    · subst huw
      simpa [goto] using hcont.callSound hc
    · simpa [goto, Function.update_of_ne huw] using hcont.callSound (h.calls u)
  · exact fun k hk => hcont.keySound (h.keys k hk)

/-- Nothing of the code changes but that it may be gone, and memberships may change. -/
theorem sound_of_continues (h : Sound challengeOf s) (hcont : Continues s s')
    (hcurrent : s'.past s'.clock = s'.members) (hstored : ∀ p, s'.stored = some p → s.stored = some p)
    (hkeys : s'.keys = s.keys) (hcall : s'.call = s.call) : Sound challengeOf s' := by
  constructor
  · exact hcurrent
  · intro p hp
    obtain ⟨hissued, hnil, hnone⟩ := h.stored p (hstored p hp)
    exact ⟨hcont.issued p hissued, hkeys.trans hnil, fun w => by rw [hcall]; exact hnone w⟩
  · intro w hw
    rw [hcall] at hw ⊢
    rw [hkeys]
    exact h.held w hw
  · rw [hkeys]
    exact h.single
  · intro w
    rw [hcall]
    exact hcont.callSound (h.calls w)
  · intro k hk
    rw [hkeys] at hk
    exact hcont.keySound (h.keys k hk)

/-! ## One step -/

theorem sound_issue {userId orgId projectId : UUID} {challenge method label : String} {days : Int}
    {project : Option Project} (h : Sound challengeOf s)
    (hs : s.issue strip userId orgId projectId challenge method label days project = some s') :
    Sound challengeOf s' := by
  unfold issue at hs
  split at hs
  next payload hnone _ =>
    cases hs
    -- no call and no key without an issued code
    have hcall : ∀ w, holdsCode (s.call w) = false := by
      intro w
      have hw := h.calls w
      cases hc : s.call w with
      | idle => rfl
      | fetched v m p => rfl
      | consumed v m p =>
        rw [hc] at hw
        exact absurd (hnone.symm.trans hw.1.1) (by simp)
      | admitted v m p n =>
        rw [hc] at hw
        exact absurd (hnone.symm.trans hw.1.1) (by simp)
    have hkeys : s.keys = [] := by
      refine List.eq_nil_iff_forall_not_mem.mpr fun k hk => ?_
      obtain ⟨p, hfits, -⟩ := h.keys k hk
      exact absurd (hnone.symm.trans hfits.1) (by simp)
    have hcont : Continues s { s with issued := some payload, stored := some payload } :=
      ⟨fun p hp => absurd (hnone.symm.trans hp) (by simp), le_rfl, fun _ _ => rfl⟩
    constructor
    · exact h.current
    · intro p hp
      exact ⟨hp, hkeys, hcall⟩
    · intro w hw
      exact absurd hw (by simp [hcall w])
    · exact h.single
    · exact fun w => hcont.callSound (h.calls w)
    · exact fun k hk => hcont.keySound (h.keys k hk)
  · cases hs
    exact h
  · cases hs

theorem sound_exchange {v : String} (h : Sound challengeOf s)
    (hs : s.exchange w v = some s') : Sound challengeOf s' := by
  unfold exchange at hs
  split at hs
  next hidle =>
    split at hs
    · cases hs
      exact h
    · split at hs
      · cases hs
        exact h
      next payload hp =>
        cases hs
        exact sound_goto h ⟨(h.stored payload hp).1, le_rfl⟩ (fun hc => by cases hc)
  · cases hs

/-- **Only a matching verifier consumes the code.** -/
theorem consume_cases (hs : s.consume challengeOf w = some s') :
    s' = s.goto w .idle ∨ ∃ v m p q, s.call w = .fetched v m p ∧ s.stored = some q ∧
      verifyPkce challengeOf v p.codeChallenge = true ∧
      s' = { s.goto w (.consumed v m p) with stored := none } := by
  unfold consume at hs
  split at hs
  next v m p hw =>
    split at hs
    next hok =>
      split at hs
      · cases hs
        exact .inl rfl
      next q hq =>
        cases hs
        exact .inr ⟨v, m, p, q, hw, hq, hok, rfl⟩
    · cases hs
      exact .inl rfl
  · cases hs

theorem sound_consume (h : Sound challengeOf s) (hs : s.consume challengeOf w = some s') :
    Sound challengeOf s' := by
  obtain rfl | ⟨v, m, p, q, hw, hq, hok, rfl⟩ := consume_cases hs
  · exact sound_goto h trivial (fun hc => by cases hc)
  · have hcall := h.calls w
    rw [hw] at hcall
    obtain ⟨-, hkeys, hnone⟩ := h.stored q hq
    have hcont : Continues s { s.goto w (.consumed v m p) with stored := none } :=
      continues_of_eq rfl rfl rfl
    constructor
    · exact h.current
    · intro _ hp
      cases hp
    · -- the code was there, so no other call has deleted it
      intro u _
      refine ⟨hkeys, fun u' hu' => ?_⟩
      have honly : ∀ x, holdsCode ((s.goto w (.consumed v m p)).call x) = true → x = w := by
        intro x hx
        by_contra hxw
        simp [goto, Function.update_of_ne hxw, hnone x] at hx
      rw [honly u' hu', honly u ‹_›]
    · exact h.single
    · intro u
      by_cases huw : u = w
      · subst huw
        simpa [goto] using hcont.callSound (c := .consumed v m p) ⟨⟨hcall.1, hok⟩, hcall.2⟩
      · simpa [goto, Function.update_of_ne huw] using hcont.callSound (h.calls u)
    · exact fun k hk => hcont.keySound (h.keys k hk)

theorem sound_checkMember (h : Sound challengeOf s) (hs : s.checkMember w = some s') :
    Sound challengeOf s' := by
  unfold checkMember at hs
  split at hs
  next v m p hw =>
    have hcall := h.calls w
    rw [hw] at hcall
    split at hs
    · cases hs
      exact sound_goto h trivial (fun hc => by cases hc)
    next role hrole =>
      cases hs
      have hmember : (s.past s.clock p.orgId p.userId).isSome := by
        rw [h.current]
        cases hm : s.members p.orgId p.userId with
        | none =>
          rw [hm] at hrole
          cases hrole
        | some role => rfl
      refine sound_goto h ⟨hcall.1, hcall.2, le_rfl, hmember⟩ (fun _ => ?_)
      rw [hw]
      rfl
  · cases hs

theorem sound_mint {id rawKey : String} {now : DateTime} (h : Sound challengeOf s)
    (hs : s.mint strip digest w id rawKey now = some s') : Sound challengeOf s' := by
  unfold mint at hs
  split at hs
  next v m p n hw =>
    have hcall := h.calls w
    rw [hw] at hcall
    split at hs
    · cases hs
      exact sound_goto h trivial (fun hc => by cases hc)
    next key hkey =>
      obtain ⟨horg, hby⟩ := createApiKey_ok hkey
      obtain ⟨hnil, honly⟩ := h.held w (by rw [hw]; rfl)
      -- the call that held the code is done, and nobody else holds it
      have hfree : ∀ u, holdsCode ((s.goto w .idle).call u) = false := by
        intro u
        by_cases huw : u = w
        · subst huw
          simp [goto, holdsCode]
        · by_contra hu
          simp only [goto, Function.update_of_ne huw, Bool.not_eq_false] at hu
          exact huw (honly u hu)
      have hidle : Sound challengeOf (s.goto w .idle) :=
        sound_goto h trivial (fun hc => by cases hc)
      cases hs
      constructor
      · exact h.current
      · intro q hq
        obtain ⟨-, -, hnone⟩ := h.stored q hq
        exact absurd (hnone w) (by simp [hw, holdsCode])
      · intro u hu
        exact absurd hu (by simp [hfree u])
      · show (s.keys ++ [_]).length ≤ 1
        simp [hnil]
      · exact hidle.calls
      · intro k hk
        simp only [hnil, List.nil_append, List.mem_singleton] at hk
        subst hk
        exact ⟨p, hcall.1, hcall.2, horg, hby⟩
  · cases hs

theorem sound_setMember {orgId userId : UUID} {role : Option MembershipRole}
    (h : Sound challengeOf s) : Sound challengeOf (s.setMember orgId userId role) := by
  refine sound_of_continues h ⟨fun _ hp => hp, Nat.le_succ _, fun n hn => ?_⟩ ?_
    (fun _ hp => hp) rfl rfl
  · exact Function.update_of_ne (by omega) ..
  · exact Function.update_self ..

theorem sound_step {a : CodeAct} (h : Sound challengeOf s)
    (hs : s.step strip challengeOf digest a = some s') : Sound challengeOf s' := by
  cases a with
  | issue userId orgId projectId challenge method label days project => exact sound_issue h hs
  | exchange w v => exact sound_exchange h hs
  | consume w => exact sound_consume h hs
  | checkMember w => exact sound_checkMember h hs
  | mint w id rawKey now => exact sound_mint h hs
  | fail w =>
    cases hs
    exact sound_goto h trivial (fun hc => by cases hc)
  | expire =>
    cases hs
    exact sound_of_continues h (continues_of_eq rfl rfl rfl) h.current (fun _ hp => by cases hp)
      rfl rfl
  | setMember orgId userId role =>
    cases hs
    exact sound_setMember h
  | setOrganization orgId organization =>
    cases hs
    exact sound_of_continues h (continues_of_eq rfl rfl rfl) h.current (fun _ hp => hp) rfl rfl

/-- **A step that removes the code** is its expiry, or the delete of a call whose verifier
matches. -/
theorem removal {a : CodeAct} (hs : s.step strip challengeOf digest a = some s')
    (hstored : s.stored.isSome) (hgone : s'.stored = none) :
    a = .expire ∨ ∃ w v m p, a = .consume w ∧ s.call w = .fetched v m p ∧
      verifyPkce challengeOf v p.codeChallenge = true := by
  have hkept : s'.stored = s.stored → False := by
    intro heq
    rw [← heq, hgone] at hstored
    cases hstored
  cases a with
  | expire => exact .inl rfl
  | consume w =>
    right
    obtain rfl | ⟨v, m, p, q, hw, -, hok, -⟩ := consume_cases hs
    · exact absurd rfl hkept
    · exact ⟨w, v, m, p, rfl, hw, hok⟩
  | issue userId orgId projectId challenge method label days project =>
    simp only [step, issue] at hs
    split at hs <;> cases hs
    · cases hgone
    · exact absurd rfl hkept
  | exchange w v =>
    simp only [step, exchange] at hs
    repeat' split at hs
    all_goals first | (cases hs; done) | (cases hs; exact absurd rfl hkept)
  | checkMember w =>
    simp only [step, checkMember] at hs
    repeat' split at hs
    all_goals first | (cases hs; done) | (cases hs; exact absurd rfl hkept)
  | mint w id rawKey now =>
    simp only [step, mint] at hs
    repeat' split at hs
    all_goals first | (cases hs; done) | (cases hs; exact absurd rfl hkept)
  | fail w =>
    cases hs
    exact absurd rfl hkept
  | setMember orgId userId role =>
    cases hs
    exact absurd rfl hkept
  | setOrganization orgId organization =>
    cases hs
    exact absurd rfl hkept

/-- **A login code is used once.**  In every state of every run: at most one key is minted from
the code; a minted key is of a call whose verifier's digest is the stored challenge, its
membership check, between the start of the call and now, found the issuing user a member of
the code's organization in the membership table of that time, and the key is of that
organization and that user; and only expiry or a call whose verifier matches removes the
code. -/
theorem code_single_use {members : UUID → UUID → Option MembershipRole}
    {organizations : UUID → Option Organization}
    (hreach : GuardedRun.Reach (step strip challengeOf digest) GuardedRun.Always
      (initial members organizations) s) :
    s.past s.clock = s.members ∧ s.keys.length ≤ 1 ∧
    (∀ k ∈ s.keys, ∃ p, s.issued = some p ∧ challengeOf k.verifier = p.codeChallenge ∧
      k.key.orgId = p.orgId ∧ k.key.createdBy = some p.userId ∧
      k.since ≤ k.checkedAt ∧ k.checkedAt ≤ s.clock ∧
      (s.past k.checkedAt p.orgId p.userId).isSome) ∧
    (∀ a s', s.step strip challengeOf digest a = some s' → s.stored.isSome → s'.stored = none →
      a = .expire ∨ ∃ w v m p, a = .consume w ∧ s.call w = .fetched v m p ∧
        s.issued = some p ∧ challengeOf v = p.codeChallenge) := by
  have hsound : Sound challengeOf s :=
    hreach.invariant (sound_initial members organizations) fun _ _ _ h _ hs => sound_step h hs
  refine ⟨hsound.current, hsound.single, fun k hk => ?_, fun a s' hs hstored hgone => ?_⟩
  · obtain ⟨p, ⟨hissued, hfits⟩, ⟨hle, hclock, hmember⟩, horg, hby⟩ := hsound.keys k hk
    exact ⟨p, hissued, beq_iff_eq.mp hfits, horg, hby, hle, hclock, hmember⟩
  · obtain rfl | ⟨w, v, m, p, rfl, hw, hok⟩ := removal hs hstored hgone
    · exact .inl rfl
    · have hcall := hsound.calls w
      rw [hw] at hcall
      exact .inr ⟨w, v, m, p, rfl, hw, hcall.1, beq_iff_eq.mp hok⟩

/-- A member of the organization, an organization and a project. -/
def oneMember : UUID → UUID → Option MembershipRole := fun org user =>
  if org = "org" ∧ user = "user" then some .member else none

/-- The organization of the login. -/
def oneOrganization : UUID → Option Organization := fun org =>
  if org = "org" then some ⟨"org", "Org", 0⟩ else none

/-- The PKCE challenge of a verifier. -/
def sampleChallenge (v : String) : String :=
  if v = "verifier" then "iMnq5o6zALKXGivsnlom_0F5_WYda32GHkxlV7mq7hQ"
  else "iBCtWB5Z8rw5KLJhcHpxMI9-E56wSCA2bcTVwY2YAiU"

/-- The code is issued; a wrong verifier is refused, two calls pass the check, one of them
deletes the code and mints the key. -/
def contendedLogin : List CodeAct :=
  [.issue "user" "org" "project" (sampleChallenge "verifier") "S256" "laptop" 90
      (some ⟨"project", "org", "Project", "", 0⟩),
    .exchange 0 "wrong", .consume 0, .exchange 1 "verifier", .exchange 2 "verifier", .consume 2,
    .consume 1, .checkMember 2, .mint 2 "key" "sk_pp_abcd1234" 0]

theorem code_single_use_contended :
    ∃ s, GuardedRun.run (step id sampleChallenge id) (initial oneMember oneOrganization)
        contendedLogin = some s ∧
      s.keys.map (fun k => (k.verifier, k.key.orgId)) = [("verifier", "org")] ∧
      s.keys.length ≤ 1 := by
  obtain ⟨s, hs⟩ := Option.isSome_iff_exists.mp
    (show (GuardedRun.run (step id sampleChallenge id) (initial oneMember oneOrganization)
      contendedLogin).isSome from by decide +kernel)
  have hsafe := code_single_use (GuardedRun.reach_of_run hs)
  refine ⟨s, hs, ?_, hsafe.2.1⟩
  have hkeys : (GuardedRun.run (step id sampleChallenge id) (initial oneMember oneOrganization)
      contendedLogin).map (fun s => s.keys.map (fun k => (k.verifier, k.key.orgId))) =
      some [("verifier", "org")] := by decide +kernel
  rw [hs] at hkeys
  exact Option.some.inj hkeys

end CodeRun
end PandaProbe
