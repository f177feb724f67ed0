import PandaProbe.StripeWebhook

/-! # The owned-lock protocol

Any number of clients, each with a token of its own, send the three lock scripts to one
Redis key.  A command is executed any number of times until its client sends the next one:
the network layer repeats a command whose reply is lost, and the repetition may come after
commands of other clients.  The key does not expire here.

A client believes it holds the lock when its last acquire answered 1 and it has sent neither
release nor complete since.  What carries mutual exclusion is that such a client's token is
the key's value, and that its last command is that acquire (`Sound`).
-/
namespace PandaProbe

/-- The three scripts of `locks.py`. -/
inductive LockCommand
  | acquire | release | complete
  deriving DecidableEq, Repr

/-- One execution of a command: the key afterwards, and the answer. -/
def LockCommand.run (key : Option String) (token : String) : LockCommand → Option String × Bool
  | .acquire => acquireOwnedLock key token
  | .release => (releaseOwnedLock key token, key == some token)
  | .complete => completeOwnedLock key token

/-- The key, the command each client sent last, and who believes to hold the lock. -/
structure LockRun where
  key : Option String
  sent : LockToken → Option LockCommand
  believes : LockToken → Bool

/-- A client sends a command, or its last command is executed, perhaps once more. -/
inductive LockAct
  | send (t : LockToken) (c : LockCommand)
  | exec (t : LockToken)
  deriving DecidableEq

namespace LockRun

/-- No client has sent anything yet. -/
def initial (key : Option String) : LockRun := ⟨key, fun _ => none, fun _ => false⟩

/-- One step. -/
def step (s : LockRun) : LockAct → Option LockRun
  | .send t c =>
    some { s with
      sent := Function.update s.sent t (some c)
      believes := if c = .acquire then s.believes else Function.update s.believes t false }
  | .exec t =>
    match s.sent t with
    | none => none
    | some c =>
      let r := c.run s.key t.val
      some { s with
        key := r.1
        believes := if c = .acquire then Function.update s.believes t r.2 else s.believes }

/-! ## One execution -/

variable {key : Option String} {t u : LockToken} {c : LockCommand} {s s' : LockRun}

theorem token_ne_completed (t : LockToken) : some t.val ≠ some completedValue :=
  fun h => t.property (Option.some.inj h)

/-- The value an acquire or a complete that succeeds leaves. -/
def mark (token : String) : LockCommand → String
  | .acquire => token
  | _ => completedValue

/-- **What a success leaves.** -/
theorem run_success (hc : c ≠ .release) (h : (c.run key t.val).2 = true) :
    (c.run key t.val).1 = some (mark t.val c) := by
  cases c with
  | acquire =>
    simp only [LockCommand.run, acquireOwnedLock, mark] at h ⊢
    split
    next hown => exact hown
    next hown =>
      rw [if_neg hown] at h
      split
      next hheld =>
        rw [if_pos hheld] at h
        cases h
      · rfl
  | release => exact absurd rfl hc
  | complete =>
    simp only [LockCommand.run, completeOwnedLock, mark] at h ⊢
    split
    · rfl
    next hown =>
      rw [if_neg hown] at h
      split
      next hmarker => exact hmarker
      next hmarker =>
        rw [if_neg hmarker] at h
        cases h

/-- It succeeds again on what it left. -/
theorem run_mark (hc : c ≠ .release) :
    c.run (some (mark t.val c)) t.val = (some (mark t.val c), true) := by
  cases c with
  | acquire => simp [LockCommand.run, acquireOwnedLock, mark]
  | release => exact absurd rfl hc
  | complete => simp [LockCommand.run, completeOwnedLock, mark]

/-- What it left is no other client's token. -/
theorem mark_ne (hut : u ≠ t) : some (mark t.val c) ≠ some u.val := by
  intro he
  cases c with
  | acquire => exact hut (Subtype.ext (Option.some.inj he).symm)
  | release => exact token_ne_completed u he.symm
  | complete => exact token_ne_completed u he.symm

/-- **The other two scripts** change only a key that holds their token. -/
theorem run_of_not_owner (hc : c ≠ .acquire) (hkey : key ≠ some t.val) :
    (c.run key t.val).1 = key := by
  cases c with
  | acquire => exact absurd rfl hc
  | release => exact if_neg hkey
  | complete =>
    simp only [LockCommand.run, completeOwnedLock, if_neg hkey]
    split <;> rfl

/-- **A taken key is left alone** by every client but its owner. -/
theorem run_of_taken {v : String} (hne : some v ≠ some t.val) :
    (c.run (some v) t.val).1 = some v := by
  by_cases hc : c = .acquire
  · subst hc
    simp only [LockCommand.run, acquireOwnedLock, if_neg hne, Option.isSome_some, if_true]
  · exact run_of_not_owner hc hne

/-! ## What every run keeps -/

/-- A client that believes to hold the lock owns the key, and has sent nothing since its
acquire. -/
def Sound (s : LockRun) : Prop :=
  ∀ t, s.believes t = true → s.key = some t.val ∧ s.sent t = some .acquire

theorem sound_initial (key : Option String) : Sound (initial key) := by
  intro t h
  cases h

theorem sound_send (h : Sound s) (hs : s.step (.send t c) = some s') : Sound s' := by
  cases hs
  intro u hu
  by_cases hut : u = t
  · subst hut
    by_cases hc : c = .acquire
    · subst hc
      rw [if_pos rfl] at hu
      exact ⟨(h u hu).1, Function.update_self ..⟩
    · simp [hc] at hu
  · have hbelieves : s.believes u = true := by
      by_cases hc : c = .acquire
      · simpa [hc] using hu
      · simpa [hc, Function.update_of_ne hut] using hu
    obtain ⟨hkey, hsent⟩ := h u hbelieves
    exact ⟨hkey, (Function.update_of_ne hut ..).trans hsent⟩

theorem sound_exec (h : Sound s) (hs : s.step (.exec t) = some s') : Sound s' := by
  simp only [step] at hs
  split at hs
  · cases hs
  next c hsent =>
    cases hs
    intro u hu
    by_cases hut : u = t
    · subst hut
      by_cases hc : c = .acquire
      · subst hc
        simp only [if_true, Function.update_self] at hu
        exact ⟨run_success (by decide) hu, hsent⟩
      · -- a client that has sent release or complete believes nothing
        simp only [hc, if_false] at hu
        obtain ⟨-, hlast⟩ := h u hu
        exact absurd (Option.some.inj (hsent.symm.trans hlast)) hc
    · have hbelieves : s.believes u = true := by
        by_cases hc : c = .acquire
        · simpa [hc, Function.update_of_ne hut] using hu
        · simpa [hc] using hu
      obtain ⟨hkey, hlast⟩ := h u hbelieves
      refine ⟨?_, hlast⟩
      show (c.run s.key t.val).1 = some u.val
      rw [hkey]
      exact run_of_taken fun he => hut (Subtype.ext (Option.some.inj he))

theorem sound_step {a : LockAct} (h : Sound s) (hs : s.step a = some s') : Sound s' := by
  cases a with
  | send t c => exact sound_send h hs
  | exec t => exact sound_exec h hs

/-- A key that holds a value keeps it, as long as its owner's commands are not executed. -/
theorem key_step {a : LockAct} {v : String} (hkey : s.key = some v)
    (hexec : ∀ t, a = .exec t → some v ≠ some t.val) (hs : s.step a = some s') :
    s'.key = some v := by
  cases a with
  | send t c =>
    cases hs
    exact hkey
  | exec t =>
    simp only [step] at hs
    split at hs
    · cases hs
    next c _ =>
      cases hs
      show (c.run s.key t.val).1 = some v
      rw [hkey]
      exact run_of_taken (hexec t rfl)

/-- **The completion marker stays for ever.** -/
theorem completed_of_reach (hkey : s.key = some completedValue)
    (hreach : GuardedRun.Reach step GuardedRun.Always s s') : s'.key = some completedValue := by
  refine hreach.invariant (I := fun x => x.key = some completedValue) hkey ?_
  intro x a x' hx _ hs
  exact key_step hx (fun t _ h => token_ne_completed t h.symm) hs

/-- **What a command that succeeded left stays**, as long as its client sends no other one. -/
theorem marked_of_reach (hc : c ≠ .release) (hsent : s.sent t = some c)
    (hkey : s.key = some (mark t.val c))
    (hreach : GuardedRun.Reach step (fun _ a => ∀ c', a ≠ .send t c') s s') :
    s'.sent t = some c ∧ s'.key = some (mark t.val c) := by
  refine hreach.invariant (I := fun x => x.sent t = some c ∧ x.key = some (mark t.val c))
    ⟨hsent, hkey⟩ ?_
  rintro x a x' ⟨hx, hxkey⟩ ha hs
  cases a with
  | send u c' =>
    cases hs
    have htu : t ≠ u := by
      rintro rfl
      exact ha c' rfl
    exact ⟨(Function.update_of_ne htu ..).trans hx, hxkey⟩
  | exec u =>
    simp only [step] at hs
    split at hs
    · cases hs
    next c' hu =>
      cases hs
      refine ⟨hx, ?_⟩
      show (c'.run x.key u.val).1 = some (mark t.val c)
      rw [hxkey]
      by_cases hut : u = t
      · -- a replay of the command itself
        subst hut
        obtain rfl := Option.some.inj (hu.symm.trans hx)
        rw [run_mark hc]
      · exact run_of_taken (mark_ne hut)

/-- **The lock protocol is safe.**  In every state of every run: at most one client believes
to hold the lock; an execution of release or complete whose token does not hold the key
leaves the key as it is; after a complete by the holder the key holds the completion marker
for ever, and no acquire succeeds; and an acquire or complete that succeeded succeeds again
whenever it is replayed, leaving the key as it is. -/
theorem lock_safe {key : Option String} {s : LockRun}
    (hreach : GuardedRun.Reach step GuardedRun.Always (initial key) s) :
    (∀ t u, s.believes t = true → s.believes u = true → t = u) ∧
    (∀ t c s', s.sent t = some c → c ≠ .acquire → s.key ≠ some t.val →
      s.step (.exec t) = some s' → s'.key = s.key) ∧
    (∀ t s' s'', s.sent t = some .complete → s.key = some t.val → s.step (.exec t) = some s' →
      GuardedRun.Reach step GuardedRun.Always s' s'' →
        s''.key = some completedValue ∧
          ∀ u : LockToken, (LockCommand.run s''.key u.val .acquire).2 = false) ∧
    (∀ t c s' s'', s.sent t = some c → c ≠ .release → (c.run s.key t.val).2 = true →
      s.step (.exec t) = some s' →
      GuardedRun.Reach step (fun _ a => ∀ c', a ≠ .send t c') s' s'' →
        s''.sent t = some c ∧ c.run s''.key t.val = (s''.key, true)) := by
  have hsound : Sound s :=
    hreach.invariant (sound_initial key) fun _ _ _ h _ hs => sound_step h hs
  refine ⟨fun t u ht hu => ?_, fun t c s' hsent hc hkey hs => ?_,
    fun t s' s'' hsent hkey hs hrun => ?_, fun t c s' s'' hsent hc hok hs hrun => ?_⟩
  · obtain ⟨htkey, -⟩ := hsound t ht
    obtain ⟨hukey, -⟩ := hsound u hu
    exact Subtype.ext (Option.some.inj (htkey.symm.trans hukey))
  · simp only [step, hsent] at hs
    cases hs
    exact run_of_not_owner hc hkey
  · have hmarked : s'.key = some completedValue := by
      simp only [step, hsent] at hs
      cases hs
      show (LockCommand.run s.key t.val .complete).1 = _
      rw [hkey]
      simp [LockCommand.run, completeOwnedLock]
    have hdone := completed_of_reach hmarked hrun
    refine ⟨hdone, fun u => ?_⟩
    rw [hdone]
    simp [LockCommand.run, acquireOwnedLock, u.property.symm]
  · have hleft : s'.sent t = some c ∧ s'.key = some (mark t.val c) := by
      simp only [step, hsent] at hs
      cases hs
      exact ⟨hsent, run_success hc hok⟩
    obtain ⟨hlast, hkey⟩ := marked_of_reach hc hleft.1 hleft.2 hrun
    refine ⟨hlast, ?_⟩
    rw [hkey]
    exact run_mark hc

theorem a_ne_completed : "a" ≠ completedValue := by decide

theorem b_ne_completed : "b" ≠ completedValue := by decide

/-- Two tokens. -/
def tokenA : LockToken := ⟨"a", a_ne_completed⟩

/-- The second token. -/
def tokenB : LockToken := ⟨"b", b_ne_completed⟩

/-- The first client takes the lock, its acquire is replayed after one of the other client was
refused, and it completes. -/
def contended : List LockAct :=
  [.send tokenA .acquire, .exec tokenA, .send tokenB .acquire, .exec tokenB, .exec tokenA,
    .send tokenA .complete]

/-- The complete runs: the marker is there to stay. -/
theorem lock_safe_contended : ∃ s, GuardedRun.run step (initial none) contended = some s ∧
    s.believes tokenB = false ∧ s.key = some tokenA.val ∧
    ∃ s', s.step (.exec tokenA) = some s' ∧ s'.key = some completedValue ∧
      (LockCommand.run s'.key tokenB.val .acquire).2 = false := by
  obtain ⟨s, hs⟩ := Option.isSome_iff_exists.mp
    (show (GuardedRun.run step (initial none) contended).isSome from rfl)
  have hsafe := lock_safe (GuardedRun.reach_of_run hs)
  cases hs
  refine ⟨_, rfl, rfl, rfl, _, rfl, ?_⟩
  obtain ⟨hkey, hrefused⟩ := hsafe.2.2.1 tokenA _ _ rfl rfl rfl .initial
  exact ⟨hkey, hrefused tokenB⟩

end LockRun
end PandaProbe
