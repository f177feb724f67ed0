import PandaProbe.GuardedRun

/-! # Delivery attempts of one Stripe event

`stripe_webhook` guards the handler of an event with an owned Redis lock: the first
attempt takes it, a success turns it into a durable completion marker, a failure
releases it.  An attempt that is refused the lock answers 200 at once, whether it
met the marker or only the lock of an attempt still at work.

The machine here has any number of attempts of one event, interleaved at each call
to Redis and at the end of each handler.  Every call may fail before or after its
script ran, a handler may raise, and an attempt may crash anywhere.

An acknowledged event is processed in every run in which no attempt fails behind a
duplicate's back (`Backed`); `acknowledged_unprocessed` is the run that breaks it.
-/
namespace PandaProbe

/-- `_COMPLETED_VALUE`. -/
def completedValue : String := "completed"

/-- A `uuid4().hex` lock token, never the completion marker. -/
abbrev LockToken := { s : String // s ≠ completedValue }

/-- `_ACQUIRE_LOCK_SCRIPT`: the key afterwards, and whether the lock was taken. -/
def acquireOwnedLock (key : Option String) (token : String) : Option String × Bool :=
  if key = some token then (key, true)
  else if key.isSome then (key, false)
  else (some token, true)

/-- `_RELEASE_LOCK_SCRIPT`: delete the key if the token still owns it. -/
def releaseOwnedLock (key : Option String) (token : String) : Option String :=
  if key = some token then none else key

/-- `_COMPLETE_LOCK_SCRIPT`: replace an owned lock with the completion marker. -/
def completeOwnedLock (key : Option String) (token : String) : Option String × Bool :=
  if key = some token then (some completedValue, true)
  else if key = some completedValue then (key, true)
  else (key, false)

/-- `_HANDLED_EVENTS`. -/
def handledEvents : List String :=
  ["checkout.session.completed", "invoice.created", "invoice.paid", "invoice.payment_failed",
    "customer.subscription.updated", "customer.subscription.deleted"]

/-- What `stripe.Webhook.construct_event` makes of a request. -/
inductive Verification
  | invalidPayload | invalidSignature | event
  deriving DecidableEq, Repr

/-- Where an attempt stands. -/
inductive AttemptPhase
  | absent
  | received
  | processing
  | handlerFailed
  | handlerDone
  | answered (status : Nat)
  | crashed
  deriving DecidableEq, Repr

/-- An attempt has finished once it is answered or has crashed; one that never
arrived counts as finished. -/
def AttemptPhase.finished : AttemptPhase → Bool
  | .absent | .answered _ | .crashed => true
  | _ => false

/-- How a call to Redis goes: it returns, or it raises with the script run or not. -/
inductive RedisCall
  | returned | raisedAfter | raisedBefore
  deriving DecidableEq, Repr

/-- The event's idempotency key, the attempts by their tokens, and two notes on what
has happened: `done t`, the handler of `t` ran to completion; `relied t`, a duplicate
has been answered because `t` held the lock. -/
structure WebhookState where
  key : Option String
  phase : LockToken → AttemptPhase
  done : LockToken → Bool
  relied : LockToken → Bool

namespace StripeWebhook

/-- No attempt has arrived. -/
def initial : WebhookState :=
  ⟨none, fun _ => .absent, fun _ => false, fun _ => false⟩

/-- Something an attempt does, or the idempotency key reaching its time to live. -/
inductive Act
  | arrive (t : LockToken) (verified : Verification)
  | acquire (t : LockToken) (call : RedisCall)
  | handle (t : LockToken) (succeeds : Bool)
  | release (t : LockToken) (call : RedisCall)
  | complete (t : LockToken) (call : RedisCall)
  | crash (t : LockToken)
  | expire
  deriving DecidableEq

/-- The attempt moves to a phase. -/
def enter (s : WebhookState) (t : LockToken) (p : AttemptPhase) : WebhookState :=
  { s with phase := Function.update s.phase t p }

@[simp] theorem enter_phase_self (s : WebhookState) (t : LockToken) (p : AttemptPhase) :
    (enter s t p).phase t = p := Function.update_self ..

theorem enter_phase_of_ne (s : WebhookState) {t u : LockToken} (p : AttemptPhase) (h : u ≠ t) :
    (enter s t p).phase u = s.phase u := Function.update_of_ne h ..

/-- The lock is held by an attempt whose handler is running. -/
def Processing (s : WebhookState) : Prop :=
  ∃ t : LockToken, s.key = some t.val ∧ s.phase t = .processing

instance (s : WebhookState) : Decidable (Processing s) :=
  match hk : s.key with
  | none => isFalse (by rintro ⟨t, ht, -⟩; rw [hk] at ht; cases ht)
  | some v =>
    if hv : v = completedValue then
      isFalse (by
        rintro ⟨t, ht, -⟩
        rw [hk] at ht
        exact t.property ((Option.some.inj ht).symm.trans hv))
    else if hp : s.phase ⟨v, hv⟩ = .processing then isTrue ⟨⟨v, hv⟩, hk, hp⟩
    else
      isFalse (by
        rintro ⟨t, ht, hpt⟩
        rw [hk] at ht
        have : t = ⟨v, hv⟩ := Subtype.ext (Option.some.inj ht).symm
        exact hp (this ▸ hpt))

/-- One step of `stripe_webhook`, for an event of type `eventType`.  The processing
lock does not expire while its handler runs. -/
def step (eventType : String) (s : WebhookState) : Act → Option WebhookState
  | .arrive t verified =>
    if s.phase t = .absent then
      match verified with
      | .invalidPayload | .invalidSignature => some (enter s t (.answered 400))
      | .event =>
        if eventType ∈ handledEvents then some (enter s t .received)
        else some (enter s t (.answered 200))
    else none
  | .acquire t call =>
    if s.phase t = .received then
      let (key, acquired) := acquireOwnedLock s.key t.val
      match call with
      | .returned =>
        if acquired then some (enter { s with key := key } t .processing)
        else
          some (enter { s with relied := fun u => s.relied u || s.key == some u.val } t
            (.answered 200))
      | .raisedAfter => some (enter { s with key := key } t (.answered 500))
      | .raisedBefore => some (enter s t (.answered 500))
    else none
  | .handle t succeeds =>
    if s.phase t = .processing then
      if succeeds then
        some (enter { s with done := Function.update s.done t true } t .handlerDone)
      else some (enter s t .handlerFailed)
    else none
  | .release t call =>
    if s.phase t = .handlerFailed then
      match call with
      | .returned | .raisedAfter =>
        some (enter { s with key := releaseOwnedLock s.key t.val } t (.answered 500))
      | .raisedBefore => some (enter s t (.answered 500))
    else none
  | .complete t call =>
    if s.phase t = .handlerDone then
      let (key, _) := completeOwnedLock s.key t.val
      match call with
      | .returned => some (enter { s with key := key } t (.answered 200))
      | .raisedAfter => some (enter { s with key := key } t (.answered 500))
      | .raisedBefore => some (enter s t (.answered 500))
    else none
  | .crash t => if (s.phase t).finished then none else some (enter s t .crashed)
  | .expire => if Processing s then none else some { s with key := none }

/-- Some handler has run to successful completion. -/
def Processed (s : WebhookState) : Prop := ∃ t, s.done t = true

/-- **The condition on a run.**  A duplicate is turned away only by the completion
marker or by an attempt whose handler is still running, and such an attempt does not
fail once a duplicate has been answered on its account; unless some handler has
already completed. -/
def Backed (s : WebhookState) : Act → Prop
  | .acquire t .returned =>
      (acquireOwnedLock s.key t.val).2 = false →
        s.key = some completedValue ∨ Processing s ∨ Processed s
  | .handle t false => s.phase t = .processing → s.relied t = true → Processed s
  | .crash t => s.phase t = .processing → s.relied t = true → Processed s
  | _ => True

/-- What a run with `Backed` steps keeps: the marker stands for a completed handler,
and so does every 200, unless the attempt it relied on is still processing. -/
structure Sound (s : WebhookState) : Prop where
  marker : s.key = some completedValue → Processed s
  handled : ∀ t, s.phase t = .handlerDone → s.done t = true
  answered : ∀ t, s.phase t = .answered 200 →
    Processed s ∨ ∃ u, s.phase u = .processing ∧ s.relied u = true

theorem sound_initial : Sound initial where
  marker h := by cases h
  handled t h := by cases h
  answered t h := by cases h

/-- `s'` is `s` with another key and more notes. -/
structure Extends (s s' : WebhookState) : Prop where
  phase : s'.phase = s.phase
  done : ∀ u, s.done u = true → s'.done u = true
  relied : ∀ u, s.relied u = true → s'.relied u = true

theorem Extends.refl (s : WebhookState) : Extends s s := ⟨rfl, fun _ h => h, fun _ h => h⟩

theorem Extends.processed {s s' : WebhookState} (h : Extends s s') (hp : Processed s) :
    Processed s' := by
  obtain ⟨t, ht⟩ := hp
  exact ⟨t, h.done t ht⟩

/-- Moving an attempt to a new phase keeps the state sound when its key, a completed
handler, a 200 and the end of a relied-on handler are each accounted for. -/
theorem sound_enter {s s' : WebhookState} {t : LockToken} {p : AttemptPhase} (h : Sound s)
    (hext : Extends s s') (hkey : s'.key = some completedValue → Processed s')
    (hdone : p = .handlerDone → s'.done t = true)
    (hanswer : p = .answered 200 →
      Processed s' ∨ ∃ u, u ≠ t ∧ s'.phase u = .processing ∧ s'.relied u = true)
    (hleave : s.phase t = .processing → s.relied t = true → Processed s') :
    Sound (enter s' t p) where
  marker := hkey
  handled u hu := by
    by_cases hut : u = t
    · subst hut
      exact hdone (by simpa using hu)
    · rw [enter_phase_of_ne s' p hut, hext.phase] at hu
      exact hext.done u (h.handled u hu)
  answered u hu := by
    have hkeep : ∀ v, v ≠ t → s'.phase v = .processing → s'.relied v = true →
        Processed (enter s' t p) ∨
          ∃ v, (enter s' t p).phase v = .processing ∧ (enter s' t p).relied v = true := by
      intro v hvt hv hr
      exact Or.inr ⟨v, (enter_phase_of_ne s' p hvt).trans hv, hr⟩
    by_cases hut : u = t
    · subst hut
      rcases hanswer (by simpa using hu) with hp | ⟨v, hvt, hv, hr⟩
      · exact Or.inl hp
      · exact hkeep v hvt hv hr
    · rw [enter_phase_of_ne s' p hut, hext.phase] at hu
      rcases h.answered u hu with hp | ⟨v, hv, hr⟩
      · exact Or.inl (hext.processed hp)
      -- the handler that a 200 relied on may be the very attempt that leaves
      · by_cases hvt : v = t
        · subst hvt
          exact Or.inl (hleave hv hr)
        · exact hkeep v hvt (hext.phase ▸ hv) (hext.relied v hr)

/-- An attempt that is not processing leaves no handler behind. -/
theorem not_processing {s : WebhookState} {t : LockToken} {p : AttemptPhase} {P : Prop}
    (ht : s.phase t = p) (hp : p ≠ .processing) : s.phase t = .processing → P :=
  fun h => absurd (ht.symm.trans h) hp

theorem acquireOwnedLock_key {key : Option String} {t : LockToken}
    (h : (acquireOwnedLock key t.val).1 = some completedValue) : key = some completedValue := by
  unfold acquireOwnedLock at h
  split at h
  · exact h
  · split at h
    · exact h
    · exact absurd (Option.some.inj h) t.property

theorem releaseOwnedLock_key {key : Option String} {token : String}
    (h : releaseOwnedLock key token = some completedValue) : key = some completedValue := by
  unfold releaseOwnedLock at h
  split at h
  · cases h
  · exact h

section Step
variable {eventType : String} {s s' : WebhookState} {t : LockToken}

theorem sound_acquire (h : Sound s) {call : RedisCall}
    (hok : Backed s (.acquire t call)) (hs : step eventType s (.acquire t call) = some s') :
    Sound s' := by
  simp only [step] at hs
  split at hs
  next hph =>
    have hleave : s.phase t = .processing → s.relied t = true → Processed s :=
      not_processing hph (by decide)
    cases call with
    | returned =>
      simp only at hs
      split at hs
      next hacq =>
        cases hs
        exact sound_enter h ⟨rfl, fun _ h => h, fun _ h => h⟩
          (fun hk => h.marker (acquireOwnedLock_key hk)) (by simp) (by simp) hleave
      next hacq =>
        cases hs
        refine sound_enter h ⟨rfl, fun _ h => h, fun u hu => by simp [hu]⟩ h.marker (by simp) ?_
          hleave
        intro _
        -- the refused attempt is answered 200: the key must stand for a handler that got through
        rcases hok (by simpa using hacq) with hk | ⟨u, hu, hpu⟩ | hp
        · exact Or.inl (h.marker hk)
        · refine Or.inr ⟨u, ?_, hpu, by simp [hu]⟩
          rintro rfl
          exact absurd (hph.symm.trans hpu) (by decide)
        · exact Or.inl hp
    | raisedAfter =>
      cases hs
      exact sound_enter h ⟨rfl, fun _ h => h, fun _ h => h⟩
        (fun hk => h.marker (acquireOwnedLock_key hk)) (by simp) (by simp) hleave
    | raisedBefore =>
      cases hs
      exact sound_enter h (.refl s) h.marker (by simp) (by simp) hleave
  next => cases hs

theorem sound_arrive (hty : eventType ∈ handledEvents) (h : Sound s) {verified : Verification}
    (hs : step eventType s (.arrive t verified) = some s') : Sound s' := by
  simp only [step] at hs
  split at hs
  next hph =>
    have hleave : s.phase t = .processing → s.relied t = true → Processed s :=
      not_processing hph (by decide)
    cases verified with
    | event =>
      cases hs
      exact sound_enter h (.refl s) h.marker (by simp) (by simp) hleave
    | invalidPayload =>
      cases hs
      exact sound_enter h (.refl s) h.marker (by simp) (by simp) hleave
    | invalidSignature =>
      cases hs
      exact sound_enter h (.refl s) h.marker (by simp) (by simp) hleave
  next => cases hs

theorem sound_handle (h : Sound s) {succeeds : Bool} (hok : Backed s (.handle t succeeds))
    (hs : step eventType s (.handle t succeeds) = some s') : Sound s' := by
  simp only [step] at hs
  split at hs
  next hph =>
    cases succeeds with
    | true =>
      cases hs
      have hproc : Processed { s with done := Function.update s.done t true } :=
        ⟨t, Function.update_self ..⟩
      refine sound_enter h ⟨rfl, fun u hu => ?_, fun _ h => h⟩ (fun _ => hproc)
        (fun _ => Function.update_self ..) (by simp) (fun _ _ => hproc)
      by_cases hut : u = t
      · subst hut
        exact Function.update_self ..
      · simpa [Function.update_of_ne hut] using hu
    | false =>
      cases hs
      exact sound_enter h (.refl s) h.marker (by simp) (by simp) hok
  next => cases hs

theorem sound_release (h : Sound s) {call : RedisCall}
    (hs : step eventType s (.release t call) = some s') : Sound s' := by
  simp only [step] at hs
  split at hs
  next hph =>
    have hleave : s.phase t = .processing → s.relied t = true → Processed s :=
      not_processing hph (by decide)
    have hran : Sound (enter { s with key := releaseOwnedLock s.key t.val } t (.answered 500)) :=
      sound_enter h ⟨rfl, fun _ h => h, fun _ h => h⟩
        (fun hk => h.marker (releaseOwnedLock_key hk)) (by simp) (by simp) hleave
    cases call with
    | returned => cases hs; exact hran
    | raisedAfter => cases hs; exact hran
    | raisedBefore =>
      cases hs
      exact sound_enter h (.refl s) h.marker (by simp) (by simp) hleave
  next => cases hs

theorem sound_complete (h : Sound s) {call : RedisCall}
    (hs : step eventType s (.complete t call) = some s') : Sound s' := by
  simp only [step] at hs
  split at hs
  next hph =>
    have hproc : Processed s := ⟨t, h.handled t hph⟩
    have hran : ∀ p, p ≠ .handlerDone →
        Sound (enter { s with key := (completeOwnedLock s.key t.val).1 } t p) := by
      intro p hp
      exact sound_enter h ⟨rfl, fun _ h => h, fun _ h => h⟩ (fun _ => hproc)
        (fun h => absurd h hp) (fun _ => Or.inl hproc) (fun _ _ => hproc)
    cases call with
    | returned => cases hs; exact hran _ (by decide)
    | raisedAfter => cases hs; exact hran _ (by decide)
    | raisedBefore =>
      cases hs
      exact sound_enter h (.refl s) h.marker (by simp) (by simp) (fun _ _ => hproc)
  next => cases hs

theorem sound_crash (h : Sound s) (hok : Backed s (.crash t))
    (hs : step eventType s (.crash t) = some s') : Sound s' := by
  simp only [step] at hs
  split at hs
  next => cases hs
  next =>
    cases hs
    exact sound_enter h (.refl s) h.marker (by simp) (by simp) hok

theorem sound_expire (h : Sound s) (hs : step eventType s .expire = some s') : Sound s' := by
  simp only [step] at hs
  split at hs
  next => cases hs
  next =>
    cases hs
    exact ⟨fun hk => (by cases hk), h.handled, h.answered⟩

/-- **One step that meets the condition keeps the state sound.** -/
theorem sound_step (hty : eventType ∈ handledEvents) {a : Act} (h : Sound s) (hok : Backed s a)
    (hs : step eventType s a = some s') : Sound s' := by
  cases a with
  | arrive t verified => exact sound_arrive hty h hs
  | acquire t call => exact sound_acquire h hok hs
  | handle t succeeds => exact sound_handle h hok hs
  | release t call => exact sound_release h hs
  | complete t call => exact sound_complete h hs
  | crash t => exact sound_crash h hok hs
  | expire => exact sound_expire h hs

end Step

/-- Every attempt has finished. -/
def AllFinished (s : WebhookState) : Prop := ∀ t, (s.phase t).finished = true

/-- **An acknowledged event has been processed**, in every run of an event with a
handler whose steps are all `Backed`: once all attempts have finished, a 200 given to
any of them means that some handler ran to successful completion. -/
theorem acknowledged_processed {eventType : String} {s : WebhookState}
    (hty : eventType ∈ handledEvents)
    (h : GuardedRun.Reach (step eventType) Backed initial s) (hfin : AllFinished s)
    {t : LockToken} (ht : s.phase t = .answered 200) : Processed s := by
  have hsound : Sound s := h.invariant sound_initial (fun _ _ _ => sound_step hty)
  rcases hsound.answered t ht with hp | ⟨u, hu, -⟩
  · exact hp
  · have hu' := hfin u
    rw [hu] at hu'
    cases hu'

/-- Two attempts of an event. -/
def attemptA : LockToken := ⟨"a", by decide⟩

@[inherit_doc attemptA]
def attemptB : LockToken := ⟨"b", by decide⟩

/-- All have finished when these two have and no other has arrived. -/
theorem allFinished_pair {s : WebhookState}
    (hother : ∀ t, t ≠ attemptA → t ≠ attemptB → s.phase t = .absent)
    (ha : (s.phase attemptA).finished = true) (hb : (s.phase attemptB).finished = true) :
    AllFinished s := by
  intro t
  by_cases hta : t = attemptA
  · exact hta ▸ ha
  · by_cases htb : t = attemptB
    · exact htb ▸ hb
    · rw [hother t hta htb]
      rfl

/-- The first attempt completes, and the duplicate then meets the marker. -/
theorem acknowledged_processed_in_turn :
    ∃ s, GuardedRun.Reach (step "invoice.paid") Backed initial s ∧ AllFinished s ∧
      s.phase attemptB = .answered 200 ∧ Processed s := by
  have hr : GuardedRun.Reach (step "invoice.paid") Backed initial _ :=
    .step (a := .acquire attemptB .returned)
      (.step (a := .arrive attemptB .event)
        (.step (a := .complete attemptA .returned)
          (.step (a := .handle attemptA true)
            (.step (a := .acquire attemptA .returned)
              (.step (a := .arrive attemptA .event) .initial trivial rfl)
              (fun h => by cases h) rfl)
            trivial rfl)
          trivial rfl)
        trivial rfl)
      (fun _ => Or.inl rfl) rfl
  suffices hfin : AllFinished _ from
    ⟨_, hr, hfin, rfl, acknowledged_processed (t := attemptB) (by decide) hr hfin rfl⟩
  refine allFinished_pair ?_ rfl rfl
  intro t ha hb
  simp only [enter, Function.update_of_ne ha, Function.update_of_ne hb]
  rfl

/-- **The duplicate that arrives during processing.**  The second attempt is answered
200 while the first still runs; the first then fails and releases the lock.  Both have
finished, one with a 200, and no handler has completed. -/
theorem acknowledged_unprocessed :
    ∃ s, GuardedRun.Reach (step "invoice.paid") GuardedRun.Always initial s ∧ AllFinished s ∧
      s.phase attemptB = .answered 200 ∧ ¬ Processed s := by
  refine ⟨_, @GuardedRun.reach_of_run _ _ (step "invoice.paid") initial _
    [.arrive attemptA .event, .arrive attemptB .event, .acquire attemptA .returned,
      .acquire attemptB .returned, .handle attemptA false, .release attemptA .returned] rfl,
    allFinished_pair ?_ rfl rfl, rfl, ?_⟩
  · intro t ha hb
    simp only [enter, Function.update_of_ne ha, Function.update_of_ne hb]
    rfl
  · rintro ⟨t, ht⟩
    cases ht

end StripeWebhook
end PandaProbe
