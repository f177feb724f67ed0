import Mathlib.Algebra.BigOperators.Group.List.Basic
import PandaProbe.BillingEntities
import PandaProbe.GuardedRun

/-! # Refreshing a token

The interceptors of the frontend's HTTP client.  Before a request is sent its headers are filled
in from what is selected at that moment.  A request that is answered with 401 for the first time
waits for a refresh of the token, the one under way or else a new one, and is sent once more if
the refresh gives a token; answered with 401 again, or left without a token, it is rejected and
`onUnauthorized` is called.  Callbacks run one at a time, in any order.

`refresh_single_flight`: refreshes never overlap, no request is sent more than twice, and each
calls `onUnauthorized` at most once.  A retry is made for the organization and project that are
selected by then.  And every request is settled in the end: where nothing more can happen all
are, and it takes eight steps a request at most.
-/
namespace PandaProbe

/-- The headers the interceptor fills in. -/
structure Headers where
  authorization : Option String
  organizationId : Option String
  projectId : Option String
  deriving DecidableEq, Repr

/-- What `getToken`, `getOrgId` and `getProjectId` give. -/
structure Selection where
  token : Option String
  orgId : Option String
  projectId : Option String
  deriving DecidableEq, Repr

/-- The request interceptor. -/
def Selection.intercept (c : Selection) (h : Headers) : Headers where
  authorization := ((truthy c.token).map fun t => "Bearer " ++ t).or h.authorization
  organizationId := (truthy c.orgId).or h.organizationId
  projectId := (truthy c.projectId).or h.projectId

/-- Where a request stands.  `retry` is its `_retry` flag. -/
inductive RequestPhase
  | preparing (retry : Bool) (headers : Headers)
  | inFlight (retry : Bool) (headers : Headers)
  | waiting (refresh : Nat) (headers : Headers)
  | resolved
  | rejected
  deriving DecidableEq, Repr

/-- How a request is answered. -/
inductive Reply
  | ok | unauthorized | failed
  deriving DecidableEq, Repr

/-- One end of a refresh. -/
inductive RefreshEvent
  | started | settled
  deriving DecidableEq, Repr

/-- A request that was sent: which, whether again, under which selection and with which headers. -/
structure Send where
  request : Nat
  retry : Bool
  selection : Selection
  headers : Headers
  deriving DecidableEq, Repr

/-- The requests, what is selected, whether `refreshPromise` is set, and what the refreshes so far
came to (`none` for one that threw); and what has happened. -/
structure HttpClient where
  requests : List RequestPhase
  selection : Selection
  refreshing : Bool
  outcomes : List (Option (Option String))
  events : List RefreshEvent
  sent : List Send
  unauthorized : List Nat

/-- What can happen next. -/
inductive HttpAct
  | call (headers : Headers)
  | select (selection : Selection)
  | prepare (i : Nat) (hasToken : Bool)
  | respond (i : Nat) (reply : Reply)
  | settle (outcome : Option (Option String))
  | resume (i : Nat)
  deriving DecidableEq, Repr

namespace HttpClient
variable (configured : Bool) (s : HttpClient)

/-- The request moves on. -/
def move (i : Nat) (p : RequestPhase) : HttpClient := { s with requests := s.requests.set i p }

/-- `onUnauthorized`, and the request is rejected. -/
def giveUp (i : Nat) : HttpClient :=
  { s.move i .rejected with unauthorized := s.unauthorized ++ [i] }

/-- `getToken` has resolved, or thrown. -/
def prepare (i : Nat) (hasToken : Bool) : Option HttpClient :=
  match s.requests[i]? with
  | some (.preparing retry h) =>
    if hasToken then
      let headers := s.selection.intercept h
      some { s.move i (.inFlight retry headers) with
        sent := s.sent ++ [⟨i, retry, s.selection, headers⟩] }
    else some (s.move i .rejected)
  | _ => none

/-- The response interceptor, up to the `await` of the refresh. -/
def respond (i : Nat) (reply : Reply) : Option HttpClient :=
  match s.requests[i]? with
  | some (.inFlight retry h) =>
    match reply with
    | .ok => some (s.move i .resolved)
    | .failed => some (s.move i .rejected)
    | .unauthorized =>
      if !retry && configured then
        let s' := s.move i (.waiting s.outcomes.length h)
        if s.refreshing then some s'
        else some { s' with refreshing := true, events := s.events ++ [.started] }
      else some (s.giveUp i)
  | _ => none

/-- The refresh settles, and `refreshPromise` is cleared. -/
def settle (outcome : Option (Option String)) : Option HttpClient :=
  if s.refreshing then some { s with
    refreshing := false
    outcomes := s.outcomes ++ [outcome]
    events := s.events ++ [.settled] }
  else none

/-- The response interceptor, from the `await` on. -/
def resume (i : Nat) : Option HttpClient :=
  match s.requests[i]? with
  | some (.waiting k h) =>
    match s.outcomes[k]? with
    | none => none
    | some outcome =>
      match truthy outcome.join with
      | some token =>
        some (s.move i (.preparing true { h with authorization := some ("Bearer " ++ token) }))
      | none => some (s.giveUp i)
  | _ => none

/-- One callback, or a call or selection of the user. -/
def step : HttpAct → Option HttpClient
  | .call h => some { s with requests := s.requests ++ [.preparing false h] }
  | .select c => some { s with selection := c }
  | .prepare i hasToken => s.prepare i hasToken
  | .respond i reply => s.respond configured i reply
  | .settle outcome => s.settle outcome
  | .resume i => s.resume i

/-- Nothing is called yet. -/
def initial : HttpClient := ⟨[], ⟨none, none, none⟩, false, [], [], [], []⟩

/-! ## The law -/

/-- What the client does by itself. -/
def internal : HttpAct → Bool
  | .call _ | .select _ => false
  | _ => true

/-- What the user asks for. -/
def isCall : HttpAct → Bool
  | .call _ => true
  | _ => false

/-- The times the request was sent. -/
def sends (i : Nat) : List Send := s.sent.filter fun x => x.request = i

/-- A settled request. -/
def Settled (p : RequestPhase) : Prop := p = .resolved ∨ p = .rejected

/-- A send and its retry, for the organization and project that are selected by then. -/
def Twice (l : List Send) : Prop :=
  ∃ x y, l = [x, y] ∧ x.retry = false ∧ y.retry = true ∧
    y.headers.organizationId = (truthy y.selection.orgId).or x.headers.organizationId ∧
    y.headers.projectId = (truthy y.selection.projectId).or x.headers.projectId

/-- What the phase says of the sends of a request: how many there are, and that what a retry
starts from are the headers of the first. -/
def Consistent : RequestPhase → List Send → Prop
  | .preparing false _, l => l = []
  | .inFlight false h, l | .waiting _ h, l => ∃ x, l = [x] ∧ x.retry = false ∧ x.headers = h
  | .preparing true h, l => ∃ x, l = [x] ∧ x.retry = false ∧
      x.headers.organizationId = h.organizationId ∧ x.headers.projectId = h.projectId
  | .inFlight true _, l => Twice l
  | .resolved, l | .rejected, l => l.length ≤ 1 ∨ Twice l

/-- `n` refreshes, one after another, and one more that is under way. -/
def refreshes (n : Nat) (refreshing : Bool) : List RefreshEvent :=
  (List.replicate n [.started, .settled]).flatten ++ if refreshing then [.started] else []

/-- **The invariant.** -/
structure Sound (s : HttpClient) : Prop where
  events : s.events = refreshes s.outcomes.length s.refreshing
  sends : ∀ (i : Nat) p, s.requests[i]? = some p → Consistent p (s.sends i)
  known : ∀ x ∈ s.sent, x.request < s.requests.length
  waiting : ∀ (i k : Nat) h, s.requests[i]? = some (.waiting k h) →
    k < s.outcomes.length ∨ k = s.outcomes.length ∧ s.refreshing = true
  unauthorized : ∀ i ∈ s.unauthorized, s.requests[i]? = some .rejected
  once : s.unauthorized.Nodup

variable {configured s} {s' : HttpClient} {i : Nat} {p q : RequestPhase}

theorem sound_initial : Sound initial where
  events := rfl
  sends i p h := by cases h
  known x hx := by cases hx
  waiting i k h hq := by cases hq
  unauthorized i hi := by cases hi
  once := List.nodup_nil

/-- The requests after one of them has moved. -/
theorem getElem?_move {j : Nat} (hp : s.requests[i]? = some p) (q : RequestPhase) :
    (s.move i q).requests[j]? = if i = j then some q else s.requests[j]? := by
  obtain ⟨hi, -⟩ := List.getElem?_eq_some_iff.mp hp
  rw [move, List.getElem?_set]
  split
  · rfl
  · rfl

/-- A request moves on, and nothing is sent or refreshed. -/
theorem sound_move (hs : Sound s) (hp : s.requests[i]? = some p) (hactive : p ≠ .rejected)
    (hsends : Consistent q (s.sends i))
    (hwaiting : ∀ k h, q = .waiting k h →
      k < s.outcomes.length ∨ k = s.outcomes.length ∧ s.refreshing = true) :
    Sound (s.move i q) where
  events := hs.events
  sends j r hr := by
    rw [getElem?_move hp] at hr
    split at hr
    next hij =>
      subst hij
      cases hr
      exact hsends
    · exact hs.sends j r hr
  known x hx := by
    rw [move, List.length_set]
    exact hs.known x hx
  waiting j k h hr := by
    rw [getElem?_move hp] at hr
    split at hr
    · exact hwaiting k h (Option.some.inj hr)
    · exact hs.waiting j k h hr
  unauthorized j hj := by
    have hrejected := hs.unauthorized j hj
    rw [getElem?_move hp, if_neg, hrejected]
    -- the request that moves has not been rejected
    rintro rfl
    rw [hp] at hrejected
    exact hactive (Option.some.inj hrejected)
  once := hs.once

theorem sound_giveUp (hs : Sound s) (hp : s.requests[i]? = some p) (hactive : p ≠ .rejected)
    (hsends : Consistent .rejected (s.sends i)) : Sound (s.giveUp i) := by
  have hmove := sound_move hs hp hactive hsends fun k h hq => by cases hq
  refine { hmove with unauthorized := fun j hj => ?_, once := ?_ }
  · rcases List.mem_append.mp hj with hj | hj
    · exact hmove.unauthorized j hj
    · obtain rfl := List.mem_singleton.mp hj
      exact (getElem?_move hp _).trans (if_pos rfl)
  · refine List.nodup_append.mpr ⟨hs.once, List.nodup_singleton i, fun j hj k hk => ?_⟩
    obtain rfl := List.mem_singleton.mp hk
    rintro rfl
    have hrejected := hs.unauthorized j hj
    rw [hp] at hrejected
    exact hactive (Option.some.inj hrejected)

/-- A request before its first answer has been sent once. -/
theorem consistent_rejected {retry : Bool} {h : Headers} {l : List Send}
    (hsends : Consistent (.inFlight retry h) l) : Consistent .rejected l := by
  cases retry with
  | false =>
    obtain ⟨x, rfl, -, -⟩ := hsends
    exact .inl (le_refl 1)
  | true => exact .inr hsends

/-- **Preparing sends a request**, with what is selected. -/
theorem sound_prepare (hs : Sound s) {hasToken : Bool} (h : s.prepare i hasToken = some s') :
    Sound s' := by
  unfold prepare at h
  split at h
  next retry headers hp =>
    have hsends := hs.sends i _ hp
    split at h
    · cases h
      have hmove : ∀ j r, (s.move i (.inFlight retry (s.selection.intercept headers))).requests[j]? =
          some r → if i = j then r = .inFlight retry (s.selection.intercept headers)
            else s.requests[j]? = some r := by
        intro j r hr
        rw [getElem?_move hp] at hr
        split at hr
        next hij => rw [if_pos hij]; exact (Option.some.inj hr).symm
        next hij => rwa [if_neg hij]
      exact {
        events := hs.events
        sends := fun j r hr => by
          have hj := hmove j r hr
          simp only [HttpClient.sends, List.filter_append] at hsends ⊢
          split at hj
          next hij =>
            subst hij
            subst hj
            simp only [decide_true, List.filter_cons_of_pos, List.filter_nil]
            cases retry with
            | false =>
              rw [Consistent] at hsends
              rw [hsends]
              exact ⟨_, rfl, rfl, rfl⟩
            | true =>
              obtain ⟨x, hx, hfirst, horg, hproject⟩ := hsends
              rw [hx]
              exact ⟨x, _, rfl, hfirst, rfl, by rw [horg]; rfl, by rw [hproject]; rfl⟩
          next hij =>
            rw [List.filter_cons_of_neg (by simpa using hij), List.filter_nil, List.append_nil]
            exact hs.sends j r hj
        known := fun x hx => by
          have hlength : (s.requests.set i
              (.inFlight retry (s.selection.intercept headers))).length = s.requests.length :=
            List.length_set
          rcases List.mem_append.mp hx with hx | hx
          · exact hlength ▸ hs.known x hx
          · obtain rfl := List.mem_singleton.mp hx
            exact hlength ▸ (List.getElem?_eq_some_iff.mp hp).1
        waiting := fun j k headers' hr => by
          have hj := hmove j _ hr
          split at hj
          · cases hj
          · exact hs.waiting j k headers' hj
        unauthorized := fun j hj => by
          have hrejected := hs.unauthorized j hj
          refine (getElem?_move hp _).trans ?_
          rw [if_neg, hrejected]
          rintro rfl
          rw [hp] at hrejected
          cases hrejected
        once := hs.once }
    · cases h
      refine sound_move hs hp (fun h => by cases h) ?_ fun k h hq => by cases hq
      cases retry with
      | false =>
        rw [Consistent] at hsends
        rw [hsends]
        exact .inl (Nat.zero_le 1)
      | true =>
        obtain ⟨x, hx, -⟩ := hsends
        rw [hx]
        exact .inl (le_refl 1)
  · cases h

/-- **A response settles a request, or makes it wait.** -/
theorem sound_respond (hs : Sound s) {reply : Reply} (h : s.respond configured i reply = some s') :
    Sound s' := by
  unfold respond at h
  split at h
  next retry headers hp =>
    have hsends := hs.sends i _ hp
    have hrejected := consistent_rejected hsends
    cases reply with
    | ok =>
      cases h
      exact sound_move hs hp (fun h => by cases h) hrejected fun k h hq => by cases hq
    | failed =>
      cases h
      exact sound_move hs hp (fun h => by cases h) hrejected fun k h hq => by cases hq
    | unauthorized =>
      dsimp only at h
      split at h
      next hfirst =>
        obtain ⟨hretry, -⟩ := Bool.and_eq_true_iff.mp hfirst
        rw [Bool.not_eq_true'] at hretry
        subst hretry
        split at h
        next hrefreshing =>
          cases h
          refine sound_move hs hp (fun h => by cases h) hsends fun k h hq => ?_
          cases hq
          exact .inr ⟨rfl, hrefreshing⟩
        next hidle =>
          cases h
          -- as if the refresh had been under way
          have hevents := hs.events
          rw [Bool.not_eq_true] at hidle
          rw [hidle] at hevents
          have hstarted : Sound { s with refreshing := true, events := s.events ++ [.started] } :=
            { hs with
              events := by
                rw [hevents]
                simp [refreshes]
              waiting := fun j k h hr => by
                rcases hs.waiting j k h hr with hlt | ⟨-, hno⟩
                · exact .inl hlt
                · rw [hidle] at hno
                  cases hno }
          refine sound_move hstarted hp (fun h => by cases h) hsends fun k h hq => ?_
          cases hq
          exact .inr ⟨rfl, rfl⟩
      · cases h
        exact sound_giveUp hs hp (fun h => by cases h) hrejected
  · cases h

theorem sound_settle (hs : Sound s) {outcome : Option (Option String)}
    (h : s.settle outcome = some s') : Sound s' := by
  unfold settle at h
  split at h
  next hrefreshing =>
    cases h
    have hevents := hs.events
    rw [hrefreshing] at hevents
    exact { hs with
      events := by
        rw [hevents, List.length_append, List.length_singleton]
        simp [refreshes, List.replicate_succ']
      waiting := fun j k h hr => by
        rw [List.length_append, List.length_singleton]
        rcases hs.waiting j k h hr with hlt | ⟨heq, -⟩
        · exact .inl (Nat.lt_succ_of_lt hlt)
        · exact .inl (heq ▸ Nat.lt_succ_self _) }
  · cases h

theorem sound_resume (hs : Sound s) (h : s.resume i = some s') : Sound s' := by
  unfold resume at h
  split at h
  next k headers hp =>
    obtain ⟨x, hx, hfirst, hheaders⟩ := hs.sends i _ hp
    split at h
    · cases h
    · split at h
      · cases h
        refine sound_move hs hp (fun h => by cases h) ?_ fun k h hq => by cases hq
        exact ⟨x, hx, hfirst, by rw [hheaders], by rw [hheaders]⟩
      · cases h
        refine sound_giveUp hs hp (fun h => by cases h) ?_
        rw [hx]
        exact .inl (le_refl 1)
  · cases h

theorem sound_call (hs : Sound s) (h : Headers) :
    Sound { s with requests := s.requests ++ [.preparing false h] } := by
  have hold : ∀ j r, (s.requests ++ [RequestPhase.preparing false h])[j]? = some r →
      s.requests[j]? = some r ∨ j = s.requests.length ∧ r = .preparing false h := by
    intro j r hr
    rcases Nat.lt_or_ge j s.requests.length with hj | hj
    · rw [List.getElem?_append_left hj] at hr
      exact .inl hr
    · rw [List.getElem?_append_right hj, List.getElem?_singleton] at hr
      split at hr
      next hzero => exact .inr ⟨by omega, (Option.some.inj hr).symm⟩
      · cases hr
  exact { hs with
    sends := fun j r hr => by
      rcases hold j r hr with hr | ⟨rfl, rfl⟩
      · exact hs.sends j r hr
      · -- nothing was sent under a number that was not given out
        refine List.filter_eq_nil_iff.mpr fun x hx => ?_
        have hknown := hs.known x hx
        simp only [decide_eq_true_eq]
        omega
    known := fun x hx => by
      have hknown := hs.known x hx
      rw [List.length_append, List.length_singleton]
      omega
    waiting := fun j k h' hr => by
      rcases hold j _ hr with hr | ⟨-, hr⟩
      · exact hs.waiting j k h' hr
      · cases hr
    unauthorized := fun j hj => by
      have hrejected := hs.unauthorized j hj
      obtain ⟨hlt, -⟩ := List.getElem?_eq_some_iff.mp hrejected
      exact (List.getElem?_append_left hlt).trans hrejected }

theorem sound_step (hs : Sound s) {a : HttpAct} (h : s.step configured a = some s') : Sound s' := by
  cases a with
  | call headers =>
    cases h
    exact sound_call hs headers
  | select c =>
    cases h
    exact { hs with }
  | prepare i hasToken => exact sound_prepare hs h
  | respond i reply => exact sound_respond hs h
  | settle outcome => exact sound_settle hs h
  | resume i => exact sound_resume hs h

/-! ## Every request is settled -/

/-- The steps a request may still take, with those of a refresh it may start. -/
def weight : RequestPhase → Nat
  | .preparing false _ => 8
  | .inFlight false _ => 7
  | .waiting _ _ => 4
  | .preparing true _ => 3
  | .inFlight true _ => 2
  | .resolved | .rejected => 0

/-- A request that has not had its first answer. -/
def unanswered : RequestPhase → Nat
  | .preparing false _ | .inFlight false _ => 1
  | _ => 0

/-- What is left to do. -/
def work (s : HttpClient) : Nat := (s.requests.map weight).sum + 2 * s.refreshing.toNat

/-- The refreshes that were started, and those that may be. -/
def refreshBound (s : HttpClient) : Nat :=
  s.outcomes.length + s.refreshing.toNat + (s.requests.map unanswered).sum

theorem sum_map_set {α : Type} (f : α → Nat) {l : List α} {i : Nat} {p : α} (h : l[i]? = some p)
    (q : α) : ((l.set i q).map f).sum + f p = (l.map f).sum + f q := by
  induction l generalizing i with
  | nil => cases h
  | cons x l ih =>
    cases i with
    | zero =>
      cases h
      simp only [List.set_cons_zero, List.map_cons, List.sum_cons]
      omega
    | succ i =>
      have hrest := ih (i := i) (by simpa using h)
      simp only [List.set_cons_succ, List.map_cons, List.sum_cons]
      omega

/-- A request that moves on does work, and asks for no refresh it has not asked for. -/
theorem work_move (hp : s.requests[i]? = some p) (hless : weight q < weight p)
    (hold : unanswered q ≤ unanswered p) :
    (s.move i q).work < s.work ∧ (s.move i q).refreshBound ≤ s.refreshBound := by
  have hwork := sum_map_set weight hp q
  have hbound := sum_map_set unanswered hp q
  simp only [work, refreshBound, move]
  omega

/-- **Whatever the client does by itself is work done.** -/
theorem work_step {a : HttpAct} (ha : internal a = true) (h : s.step configured a = some s') :
    s'.work < s.work ∧ s'.refreshBound ≤ s.refreshBound := by
  cases a with
  | call headers => cases ha
  | select c => cases ha
  | prepare i hasToken =>
    change s.prepare i hasToken = some s' at h
    unfold prepare at h
    split at h
    next retry headers hp =>
      split at h
      · cases h
        have hmove := work_move hp (q := .inFlight retry (s.selection.intercept headers))
          (by cases retry <;> simp [weight]) (by cases retry <;> simp [unanswered])
        exact hmove
      · cases h
        exact work_move hp (by cases retry <;> simp [weight]) (Nat.zero_le _)
    · cases h
  | respond i reply =>
    change s.respond configured i reply = some s' at h
    unfold respond at h
    split at h
    next retry headers hp =>
      have hends : ∀ q, weight q = 0 → unanswered q = 0 →
          (s.move i q).work < s.work ∧ (s.move i q).refreshBound ≤ s.refreshBound := by
        intro q hq hq'
        exact work_move hp (by rw [hq]; cases retry <;> simp [weight]) (hq' ▸ Nat.zero_le _)
      cases reply with
      | ok =>
        cases h
        exact hends _ rfl rfl
      | failed =>
        cases h
        exact hends _ rfl rfl
      | unauthorized =>
        dsimp only at h
        split at h
        next hfirst =>
          obtain ⟨hretry, -⟩ := Bool.and_eq_true_iff.mp hfirst
          rw [Bool.not_eq_true'] at hretry
          subst hretry
          split at h
          · cases h
            exact work_move hp (by simp [weight]) (by simp [unanswered])
          next hidle =>
            cases h
            have hwork := sum_map_set weight hp (.waiting s.outcomes.length headers)
            have hbound := sum_map_set unanswered hp (.waiting s.outcomes.length headers)
            simp only [weight, unanswered] at hwork hbound
            rw [Bool.not_eq_true] at hidle
            simp only [work, refreshBound, move, hidle, Bool.toNat_true, Bool.toNat_false]
            omega
        · cases h
          exact hends _ rfl rfl
    · cases h
  | settle outcome =>
    change s.settle outcome = some s' at h
    unfold settle at h
    split at h
    next hrefreshing =>
      cases h
      simp only [work, refreshBound, hrefreshing, List.length_append, List.length_singleton,
        Bool.toNat_true, Bool.toNat_false]
      omega
    · cases h
  | resume i =>
    change s.resume i = some s' at h
    unfold resume at h
    split at h
    next k headers hp =>
      split at h
      · cases h
      · split at h
        · cases h
          exact work_move hp (by simp [weight]) (by simp [unanswered])
        · cases h
          exact work_move hp (q := .rejected) (by simp [weight]) (by simp [unanswered])
    · cases h

/-- What a run has done, and what it may still do. -/
theorem work_run {acts : List HttpAct} (h : GuardedRun.run (step configured) s acts = some s') :
    acts.countP internal + s'.work ≤ s.work + 8 * acts.countP isCall ∧
      s'.refreshBound ≤ s.refreshBound + acts.countP isCall := by
  induction acts generalizing s with
  | nil =>
    cases h
    simp
  | cons a acts ih =>
    obtain ⟨t, ht, hrest⟩ := Option.bind_eq_some_iff.mp h
    obtain ⟨hwork, hbound⟩ := ih hrest
    cases hinternal : internal a with
    | true =>
      obtain ⟨hdone, hless⟩ := work_step hinternal ht
      have hcall : isCall a = false := by cases a <;> first | rfl | cases hinternal
      rw [List.countP_cons_of_pos hinternal, List.countP_cons_of_neg (by rw [hcall]; decide)]
      omega
    | false =>
      rw [List.countP_cons_of_neg (by rw [hinternal]; decide)]
      cases a with
      | call headers =>
        cases ht
        rw [List.countP_cons_of_pos rfl]
        simp only [work, refreshBound, List.map_append, List.sum_append, List.map_cons,
          List.map_nil, List.sum_singleton, weight, unanswered] at hwork hbound ⊢
        omega
      | select c =>
        cases ht
        rw [List.countP_cons_of_neg Bool.false_ne_true]
        exact ⟨hwork, hbound⟩
      | prepare i hasToken => cases hinternal
      | respond i reply => cases hinternal
      | settle outcome => cases hinternal
      | resume i => cases hinternal

/-- **Where nothing can happen by itself, every request is settled.** -/
theorem settled_of_stuck (hs : Sound s)
    (hstuck : ∀ a, internal a = true → s.step configured a = none) : ∀ p ∈ s.requests, Settled p := by
  intro p hp
  obtain ⟨i, hi, rfl⟩ := List.mem_iff_getElem.mp hp
  have hget : s.requests[i]? = some s.requests[i] := List.getElem?_eq_getElem hi
  cases hphase : s.requests[i] with
  | preparing retry headers =>
    rw [hphase] at hget
    have hno := hstuck (.prepare i true) rfl
    simp [step, prepare, hget] at hno
  | inFlight retry headers =>
    rw [hphase] at hget
    have hno := hstuck (.respond i .ok) rfl
    simp [step, respond, hget] at hno
  | waiting k headers =>
    rw [hphase] at hget
    rcases hs.waiting i k headers hget with hlt | ⟨-, hrefreshing⟩
    · have hno := hstuck (.resume i) rfl
      have houtcome : s.outcomes[k]? = some s.outcomes[k] := List.getElem?_eq_getElem hlt
      simp only [step, resume, hget, houtcome] at hno
      split at hno <;> cases hno
    · have hno := hstuck (.settle none) rfl
      simp [step, settle, hrefreshing] at hno
  | resolved => exact .inl rfl
  | rejected => exact .inr rfl

/-- **Refreshing in single flight.**  Refreshes follow one another, and there are at most as many
as requests.  A request is sent at most twice, the second time for the organization and project
selected by then.  It calls `onUnauthorized` at most once, and is then rejected.  It takes at
most eight steps a request, and where nothing more happens every request is settled. -/
theorem refresh_single_flight {acts : List HttpAct}
    (h : GuardedRun.run (step configured) initial acts = some s) :
    s.events = refreshes s.outcomes.length s.refreshing ∧
      s.outcomes.length + s.refreshing.toNat ≤ acts.countP isCall ∧
      (∀ i, (s.sends i).length ≤ 1 ∨ Twice (s.sends i)) ∧
      (s.unauthorized.Nodup ∧ ∀ i ∈ s.unauthorized, s.requests[i]? = some .rejected) ∧
      acts.countP internal ≤ 8 * acts.countP isCall ∧
      ((∀ a, internal a = true → s.step configured a = none) → ∀ p ∈ s.requests, Settled p) := by
  have hs : Sound s := (GuardedRun.reach_of_run h).invariant sound_initial
    fun _ _ _ hs _ hstep => sound_step hs hstep
  obtain ⟨hwork, hbound⟩ := work_run h
  have hstart : initial.work = 0 ∧ initial.refreshBound = 0 := ⟨rfl, rfl⟩
  refine ⟨hs.events, ?_, fun i => ?_, ⟨hs.once, hs.unauthorized⟩, by omega, settled_of_stuck hs⟩
  · simp only [refreshBound] at hbound hstart
    omega
  · rcases Nat.lt_or_ge i s.requests.length with hi | hi
    · have hsends := hs.sends i _ (List.getElem?_eq_getElem hi)
      cases hphase : s.requests[i] with
      | preparing retry headers =>
        rw [hphase] at hsends
        cases retry with
        | false =>
          rw [Consistent] at hsends
          rw [hsends]
          exact .inl (Nat.zero_le 1)
        | true =>
          obtain ⟨x, hx, -⟩ := hsends
          rw [hx]
          exact .inl (le_refl 1)
      | inFlight retry headers =>
        rw [hphase] at hsends
        exact consistent_rejected hsends
      | waiting k headers =>
        rw [hphase] at hsends
        obtain ⟨x, hx, -⟩ := hsends
        rw [hx]
        exact .inl (le_refl 1)
      | resolved =>
        rw [hphase] at hsends
        exact hsends
      | rejected =>
        rw [hphase] at hsends
        exact hsends
    · -- a number that was not given out
      have hnone : s.sends i = [] := by
        refine List.filter_eq_nil_iff.mpr fun x hx => ?_
        have hknown := hs.known x hx
        simp only [decide_eq_true_eq]
        omega
      rw [hnone]
      exact .inl (Nat.zero_le 1)

/-- The headers of a call. -/
def noHeaders : Headers := ⟨none, none, none⟩

/-- Two requests are refused and share a refresh, during which another project is opened. -/
def sharedRefresh : List HttpAct :=
  [.select ⟨some "old", some "org", some "a"⟩, .call noHeaders, .call noHeaders, .prepare 0 true,
    .prepare 1 true, .respond 1 .unauthorized, .respond 0 .unauthorized,
    .select ⟨some "new", some "org", some "b"⟩, .settle (some (some "new")), .resume 0, .resume 1,
    .prepare 0 true, .prepare 1 true, .respond 0 .ok, .respond 1 .unauthorized]

/-- One refresh for both; the retries go to the other project, and the second is refused again. -/
theorem refresh_single_flight_shared :
    ∃ s, GuardedRun.run (step true) initial sharedRefresh = some s ∧
      s.events = [.started, .settled] ∧ s.unauthorized = [1] ∧
      (s.sent.map fun x => (x.request, x.headers.projectId)) =
        [(0, some "a"), (1, some "a"), (0, some "b"), (1, some "b")] ∧
      ∀ p ∈ s.requests, Settled p := by
  obtain ⟨s, hs⟩ : ∃ s, GuardedRun.run (step true) initial sharedRefresh = some s := ⟨_, rfl⟩
  obtain ⟨hevents, -, -, -, -, hsettled⟩ := refresh_single_flight hs
  cases hs
  refine ⟨_, rfl, hevents, rfl, by decide, hsettled fun a ha => ?_⟩
  cases a with
  | call headers => cases ha
  | select c => cases ha
  | prepare i hasToken => rcases i with _ | _ | i <;> rfl
  | respond i reply => rcases i with _ | _ | i <;> rfl
  | settle outcome => rfl
  | resume i => rcases i with _ | _ | i <;> rfl

end HttpClient
end PandaProbe
